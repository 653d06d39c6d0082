/-
What the order in which the cache is met has to do with the outcome of a request.

A decision about an unknown deployment goes over the cached records in some order and stops at the first that speaks
against the request. Two runs of a request from one state, whose caches are met in different orders, go the same way:
the same records, cached and in the same states, the same evictions, the same outcome. One thing depends on the order.
If an active record of the sender has the request's number, and another one is ahead of the request for the whole
network timeout (`Contested`), then the request is turned away in every order, but the reason is that of the record
which is met first.

`Alike` says that two pools differ in orders only: of the cache, of the evictions, and of what was done. It is kept by
every move of the request, case by case over its points; the decision is the only one that looks at the order.

Results:
- `decide_error_iff`: which records turn a request away, and with which reason;
- `decide_reordered`: the decision in two orders;
- `contested_iff`: a request is contested exactly if there are orders that turn it away for different reasons;
- `advance_reordered`: a step of a request on two registries that differ in the order of the cache;
- `answers_by_order`: a state where one and the same request gets different answers;
- **`order_seldom_matters`**: all else is the same in every order.
-/
import Redeploy.Proofs.Sharing

namespace Redeploy

open Registry

namespace Registry

variable {g g' : Registry} {q : Request} {now : Nat} {r : Record} {why why' : Failure} {v : Verdict}

/-! ## What turns a request away -/

/-- the reason that the record gives against a request for a deployment that is not cached -/
inductive Objects (g : Registry) (q : Request) (now : Nat) (r : Record) : Failure → Prop
  | equal (hr : r.Rivals q) (hs : r.seq = q.seq) : Objects g q now r (.sequenceMismatch q.seq r.id)
  | overdue (ha : r.IsAhead q) (ht : g.timeout ≤ r.age now) : Objects g q now r (.obsolete q.moduleAlias)

theorem weigh_eq_error_iff {e : RecordId × Record} :
    g.weigh q now v e = .error why ↔ g.Objects q now e.2 why := by
  obtain ⟨i, r⟩ := e
  constructor
  · intro h
    have hr : g.Refuses q now r := by
      by_contra hn
      rw [weigh_eq_ok_iff.2 ⟨hn, rfl⟩] at h
      cases h
    rcases hr with ⟨hr, hs⟩ | ⟨ha, ht⟩
    · rw [weigh_of_eq hr hs] at h
      cases h
      exact .equal hr hs
    · rw [weigh_of_gt ha.1 ha.2.1, if_pos ha.2.2, if_pos ht] at h
      cases h
      exact .overdue ha ht
  · rintro (⟨hr, hs⟩ | ⟨ha, ht⟩)
    · exact weigh_of_eq hr hs v i
    · rw [weigh_of_gt ha.1 ha.2.1, if_pos ha.2.2, if_pos ht]

/-- a scan stops at a record that objects -/
theorem scan_objects {es : List (RecordId × Record)} (h : es.foldlM (g.weigh q now) v = .error why) :
    ∃ e ∈ es, g.Objects q now e.2 why := by
  induction es generalizing v with
  | nil => simp [pure, Except.pure] at h
  | cons e es ih =>
    rw [List.foldlM_cons] at h
    cases hw : g.weigh q now v e with
    | ok w =>
      rw [hw] at h
      obtain ⟨e', he', ho⟩ := ih h
      exact ⟨e', List.mem_cons_of_mem _ he', ho⟩
    | error why' =>
      rw [hw] at h
      exact ⟨e, List.mem_cons_self, weigh_eq_error_iff.1 (Except.error.inj h ▸ hw)⟩

/-- a deployment that is cached with another number turns the request away; if it is not cached, a record that objects
does -/
theorem decide_objects (hg : g.Coherent) (h : g.decide q now = .error why) :
    (∃ i, g.Caches i ∧ (g.record i).id = q.id ∧ (g.record i).seq ≠ q.seq ∧ why = .sequenceMismatch q.seq q.id) ∨
      (∀ i, g.Caches i → (g.record i).id ≠ q.id) ∧ ∃ i, g.Caches i ∧ g.Objects q now (g.record i) why := by
  unfold decide at h
  cases hl : g.lookup? q.id with
  | some i =>
    obtain ⟨hi, hid⟩ := hg.lookup?_eq_some_iff.1 hl
    simp only [hl] at h
    split_ifs at h with hs
    cases h
    exact .inl ⟨i, hi, hid, hs, by rw [hid]⟩
  | none =>
    simp only [hl] at h
    cases hscan : g.entries.foldlM (g.weigh q now) {} with
    | ok w => simp [hscan, Except.map] at h
    | error why' =>
      simp only [hscan, Except.map, Except.error.injEq] at h
      obtain ⟨⟨i, r⟩, he, ho⟩ := scan_objects hscan
      obtain ⟨hi, rfl⟩ := hg.mem_entries.1 he
      exact .inr ⟨hg.lookup?_eq_none_iff.1 hl, i, hi, h ▸ ho⟩

/-- the record that is met first turns the request away if it objects -/
theorem decide_first {d : DeploymentId} {i : RecordId} {cache : List (DeploymentId × RecordId)}
    (hc : g.cache = (d, i) :: cache) (hl : g.lookup? q.id = none) (hi : i < g.records.length)
    (ho : g.Objects q now (g.record i) why) : g.decide q now = .error why := by
  have hentries : g.entries = (i, g.record i) :: cache.filterMap fun e => (g.record? e.2).map (e.2, ·) := by
    simp [entries, hc, record?_eq_some hi]
  simp only [decide, hl, hentries, List.foldlM_cons,
    weigh_eq_error_iff.2 (show g.Objects q now (i, g.record i).2 why from ho)]
  rfl

/-! ## Two orders -/

theorem Reordered.coherent (hg : g.Coherent) (h : g.Reordered g') : g'.Coherent := by
  obtain ⟨cache, hc, rfl⟩ := h
  have he : Evolves g { g with cache } 0 [] [] := evolves_flags hg hc rfl
  exact he.coherent

theorem Reordered.symm (h : g.Reordered g') : g'.Reordered g := by
  obtain ⟨cache, hc, rfl⟩ := h
  exact ⟨g.cache, hc.symm, rfl⟩

theorem Reordered.timeout (h : g.Reordered g') : g'.timeout = g.timeout := by
  obtain ⟨cache, -, rfl⟩ := h
  rfl

theorem Reordered.objects (h : g.Reordered g') : g'.Objects q now r why ↔ g.Objects q now r why := by
  constructor
  · rintro (⟨hr, hs⟩ | ⟨ha, ht⟩)
    · exact .equal hr hs
    · exact .overdue ha (h.timeout ▸ ht)
  · rintro (⟨hr, hs⟩ | ⟨ha, ht⟩)
    · exact .equal hr hs
    · exact .overdue ha (h.timeout.symm ▸ ht)

/-- the deployment is not cached, and two active records of the sender object for different reasons -/
structure Contested (g : Registry) (q : Request) (now : Nat) : Prop where
  unknown : ∀ i, g.Caches i → (g.record i).id ≠ q.id
  equal : ∃ i, g.Caches i ∧ (g.record i).Rivals q ∧ (g.record i).seq = q.seq
  overdue : ∃ i, g.Caches i ∧ (g.record i).IsAhead q ∧ g.timeout ≤ (g.record i).age now

theorem Reordered.contested (h : g.Reordered g') (hc : g'.Contested q now) : g.Contested q now := by
  obtain ⟨hunknown, ⟨i, hi, hr, hs⟩, ⟨j, hj, ha, ht⟩⟩ := hc
  simp only [h.caches, h.record, h.timeout] at hunknown hi hr hs hj ha ht
  exact ⟨hunknown, ⟨i, hi, hr, hs⟩, ⟨j, hj, ha, ht⟩⟩

/-- some cached record gives that reason against the request -/
def Gives (g : Registry) (q : Request) (now : Nat) (why : Failure) : Prop :=
  ∃ i, g.Caches i ∧ g.Objects q now (g.record i) why

theorem Reordered.gives (h : g.Reordered g') : g'.Gives q now why ↔ g.Gives q now why := by
  simp only [Gives, h.caches, h.objects, h.record]

/-- the reasons against a request are the same in every order unless it is contested -/
theorem refusal_reordered (hg : g.Coherent) (hu : g.Unambiguous) (h : g.Reordered g')
    (hd : g.decide q now = .error why) (hd' : g'.decide q now = .error why') :
    why' = why ∨ g.Contested q now ∧ g.Gives q now why ∧ g.Gives q now why' := by
  have hg' := h.coherent hg
  rcases decide_objects hg hd with ⟨i, hi, hid, -, rfl⟩ | ⟨hunknown, i, hi, ho⟩
  · rcases decide_objects hg' hd' with ⟨j, -, -, -, rfl⟩ | ⟨hunknown', -⟩
    · exact .inl rfl
    · exact absurd (h.record i ▸ hid) (hunknown' i ((h.caches i).2 hi))
  · rcases decide_objects hg' hd' with ⟨j, hj, hjd, -⟩ | ⟨-, j, hj, ho'⟩
    · exact absurd (h.record j ▸ hjd) (hunknown j ((h.caches j).1 hj))
    · rw [h.record, h.objects] at ho'
      rw [h.caches] at hj
      have hgives : g.Gives q now why ∧ g.Gives q now why' := ⟨⟨i, hi, ho⟩, ⟨j, hj, ho'⟩⟩
      cases ho with
      | equal hr hs =>
        cases ho' with
        | equal hr' hs' =>
          -- numbers of active records are unambiguous, so it is the same record
          obtain rfl := hu i j hi hj hr.2 hr'.2 (hr.1.trans hr'.1.symm) (hs.trans hs'.symm)
          exact .inl rfl
        | overdue ha ht => exact .inr ⟨⟨hunknown, ⟨i, hi, hr, hs⟩, ⟨j, hj, ha, ht⟩⟩, hgives⟩
      | overdue ha ht =>
        cases ho' with
        | equal hr' hs' => exact .inr ⟨⟨hunknown, ⟨j, hj, hr', hs'⟩, ⟨i, hi, ha, ht⟩⟩, hgives⟩
        | overdue ha' ht' => exact .inl rfl

theorem Reordered.entries (hg : g.Coherent) (h : g.Reordered g') : g'.entries.Perm g.entries := by
  obtain ⟨cache, hc, rfl⟩ := h
  rw [hg.entries_eq, Coherent.entries_eq (Reordered.coherent hg ⟨cache, hc, rfl⟩)]
  exact hc.map _

/-- the grace of a late request is the greatest window of the records ahead of it, whoever comes first -/
theorem grace_le_of_subset {es es' : List (RecordId × Record)} (h : ∀ e ∈ es', e ∈ es) :
    (es'.foldl (g.weighed q now) {}).grace ≤ (es.foldl (g.weighed q now) {}).grace := by
  rcases @grace_foldl_attained g q now es' {} with h₀ | ⟨e, he, ha, hgrace⟩
  · rw [h₀]
    exact Nat.zero_le _
  · rw [hgrace]
    exact (@le_grace_foldl g q now es {}).2 e (h e he) ha

theorem weighed_reordered (h : g.Reordered g') : g'.weighed q now = g.weighed q now := by
  obtain ⟨cache, -, rfl⟩ := h
  rfl

/-- a verdict names the same records in every order, and leaves the same grace -/
theorem verdict_reordered (hg : g.Coherent) (h : g.Reordered g') :
    (g'.verdict q now).superseded.Perm (g.verdict q now).superseded ∧
      (g'.verdict q now).grace = (g.verdict q now).grace := by
  have hp := h.entries hg
  simp only [verdict, weighed_reordered h]
  refine ⟨?_, le_antisymm ?_ ?_⟩
  · simp only [superseded_foldl, List.nil_append]
    exact (hp.filter _).map _
  · exact grace_le_of_subset fun e he => hp.mem_iff.1 he
  · exact grace_le_of_subset fun e he => hp.mem_iff.2 he

/-- two decisions about a request that come to the same -/
inductive Agree : Except Failure Admission → Except Failure Admission → Prop
  | cached (i : RecordId) : Agree (.ok (.cached i)) (.ok (.cached i))
  | fresh {v v' : Verdict} (hs : v'.superseded.Perm v.superseded) (hgrace : v'.grace = v.grace) :
    Agree (.ok (.fresh v)) (.ok (.fresh v'))
  | refused (why : Failure) : Agree (.error why) (.error why)

/-- **the decision in two orders**: the same, or the request is contested -/
theorem decide_reordered (hg : g.Coherent) (hu : g.Unambiguous) (h : g.Reordered g') :
    Agree (g.decide q now) (g'.decide q now) ∨
      g.Contested q now ∧ ∃ why why', g.decide q now = .error why ∧ g'.decide q now = .error why' ∧
        g.Gives q now why ∧ g.Gives q now why' := by
  have hg' := h.coherent hg
  cases hd : g.decide q now with
  | ok a =>
    cases a with
    | cached i =>
      rw [(decide_eq_cached_iff hg').2 (h.known.2 ((decide_eq_cached_iff hg).1 hd))]
      exact .inl (.cached i)
    | fresh v =>
      obtain ⟨hadmits, rfl⟩ := (decide_eq_fresh_iff hg).1 hd
      rw [(decide_eq_fresh_iff hg').2 ⟨h.symm.admits le_rfl hadmits, rfl⟩]
      obtain ⟨hs, hgrace⟩ := @verdict_reordered g g' q now hg h
      exact .inl (.fresh hs hgrace)
  | error why =>
    cases hd' : g'.decide q now with
    | ok a =>
      obtain ⟨b, hb⟩ := (decide_isOk_iff hg).2 <| ((decide_isOk_iff hg').1 ⟨a, hd'⟩).imp
        (fun ⟨i, hi⟩ => ⟨i, h.known.1 hi⟩) (h.admits le_rfl)
      rw [hd] at hb
      cases hb
    | error why' =>
      rcases refusal_reordered hg hu h hd hd' with rfl | ⟨hc, hp⟩
      · exact .inl (.refused _)
      · exact .inr ⟨hc, why, why', rfl, rfl, hp⟩

/-- some order meets the record first -/
theorem exists_first (hg : g.Coherent) {i : RecordId} (hi : g.Caches i)
    (hunknown : ∀ i, g.Caches i → (g.record i).id ≠ q.id) (ho : g.Objects q now (g.record i) why) :
    ∃ g', g.Reordered g' ∧ g'.decide q now = .error why := by
  have hmem : ((g.record i).id, i) ∈ g.cache := hg.mem_iff.2 ⟨hi, rfl⟩
  have h : g.Reordered { g with cache := ((g.record i).id, i) :: g.cache.erase ((g.record i).id, i) } :=
    ⟨_, (List.perm_cons_erase hmem).symm, rfl⟩
  refine ⟨_, h, decide_first rfl ?_ (hg.lt hi) (h.objects.2 ho)⟩
  refine (h.coherent hg).lookup?_eq_none_iff.2 ?_
  intro j hj
  exact hunknown j ((h.caches j).1 hj)

/-- **a request is contested exactly if there are orders that turn it away for different reasons** -/
theorem contested_iff (hg : g.Coherent) (hu : g.Unambiguous) :
    g.Contested q now ↔ ∃ g₁ g₂ why₁ why₂, g.Reordered g₁ ∧ g.Reordered g₂ ∧
      g₁.decide q now = .error why₁ ∧ g₂.decide q now = .error why₂ ∧ why₁ ≠ why₂ := by
  constructor
  · rintro ⟨hunknown, ⟨i, hi, hr, hs⟩, ⟨j, hj, ha, ht⟩⟩
    have ho : g.Objects q now (g.record i) _ := .equal hr hs
    obtain ⟨g₁, h₁, hd₁⟩ := exists_first hg hi hunknown ho
    obtain ⟨g₂, h₂, hd₂⟩ := exists_first hg hj hunknown (.overdue ha ht)
    exact ⟨g₁, g₂, _, _, h₁, h₂, hd₁, hd₂, by simp⟩
  · rintro ⟨g₁, g₂, why₁, why₂, h₁, h₂, hd₁, hd₂, hne⟩
    cases hd : g.decide q now with
    | ok a =>
      rcases @decide_reordered g g₁ q now hg hu h₁ with ha | ⟨hc, -⟩
      · rw [hd, hd₁] at ha
        cases ha
      · exact hc
    | error why =>
      rcases refusal_reordered hg hu h₁ hd hd₁ with rfl | ⟨hc, -⟩
      · rcases refusal_reordered hg hu h₂ hd hd₂ with rfl | ⟨hc, -⟩
        · exact absurd rfl hne
        · exact hc
      · exact hc

/-- registries with as many records, each the same, have the same list of them -/
theorem records_eq (hlen : g'.records.length = g.records.length)
    (h : ∀ i < g.records.length, g'.record i = g.record i) : g'.records = g.records := by
  refine List.ext_getElem? fun i => ?_
  by_cases hi : i < g.records.length
  · show g'.record? i = g.record? i
    rw [record?_eq_some hi, record?_eq_some (hlen.symm ▸ hi), h i hi]
  · rw [List.getElem?_eq_none (Nat.le_of_not_lt hi), List.getElem?_eq_none (hlen.symm ▸ Nat.le_of_not_lt hi)]

/-- the entry of a new record after the verdicts of two orders -/
theorem install_reordered {clock : Timestamp} (hg : g.Coherent) (h : g.Reordered g') :
    (g.install q (g.verdict q now) now clock).1.Reordered (g'.install q (g'.verdict q now) now clock).1 ∧
      (g'.install q (g'.verdict q now) now clock).2.2.Perm (g.install q (g.verdict q now) now clock).2.2 := by
  obtain ⟨hs, hgrace⟩ := @verdict_reordered g g' q now hg h
  have hg' := h.coherent hg
  have hn := @nodup_verdict g q now hg
  have ha := @verdict_active g q now hg
  have hn' := @nodup_verdict g' q now hg'
  have ha' := @verdict_active g' q now hg'
  have hrecords : (g'.install q (g'.verdict q now) now clock).1.records =
      (g.install q (g.verdict q now) now clock).1.records := by
    refine records_eq (by rw [length_install, length_install, h.length]) fun i hi => ?_
    rw [length_install] at hi
    rcases Nat.lt_succ_iff_lt_or_eq.1 hi with hlt | rfl
    · rw [record_install_of_lt hn ha hlt, record_install_of_lt hn' ha' (h.length.symm ▸ hlt), h.record]
      simp only [hs.mem_iff]
    · have hnew' := @record_install_new g' q (g'.verdict q now) now clock
      rw [h.length] at hnew'
      rw [record_install_new, hnew', newcomer, newcomer, hgrace]
  constructor
  · rw [install_eq, @install_eq g', hrecords]
    obtain ⟨cache, hc, rfl⟩ := h
    exact ⟨_, hc.append_right _, rfl⟩
  · have hparent : g'.defaultParent = g.defaultParent := by
      obtain ⟨cache, -, rfl⟩ := h
      rfl
    rw [install_effects hn ha, install_effects hn' ha', hgrace, h.length, h.timeout, hparent]
    simp only [h.record]
    exact ((((hs.flatMap_right _).append_right _).append_right _).append_right _).append_right _

end Registry

namespace Call

/-- two steps that differ at most in the order of the cache and of their effects -/
structure SameStep (s s' : Step) : Prop where
  registry : s.registry.Reordered s'.registry
  effects : s'.effects.Perm s.effects
  next : s'.next = s.next

variable {g g' : Registry} {q : Request} {report : Bool}

theorem advanceLookup_reordered (h : g.Reordered g') (i : RecordId) (a : String) (reply : Reply) (pt : LookupPoint) :
    (advanceLookup g i a reply pt).1.Reordered (advanceLookup g' i a reply pt).1 ∧
      (advanceLookup g' i a reply pt).2 = (advanceLookup g i a reply pt).2 := by
  obtain ⟨cache, hc, rfl⟩ := h
  have hrecord : Registry.record { g with cache } i = g.record i := rfl
  cases pt with
  | looking => exact ⟨⟨cache, hc, rfl⟩, rfl⟩
  | trying cell =>
    simp only [advanceLookup, hrecord]
    split
    · exact ⟨⟨cache, hc, rfl⟩, rfl⟩
    · split
      · exact ⟨⟨cache, hc, rfl⟩, rfl⟩
      · split_ifs <;> exact ⟨⟨cache, hc, rfl⟩, rfl⟩
  | asking cell =>
    simp only [advanceLookup]
    split <;> exact ⟨⟨cache, hc, rfl⟩, rfl⟩
  | clearing why => exact ⟨⟨cache, hc, rfl⟩, rfl⟩

theorem rejection_reordered (h : g.Reordered g') (why : Failure) (before : List Effect) :
    SameStep (rejection g q report why before) (rejection g' q report why before) := ⟨h, .refl _, rfl⟩

/-- **a step of a request on two registries that differ in the order of the cache**: the same, or it is the decision
about a contested request -/
theorem advance_reordered (hg : g.Coherent) (hu : g.Unambiguous) (h : g.Reordered g') (reply : Reply)
    (pt : RequestPoint) :
    SameStep (advance g reply (.request q report pt)) (advance g' reply (.request q report pt)) ∨
      pt = .deciding ∧ g.Contested q reply.now ∧ ∃ why why', (g.Gives q reply.now why ∧ g.Gives q reply.now why') ∧
        advance g reply (.request q report pt) = rejection g q report why [] ∧
        advance g' reply (.request q report pt) = rejection g' q report why' [] := by
  cases pt with
  | deciding =>
    rcases @decide_reordered g g' q reply.now hg hu h with ha | ⟨hc, why, why', hd, hd', hp⟩
    · left
      generalize hd : g.decide q reply.now = x at ha
      generalize hd' : g'.decide q reply.now = x' at ha
      cases ha with
      | cached i =>
        rw [advance_cached hd, advance_cached hd']
        exact ⟨h, .refl _, rfl⟩
      | fresh hs hgrace =>
        obtain ⟨-, rfl⟩ := (decide_eq_fresh_iff hg).1 hd
        obtain ⟨-, rfl⟩ := (decide_eq_fresh_iff (h.coherent hg)).1 hd'
        obtain ⟨hregistry, heffects⟩ := @install_reordered g g' q reply.now reply.clock hg h
        rw [advance_fresh hd, advance_fresh hd', h.length]
        exact ⟨hregistry, heffects, rfl⟩
      | refused why =>
        rw [advance_refused hd, advance_refused hd']
        exact rejection_reordered h why []
    · exact .inr ⟨rfl, hc, why, why', hp, advance_refused hd, advance_refused hd'⟩
  | resolving i pt =>
    left
    obtain ⟨hregistry, hnext⟩ := advanceLookup_reordered h i q.moduleAlias reply pt
    simp only [advance, advanceRequest]
    generalize advanceLookup g i q.moduleAlias reply pt = x at hregistry hnext
    generalize advanceLookup g' i q.moduleAlias reply pt = x' at hregistry hnext
    obtain ⟨g₁, n⟩ := x
    obtain ⟨g₁', n'⟩ := x'
    obtain rfl : n' = n := hnext
    cases n' with
    | go pt' => exact ⟨hregistry, .refl _, rfl⟩
    | wait => exact ⟨hregistry, .refl _, rfl⟩
    | found m fresh => cases fresh <;> exact ⟨hregistry, .refl _, rfl⟩
    | failed why =>
      simp only [hregistry.record]
      exact rejection_reordered hregistry _ _
  | notifying i isTask => exact .inl ⟨h, .refl _, rfl⟩
  | locking =>
    left
    simp only [advance, advanceRequest, h.stopped]
    split
    · exact rejection_reordered h _ _
    · exact ⟨h, .refl _, rfl⟩
  | _ =>
    left
    simp only [advance, advanceRequest]
    split
    · exact ⟨h, .refl _, rfl⟩
    · exact rejection_reordered h _ _

/-- what a call waits for is the same in every order -/
theorem query_reordered (h : g.Reordered g') (c : Call) : c.query g' = c.query g := by
  obtain ⟨cache, -, rfl⟩ := h
  rfl

end Call

namespace Pool

/-- the pools differ at most in orders: of the cache, of the evictions ordered, and of what was done -/
structure Alike (s s' : Pool) : Prop where
  registry : s.registry.Reordered s'.registry
  calls : s'.calls = s.calls
  evictions : s'.evictions.Perm s.evictions
  now : s'.now = s.now
  trace : s'.trace.Perm s.trace

/-- two lists of moves of the call at the place that are the same but for the orders in which the cache is met; time may
pass between them -/
inductive Twins (k : Nat) : List Move → List Move → Prop
  | nil : Twins k [] []
  | own {m : Move} {ms ms' : List Move} (hm : m.place? = some k) (h : Twins k ms ms') : Twins k (m :: ms) (m :: ms')
  | pass {ms ms' : List Move} (t : Nat) (h : Twins k ms ms') : Twins k (.pass t :: ms) (.pass t :: ms')
  | left {ms ms' : List Move} (cache : List (DeploymentId × RecordId)) (h : Twins k ms ms') :
    Twins k (.reorder cache :: ms) ms'
  | right {ms ms' : List Move} (cache : List (DeploymentId × RecordId)) (h : Twins k ms ms') :
    Twins k ms (.reorder cache :: ms')

variable {p s s' : Pool} {k : Nat} {q : Request} {report b : Bool} {pt : RequestPoint} {m : Move}

theorem twins_self {ms : List Move} (h : ∀ m ∈ ms, m.place? = some k) : Twins k ms ms := by
  induction ms with
  | nil => exact .nil
  | cons m ms ih => exact .own (h m List.mem_cons_self) (ih fun m' hm' => h m' (List.mem_cons_of_mem _ hm'))

theorem Alike.refl (s : Pool) : s.Alike s := ⟨.refl _, rfl, .refl _, rfl, .refl _⟩

theorem Alike.trans {s'' : Pool} (h : s.Alike s') (h' : s'.Alike s'') : s.Alike s'' :=
  ⟨h.registry.trans h'.registry, h'.calls.trans h.calls, h'.evictions.trans h.evictions, h'.now.trans h.now,
    h'.trace.trans h.trace⟩

theorem Alike.symm (h : s.Alike s') : s'.Alike s :=
  ⟨h.registry.symm, h.calls.symm, h.evictions.symm, h.now.symm, h.trace.symm⟩

theorem Alike.call? (h : s.Alike s') (j : Nat) : s'.call? j = s.call? j := by
  simp [Pool.call?, h.calls]

theorem Alike.isFree (h : s.Alike s') (j : Nat) : s'.isFree j = s.isFree j := by
  simp [Pool.isFree, h.calls]

theorem Alike.ended (h : s.Alike s') : s'.Ended k ↔ s.Ended k := by
  simp [Ended, h.call?, h.calls]

theorem Alike.returned (h : s.Alike s') (o : Outcome) : s'.Returned k o ↔ s.Returned k o := h.trace.mem_iff

theorem alike_reorder (s : Pool) (cache : List (DeploymentId × RecordId)) : s.Alike (s.step (.reorder cache)) := by
  simp only [Pool.step]
  split
  · rename_i hc
    exact ⟨⟨cache, hc, rfl⟩, rfl, .refl _, rfl, .refl _⟩
  · exact .refl s

theorem intact_reorder (s : Pool) (cache : List (DeploymentId × RecordId)) : s.Intact (s.step (.reorder cache)) := by
  simp only [Pool.step]
  split
  · rename_i hc
    exact ⟨⟨cache, hc, rfl⟩, rfl, rfl⟩
  · exact (Untouched.refl s).intact

theorem intact_pass (s : Pool) (t : Nat) : s.Intact (s.step (.pass t)) := ⟨.refl _, rfl, rfl⟩

theorem Alike.pass (h : s.Alike s') (t : Nat) : (s.step (.pass t)).Alike (s'.step (.pass t)) :=
  ⟨h.registry, h.calls, h.evictions, congrArg (· + t) h.now, h.trace⟩

theorem Alike.pose (h : s.Alike s') (c : Call) : (s.pose k c).Alike (s'.pose k c) := by
  refine ⟨h.registry, by simp only [Pool.pose, h.calls], h.evictions, h.now, ?_⟩
  simp only [Pool.pose, Call.query_reordered h.registry]
  exact h.trace.append_right _

theorem Alike.advance (h : s.Alike s') {c : Call} {reply : Reply}
    (hs : Call.SameStep (c.advance s.registry { reply with now := s.now })
      (c.advance s'.registry { reply with now := s.now })) : (s.advance k c reply).Alike (s'.advance k c reply) := by
  obtain ⟨hregistry, heffects, hnext⟩ := hs
  simp only [Pool.advance, h.now]
  refine ⟨hregistry, by simp only [hnext, h.calls], h.evictions.append (heffects.filterMap _), rfl, ?_⟩
  simp only [hnext]
  exact (h.trace.append (heffects.map _)).append_right _

/-- a move of one call on two pools that are alike: the pools stay so, or it is the next step of the call in both -/
theorem Alike.step_place (h : s.Alike s') (hm : m.place? = some k) :
    (s.step m).Alike (s'.step m) ∨ ∃ u reply, s.call? k = some u ∧ m = .step k reply ∧
      s.step m = s.advance k u.call reply ∧ s'.step m = s'.advance k u.call reply := by
  cases m with
  | ask j =>
    obtain rfl := Option.some.inj hm
    left
    simp only [Pool.step, h.call?, Call.query_reordered h.registry]
    split
    · split
      · exact h
      · exact h.pose _
    · exact h
  | step j reply =>
    obtain rfl := Option.some.inj hm
    simp only [Pool.step, h.call?, h.isFree, Call.query_reordered h.registry]
    split
    · rename_i c asking hc
      split
      · exact .inr ⟨⟨c, asking⟩, reply, hc, rfl, rfl, rfl⟩
      · exact .inl h
    · exact .inl h
  | _ => cases hm

/-- a move of a request on two pools that are alike: they stay so, or it is the decision about a contested request -/
theorem Alike.step_request (hs : s.Reachable) (h : s.Alike s') (hc : s.call? k = some ⟨.request q report pt, b⟩)
    (hm : m.place? = some k) :
    (s.step m).Alike (s'.step m) ∨ pt = .deciding ∧ s.registry.Contested q s.now ∧ ∃ why why',
      (s.registry.Gives q s.now why ∧ s.registry.Gives q s.now why') ∧ (s.Untouched (s.step m) ∧ (s.step m).Returned k (.failed why)) ∧
        s'.Untouched (s'.step m) ∧ (s'.step m).Returned k (.failed why') := by
  rcases h.step_place hm with hstep | ⟨u, reply, hu, rfl, hstep, hstep'⟩
  · exact .inl hstep
  · rw [hc] at hu
    cases hu
    rw [hstep, hstep']
    rcases @Call.advance_reordered _ _ q report hs.sound.coherent hs.unambiguous h.registry
      { reply with now := s.now } pt with hsame | ⟨rfl, hcontested, why, why', hp, hr, hr'⟩
    · exact .inl (h.advance hsame)
    · rw [← h.now] at hr'
      have hrest (g : Registry) (why : Failure) : AtRest (Call.rejection g q report why []).effects :=
        Call.rejection_rest g q report why (by simp [AtRest])
      refine .inr ⟨rfl, hcontested, why, why', hp, ⟨?_, ?_⟩, ?_, ?_⟩
      · apply untouched_advance <;> rw [hr]
        · rfl
        · exact hrest _ _
      · exact returned_advance.2 (.inr ⟨rfl, by rw [hr]; rfl⟩)
      · apply untouched_advance <;> rw [hr']
        · rfl
        · exact hrest _ _
      · exact returned_advance.2 (.inr ⟨rfl, by rw [hr']; rfl⟩)

/-! ## Two runs of a request -/

/-- where two runs of the request have come to that both began in `p` -/
inductive Pair (p : Pool) (k : Nat) (q : Request) (report : Bool) (s s' : Pool) : Prop
  | undecided {pt : RequestPoint} {b : Bool} (hc : s.call? k = some ⟨.request q report pt, b⟩)
    (hpt : pt.isOpen = true) (h : s.Alike s') (hi : p.Intact s) (hi' : p.Intact s') (hnow : p.now ≤ s.now)
  | decided (h : s.Alike s') (hd : (∃ i, s.Course k q report i) ∨ s.Ended k)
  | parted {now : Nat} {why why' : Failure} (hcontested : p.registry.Contested q now) (hnow : p.now ≤ now)
    (hle : now ≤ s.now) (hp : p.registry.Gives q now why ∧ p.registry.Gives q now why')
    (ho : s.Returned k (.failed why)) (ho' : s'.Returned k (.failed why')) (hi : p.Intact s) (hi' : p.Intact s')

/-- a move of a request that was not decided about -/
theorem Pair.step_open (hs : s.Reachable) (hs' : s'.Reachable) (hc : s.call? k = some ⟨.request q report pt, b⟩)
    (hpt : pt.isOpen = true) (h : s.Alike s') (hi : p.Intact s) (hi' : p.Intact s') (hnow : p.now ≤ s.now)
    (hm : m.place? = some k) : p.Pair k q report (s.step m) (s'.step m) := by
  rcases h.step_request hs hc hm with hstep | ⟨rfl, hcontested, why, why', hp, ⟨hu, ho⟩, hu', ho'⟩
  · rcases Pool.step_open hs hc hpt m with ⟨hend, hu⟩ | ⟨i, ha, hid⟩
    · rcases hend with ⟨pt', b', hc', hpt'⟩ | ⟨why, -, ho⟩
      · have hc₂ : s'.call? k = some ⟨.request q report pt, b⟩ := by rw [h.call?, hc]
        refine .undecided hc' hpt' hstep (hi.trans (hu hm).intact) ?_ (hnow.trans (now_step s m))
        rcases Pool.step_open hs' hc₂ hpt m with ⟨-, hu'⟩ | ⟨i, ha, -⟩
        · exact hi'.trans (hu' hm).intact
        · rw [AcceptedFor, hstep.call?, hc'] at ha
          cases ha
          cases hpt'
      · exact .decided hstep (.inr ((hs.step m).settled.returned k _ ho))
    · exact .decided hstep (.inl ⟨i, .resolving ha hid⟩)
  · rw [hi.registry.gives, hi.registry.gives] at hp
    exact .parted (hi.registry.contested hcontested) hnow (now_step s m) hp ho ho' (hi.trans hu.intact)
      (hi'.trans hu'.intact)

/-- a move of a request that was accepted or has ended -/
theorem Pair.step_decided (hs : s.Reachable) (h : s.Alike s') (hd : (∃ i, s.Course k q report i) ∨ s.Ended k)
    (hm : m.place? = some k) : p.Pair k q report (s.step m) (s'.step m) := by
  have hgoes {pt : RequestPoint} {b : Bool} (hc : s.call? k = some ⟨.request q report pt, b⟩) (hpt : pt ≠ .deciding) :
      (s.step m).Alike (s'.step m) := by
    rcases h.step_request hs hc hm with hstep | ⟨rfl, -⟩
    · exact hstep
    · exact absurd rfl hpt
  have hidle (he : s.Ended k) : (s.step m).Alike (s'.step m) := by
    rw [step_of_ended hm he.2, step_of_ended hm (h.ended.2 he).2]
    exact h
  have hkept : (∃ i, (s.step m).Course k q report i) ∨ (s.step m).Ended k :=
    hd.imp (fun ⟨i, hi⟩ => ⟨i, hi.step hs m⟩) fun he => he.step m
  rcases hd with ⟨i, hcourse⟩ | he
  · cases hcourse with
    | resolving hc hid => exact .decided (hgoes hc (by simp)) hkept
    | notifying hc => exact .decided (hgoes hc (by simp)) hkept
    | served ho => exact .decided (hidle (hs.settled.returned k _ ho)) hkept
    | unresolved ho => exact .decided (hidle (hs.settled.returned k _ ho)) hkept
  · exact .decided (hidle he) hkept

theorem Pair.own (hs : s.Reachable) (hs' : s'.Reachable) (h : p.Pair k q report s s') (hm : m.place? = some k) :
    p.Pair k q report (s.step m) (s'.step m) := by
  cases h with
  | undecided hc hpt h hi hi' hnow => exact step_open hs hs' hc hpt h hi hi' hnow hm
  | decided h hd => exact step_decided hs h hd hm
  | parted hcontested hnow hle hp ho ho' hi hi' =>
    rw [step_of_ended hm (hs.settled.returned k _ ho).2, step_of_ended hm (hs'.settled.returned k _ ho').2]
    exact .parted hcontested hnow hle hp ho ho' hi hi'

theorem Pair.pass (hs : s.Reachable) (h : p.Pair k q report s s') (t : Nat) :
    p.Pair k q report (s.step (.pass t)) (s'.step (.pass t)) := by
  cases h with
  | undecided hc hpt h hi hi' hnow =>
    exact .undecided hc hpt (h.pass t) (hi.trans (intact_pass s t)) (hi'.trans (intact_pass s' t))
      (hnow.trans (now_step s _))
  | decided h hd =>
    exact .decided (h.pass t) (hd.imp (fun ⟨i, hi⟩ => ⟨i, hi.step hs _⟩) fun he => he.step _)
  | parted hcontested hnow hle hp ho ho' hi hi' =>
    exact .parted hcontested hnow (hle.trans (now_step s _)) hp (returned_step ho _) (returned_step ho' _)
      (hi.trans (intact_pass s t)) (hi'.trans (intact_pass s' t))

theorem Pair.left (hs : s.Reachable) (h : p.Pair k q report s s') (cache : List (DeploymentId × RecordId)) :
    p.Pair k q report (s.step (.reorder cache)) s' := by
  have ha := alike_reorder s cache
  cases h with
  | undecided hc hpt h hi hi' hnow =>
    exact .undecided ((ha.call? k).trans hc) hpt (ha.symm.trans h) (hi.trans (intact_reorder s cache)) hi'
      (hnow.trans (now_step s _))
  | decided h hd =>
    exact .decided (ha.symm.trans h) (hd.imp (fun ⟨i, hi⟩ => ⟨i, hi.step hs _⟩) fun he => he.step _)
  | parted hcontested hnow hle hp ho ho' hi hi' =>
    exact .parted hcontested hnow (hle.trans (now_step s _)) hp (returned_step ho _) ho'
      (hi.trans (intact_reorder s cache)) hi'

theorem Pair.right (h : p.Pair k q report s s') (cache : List (DeploymentId × RecordId)) :
    p.Pair k q report s (s'.step (.reorder cache)) := by
  have ha := alike_reorder s' cache
  cases h with
  | undecided hc hpt h hi hi' hnow =>
    exact .undecided hc hpt (h.trans ha) hi (hi'.trans (intact_reorder s' cache)) hnow
  | decided h hd => exact .decided (h.trans ha) hd
  | parted hcontested hnow hle hp ho ho' hi hi' =>
    exact .parted hcontested hnow hle hp ho (returned_step ho' _) hi (hi'.trans (intact_reorder s' cache))

theorem Pair.run {ms ms' : List Move} (ht : Twins k ms ms') (hs : s.Reachable) (hs' : s'.Reachable)
    (h : p.Pair k q report s s') : p.Pair k q report (s.run ms) (s'.run ms') := by
  induction ht generalizing s s' with
  | nil => exact h
  | own hm ht ih => exact ih (hs.step _) (hs'.step _) (h.own hs hs' hm)
  | pass t ht ih => exact ih (hs.step _) (hs'.step _) (h.pass hs t)
  | left cache ht ih => exact ih (hs.step _) hs' (h.left hs cache)
  | right cache ht ih => exact ih hs (hs'.step _) (h.right cache)

/-- one and the same request in one and the same state, with the cache met in two orders: a number that was used, or a
module that has been redeployed -/
theorem answers_by_order :
    let y : Request := { id := ⟨"y"⟩, sender := ⟨"s"⟩, seq := 2, moduleAlias := "b" }
    let w : Request := { id := ⟨"w"⟩, sender := ⟨"s"⟩, seq := 3, moduleAlias := "a" }
    let z : Request := { id := ⟨"z"⟩, sender := ⟨"s"⟩, seq := 2, moduleAlias := "a" }
    let p := (new 100).run
      (.enter (.request y true .entering) :: turns 0 { module := .ok ⟨"m", false⟩ } 8 ++
        .enter (.request w true .entering) :: turns 1 { module := .ok ⟨"n", true⟩ } 8 ++ [.pass 100])
    let cache := [(⟨"w"⟩, 1), (⟨"y"⟩, 0)]
    cache.Perm p.registry.cache ∧
      (p.run (.enter (.request z true .entering) :: turns 2 {} 4)).Returned 2
        (.failed (.sequenceMismatch 2 ⟨"y"⟩)) ∧
      (p.run (.enter (.request z true .entering) :: .reorder cache :: turns 2 {} 4)).Returned 2
        (.failed (.obsolete "a")) ∧
      ¬ (p.run (.enter (.request z true .entering) :: .reorder cache :: turns 2 {} 4)).Returned 2
        (.failed (.sequenceMismatch 2 ⟨"y"⟩)) := by
  decide +kernel

/-- **the order in which the cache is met matters for one thing only**: two runs of a request from one state, with the
same answers at the same times, go the same way, whatever the orders: the same records in the same states are cached, the
same evictions are ordered, the same was done, and the outcome is the same. Or else the request is contested: it is
turned away in both runs, which leave all as it was, each time for the reason that a cached record gives. Whether a
request is contested is a matter of the state alone, and exactly then there are orders that give different reasons. -/
theorem order_seldom_matters (hp : p.Reachable) (hq : q.WellFormed) (report : Bool) {ms ms' : List Move}
    (ht : Twins p.calls.length ms ms') :
    let s := p.run (.enter (.request q report .entering) :: ms)
    let s' := p.run (.enter (.request q report .entering) :: ms')
    ((s.Alike s' ∧ ∀ o, s'.Returned p.calls.length o ↔ s.Returned p.calls.length o) ∨
        ∃ now why why', p.now ≤ now ∧ now ≤ s.now ∧ p.registry.Contested q now ∧
          (p.registry.Gives q now why ∧ s.Returned p.calls.length (.failed why) ∧ p.Intact s) ∧
          p.registry.Gives q now why' ∧ s'.Returned p.calls.length (.failed why') ∧ p.Intact s') ∧
      ∀ now, p.registry.Contested q now ↔ ∃ g₁ g₂ why₁ why₂, p.registry.Reordered g₁ ∧ p.registry.Reordered g₂ ∧
        g₁.decide q now = .error why₁ ∧ g₂.decide q now = .error why₂ ∧ why₁ ≠ why₂ := by
  intro s s'
  refine ⟨?_, fun now => contested_iff hp.sound.coherent hp.unambiguous⟩
  have hbegin : p.Intact (p.step (.enter (.request q report .entering))) := by
    simp only [Pool.step]
    split <;> exact ⟨.refl _, rfl, rfl⟩
  have hopen := @call?_begin p q hq report
  have hpair : p.Pair p.calls.length q report s s' := by
    show p.Pair _ _ _ ((p.step _).run ms) ((p.step _).run ms')
    exact Pair.run ht (hp.step _) (hp.step _) (.undecided hopen rfl (.refl _) hbegin hbegin (now_step p _))
  cases hpair with
  | undecided hc hpt h => exact .inl ⟨h, h.returned⟩
  | decided h hd => exact .inl ⟨h, h.returned⟩
  | parted hcontested hnow hle hgives ho ho' hi hi' =>
    exact .inr ⟨_, _, _, hnow, hle, hcontested, ⟨hgives.1, ho, hi⟩, hgives.2, ho', hi'⟩

/-- a late request supersedes two records, in either order -/
theorem superseded_in_either_order :
    let v : Request := { id := ⟨"v"⟩, sender := ⟨"s"⟩, seq := 1, moduleAlias := "b" }
    let w : Request := { id := ⟨"w"⟩, sender := ⟨"s"⟩, seq := 2, moduleAlias := "a" }
    let y : Request := { id := ⟨"y"⟩, sender := ⟨"s"⟩, seq := 9, moduleAlias := "c" }
    let z : Request := { id := ⟨"z"⟩, sender := ⟨"s"⟩, seq := 3, moduleAlias := "a" }
    let p := (new 100).run
      (.enter (.request v true .entering) :: turns 0 { module := .ok ⟨"m", false⟩ } 8 ++
        .enter (.request w true .entering) :: turns 1 { module := .ok ⟨"n", true⟩ } 8 ++
        .enter (.request y true .entering) :: turns 2 { module := .ok ⟨"o", true⟩ } 8 ++
        .enter (.lookup 0 "a" .looking) :: turns 3 { module := .ok ⟨"m", false⟩ } 4 ++
        .enter (.lookup 2 "a" .looking) :: turns 4 { module := .ok ⟨"o", true⟩ } 4 ++ [.pass 50])
    let cache := [(⟨"w"⟩, 1), (⟨"y"⟩, 2), (⟨"v"⟩, 0)]
    let ms := turns 5 { module := .ok ⟨"k", false⟩ } 8
    let s := p.run (.enter (.request z true .entering) :: ms)
    let s' := p.run (.enter (.request z true .entering) :: .reorder cache :: ms)
    s.evictions = [(0, 150), (1, 150), (3, 100)] ∧ s'.evictions = [(1, 150), (0, 150), (3, 100)] ∧
      s.Alike s' ∧ s'.Returned 5 (.record 3) := by
  intro v w y z p cache ms s s'
  have hp : p.Reachable := ⟨100, _, rfl⟩
  have hplace : p.calls.length = 5 := by decide +kernel
  have hordered : s.evictions = [(0, 150), (1, 150), (3, 100)] ∧
      s'.evictions = [(1, 150), (0, 150), (3, 100)] := by decide +kernel
  have ho : s'.Returned 5 (.record 3) := by decide +kernel
  have hz : z.WellFormed := by decide +kernel
  have hs' : s'.Reachable := hp.run _
  have ht : Twins p.calls.length ms (.reorder cache :: ms) := by
    rw [hplace]
    refine .right cache (twins_self ?_)
    simp [ms, turns, Move.place?]
  refine ⟨hordered.1, hordered.2, ?_, ho⟩
  rcases (order_seldom_matters hp hz true ht).1 with ⟨h, -⟩ | ⟨-, -, why, -, -, -, -, -, hfailed, -⟩
  · exact h
  · rw [hplace] at hfailed
    cases hs'.settled.unique 5 _ _ ho hfailed

end Pool

end Redeploy
