/-
The decision about a request, said without the scan that makes it.

The scan goes over the cached records in the order in which an enumeration meets them and stops at the first that
speaks against the request. `Known` and `Admits` say which requests pass, and mention no order: they ask only which
records are cached. The scan is an induction over the list of entries; everything after it is about the set of records.

Results:
- `decide_eq_cached_iff`: a request is served from the cache exactly when its deployment is known with its number;
- `decide_eq_fresh_iff`: a new record is made exactly when `Admits` holds, and the verdict says which records the
  request supersedes;
- `decide_isOk_iff`: acceptance is `Known` or `Admits`;
- `grace_eq_zero_iff`, `exists_youngest`: the grace of a late request is what is left of the network timeout for the
  youngest record ahead of it.
-/
import Redeploy.Proofs.Registry

namespace Redeploy

/-! ## What a record is to a request -/

namespace Record

/-- an active record of the request's sender -/
def Rivals (r : Record) (q : Request) : Prop := r.sender = q.sender ∧ r.isActive = true

/-- an older rival that has resolved the request's alias -/
def IsBehind (r : Record) (q : Request) : Prop :=
  r.Rivals q ∧ r.seq < q.seq ∧ r.hasResolved q.moduleAlias = true

/-- a newer rival that has resolved the request's alias -/
def IsAhead (r : Record) (q : Request) : Prop :=
  r.Rivals q ∧ q.seq < r.seq ∧ r.hasResolved q.moduleAlias = true

instance (r : Record) (q : Request) : Decidable (r.Rivals q) := inferInstanceAs (Decidable (_ ∧ _))
instance (r : Record) (q : Request) : Decidable (r.IsBehind q) := inferInstanceAs (Decidable (_ ∧ _))
instance (r : Record) (q : Request) : Decidable (r.IsAhead q) := inferInstanceAs (Decidable (_ ∧ _))

def age (r : Record) (now : Nat) : Nat := now - r.createdAt

end Record

namespace Registry

/-- a rival of the request's own number, or one ahead of it for the whole network timeout -/
def Refuses (g : Registry) (q : Request) (now : Nat) (r : Record) : Prop :=
  r.Rivals q ∧ r.seq = q.seq ∨ r.IsAhead q ∧ g.timeout ≤ r.age now

/-- the deployment is cached with the request's number -/
def Known (g : Registry) (q : Request) (i : RecordId) : Prop :=
  g.Caches i ∧ (g.record i).id = q.id ∧ (g.record i).seq = q.seq

/-- the deployment is not cached, and no cached record speaks against it -/
structure Admits (g : Registry) (q : Request) (now : Nat) : Prop where
  unknown : ∀ i, g.Caches i → (g.record i).id ≠ q.id
  unequal : ∀ i, g.Caches i → (g.record i).Rivals q → (g.record i).seq ≠ q.seq
  timely : ∀ i, g.Caches i → (g.record i).IsAhead q → (g.record i).age now < g.timeout

theorem admits_iff {g : Registry} {q : Request} {now : Nat} :
    g.Admits q now ↔
      (∀ i, g.Caches i → (g.record i).id ≠ q.id) ∧ ∀ i, g.Caches i → ¬ g.Refuses q now (g.record i) := by
  constructor
  · intro h
    refine ⟨h.unknown, ?_⟩
    intro i hi hr
    rcases hr with ⟨hr, hs⟩ | ⟨ha, ht⟩
    · exact h.unequal i hi hr hs
    · exact absurd (h.timely i hi ha) (Nat.not_lt.2 ht)
  · rintro ⟨hu, hr⟩
    refine ⟨hu, fun i hi h hs => hr i hi (.inl ⟨h, hs⟩), ?_⟩
    intro i hi h
    by_contra ht
    exact hr i hi (.inr ⟨h, Nat.le_of_not_lt ht⟩)

/-! ## The scan -/

/-- the verdict after one more record, where that record does not refuse -/
def weighed (g : Registry) (q : Request) (now : Nat) (v : Verdict) (e : RecordId × Record) : Verdict where
  superseded := v.superseded ++ if e.2.IsBehind q then [e.1] else []
  grace := if e.2.IsAhead q then max v.grace (g.timeout - e.2.age now) else v.grace

variable {g : Registry} {q : Request} {now : Nat}

theorem weigh_of_not_rivals {r : Record} (hr : ¬ r.Rivals q) (v : Verdict) (i : RecordId) :
    g.weigh q now v (i, r) = .ok v := by
  simp only [weigh]
  exact if_neg hr

theorem weigh_of_lt {r : Record} (hr : r.Rivals q) (hs : r.seq < q.seq) (v : Verdict) (i : RecordId) :
    g.weigh q now v (i, r) =
      .ok { v with superseded := v.superseded ++ if r.hasResolved q.moduleAlias then [i] else [] } := by
  simp only [weigh]
  rw [if_pos (show r.sender = q.sender ∧ r.isActive = true from hr), if_pos hs]
  split <;> simp

theorem weigh_of_eq {r : Record} (hr : r.Rivals q) (hs : r.seq = q.seq) (v : Verdict) (i : RecordId) :
    g.weigh q now v (i, r) = .error (.sequenceMismatch q.seq r.id) := by
  simp only [weigh]
  rw [if_pos (show r.sender = q.sender ∧ r.isActive = true from hr), hs, if_neg (UInt64.lt_irrefl _),
    if_neg (UInt64.lt_irrefl _)]

theorem weigh_of_gt {r : Record} (hr : r.Rivals q) (hs : q.seq < r.seq) (v : Verdict) (i : RecordId) :
    g.weigh q now v (i, r) =
      if r.hasResolved q.moduleAlias then
        if g.timeout ≤ r.age now then .error (.obsolete q.moduleAlias)
        else .ok { v with grace := max v.grace (g.timeout - r.age now) }
      else .ok v := by
  simp only [weigh]
  rw [if_pos (show r.sender = q.sender ∧ r.isActive = true from hr), if_neg (UInt64.lt_asymm hs), if_pos hs]
  rfl

theorem weigh_eq_ok_iff {v v' : Verdict} {e : RecordId × Record} :
    g.weigh q now v e = .ok v' ↔ ¬ g.Refuses q now e.2 ∧ g.weighed q now v e = v' := by
  obtain ⟨i, r⟩ := e
  by_cases hr : r.Rivals q
  · rcases Nat.lt_trichotomy r.seq.toNat q.seq.toNat with hlt | heq | hgt
    · have hs : r.seq < q.seq := UInt64.lt_iff_toNat_lt.2 hlt
      have hne : r.seq ≠ q.seq := UInt64.ne_of_lt hs
      have ha : ¬ r.IsAhead q := fun h => UInt64.lt_asymm hs h.2.1
      rw [weigh_of_lt hr hs]
      simp [Refuses, weighed, Record.IsBehind, hr, hs, hne, ha]
    · have hs : r.seq = q.seq := UInt64.toNat_inj.1 heq
      rw [weigh_of_eq hr hs]
      simp [Refuses, hr, hs]
    · have hs : q.seq < r.seq := UInt64.lt_iff_toNat_lt.2 hgt
      have hne : r.seq ≠ q.seq := (UInt64.ne_of_lt hs).symm
      have hb : ¬ r.IsBehind q := fun h => UInt64.lt_asymm hs h.2.1
      rw [weigh_of_gt hr hs]
      by_cases hres : r.hasResolved q.moduleAlias = true
      · have ha : r.IsAhead q := ⟨hr, hs, hres⟩
        by_cases ht : g.timeout ≤ r.age now <;> simp [Refuses, weighed, hne, hb, ha, hres, ht]
      · have ha : ¬ r.IsAhead q := fun h => hres h.2.2
        simp [Refuses, weighed, hne, hb, ha, hres]
  · have hb : ¬ r.IsBehind q := fun h => hr h.1
    have ha : ¬ r.IsAhead q := fun h => hr h.1
    rw [weigh_of_not_rivals hr]
    simp [Refuses, weighed, hr, hb, ha]

theorem weigh_error {v : Verdict} {e : RecordId × Record} {why : Failure} (h : g.weigh q now v e = .error why) :
    (∃ d, why = .sequenceMismatch q.seq d) ∨ why = .obsolete q.moduleAlias := by
  obtain ⟨i, r⟩ := e
  simp only [weigh] at h
  split_ifs at h
  · exact .inr (Except.error.inj h).symm
  · exact .inl ⟨_, (Except.error.inj h).symm⟩

/-- the scan passes exactly the lists of which no record refuses, and keeps count of all of them -/
theorem scan_eq_ok_iff {es : List (RecordId × Record)} {v v' : Verdict} :
    es.foldlM (g.weigh q now) v = .ok v' ↔
      (∀ e ∈ es, ¬ g.Refuses q now e.2) ∧ es.foldl (g.weighed q now) v = v' := by
  induction es generalizing v with
  | nil => simp [pure, Except.pure]
  | cons e es ih =>
    simp only [List.foldlM_cons, List.forall_mem_cons, List.foldl_cons]
    by_cases he : g.Refuses q now e.2
    · have hbad : ∀ w, g.weigh q now v e ≠ .ok w := fun w hw => (weigh_eq_ok_iff.1 hw).1 he
      cases hw : g.weigh q now v e with
      | ok w => exact absurd hw (hbad w)
      | error why => simp [bind, Except.bind, he]
    · rw [weigh_eq_ok_iff.2 ⟨he, rfl⟩]
      simp [bind, Except.bind, he, ih]

/-- what stops the scan is a mismatch of numbers or a redeployed module -/
theorem scan_error {es : List (RecordId × Record)} {v : Verdict} {why : Failure}
    (h : es.foldlM (g.weigh q now) v = .error why) :
    (∃ d, why = .sequenceMismatch q.seq d) ∨ why = .obsolete q.moduleAlias := by
  induction es generalizing v with
  | nil => simp [pure, Except.pure] at h
  | cons e es ih =>
    rw [List.foldlM_cons] at h
    cases hw : g.weigh q now v e with
    | ok w =>
      rw [hw] at h
      exact ih h
    | error why' =>
      rw [hw] at h
      exact Except.error.inj h ▸ weigh_error hw

theorem superseded_foldl (es : List (RecordId × Record)) (v : Verdict) :
    (es.foldl (g.weighed q now) v).superseded =
      v.superseded ++ (es.filter fun e => Decidable.decide (e.2.IsBehind q)).map Prod.fst := by
  induction es generalizing v with
  | nil => simp
  | cons e es ih =>
    rw [List.foldl_cons, ih]
    by_cases h : e.2.IsBehind q <;> simp [weighed, h]

/-- what is left of the network timeout for a record at `now` -/
def window (g : Registry) (now : Nat) (r : Record) : Nat := g.timeout - r.age now

theorem le_grace_foldl (es : List (RecordId × Record)) (v : Verdict) :
    v.grace ≤ (es.foldl (g.weighed q now) v).grace ∧
      ∀ e ∈ es, e.2.IsAhead q → g.window now e.2 ≤ (es.foldl (g.weighed q now) v).grace := by
  induction es generalizing v with
  | nil => simp
  | cons e es ih =>
    obtain ⟨h₁, h₂⟩ := ih (g.weighed q now v e)
    have h₀ : v.grace ≤ (g.weighed q now v e).grace := by
      simp only [weighed]
      split
      · exact le_max_left _ _
      · exact le_rfl
    refine ⟨h₀.trans h₁, ?_⟩
    intro e' he' ha
    rcases List.mem_cons.1 he' with rfl | he'
    · refine le_trans ?_ h₁
      simp only [weighed, if_pos ha]
      exact le_max_right _ _
    · exact h₂ e' he' ha

theorem grace_foldl_attained (es : List (RecordId × Record)) (v : Verdict) :
    (es.foldl (g.weighed q now) v).grace = v.grace ∨
      ∃ e ∈ es, e.2.IsAhead q ∧ (es.foldl (g.weighed q now) v).grace = g.window now e.2 := by
  induction es generalizing v with
  | nil => simp
  | cons e es ih =>
    rw [List.foldl_cons]
    rcases ih (g.weighed q now v e) with h | ⟨e', he', ha, h⟩
    · by_cases ha : e.2.IsAhead q
      · simp only [weighed, if_pos ha] at h ⊢
        rcases max_choice v.grace (g.timeout - e.2.age now) with hm | hm
        · exact .inl (h.trans hm)
        · exact .inr ⟨e, List.mem_cons_self, ha, h.trans hm⟩
      · left
        rw [h]
        simp [weighed, ha]
    · exact .inr ⟨e', List.mem_cons_of_mem _ he', ha, h⟩

/-! ## The decision -/

/-- what the scan of the whole cache comes to when nothing in it refuses -/
def verdict (g : Registry) (q : Request) (now : Nat) : Verdict := g.entries.foldl (g.weighed q now) {}

theorem decide_eq_cached_iff (hg : g.Coherent) {i : RecordId} :
    g.decide q now = .ok (.cached i) ↔ g.Known q i := by
  unfold decide
  cases hl : g.lookup? q.id with
  | none =>
    have hnot : ¬ g.Known q i := fun h => hg.lookup?_eq_none_iff.1 hl i h.1 h.2.1
    simp only [hnot, iff_false]
    cases g.entries.foldlM (g.weigh q now) {} <;> simp [Except.map]
  | some k =>
    have hk := hg.lookup?_eq_some_iff.1 hl
    have hunique : ∀ {j}, g.Caches j → (g.record j).id = q.id → j = k := by
      intro j hj hid
      have := hg.lookup?_eq_some_iff.2 ⟨hj, hid⟩
      simpa [hl, eq_comm] using this
    simp only
    constructor
    · intro h
      split_ifs at h with hs
      simp only [Except.ok.injEq, Admission.cached.injEq] at h
      subst h
      exact ⟨hk.1, hk.2, hs⟩
    · rintro ⟨hc, hid, hs⟩
      obtain rfl := hunique hc hid
      rw [if_pos hs]

theorem decide_eq_fresh_iff (hg : g.Coherent) {v : Verdict} :
    g.decide q now = .ok (.fresh v) ↔ g.Admits q now ∧ g.verdict q now = v := by
  unfold decide
  rw [admits_iff, ← hg.lookup?_eq_none_iff]
  cases hl : g.lookup? q.id with
  | some k =>
    simp only [reduceCtorEq, false_and, iff_false]
    split <;> simp
  | none =>
    have hall : (∀ e ∈ g.entries, ¬ g.Refuses q now e.2) ↔ ∀ i, g.Caches i → ¬ g.Refuses q now (g.record i) := by
      constructor
      · intro h i hi
        exact h (i, g.record i) (hg.mem_entries.2 ⟨hi, rfl⟩)
      · rintro h ⟨i, r⟩ he
        obtain ⟨hi, rfl⟩ := hg.mem_entries.1 he
        exact h i hi
    simp only [true_and, ← hall]
    cases hs : g.entries.foldlM (g.weigh q now) {} with
    | ok w =>
      obtain ⟨hr, rfl⟩ := scan_eq_ok_iff.1 hs
      simp only [Except.map, Except.ok.injEq, Admission.fresh.injEq, verdict]
      exact ⟨fun h => ⟨hr, h⟩, fun h => h.2⟩
    | error why =>
      simp only [Except.map, reduceCtorEq, false_iff, not_and]
      intro hr
      rw [scan_eq_ok_iff.2 ⟨hr, rfl⟩] at hs
      cases hs

/-- **Acceptance.** A request passes exactly when its deployment is known with its number, or is not known and no
cached record speaks against it. -/
theorem decide_isOk_iff (hg : g.Coherent) :
    (∃ a, g.decide q now = .ok a) ↔ (∃ i, g.Known q i) ∨ g.Admits q now := by
  constructor
  · rintro ⟨i | v, h⟩
    · exact .inl ⟨i, (decide_eq_cached_iff hg).1 h⟩
    · exact .inr ((decide_eq_fresh_iff hg).1 h).1
  · rintro (⟨i, h⟩ | h)
    · exact ⟨_, (decide_eq_cached_iff hg).2 h⟩
    · exact ⟨_, (decide_eq_fresh_iff hg).2 ⟨h, rfl⟩⟩

theorem decide_error {why : Failure} (h : g.decide q now = .error why) :
    (∃ d, why = .sequenceMismatch q.seq d) ∨ why = .obsolete q.moduleAlias := by
  unfold decide at h
  split at h
  · simp only at h
    split_ifs at h
    exact .inl ⟨_, (Except.error.inj h).symm⟩
  · cases hs : g.entries.foldlM (g.weigh q now) {} with
    | ok w => simp [hs, Except.map] at h
    | error why' =>
      simp only [hs, Except.map, Except.error.injEq] at h
      exact h ▸ scan_error hs

/-! ## The verdict -/

/-- a request supersedes the older rivals that have resolved its alias -/
theorem mem_verdict (hg : g.Coherent) {i : RecordId} :
    i ∈ (g.verdict q now).superseded ↔ g.Caches i ∧ (g.record i).IsBehind q := by
  simp only [verdict, superseded_foldl, List.nil_append, List.mem_map, List.mem_filter, Prod.exists,
    exists_and_right, exists_eq_right, decide_eq_true_eq]
  constructor
  · rintro ⟨r, he, hb⟩
    obtain ⟨hi, rfl⟩ := hg.mem_entries.1 he
    exact ⟨hi, hb⟩
  · rintro ⟨hi, hb⟩
    exact ⟨_, hg.mem_entries.2 ⟨hi, rfl⟩, hb⟩

theorem nodup_verdict (hg : g.Coherent) : (g.verdict q now).superseded.Nodup := by
  have hn : (g.entries.map Prod.fst).Nodup := by
    rw [hg.entries_eq, List.map_map]
    exact hg.records_nodup
  simp only [verdict, superseded_foldl, List.nil_append]
  exact hn.sublist (List.filter_sublist.map _)

theorem verdict_active (hg : g.Coherent) :
    ∀ i ∈ (g.verdict q now).superseded, i < g.records.length ∧ (g.record i).isActive = true := by
  intro i hi
  obtain ⟨hc, hb⟩ := (mem_verdict hg).1 hi
  exact ⟨hg.lt hc, hb.1.2⟩

/-- an admitted request is late exactly when some record is ahead of it -/
theorem grace_eq_zero_iff (hg : g.Coherent) (ha : g.Admits q now) :
    (g.verdict q now).grace = 0 ↔ ∀ i, g.Caches i → ¬ (g.record i).IsAhead q := by
  constructor
  · intro h i hi hahead
    have hle := (@le_grace_foldl g q now g.entries {}).2 (i, g.record i)
      (hg.mem_entries.2 ⟨hi, rfl⟩) hahead
    have hlt := ha.timely i hi hahead
    have hz : (g.entries.foldl (g.weighed q now) {}).grace = 0 := h
    simp only [window, hz] at hle
    omega
  · intro h
    rcases @grace_foldl_attained g q now g.entries {} with h₀ | ⟨⟨i, r⟩, he, hahead, -⟩
    · exact h₀
    · obtain ⟨hi, rfl⟩ := hg.mem_entries.1 he
      exact absurd hahead (h i hi)

/-- the grace of a late request is the window of the youngest record ahead of it -/
theorem exists_youngest (hg : g.Coherent) (h : (g.verdict q now).grace ≠ 0) :
    ∃ y, g.Caches y ∧ (g.record y).IsAhead q ∧ (g.verdict q now).grace = g.window now (g.record y) ∧
      ∀ i, g.Caches i → (g.record i).IsAhead q → (g.record y).age now ≤ (g.record i).age now := by
  rcases @grace_foldl_attained g q now g.entries {} with h₀ | ⟨⟨y, r⟩, he, hahead, hy⟩
  · exact absurd h₀ h
  · obtain ⟨hc, rfl⟩ := hg.mem_entries.1 he
    refine ⟨y, hc, hahead, hy, ?_⟩
    intro i hi hi'
    have hle := (@le_grace_foldl g q now g.entries {}).2 (i, g.record i)
      (hg.mem_entries.2 ⟨hi, rfl⟩) hi'
    have hz : (g.entries.foldl (g.weighed q now) {}).grace ≠ 0 := h
    rw [hy] at hle hz
    simp only [window] at hle hz
    omega

end Registry

end Redeploy
