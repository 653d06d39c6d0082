/-
What a request does to the records of other senders.

A decision weighs records of the request's sender only, and changes no others. But identifiers are the keys of the
cache, and a request is served from the record that is cached under its identifier and number, whoever has sent that
one. So the only record of another sender that a request can touch is the one that it hits, and all that can happen to
it is that the request's alias is resolved there.

Results:
- `request_step`: a move of a request leaves registry and evictions alone, enters a record, or resolves on one;
- `spares_step`: what a move leaves of a record of another sender;
- `accepted_run`: a request is at work on the record that its own decision hit or made;
- `hit_across_senders`: one sender is served from the record of another;
- **`senders_isolated`**: whose record a request returns, and what is left of those of other senders.
-/
import Redeploy.Proofs.Numbers

namespace Redeploy

open Registry

/-- a step of a request leaves the registry as it is unless it makes a record or resolves on one -/
theorem Call.Requests.registry_eq {g : Registry} {q : Request} {report : Bool} {reply : Reply} {p : RequestPoint}
    {s : Step} (h : Requests g q report reply p s) (hf : ∀ v, p = .deciding → g.decide q reply.now ≠ .ok (.fresh v))
    (hp : ∀ i pt, p ≠ .resolving i pt) : s.registry = g := by
  cases h with
  | fresh hd => exact absurd hd (hf _ rfl)
  | look heq => exact absurd rfl (hp _ _)
  | wait heq => exact absurd rfl (hp _ _)
  | made heq => exact absurd rfl (hp _ _)
  | found heq => exact absurd rfl (hp _ _)
  | unresolved heq => exact absurd rfl (hp _ _)
  | _ => rfl

theorem Call.caches_lookup {g g' : Registry} {i : RecordId} {a : String} {reply : Reply} {p : LookupPoint}
    {n : LookupStep} (h : advanceLookup g i a reply p = (g', n)) (j : RecordId) : g'.Caches j ↔ g.Caches j := by
  obtain ⟨f, rfl, -⟩ := lookup_modifies h
  exact Iff.rfl

namespace Pool

/-! ## What is left of a record -/

/-- presence, life and scheduled evictions of the record are the same, and so are its modules, but that one may have
come to the alias -/
structure Spares (p p' : Pool) (a : String) (i : RecordId) : Prop where
  cached : p'.registry.Caches i ↔ p.registry.Caches i
  state : (p'.registry.record i).state = (p.registry.record i).state
  evictions : p'.evictions.filter (·.1 == i) = p.evictions.filter (·.1 == i)
  modules : ∀ b ≠ a, (p'.registry.record i).module? b = (p.registry.record i).module? b
  kept : ∀ m, (p.registry.record i).module? a = some m → (p'.registry.record i).module? a = some m

theorem Spares.trans {p p' p'' : Pool} {a : String} {i : RecordId} (h : p.Spares p' a i) (h' : p'.Spares p'' a i) :
    p.Spares p'' a i where
  cached := h'.cached.trans h.cached
  state := h'.state.trans h.state
  evictions := h'.evictions.trans h.evictions
  modules b hb := (h'.modules b hb).trans (h.modules b hb)
  kept m hm := h'.kept m (h.kept m hm)

theorem spares_of_record {p p' : Pool} (a : String) {i : RecordId}
    (hcached : p'.registry.Caches i ↔ p.registry.Caches i) (hrecord : p'.registry.record i = p.registry.record i)
    (hevictions : p'.evictions.filter (·.1 == i) = p.evictions.filter (·.1 == i)) : p.Spares p' a i := by
  refine ⟨hcached, by rw [hrecord], hevictions, fun b _ => by rw [hrecord], fun m hm => ?_⟩
  rw [hrecord]
  exact hm

theorem spares_of_registry {p p' : Pool} (a : String) (i : RecordId) (hregistry : p'.registry = p.registry)
    (hevictions : p'.evictions = p.evictions) : p.Spares p' a i := by
  apply spares_of_record <;> simp [hregistry, hevictions]

/-- the entry of a record leaves the records of other senders alone -/
theorem Enters.others_of_sender {p p' : Pool} {q : Request} {ordered : List (RecordId × Nat)}
    (h : p.Enters p' q ordered) {i : RecordId} (hi : i < p.registry.records.length)
    (hsender : (p.registry.record i).sender ≠ q.sender) :
    p'.registry.record i = p.registry.record i ∧ (p'.registry.Caches i ↔ p.registry.Caches i) ∧
      p'.evictions.filter (·.1 == i) = p.evictions.filter (·.1 == i) := by
  have hnot : ¬ (p.registry.record i).IsBehind q := fun hb => hsender hb.1.1
  refine ⟨h.others i hi fun hb => hnot hb.2, ?_, ?_⟩
  · have hcache : p'.registry.cache = p.registry.cache ++ [(q.id, p.registry.records.length)] := by rw [h.registry]
    simp [Caches, hcache, Nat.ne_of_lt hi]
  · have hnone : ordered.filter (·.1 == i) = [] := by
      rw [List.filter_eq_nil_iff]
      rintro ⟨j, due⟩ hmem hj
      obtain rfl : j = i := by simpa using hj
      rcases (h.mem_ordered j due).1 hmem with ⟨-, hb, -⟩ | ⟨hnew, -⟩
      · exact hnot hb
      · exact Nat.ne_of_lt hi hnew
    rw [h.evictions, List.filter_append, hnone, List.append_nil]

variable {p : Pool} {k : Nat} {q : Request} {report b : Bool} {pt : RequestPoint} {m : Move} {i : RecordId}

/-! ## Moves of a request -/

theorem request_step (hp : p.Reachable) (hc : p.call? k = some ⟨.request q report pt, b⟩) (hm : m.place? = some k) :
    ((p.step m).registry = p.registry ∧ (p.step m).evictions = p.evictions) ∨
      (∃ ordered, p.Enters (p.step m) q ordered) ∨
        (p.step m).evictions = p.evictions ∧ ∃ i pt' reply, pt = .resolving i pt' ∧
          ∃ n, Call.advanceLookup p.registry i q.moduleAlias reply pt' = ((p.step m).registry, n) := by
  rcases step_self hm hc with h | h | ⟨reply, rfl, h, -⟩
  · exact .inl (by rw [h]; exact ⟨rfl, rfl⟩)
  · exact .inl (by rw [h]; exact ⟨rfl, rfl⟩)
  · rw [h]
    by_cases hfresh : ∃ v, pt = .deciding ∧ p.registry.decide q p.now = .ok (.fresh v)
    · obtain ⟨v, rfl, hd⟩ := hfresh
      exact .inr (.inl (install_enters hp.sound.coherent hd))
    · have hquiet : ∀ v, pt = .deciding → p.registry.decide q p.now ≠ .ok (.fresh v) :=
        fun v hpt hd => hfresh ⟨v, hpt, hd⟩
      have hr := Call.advanceRequest_requests p.registry q report { reply with now := p.now } pt
      have hevictions : (p.advance k (.request q report pt) reply).evictions = p.evictions := by
        obtain ⟨-, hrest⟩ := hr.quiet hp.sound.coherent hquiet
        simp only [Pool.advance, Call.advance, evictions_rest hrest, List.append_nil]
      by_cases hres : ∃ i pt', pt = .resolving i pt'
      · obtain ⟨i, pt', rfl⟩ := hres
        refine .inr (.inr ⟨hevictions, i, pt', { reply with now := p.now }, rfl, _, Prod.ext ?_ rfl⟩)
        exact (Call.advance_registry_of_lookup? rfl).symm
      · refine .inl ⟨hr.registry_eq hquiet ?_, hevictions⟩
        intro i pt' hpt
        exact hres ⟨i, pt', hpt⟩

/-- a step of a resolution on the record: at most the alias is resolved -/
theorem spares_of_lookup (hp : p.Reachable) {pt : LookupPoint} {p' : Pool} {reply : Reply} {n : Call.LookupStep}
    (hc : p.call? k = some ⟨.request q report (.resolving i pt), b⟩)
    (h : Call.advanceLookup p.registry i q.moduleAlias reply pt = (p'.registry, n))
    (hevictions : p'.evictions = p.evictions) : p.Spares p' q.moduleAlias i := by
  obtain ⟨owner, hk⟩ := hp.kept
  have hres : p.Resolves k i q.moduleAlias pt := ⟨_, hc, rfl⟩
  have hlooks := Call.advanceLookup_looks p.registry (hk.placed k i _ pt hres) q.moduleAlias reply pt
  rw [h] at hlooks
  refine ⟨Call.caches_lookup h i, ?_, by rw [hevictions], ?_, fun m => hlooks.module?_eq_some fun _ => hp.busy_cell hres⟩
  · obtain ⟨f, hmodify, -, hstate, -⟩ := Call.lookup_modifies h
    rw [hmodify]
    exact record_modify_congr p.registry i i Record.state hstate
  · intro b hb
    -- the call works on a cell of its own alias
    exact (hlooks.frame hb fun cell => hk.apart hres hb).2

/-- a move of a request spares the records of other senders, and changes none on which it does not resolve -/
theorem spares_step (hp : p.Reachable) (hc : p.call? k = some ⟨.request q report pt, b⟩) (hm : m.place? = some k)
    (hi : i < p.registry.records.length) (hsender : (p.registry.record i).sender ≠ q.sender) :
    p.Spares (p.step m) q.moduleAlias i ∧
      ((p.step m).registry.record i = p.registry.record i ∨ ∃ pt', pt = .resolving i pt') := by
  rcases request_step hp hc hm with ⟨hregistry, hevictions⟩ | ⟨ordered, henters⟩ |
    ⟨hevictions, j, pt', reply, rfl, n, h⟩
  · exact ⟨spares_of_registry _ i hregistry hevictions, .inl (by rw [hregistry])⟩
  · obtain ⟨hrecord, hcached, hevictions⟩ := henters.others_of_sender hi hsender
    exact ⟨spares_of_record _ hcached hrecord hevictions, .inl hrecord⟩
  · by_cases hj : j = i
    · subst hj
      exact ⟨spares_of_lookup hp hc h hevictions, .inr ⟨pt', rfl⟩⟩
    · have hrecord := Call.record_lookup_of_ne h hj
      exact ⟨spares_of_record _ (Call.caches_lookup h i) hrecord (by rw [hevictions]), .inl hrecord⟩

/-! ## The record of a request -/

/-- the move is the decision about the request at the place, in favour of a record that is cached under its identifier
and number -/
def Hits (p : Pool) (m : Move) (k : Nat) (q : Request) (i : RecordId) : Prop :=
  m.place? = some k ∧ p.registry.Known q i ∧ ∃ report, (p.step m).AcceptedFor k q report i

/-- the request at the place resolves its alias on the record, or has returned it -/
def WorksOn (p : Pool) (k : Nat) (q : Request) (report : Bool) (i : RecordId) : Prop :=
  (∃ pt b, p.call? k = some ⟨.request q report (.resolving i pt), b⟩) ∨ p.Returned k (.record i)

/-- an open request is accepted for a record by its own decision, which hits the record or makes it -/
theorem hits_or_makes (hp : p.Reachable) (hc : p.call? k = some ⟨.request q report pt, b⟩) (hpt : pt.isOpen = true)
    (ha : (p.step m).AcceptedFor k q report i) : p.Hits m k q i ∨ p.Makes m q i := by
  have hm : m.place? = some k := by
    by_contra hm
    rw [AcceptedFor, call?_step_of_ne hm (lt_of_call? hc), hc] at ha
    cases ha
    cases hpt
  obtain ⟨reply, hstep, hd | ⟨rfl, v, hd⟩⟩ := step_accepting hc hpt hm ha
  · exact .inl ⟨hm, (decide_eq_cached_iff hp.sound.coherent).1 hd, report, ha⟩
  · obtain ⟨ordered, henters⟩ : ∃ ordered, p.Enters (p.advance k (.request q report .deciding) reply) q ordered :=
      install_enters hp.sound.coherent hd
    rw [← hstep] at henters
    obtain ⟨q', hmade⟩ := (makes_of_lt hp.sound (m := m) (by rw [henters.length]; exact Nat.lt_succ_self _)).2
    obtain ⟨-, -, k', reply', report', b', rfl, hc'⟩ := id hmade
    cases hm
    rw [hc] at hc'
    cases hc'
    exact .inr hmade

/-- how far a request has come: it is open, turned away, or at work on the record that its decision hit or made -/
inductive Placed (p₀ : Pool) (ms : List Move) (k : Nat) (q : Request) (report : Bool) : Prop
  | undecided {pt : RequestPoint} {b : Bool} (hc : (p₀.run ms).call? k = some ⟨.request q report pt, b⟩)
    (hpt : pt.isOpen = true)
  | rejected {why : Failure} (ho : (p₀.run ms).Returned k (.failed why))
  | accepted {before after : List Move} {m : Move} {i : RecordId} (heq : ms = before ++ m :: after)
    (h : (p₀.run before).Hits m k q i ∨ (p₀.run before).Makes m q i) (hcourse : (p₀.run ms).Course k q report i)

theorem placed_run (hp : p.Reachable) (hc : p.call? k = some ⟨.request q report pt, b⟩) (hpt : pt.isOpen = true)
    (ms : List Move) : p.Placed ms k q report := by
  induction ms using List.reverseRecOn with
  | nil => exact .undecided hc hpt
  | append_singleton ms m ih =>
    have hr := hp.run ms
    have hrun : p.run (ms ++ [m]) = (p.run ms).step m := run_append p ms [m]
    cases ih with
    | undecided hc' hpt' =>
      rcases step_open hr hc' hpt' m with ⟨⟨pt'', b'', hc'', hpt''⟩ | ⟨why, -, ho⟩, -⟩ | ⟨i, ha, hid⟩
      · exact .undecided (hrun ▸ hc'') hpt''
      · exact .rejected (hrun ▸ ho)
      · exact .accepted rfl (hits_or_makes hr hc' hpt' ha) (hrun ▸ .resolving ha hid)
    | rejected ho => exact .rejected (hrun ▸ returned_step ho m)
    | @accepted before after m' i heq h hcourse =>
      exact .accepted (by rw [heq, List.append_assoc]; rfl) h (hrun ▸ hcourse.step hr m)

/-- a request has ended, or is still the request that it was -/
theorem Placed.call? (hp : p.Reachable) {ms : List Move} (h : p.Placed ms k q report) :
    (p.run ms).call? k = none ∨ ∃ pt b, (p.run ms).call? k = some ⟨.request q report pt, b⟩ := by
  have hended {o : Outcome} (ho : (p.run ms).Returned k o) : (p.run ms).call? k = none :=
    ((hp.run ms).settled.returned k o ho).2
  cases h with
  | undecided hc hpt => exact .inr ⟨_, _, hc⟩
  | rejected ho => exact .inl (hended ho)
  | accepted heq h hcourse =>
    cases hcourse with
    | resolving hc hid => exact .inr ⟨_, _, hc⟩
    | notifying hc => exact .inr ⟨_, _, hc⟩
    | served ho => exact .inl (hended ho)
    | unresolved ho => exact .inl (hended ho)

/-- the course of a request leads to one record only -/
theorem Course.eq_of_worksOn (hp : p.Reachable) {j : RecordId} (h : p.Course k q report i)
    (hj : p.WorksOn k q report j) : j = i := by
  rcases hj with ⟨pt, b, hc⟩ | ho
  · cases h with
    | resolving hc' hid => rw [hc] at hc'; cases hc'; rfl
    | notifying hc' => rw [hc] at hc'; cases hc'
    | served ho => exact absurd (hp.settled.returned k _ ho) (not_ended hc)
    | unresolved ho => exact absurd (hp.settled.returned k _ ho) (not_ended hc)
  · cases h with
    | resolving hc' hid => exact absurd (hp.settled.returned k _ ho) (not_ended hc')
    | notifying hc' => exact absurd (hp.settled.returned k _ ho) (not_ended hc')
    | served ho' => cases hp.settled.unique k _ _ ho ho'; rfl
    | unresolved ho' => cases hp.settled.unique k _ _ ho ho'

theorem accepted_run (hp : p.Reachable) (hc : p.call? k = some ⟨.request q report pt, b⟩) (hpt : pt.isOpen = true)
    {ms : List Move} (hi : (p.run ms).WorksOn k q report i) :
    ∃ before m after, ms = before ++ m :: after ∧ ((p.run before).Hits m k q i ∨ (p.run before).Makes m q i) := by
  have hr := hp.run ms
  cases placed_run hp hc hpt ms with
  | undecided hc' hpt' =>
    rcases hi with ⟨pt', b', hc''⟩ | ho
    · rw [hc'] at hc''
      cases hc''
      cases hpt'
    · exact absurd (hr.settled.returned k _ ho) (not_ended hc')
  | rejected ho =>
    rcases hi with ⟨pt', b', hc''⟩ | ho'
    · exact absurd (hr.settled.returned k _ ho) (not_ended hc'')
    · cases hr.settled.unique k _ _ ho ho'
  | @accepted before after m j heq h hcourse =>
    obtain rfl := hcourse.eq_of_worksOn hr hi
    exact ⟨before, m, after, heq, h⟩

/-- a move of a request changes a record of another sender only after its decision has hit that record -/
theorem spares_run (hp : p.Reachable) (hc : p.call? k = some ⟨.request q report pt, b⟩) (hpt : pt.isOpen = true)
    (ms : List Move) (hm : m.place? = some k) (hi : i < (p.run ms).registry.records.length)
    (hsender : ((p.run ms).registry.record i).sender ≠ q.sender) :
    (p.run ms).Spares ((p.run ms).step m) q.moduleAlias i ∧
      (((p.run ms).step m).registry.record i = (p.run ms).registry.record i ∨
        ∃ before m' after, ms = before ++ m' :: after ∧ (p.run before).Hits m' k q i) := by
  have hr := hp.run ms
  rcases (placed_run hp hc hpt ms).call? hp with hnone | ⟨pt', b', hc'⟩
  · rw [step_of_ended hm hnone]
    exact ⟨spares_of_registry _ i rfl rfl, .inl rfl⟩
  · refine (spares_step hr hc' hm hi hsender).imp_right fun h => h.imp_right ?_
    rintro ⟨pt'', rfl⟩
    obtain ⟨before, m', after, rfl, hhit | hmade⟩ := accepted_run hp hc hpt (.inl ⟨pt'', b', hc'⟩)
    · exact ⟨before, m', after, rfl, hhit⟩
    · obtain ⟨-, -, hfrom, -⟩ := hmade.of_request (hp.run before) after
      rw [run_append, run_cons] at hsender
      exact absurd hfrom hsender

/-- what is cached was cached at every earlier moment of its life, with the same identifier and number -/
theorem known_of_run (hp : p.Reachable) (hi : i < p.registry.records.length) {ms : List Move}
    (h : (p.run ms).registry.Known q i) : p.registry.Known q i := by
  obtain ⟨hcached, hid, hseq⟩ := h
  obtain ⟨-, hid', -, hseq'⟩ := identity_run hp hi ms
  refine ⟨(hp.sound.coherent.alive i hi).1 ?_, hid'.symm.trans hid, hseq'.symm.trans hseq⟩
  by_contra hu
  have hlive := (hp.run ms).sound.coherent.not_undeployed hcached
  rw [undeployed_run hp (by simpa using hu) ms] at hlive
  cases hlive

/-- the second of two senders is served from the record of the first, and its alias is resolved there -/
theorem hit_across_senders :
    let x : Request := { id := ⟨"x"⟩, sender := ⟨"s"⟩, seq := 1, moduleAlias := "a" }
    let y : Request := { id := ⟨"x"⟩, sender := ⟨"t"⟩, seq := 1, moduleAlias := "b" }
    let p := (new 100).run (.enter (.request x true .entering) :: turns 0 { module := .ok ⟨"m", false⟩ } 8)
    let p' := p.run (.enter (.request y true .entering) :: turns 1 { module := .ok ⟨"n", false⟩ } 8)
    p.Reachable ∧ y.WellFormed ∧ p'.IsIdle ∧ p'.Returned 1 (.record 0) ∧ (p'.registry.record 0).sender ≠ y.sender ∧
      (p.registry.record 0).sender ≠ y.sender ∧ (p.registry.record 0).hasResolved "b" = false ∧
      (p'.registry.record 0).hasResolved "b" = true := by
  intro x y p p'
  exact ⟨⟨100, _, rfl⟩, by decide +kernel, by decide +kernel, by decide +kernel, by decide +kernel, by decide +kernel,
    by decide +kernel, by decide +kernel⟩

/-- **senders are isolated but for hits**: a record that a request returns has its identifier and number, and its sender
unless the request's decision hit it. No move of a request changes anything of a record of another sender, in whatever
order other calls come between, except that it resolves its alias on a record that it hit. So where no others do
anything, all is in the end as it was, except that the alias may be resolved on a record that was cached under the
request's identifier and number from the start. -/
theorem senders_isolated {p : Pool} (hp : p.Reachable) {q : Request} (hq : q.WellFormed) (report : Bool)
    (ms : List Move) :
    let k := p.calls.length
    let after (l : List Move) := p.run (.enter (.request q report .entering) :: l)
    (∀ i, (after ms).Returned k (.record i) →
        ((after ms).registry.record i).id = q.id ∧ ((after ms).registry.record i).seq = q.seq ∧
          (((after ms).registry.record i).sender = q.sender ∨
            ∃ l m l', ms = l ++ m :: l' ∧ (after l).Hits m k q i)) ∧
      (∀ l m l', ms = l ++ m :: l' → m.place? = some k → ∀ i < (after l).registry.records.length,
        ((after l).registry.record i).sender ≠ q.sender →
          (after l).Spares ((after l).step m) q.moduleAlias i ∧
            (((after l).step m).registry.record i = (after l).registry.record i ∨
              ∃ l₀ m₀ l₁, l = l₀ ++ m₀ :: l₁ ∧ (after l₀).Hits m₀ k q i)) ∧
      ((∀ m ∈ ms, m.place? = some k) → ∀ i < p.registry.records.length, (p.registry.record i).sender ≠ q.sender →
        p.Spares (after ms) q.moduleAlias i ∧
          ((after ms).registry.record i = p.registry.record i ∨ p.registry.Known q i)) := by
  intro k after
  have hp₀ : (p.step (.enter (.request q report .entering))).Reachable := hp.step _
  have hc := call?_begin (p := p) hq report
  have hbegin : p.Untouched (p.step (.enter (.request q report .entering))) := by
    simp only [Pool.step]
    split <;> exact ⟨rfl, rfl, rfl⟩
  have hrun : ∀ l, after l = (p.step (.enter (.request q report .entering))).run l := fun l => rfl
  clear_value after
  simp only [hrun]
  generalize p.step (.enter (.request q report .entering)) = p₀ at hp₀ hc hbegin
  refine ⟨?_, ?_, ?_⟩
  · intro i ho
    obtain ⟨l, m, l', rfl, hhit | hmade⟩ := accepted_run hp₀ hc rfl (.inr ho)
    · obtain ⟨-, ⟨hcached, hid, hseq⟩, -⟩ := id hhit
      have hr := hp₀.run l
      obtain ⟨-, hid', -, hseq'⟩ := identity_run hr (hr.sound.coherent.lt hcached) (m :: l')
      rw [← run_append] at hid' hseq'
      exact ⟨hid'.trans hid, hseq'.trans hseq, .inr ⟨l, m, l', rfl, hhit⟩⟩
    · obtain ⟨-, hid, hfrom, hseq⟩ := hmade.of_request (hp₀.run l) l'
      rw [← run_cons, ← run_append] at hid hfrom hseq
      exact ⟨hid, hseq, .inl hfrom⟩
  · intro l m l' heq hm i hi hsender
    exact spares_run hp₀ hc rfl l hm hi hsender
  · intro hown i hi hsender
    have hi₀ : i < p₀.registry.records.length := by rwa [hbegin.registry]
    have hknown : p₀.registry.Known q i → p.registry.Known q i := by rw [hbegin.registry]; exact id
    -- move by move, from the first
    suffices h : ∀ l, l <+: ms → p.Spares (p₀.run l) q.moduleAlias i ∧
        ((p₀.run l).registry.record i = p.registry.record i ∨ p.registry.Known q i) from h ms (List.prefix_refl ms)
    intro l
    induction l using List.reverseRecOn with
    | nil =>
      intro _
      exact ⟨spares_of_registry _ i hbegin.registry hbegin.evictions, .inl (congrArg (Registry.record · i) hbegin.registry)⟩
    | append_singleton l m ih =>
      rintro ⟨l', heq⟩
      have hsplit : ms = l ++ m :: l' := by rw [← heq]; simp
      obtain ⟨hspares, hrecord⟩ := ih ⟨m :: l', hsplit.symm⟩
      obtain ⟨hlt, -, hfrom, -⟩ := identity_run hp₀ hi₀ l
      have hsender' : ((p₀.run l).registry.record i).sender ≠ q.sender := by
        rw [hfrom, hbegin.registry]
        exact hsender
      obtain ⟨hspares', hrecord'⟩ := spares_run hp₀ hc rfl l (hown m (by rw [hsplit]; simp)) hlt hsender'
      rw [run_append]
      refine ⟨hspares.trans hspares', ?_⟩
      rcases hrecord' with hsame | ⟨l₀, m₀, l₁, rfl, hhit⟩
      · exact hrecord.imp_left hsame.trans
      · exact .inr (hknown (known_of_run hp₀ hi₀ hhit.2.1))

/-- a sender deploys a newer version of an alias that another sender has deployed: its own record is returned, and the
other one is as it was, though it would be superseded if the sender were the same -/
theorem alias_of_two_senders :
    let x : Request := { id := ⟨"x"⟩, sender := ⟨"s"⟩, seq := 1, moduleAlias := "a" }
    let y : Request := { id := ⟨"y"⟩, sender := ⟨"t"⟩, seq := 2, moduleAlias := "a" }
    let p := (new 100).run (.enter (.request x true .entering) :: turns 0 { module := .ok ⟨"m", false⟩ } 8)
    let p' := p.run (.enter (.request y true .entering) :: turns 1 { module := .ok ⟨"n", false⟩ } 8)
    (p.registry.record 0).IsBehind { y with sender := ⟨"s"⟩ } ∧ p'.Returned 1 (.record 1) ∧
      (p'.registry.record 1).id = y.id ∧ (p'.registry.record 1).seq = y.seq ∧
      p.Spares p' "a" 0 ∧ p'.registry.record 0 = p.registry.record 0 := by
  intro x y p p'
  have hp : p.Reachable := ⟨100, _, rfl⟩
  have hbehind : (p.registry.record 0).IsBehind { y with sender := ⟨"s"⟩ } := by decide +kernel
  have hret : p'.Returned 1 (.record 1) := by decide +kernel
  have hplace : p.calls.length = 1 := by decide +kernel
  have hthere : 0 < p.registry.records.length := by decide +kernel
  have hsender : (p.registry.record 0).sender ≠ y.sender := by decide +kernel
  have hid : (p.registry.record 0).id ≠ y.id := by decide +kernel
  have hrun : p' = p.run (.enter (.request y true .entering) :: turns 1 { module := .ok ⟨"n", false⟩ } 8) := rfl
  clear_value p p'
  obtain ⟨hown, -, hothers⟩ := senders_isolated hp (q := y) (by decide +kernel) true
    (turns 1 { module := .ok ⟨"n", false⟩ } 8)
  beta_reduce at hown hothers
  rw [hplace, ← hrun] at hown hothers
  obtain ⟨hid', hseq', -⟩ := hown 1 hret
  obtain ⟨hspares, hrecord⟩ := hothers (by simp [turns, Move.place?]) 0 hthere hsender
  exact ⟨hbehind, hret, hid', hseq', hspares, hrecord.resolve_right fun h => hid h.2.1⟩

end Pool

end Redeploy
