/-
Evictions, one by one and many at a time.

An eviction knows its record, not the identifier. When it has its turn it looks at the life of that record: if the record
is undeployed the call returns, else the record is taken out and torn down (`Lapsed`).

Many evictions may be carried out while nobody else does anything (`Firing`). Then the cache follows from the records, and
of a record everything but its life stays. A record is undeployed at the end if it was before or its eviction began, and
released unless a call that was there before has still to do so. So order does not matter to the records, and the queries
are those of one teardown for each record taken out, whoever takes it out.

Results:
- `exists_lapsed`, `late_run`: what one eviction does, in time or too late;
- `spared_run`: what a run of evictions leaves as it is;
- `state_finished`, `records_finished`, `asked_finished`: what it brings about when all have ended;
- `exists_firing`: they can be carried out in every order;
- **`evictions_commute`**: evictions are targeted, and commute.
-/
import Redeploy.Proofs.Drain
import Mathlib.Algebra.BigOperators.Group.Finset.Basic

namespace Redeploy

open Registry

/-- the query that it puts -/
def Beat.query? : Beat → Option Query
  | .tells q => some q
  | .reads .. => none

def Mark.query? : Mark → Option Query
  | .asked q => some q
  | _ => none

/-- whom the teardown of the record tells when nobody has departed: the sink, the hooks and the context -/
def Registry.farewells (g : Registry) (i : RecordId) : List Query :=
  (Visit.script none ⟨i, g.hooks⟩).filterMap Beat.query?

namespace Pool

variable {p : Pool} {k : Nat} {m : Move} {ms : List Move} {i : RecordId}

/-! ## One eviction -/

/-- in the run of the moves the eviction of the record by the call at the place has its turn in the move `m`, after
`before` -/
inductive Lapsed (p : Pool) (ms : List Move) (k : Nat) (i : RecordId) (before : List Move) (m : Move) : Prop
  /-- the record is undeployed: the call returns, and nothing else changes -/
  | late (hu : ((p.run before).registry.record i).isUndeployed = true)
    (hstep : (p.run before).step m = { p.run before with
      calls := (p.run before).calls.set k none
      trace := (p.run before).trace ++ [Mark.returned k (.removed 0)] })
    (hlog : p.beats k ms = []) (hno : ∀ j, ¬ p.TakenBy ms k j)
  /-- the record alone is taken out, and torn down once; nobody has departed -/
  | due {hooks : List Nat} (hu : ((p.run before).registry.record i).isUndeployed = false)
    (ho : (p.run ms).Returned k (.removed 1)) (hlog : p.beats k ms = Visit.script none ⟨i, hooks⟩)
    (htaken : ∀ j, p.TakenBy ms k j ↔ j = i)

/-- an eviction that has its turn when the record is undeployed -/
theorem advance_late {total : Nat} (hu : (p.registry.record i).isUndeployed = true) (reply : Reply) :
    p.advance k (.removal (.expiry i) total .starting) reply =
      { p with calls := p.calls.set k none, trace := p.trace ++ [Mark.returned k (.removed 0)] } := by
  simp [Pool.advance, Call.advance, Call.advanceRemoval, Call.drainFor_expiry, hu, Call.tearDown, Call.drainNotices,
    Call.finalNotices, Next.marks, Next.underway?]

/-- the moves of an eviction that comes too late do nothing, or end it -/
theorem late_step {total : Nat} {b : Bool} (hc : p.call? k = some ⟨.removal (.expiry i) total .starting, b⟩)
    (hu : (p.registry.record i).isUndeployed = true) (hm : m.place? = some k) :
    p.step m = p ∨
      p.step m = { p with calls := p.calls.set k none, trace := p.trace ++ [Mark.returned k (.removed 0)] } := by
  cases m with
  | ask j =>
    obtain rfl := Option.some.inj hm
    left
    cases b <;> simp [Pool.step, hc, Call.query]
  | step j reply =>
    obtain rfl := Option.some.inj hm
    simp only [Pool.step, hc]
    split
    · exact .inr (advance_late hu reply)
    · exact .inl rfl
  | _ => cases hm

theorem late_run (hp : p.Reachable) {total : Nat} {b : Bool}
    (hc : p.call? k = some ⟨.removal (.expiry i) total .starting, b⟩)
    (hu : (p.registry.record i).isUndeployed = true) (ms : List Move) :
    (p.run ms).call? k = some ⟨.removal (.expiry i) total .starting, b⟩ ∨ (p.run ms).Ended k := by
  induction ms using List.reverseRecOn with
  | nil => exact .inl hc
  | append_singleton ms m ih =>
    rw [run_append]
    rcases ih with ih | ih
    · by_cases hm : m.place? = some k
      · have hlt := lt_of_lt_of_le (lt_of_call? ih) (length_step (p.run ms) m)
        rcases late_step ih (undeployed_run hp hu ms) hm with h | h
        · exact .inl ((congrArg (·.call? k) h).trans ih)
        · refine .inr ⟨hlt, (congrArg (·.call? k) h).trans ?_⟩
          simp [call?, lt_of_call? ih]
      · exact .inl ((call?_step_of_ne hm (lt_of_call? ih)).trans ih)
    · exact .inr (ih.step m)

/-- **an eviction that ends has had its turn** -/
theorem exists_lapsed (hp : p.Reachable) {total : Nat} {b : Bool}
    (hc : p.call? k = some ⟨.removal (.expiry i) total .starting, b⟩) (he : (p.run ms).Ended k) :
    ∃ before m after, ms = before ++ m :: after ∧ m.place? = some k ∧ p.Lapsed ms k i before m := by
  obtain ⟨before, m, after, total', pt, b', hsplit, hm, hc', hdraws, ⟨reply, hstep⟩, hout, htaken⟩ :=
    exists_draw hp hc rfl he
  obtain rfl : pt = .starting := by
    rcases hdraws with ⟨hpt, -⟩ | ⟨gone, rfl⟩
    · exact hpt
    · obtain ⟨reason, hreason⟩ := (hp.run before).sweeps k _ _ _ _ _ hc'
      cases hreason
  refine ⟨before, m, after, hsplit, hm, ?_⟩
  rw [Call.takes, Call.drainFor_expiry] at hout
  -- what it does after its turn
  obtain ⟨visits, hn, hvisits, ho, hlog⟩ : ∃ visits : List Visit, (visits.map Visit.record).Nodup ∧
      (∀ j, p.TakenBy ms k j ↔ j ∈ visits.map Visit.record) ∧ (p.run ms).Returned k (.removed visits.length) ∧
      p.beats k ms = visits.flatMap (Visit.script none) := by
    cases tearing_run hp hc rfl ms with
    | before hc' => exact absurd he (not_ended hc')
    | midway hc' => exact absurd he (not_ended hc')
    | ended ho hlog hn htaken => exact ⟨_, hn, htaken, ho, hlog⟩
  cases hu : ((p.run before).registry.record i).isUndeployed with
  | true =>
    have hno (j : RecordId) : ¬ p.TakenBy ms k j := by
      rw [htaken, hout, if_pos hu]
      exact List.not_mem_nil
    obtain rfl : visits = [] := by
      refine List.eq_nil_iff_forall_not_mem.2 fun v hv => hno v.record ?_
      exact (hvisits _).2 (List.mem_map.2 ⟨v, hv, rfl⟩)
    refine .late hu ?_ hlog hno
    rw [hstep, advance_late hu]
  | false =>
    have hone (j : RecordId) : p.TakenBy ms k j ↔ j = i := by
      rw [htaken, hout, if_neg (by rw [hu]; exact Bool.false_ne_true), List.mem_singleton]
    have hrecords : visits.map Visit.record = [i] :=
      List.perm_singleton.1 ((List.perm_ext_iff_of_nodup hn (List.nodup_singleton i)).2 fun j => by
        rw [← hvisits, hone, List.mem_singleton])
    obtain ⟨v, rfl, rfl⟩ := List.map_eq_singleton_iff.1 hrecords
    exact @Lapsed.due p ms k v.record before m v.hooks hu ho (by simpa using hlog) hone

/-! ## Runs in which evictions are carried out -/

/-- an eviction begins, or a call at the place `n` or after it goes on; or time passes, or the cache is met in another
order -/
def Move.Fires (n : Nat) : Move → Prop
  | .evict _ => True
  | .ask k => n ≤ k
  | .step k _ => n ≤ k
  | .reorder _ => True
  | .pass _ => True
  | _ => False

theorem Move.Fires.mono {n n' : Nat} (hn : n ≤ n') (h : m.Fires n') : m.Fires n := by
  cases m with
  | ask k => exact hn.trans h
  | step k reply => exact hn.trans h
  | _ => exact h

/-- in the run of the moves evictions are carried out, and nobody else does anything: neither other calls, nor those that
are told -/
def Firing (p : Pool) (ms : List Move) : Prop := ∀ m ∈ ms, m.Fires p.calls.length

/-- the evictions that began in the run have ended -/
def Finished (p : Pool) (ms : List Move) : Prop := ∀ k, p.calls.length ≤ k → (p.run ms).call? k = none

/-- the eviction that begins with the move, and when it was due -/
def firing? (p : Pool) : Move → Option (RecordId × Nat)
  | .evict e => p.evictions[e]?.filter fun x => decide (x.2 ≤ p.now)
  | _ => none

/-- the evictions that begin in the run, one after the other -/
def fired (p : Pool) (ms : List Move) : List (RecordId × Nat) := p.seen firing? ms

theorem fired_concat (p : Pool) (ms : List Move) (m : Move) :
    p.fired (ms ++ [m]) = p.fired ms ++ ((p.run ms).firing? m).toList := seen_concat ..

theorem firing?_eq_some {x : RecordId × Nat} :
    p.firing? m = some x ↔ ∃ e, m = .evict e ∧ p.evictions[e]? = some x ∧ x.2 ≤ p.now := by
  cases m <;> simp [firing?, Option.filter_eq_some_iff]

variable {e due : Nat}

/-- an eviction that is due begins as a call at the next place -/
theorem step_evict (he : p.evictions[e]? = some (i, due)) (hdue : due ≤ p.now) :
    p.step (.evict e) = { p with evictions := p.evictions.eraseIdx e }.enter (.remove (.expiry i)) := by
  simp [Pool.step, he, hdue]

theorem call?_evict (he : p.evictions[e]? = some (i, due)) (hdue : due ≤ p.now) :
    (p.step (.evict e)).call? p.calls.length = some ⟨.remove (.expiry i), false⟩ := by
  rw [step_evict he hdue, call?_enter, if_pos rfl]

/-- the calls that begin in such a run are evictions -/
theorem exists_begun (hf : p.Firing ms) (hk : p.calls.length ≤ k) (hlt : k < (p.run ms).calls.length) :
    ∃ before e after i due, ms = before ++ .evict e :: after ∧ (p.run before).calls.length = k ∧
      (p.run before).evictions[e]? = some (i, due) ∧ due ≤ (p.run before).now := by
  obtain ⟨before, m, after, hsplit, hold, hnew⟩ :=
    exists_change (P := fun q => q.calls.length ≤ k) hk (Nat.not_le_of_lt hlt)
  have hm : m.Fires p.calls.length := hf m (by rw [hsplit]; simp)
  have h := step_moved (p.run before) m
  generalize (p.run before).step m = q at h hnew
  cases h with
  | @evict e i due he hdue =>
    refine ⟨before, e, after, i, due, hsplit, le_antisymm hold ?_, he, hdue⟩
    simp only [Pool.enter, List.length_append, List.length_singleton] at hnew
    omega
  | enter hc => exact hm.elim
  | ask hc hq => exact absurd (by simpa [Pool.pose] using hold) hnew
  | step hc hready hlock => exact absurd (by simpa [Pool.advance] using hold) hnew
  | aside hnone ha => exact absurd (by rw [ha.calls]; exact hold) hnew
  | idle => exact absurd hold hnew

theorem mem_fired {before after : List Move} (he : (p.run before).evictions[e]? = some (i, due))
    (hdue : due ≤ (p.run before).now) : (i, due) ∈ p.fired (before ++ .evict e :: after) := by
  rw [fired, seen_append, seen, firing?_eq_some.2 ⟨e, rfl, he, hdue⟩]
  simp

theorem firing_call (hf : p.Firing ms) (hk : p.calls.length ≤ k) {u : Underway} (hc : (p.run ms).call? k = some u) :
    ∃ i total pt, u.call = .removal (.expiry i) total pt ∧ i ∈ (p.fired ms).map Prod.fst := by
  obtain ⟨before, e, after, i, due, rfl, rfl, he, hdue⟩ := exists_begun hf hk (lt_of_call? hc)
  rw [run_append] at hc
  rcases removal_run (call?_evict he hdue) after with hend | ⟨total, pt, b, hcall⟩
  · exact absurd hend (not_ended hc)
  · rw [show (p.run before).run (.evict e :: after) = ((p.run before).step (.evict e)).run after from rfl, hcall] at hc
    cases hc
    exact ⟨i, total, pt, rfl, List.mem_map_of_mem (mem_fired he hdue)⟩

/-- what a move can be with which evictions are carried out -/
inductive Carries (p : Pool) (n : Nat) : Move → Pool → Prop
  | begins {e i due : Nat} (he : p.evictions[e]? = some (i, due)) (hdue : due ≤ p.now) :
    Carries p n (.evict e) ({ p with evictions := p.evictions.eraseIdx e }.enter (.remove (.expiry i)))
  | asks {k : Nat} {c : Call} (hk : n ≤ k) (hc : p.call? k = some ⟨c, false⟩) : Carries p n (.ask k) (p.pose k c)
  | goes {k : Nat} {u : Underway} {reply : Reply} (hk : n ≤ k) (hc : p.call? k = some u) :
    Carries p n (.step k reply) (p.advance k u.call reply)
  | aside {m : Move} {p' : Pool} (hm : p.firing? m = none) (h : p.Aside p')
    (hhooks : p'.registry.hooks = p.registry.hooks) : Carries p n m p'

theorem carries {n : Nat} (hm : m.Fires n) : p.Carries n m (p.step m) := by
  have hidle (hm : p.firing? m = none) : p.Carries n m p :=
    .aside hm ⟨rfl, List.Perm.refl _, rfl, rfl, rfl, rfl, rfl, rfl, le_rfl⟩ rfl
  cases hx : p.firing? m with
  | some x =>
    obtain ⟨e, rfl, he, hdue⟩ := firing?_eq_some.1 hx
    rw [step_evict he hdue]
    exact .begins he hdue
  | none =>
    cases m with
    | evict e =>
      have hstep : p.step (.evict e) = p := by
        simp only [Pool.step]
        split
        · rename_i i due he
          split
          · rename_i hdue
            rw [firing?_eq_some.2 ⟨e, rfl, he, hdue⟩] at hx
            cases hx
          · rfl
        · rfl
      rw [hstep]
      exact hidle hx
    | ask k =>
      simp only [Pool.step]
      split
      · rename_i c hc
        split
        · exact hidle hx
        · exact .asks hm hc
      · exact hidle hx
    | step k reply =>
      simp only [Pool.step]
      split
      · rename_i c asking hc
        split
        · exact .goes hm hc
        · exact hidle hx
      · exact hidle hx
    | reorder cache =>
      simp only [Pool.step]
      split
      · rename_i hc
        exact .aside hx ⟨rfl, hc, rfl, rfl, rfl, rfl, rfl, rfl, le_rfl⟩ rfl
      · exact hidle hx
    | pass d => exact .aside hx ⟨rfl, List.Perm.refl _, rfl, rfl, rfl, rfl, rfl, rfl, Nat.le_add_right _ _⟩ rfl
    | _ => exact hm.elim

/-- a step of an eviction changes lives, and nothing of a record but that -/
theorem expiry_step (hp : p.Reachable) {total : Nat} {pt : RemovalPoint} {b : Bool}
    (hc : p.call? k = some ⟨.removal (.expiry i) total pt, b⟩) (reply : Reply) :
    let p' := p.advance k (.removal (.expiry i) total pt) reply
    p'.registry.hooks = p.registry.hooks ∧ p'.registry.records.length = p.registry.records.length ∧
      p'.evictions = p.evictions ∧ ∀ j, (p'.registry.record j).store = (p.registry.record j).store ∧
        ((p'.registry.record j).state = (p.registry.record j).state ∨
          (p'.registry.record j).isUndeployed = true ∧ j = i) := by
  intro p'
  have hs := hp.sound
  have hi : i < p.registry.records.length := hs.named k _ hc i List.mem_cons_self
  have hcause (j : RecordId) (hj : Cause.expiry i = .expiry j) : j < p.registry.records.length := by
    cases hj
    exact hi
  have hstore : ∀ j, (p'.registry.record j).store = (p.registry.record j).store :=
    Call.store_advance hs.coherent rfl
  obtain ⟨gone, claimed, hr⟩ :=
    Call.advanceRemoval_removes p.registry (.expiry i) total { reply with now := p.now } pt
  have hlen : p'.registry.records.length = p.registry.records.length :=
    (hr.evolves hs.coherent hcause fun j hj => hs.named k _ hc j (Call.queue_subset_names _ total pt j hj)).length
  have hev : p'.evictions = p.evictions := by
    show p.evictions ++ _ = _
    rw [show (Call.advance p.registry { reply with now := p.now } (.removal (.expiry i) total pt)).effects =
      (Call.advanceRemoval p.registry (.expiry i) total { reply with now := p.now } pt).effects from rfl,
      evictions_rest hr.rest, List.append_nil]
  suffices h : p'.registry.hooks = p.registry.hooks ∧ ∀ j, (p'.registry.record j).state = (p.registry.record j).state ∨
      (p'.registry.record j).isUndeployed = true ∧ j = i from ⟨h.1, hlen, hev, fun j => ⟨hstore j, h.2 j⟩⟩
  show (Call.advanceRemoval p.registry (.expiry i) total { reply with now := p.now } pt).registry.hooks = _ ∧
    ∀ j, ((Call.advanceRemoval p.registry (.expiry i) total { reply with now := p.now } pt).registry.record j).state =
      _ ∨ ((Call.advanceRemoval p.registry (.expiry i) total { reply with now := p.now } pt).registry.record j
        ).isUndeployed = true ∧ j = i
  generalize Call.advanceRemoval p.registry (.expiry i) total { reply with now := p.now } pt = s at hr
  cases hr with
  | drain hq hb =>
    rw [Call.tearDown_registry]
    cases pt with
    | starting =>
      simp only [Call.takes, Call.drainFor_expiry]
      split
      · exact ⟨rfl, fun j => .inl rfl⟩
      · refine ⟨?_, fun j => ?_⟩
        · unfold Registry.expire
          split <;> rfl
        · rw [record_expire hi]
          split
          · exact .inr ⟨rfl, ‹_›⟩
          · exact .inl rfl
    | checking left gone =>
      obtain ⟨reason, hreason⟩ := hp.sweeps k _ _ _ _ _ hc
      cases hreason
    | _ => exact ⟨rfl, fun j => .inl rfl⟩
  | claim => exact ⟨rfl, fun j => .inl (record_modify_congr _ _ _ Record.state rfl)⟩
  | skip => rw [Call.tearDown_registry]; exact ⟨rfl, fun j => .inl rfl⟩
  | next => rw [Call.tearDown_registry]; exact ⟨rfl, fun j => .inl rfl⟩
  | _ => exact ⟨rfl, fun j => .inl rfl⟩

/-- an eviction takes out nothing but its record -/
theorem takenBy_expiry (hp : p.Reachable) {total : Nat} {pt : RemovalPoint} {b : Bool}
    (hc : p.call? k = some ⟨.removal (.expiry i) total pt, b⟩) {j : RecordId} (h : p.TakenBy ms k j) : j = i := by
  obtain ⟨before, m, after, rfl, hm, ht⟩ := h
  have hr := hp.run before
  rcases removal_run hc before with hend | ⟨total', pt', b', hc'⟩
  · exact absurd ht (not_takesOut (by rw [step_of_ended hm hend.2]))
  · rcases step_self hm hc' with h | h | ⟨reply, -, h, -⟩
    · exact absurd ht (not_takesOut (by rw [h]))
    · exact absurd ht (not_takesOut (by rw [h]; rfl))
    · obtain ⟨-, -, -, hrecord⟩ := expiry_step hr hc' reply
      rcases (hrecord j).2 with hstate | ⟨-, hj⟩
      · -- it is not undeployed, so it is still cached
        have hlive := hr.sound.coherent.not_undeployed ht.1
        have hlt := hr.sound.coherent.lt ht.1
        rw [← h] at hstate
        rw [Record.isUndeployed, ← hstate, ← Record.isUndeployed] at hlive
        exact absurd (((hr.step m).sound.coherent.alive j (lt_of_lt_of_le hlt (forward_step hr.sound m).1)).1 hlive) ht.2
      · exact hj

/-- what a run in which evictions are carried out leaves as it is: of the records all but the lives of those that are
evicted, and all other calls and evictions -/
structure Spared (p : Pool) (ms : List Move) : Prop where
  length : (p.run ms).registry.records.length = p.registry.records.length
  hooks : (p.run ms).registry.hooks = p.registry.hooks
  store : ∀ j, ((p.run ms).registry.record j).store = (p.registry.record j).store
  state : ∀ j, ((p.run ms).registry.record j).state = (p.registry.record j).state ∨
    ((p.run ms).registry.record j).isUndeployed = true ∧ j ∈ (p.fired ms).map Prod.fst
  evictions : p.evictions.Perm (p.fired ms ++ (p.run ms).evictions)
  calls : ∀ k < p.calls.length, (p.run ms).call? k = p.call? k

theorem Spared.step (hp : p.Reachable) (hf : p.Firing (ms ++ [m])) (h : p.Spared ms) : p.Spared (ms ++ [m]) := by
  have hr := hp.run ms
  have hf' : p.Firing ms := fun m' hm' => hf m' (List.mem_append_left _ hm')
  have hm : m.Fires p.calls.length := hf m (by simp)
  have hlen : p.calls.length ≤ (p.run ms).calls.length := length_run p ms
  have hcalls (k : Nat) (hk : k < p.calls.length) : ((p.run ms).step m).call? k = p.call? k := by
    rw [call?_step_of_ne _ (lt_of_lt_of_le hk hlen), h.calls k hk]
    intro hplace
    cases m with
    | ask j =>
      obtain rfl := Option.some.inj hplace
      exact absurd hm (Nat.not_le_of_lt hk)
    | step j reply =>
      obtain rfl := Option.some.inj hplace
      exact absurd hm (Nat.not_le_of_lt hk)
    | _ => cases hplace
  have hstep := carries (p := p.run ms) hm
  have hrun : p.run (ms ++ [m]) = (p.run ms).step m := run_append p ms [m]
  generalize (p.run ms).step m = q at hstep hcalls hrun
  have hsame (hrecord : ∀ j, q.registry.record j = (p.run ms).registry.record j)
      (hlength : q.registry.records.length = (p.run ms).registry.records.length)
      (hhooks : q.registry.hooks = (p.run ms).registry.hooks)
      (hev : p.evictions.Perm (p.fired (ms ++ [m]) ++ q.evictions)) : p.Spared (ms ++ [m]) := by
    constructor <;> simp only [hrun, hrecord, hlength, hhooks]
    · exact h.length
    · exact h.hooks
    · exact h.store
    · refine fun j => (h.state j).imp id fun ⟨hu, hj⟩ => ⟨hu, ?_⟩
      rw [fired_concat, List.map_append]
      exact List.mem_append_left _ hj
    · exact hev
    · exact hcalls
  have hnone (hm : (p.run ms).firing? m = none) : p.fired (ms ++ [m]) = p.fired ms := by
    rw [fired_concat, hm, Option.toList_none, List.append_nil]
  cases hstep with
  | @begins e i due he hdue =>
    refine hsame (fun j => rfl) rfl rfl ?_
    have hx : (p.run ms).firing? (.evict e) = some (i, due) := firing?_eq_some.2 ⟨e, rfl, he, hdue⟩
    obtain ⟨hlt, hget⟩ := List.getElem?_eq_some_iff.1 he
    rw [fired_concat, hx, Option.toList_some, List.append_assoc]
    refine h.evictions.trans (List.Perm.append_left _ ?_)
    rw [List.singleton_append, ← hget]
    exact (List.getElem_cons_eraseIdx_perm hlt).symm
  | asks hk hc => exact hsame (fun j => rfl) rfl rfl (by rw [hnone rfl]; exact h.evictions)
  | aside hm ha hhooks =>
    refine hsame ha.record (by rw [ha.records]) hhooks ?_
    rw [hnone hm, ha.evictions]
    exact h.evictions
  | @goes k u reply hk hc =>
    obtain ⟨i, total, pt, hu, hi⟩ := firing_call hf' hk hc
    obtain ⟨c, b⟩ := u
    obtain rfl : c = .removal (.expiry i) total pt := hu
    obtain ⟨hhooks, hlength, hev, hrecord⟩ := expiry_step hr hc reply
    have hfired : p.fired (ms ++ [Move.step k reply]) = p.fired ms := hnone rfl
    refine ⟨?_, ?_, fun j => ?_, fun j => ?_, ?_, ?_⟩
    · rw [hrun, hlength, h.length]
    · rw [hrun, hhooks, h.hooks]
    · rw [hrun, (hrecord j).1, h.store]
    · rw [hrun, hfired]
      rcases (hrecord j).2 with hstate | ⟨hu, rfl⟩
      · rw [Record.isUndeployed, hstate]
        exact h.state j
      · exact .inr ⟨hu, hi⟩
    · rw [hrun, hfired, hev]
      exact h.evictions
    · rw [hrun]
      exact hcalls

theorem spared_run (hp : p.Reachable) (hf : p.Firing ms) : p.Spared ms := by
  induction ms using List.reverseRecOn with
  | nil => exact ⟨rfl, rfl, fun _ => rfl, fun _ => .inl rfl, List.Perm.refl _, fun _ _ => rfl⟩
  | append_singleton ms m ih => exact (ih fun m' hm' => hf m' (List.mem_append_left _ hm')).step hp hf

/-! ## What is left when the evictions have ended -/

/-- an eviction that began in the run has had its turn -/
theorem lapsed_of_begun (hp : p.Reachable) {before after : List Move} (hfin : p.Finished (before ++ .evict e :: after))
    (he : (p.run before).evictions[e]? = some (i, due)) (hdue : due ≤ (p.run before).now) :
    ∃ before' m' after', after = before' ++ m' :: after' ∧ m'.place? = some (p.run before).calls.length ∧
      ((p.run before).step (.evict e)).Lapsed after (p.run before).calls.length i before' m' := by
  have hcall := call?_evict he hdue
  refine exists_lapsed ((hp.run before).step (.evict e)) hcall ⟨?_, ?_⟩
  · exact lt_of_lt_of_le (lt_of_call? hcall) (length_run _ after)
  · have h := hfin _ (length_run p before)
    rw [run_append] at h
    exact h

theorem undeployed_of_fired (hp : p.Reachable) (hfin : p.Finished ms) (hi : i ∈ (p.fired ms).map Prod.fst) :
    ((p.run ms).registry.record i).isUndeployed = true := by
  obtain ⟨⟨j, due⟩, hmem, rfl⟩ := List.mem_map.1 hi
  obtain ⟨before, m, after, rfl, hx⟩ := mem_seen hmem
  obtain ⟨e, rfl, he, hdue⟩ := firing?_eq_some.1 hx
  have hbase := (hp.run before).step (.evict e)
  rw [run_append]
  obtain ⟨before', m', after', rfl, -, hlapsed⟩ := lapsed_of_begun hp hfin he hdue
  cases hlapsed with
  | late hu =>
    rw [run_cons, run_append]
    exact undeployed_run (hbase.run before') hu _
  | due hu ho hlog htaken => exact ((htaken j).2 rfl).undeployed hbase

/-- **the lives of records after evictions**: what was evicted is undeployed, and all others are where they were -/
theorem state_finished (hp : p.Reachable) (hf : p.Firing ms) (hfin : p.Finished ms) (i : RecordId) :
    ((p.run ms).registry.record i).state =
      if i ∈ (p.fired ms).map Prod.fst then .undeployed else (p.registry.record i).state := by
  split
  · rename_i hi
    simpa [Record.isUndeployed] using undeployed_of_fired hp hfin hi
  · rename_i hi
    exact ((spared_run hp hf).state i).resolve_right fun h => hi h.2

/-- the calls that began in the run owe nothing -/
theorem owing_finished (hp : p.Reachable) (hf : p.Firing ms) (hfin : p.Finished ms)
    (due : Bool → RemovalPoint → List RecordId) : (p.run ms).owing due = p.owing due := by
  have hlen := length_run p ms
  have hcalls : (p.run ms).calls =
      p.calls ++ List.replicate ((p.run ms).calls.length - p.calls.length) none := by
    refine List.ext_getElem (by simp; omega) fun k hk hk' => ?_
    have hcall : ∀ q : Pool, ∀ h : k < q.calls.length, q.call? k = q.calls[k] := fun q h => by
      simp [call?, List.getElem?_eq_getElem h]
    by_cases hold : k < p.calls.length
    · rw [List.getElem_append_left hold, ← hcall _ hk, ← hcall _ hold, (spared_run hp hf).calls k hold]
    · rw [List.getElem_append_right (Nat.le_of_not_lt hold), List.getElem_replicate, ← hcall _ hk,
        hfin k (Nat.le_of_not_lt hold)]
  rw [owing, hcalls, List.flatMap_append]
  have hnone : (List.replicate ((p.run ms).calls.length - p.calls.length) (none : Option Underway)).flatMap
      (fun u => u.elim [] (Underway.owes due)) = [] := by
    simp [List.flatMap_eq_nil_iff]
  rw [hnone, List.append_nil]
  rfl

variable {ms' : List Move}

/-- **the records after evictions** depend on which were carried out, and not on their order -/
theorem record_finished (hp : p.Reachable) (hf : p.Firing ms) (hfin : p.Finished ms) (hf' : p.Firing ms')
    (hfin' : p.Finished ms') (hsame : ∀ i, i ∈ (p.fired ms).map Prod.fst ↔ i ∈ (p.fired ms').map Prod.fst)
    (i : RecordId) : (p.run ms).registry.record i = (p.run ms').registry.record i := by
  have hstate : ((p.run ms).registry.record i).state = ((p.run ms').registry.record i).state := by
    rw [state_finished hp hf hfin, state_finished hp hf' hfin']
    simp only [hsame]
  have hstore : ((p.run ms).registry.record i).store = ((p.run ms').registry.record i).store := by
    rw [(spared_run hp hf).store, (spared_run hp hf').store]
  have horigin : ((p.run ms).registry.record i).origin = ((p.run ms').registry.record i).origin := by
    by_cases hi : i < p.registry.records.length
    · rw [(record_run hp hi ms).2.1, (record_run hp hi ms').2.1]
    · rw [record_eq_default (by rw [(spared_run hp hf).length]; exact Nat.le_of_not_lt hi),
        record_eq_default (by rw [(spared_run hp hf').length]; exact Nat.le_of_not_lt hi)]
  -- released is what was taken out and is not waited for by a call that was under way before
  have hreleased : ((p.run ms).registry.record i).released = ((p.run ms').registry.record i).released := by
    have h := (hp.run ms).accounts.claimed i
    have h' := (hp.run ms').accounts.claimed i
    rw [owing_finished hp hf hfin] at h
    rw [owing_finished hp hf' hfin', Record.isUndeployed, ← hstate, ← Record.isUndeployed, ← h] at h'
    have hnat := Nat.add_right_cancel h'
    revert hnat
    cases ((p.run ms).registry.record i).released <;> cases ((p.run ms').registry.record i).released <;> simp
  generalize (p.run ms).registry.record i = r at hstate hstore horigin hreleased
  generalize (p.run ms').registry.record i = r' at hstate hstore horigin hreleased
  cases r
  cases r'
  simp only [Record.store, Record.origin, Prod.mk.injEq, Record.mk.injEq] at hstate hstore horigin hreleased
  simp_all

theorem records_finished (hp : p.Reachable) (hf : p.Firing ms) (hfin : p.Finished ms) (hf' : p.Firing ms')
    (hfin' : p.Finished ms') (hsame : ∀ i, i ∈ (p.fired ms).map Prod.fst ↔ i ∈ (p.fired ms').map Prod.fst) :
    (p.run ms).registry.records = (p.run ms').registry.records := by
  refine List.ext_getElem ?_ fun i hi hi' => ?_
  · rw [(spared_run hp hf).length, (spared_run hp hf').length]
  · have h := record_finished hp hf hfin hf' hfin' hsame i
    simpa [Registry.record, Registry.record?, List.getElem?_eq_getElem hi, List.getElem?_eq_getElem hi'] using h

/-- a cache is told by the records: it holds those that are not undeployed, each under its own identifier -/
theorem cache_perm {g g' : Registry} (hg : g.Coherent) (hg' : g'.Coherent) (h : g.records = g'.records) :
    g.cache.Perm g'.cache := by
  have hrecord (i : RecordId) : g.record i = g'.record i := by
    rw [Registry.record, Registry.record?, h]
    rfl
  have hcaches (i : RecordId) : g.Caches i ↔ g'.Caches i := by
    by_cases hi : i < g.records.length
    · rw [← hg.alive i hi, ← hg'.alive i (h ▸ hi), hrecord]
    · exact iff_of_false (fun hc => hi (hg.lt hc)) fun hc => hi (h ▸ hg'.lt hc)
  refine (List.perm_ext_iff_of_nodup (List.Nodup.of_map _ hg.keys) (List.Nodup.of_map _ hg'.keys)).2 ?_
  rintro ⟨d, i⟩
  rw [hg.mem_iff, hg'.mem_iff, hcaches, hrecord]

/-! ## Who is told -/

/-- all queries that were put, one after the other -/
def asked (p : Pool) : List Query := p.trace.filterMap Mark.query?

/-- an eviction puts no query but to tell somebody of a record that is gone -/
theorem tells?_expiry (hp : p.Reachable) {total : Nat} {pt : RemovalPoint} {b : Bool}
    (hc : p.call? k = some ⟨.removal (.expiry i) total pt, b⟩)
    (hq : (Call.removal (.expiry i) total pt).query p.registry ≠ .nothing) :
    (Call.removal (.expiry i) total pt).tells? p.registry =
      some (.tells ((Call.removal (.expiry i) total pt).query p.registry)) := by
  have htorn : ((Call.removal (.expiry i) total pt).query p.registry).tornDown?.isSome = true := by
    cases pt with
    | starting => exact absurd rfl hq
    | checking left gone =>
      obtain ⟨reason, hreason⟩ := hp.sweeps k _ _ _ _ _ hc
      cases hreason
    | telling queue =>
      cases queue with
      | nil => exact absurd rfl hq
      | cons j rest => rfl
    | hooking hooks queue =>
      cases queue with
      | nil => cases hooks <;> exact absurd rfl hq
      | cons j rest =>
        cases hooks with
        | nil => exact absurd rfl hq
        | cons h hooks => rfl
    | releasing queue =>
      cases queue with
      | nil => exact absurd rfl hq
      | cons j rest => rfl
  obtain ⟨j, hj⟩ := Option.isSome_iff_exists.1 htorn
  exact Call.tells?_of_tornDown? hj

/-- in a run in which evictions are carried out queries are put by these alone -/
theorem asked_step {n : Nat} (hp : p.Reachable) (hm : m.Fires n)
    (hcalls : ∀ k u, n ≤ k → p.call? k = some u → ∃ i total pt, u.call = .removal (.expiry i) total pt) :
    (p.step m).asked = p.asked ++ (m.place?.bind fun k => (beat? k p m).bind Beat.query?).toList := by
  cases m with
  | ask k =>
    simp only [Pool.step, Move.place?, beat?, Option.bind_some]
    cases hc : p.call? k with
    | none => simp
    | some u =>
      obtain ⟨c, b⟩ := u
      cases b with
      | true => simp
      | false =>
        obtain ⟨i, total, pt, hu⟩ := hcalls k _ hm hc
        obtain rfl : c = .removal (.expiry i) total pt := hu
        simp only [if_true]
        split
        · rename_i hq
          simp [Call.tells?, hq, Query.tornDown?]
        · rename_i hq
          rw [tells?_expiry hp hc hq, asked, marks_pose]
          rfl
  | step k reply =>
    have hstep : (p.step (.step k reply)).asked = p.asked := by
      simp only [Pool.step]
      split
      · split
        · exact marks_advance p k _ reply (fun _ => rfl) fun _ _ => rfl
        · rfl
      · rfl
    have hbeat : (beat? k p (.step k reply)).bind Beat.query? = none := by
      cases hx : beat? k p (.step k reply) with
      | none => rfl
      | some x =>
        rcases beat?_eq_some hx with ⟨c, hask, -⟩ | ⟨c, reply', -, -, hread⟩
        · cases hask
        · unfold Call.reads? at hread
          split at hread <;> cases hread
          rfl
    simp [hstep, Move.place?, hbeat]
  | evict e =>
    have h := carries (p := p) hm
    generalize p.step (.evict e) = q at h
    cases h with
    | begins he hdue => simp [asked, Pool.enter, Move.place?]
    | aside hnone ha => simp [asked, ha.trace, Move.place?]
  | reorder cache =>
    simp only [Pool.step]
    split <;> simp [asked, Move.place?]
  | pass d => simp [Pool.step, asked, Move.place?]
  | _ => exact hm.elim

/-- the queries of a run in which evictions are carried out are those of its calls -/
theorem asked_run (hp : p.Reachable) (hf : p.Firing ms) {N : Nat} (hN : (p.run ms).calls.length ≤ N) :
    ((p.run ms).asked : Multiset Query) = p.asked +
      ∑ k ∈ Finset.Ico p.calls.length N, ((p.beats k ms).filterMap Beat.query? : Multiset Query) := by
  induction ms using List.reverseRecOn with
  | nil => simp [beats, seen]; rfl
  | append_singleton ms m ih =>
    have hf' : p.Firing ms := fun m' hm' => hf m' (List.mem_append_left _ hm')
    have hm : m.Fires p.calls.length := hf m (by simp)
    have hlen : (p.run ms).calls.length ≤ N := by
      rw [run_append] at hN
      exact (length_step _ m).trans hN
    have hcalls (k : Nat) (u : Underway) (hk : p.calls.length ≤ k) (hc : (p.run ms).call? k = some u) :
        ∃ i total pt, u.call = .removal (.expiry i) total pt := by
      obtain ⟨i, total, pt, hu, -⟩ := firing_call hf' hk hc
      exact ⟨i, total, pt, hu⟩
    rw [run_append, show (p.run ms).run [m] = (p.run ms).step m from rfl, asked_step (hp.run ms) hm hcalls,
      ← Multiset.coe_add, ih hf' hlen, add_assoc]
    congr 1
    -- of all calls at most the one at the place of the move shows something
    have hadd (k : Nat) : ((p.beats k (ms ++ [m])).filterMap Beat.query? : Multiset Query) =
        (p.beats k ms).filterMap Beat.query? + ((beat? k (p.run ms) m).bind Beat.query?).toList := by
      rw [beats_concat, List.filterMap_append, ← Multiset.coe_add]
      congr 2
      cases beat? k (p.run ms) m with
      | none => rfl
      | some x => cases hx : x.query? <;> simp [hx]
    simp only [hadd, Finset.sum_add_distrib]
    congr 1
    cases hplace : m.place? with
    | none =>
      rw [Finset.sum_eq_zero]
      · rfl
      · intro k hk
        rw [beat?_of_ne (by simp [hplace])]
        rfl
    | some j =>
      rw [Finset.sum_eq_single j]
      · rfl
      · intro k hk hne
        rw [beat?_of_ne (by rw [hplace]; exact fun h => hne (Option.some.inj h).symm)]
        rfl
      · intro hj
        have hnone : beat? j (p.run ms) m = none := by
          rw [Option.eq_none_iff_forall_ne_some]
          intro x hx
          have hlt : j < (p.run ms).calls.length := by
            rcases beat?_eq_some hx with ⟨c, -, hc, -⟩ | ⟨c, reply, -, hc, -⟩ <;> exact lt_of_call? hc
          have hle : p.calls.length ≤ j := by
            cases m with
            | ask k => cases hplace; exact hm
            | step k reply => cases hplace; exact hm
            | _ => cases hplace
          exact hj (Finset.mem_Ico.2 ⟨hle, lt_of_lt_of_le hlt hlen⟩)
        rw [hnone]
        rfl

/-! ## What each of the evictions does -/

/-- nothing is seen of a call before it begins -/
theorem beats_of_length_le (h : (p.run ms).calls.length ≤ k) : p.beats k ms = [] := by
  refine List.eq_nil_iff_forall_not_mem.2 fun x hx => ?_
  obtain ⟨before, m, after, rfl, hbeat⟩ := mem_seen hx
  have hlt : k < (p.run before).calls.length := by
    rcases beat?_eq_some hbeat with ⟨c, -, hc, -⟩ | ⟨c, reply, -, hc, -⟩ <;> exact lt_of_call? hc
  rw [run_append] at h
  exact absurd (length_run (p.run before) (m :: after)) (by omega)

variable {before after : List Move}

theorem beats_of_begun (hk : (p.run before).calls.length = k) :
    p.beats k (before ++ .evict e :: after) = ((p.run before).step (.evict e)).beats k after := by
  rw [beats, seen_append, ← beats, beats_of_length_le hk.le]
  rfl

theorem takenBy_of_begun (hk : (p.run before).calls.length = k) :
    p.TakenBy (before ++ .evict e :: after) k i ↔ ((p.run before).step (.evict e)).TakenBy after k i := by
  induction after using List.reverseRecOn with
  | nil =>
    refine iff_of_false (fun h => ?_) fun h => ?_
    · rcases takenBy_concat.1 h with h | ⟨hm, -⟩
      · exact absurd h.lt (by omega)
      · cases hm
    · obtain ⟨before', m, after', heq, -⟩ := h
      simp at heq
  | append_singleton after m ih =>
    rw [← List.cons_append, ← List.append_assoc, takenBy_concat, takenBy_concat, ih, run_append]
    rfl

/-- the hooks that are told are those registered then -/
theorem hooks_of_beats {hooks : List Nat} (h : .reads i hooks ∈ p.beats k ms) :
    ∃ before m after, ms = before ++ m :: after ∧ hooks = (p.run before).registry.hooks := by
  obtain ⟨before, m, after, rfl, hbeat⟩ := mem_seen h
  refine ⟨before, m, after, rfl, ?_⟩
  rcases beat?_eq_some hbeat with ⟨c, -, -, ht⟩ | ⟨c, reply, -, -, ht⟩
  · unfold Call.tells? at ht
    split at ht <;> cases ht
  · unfold Call.reads? at ht
    split at ht <;> cases ht
    rfl

/-- an eviction takes nothing out and tells nobody, or takes out one record and tears it down -/
theorem beats_finished (hp : p.Reachable) (hf : p.Firing ms) (hfin : p.Finished ms) (hk : p.calls.length ≤ k) :
    (p.beats k ms = [] ∧ ∀ j, ¬ p.TakenBy ms k j) ∨
      ∃ i, p.beats k ms = Visit.script none ⟨i, p.registry.hooks⟩ ∧ ∀ j, p.TakenBy ms k j ↔ j = i := by
  by_cases hlt : k < (p.run ms).calls.length
  · obtain ⟨before, e, after, i, due, rfl, hlen, he, hdue⟩ := exists_begun hf hk hlt
    obtain ⟨before', m', after', -, -, hlapsed⟩ := lapsed_of_begun hp hfin he hdue
    have hbeats : p.beats k (before ++ .evict e :: after) = ((p.run before).step (.evict e)).beats k after :=
      beats_of_begun hlen
    have htaken (j : RecordId) : p.TakenBy (before ++ .evict e :: after) k j ↔
        ((p.run before).step (.evict e)).TakenBy after k j := takenBy_of_begun hlen
    rw [hlen] at hlapsed
    cases hlapsed with
    | late hu hstep hlog hno => exact .inl ⟨hbeats.trans hlog, fun j => (htaken j).not.2 (hno j)⟩
    | @due hooks hu ho hlog hone =>
      have hread : .reads i hooks ∈ p.beats k (before ++ .evict e :: after) := by
        rw [hbeats, hlog]
        simp [Visit.script]
      obtain ⟨b, m, a, hsplit, rfl⟩ := hooks_of_beats hread
      have hhooks : (p.run b).registry.hooks = p.registry.hooks :=
        (spared_run hp fun m' hm' => hf m' (by rw [hsplit]; exact List.mem_append_left _ hm')).hooks
      exact .inr ⟨i, by rw [hbeats, hlog, hhooks], fun j => (htaken j).trans (hone j)⟩
  · exact .inl ⟨beats_of_length_le (Nat.le_of_not_lt hlt), fun j h => hlt h.lt⟩

/-- the record is taken out in the run: it was not undeployed, and its eviction begins -/
theorem taken_iff (hp : p.Reachable) (hf : p.Firing ms) (hfin : p.Finished ms) :
    (∃ k, p.calls.length ≤ k ∧ p.TakenBy ms k i) ↔
      (p.registry.record i).isUndeployed = false ∧ i ∈ (p.fired ms).map Prod.fst := by
  constructor
  · rintro ⟨k, -, ht⟩
    have hu : (p.registry.record i).isUndeployed = false := by
      obtain ⟨before, m, after, rfl, -, hold, -⟩ := ht
      by_contra hu
      have hlate := undeployed_run hp (Bool.not_eq_false _ ▸ hu) before
      rw [(hp.run before).sound.coherent.not_undeployed hold] at hlate
      cases hlate
    refine ⟨hu, ?_⟩
    rcases (spared_run hp hf).state i with hstate | ⟨-, hi⟩
    · have hlate := ht.undeployed hp
      rw [Record.isUndeployed, hstate, ← Record.isUndeployed, hu] at hlate
      cases hlate
    · exact hi
  · rintro ⟨hu, hi⟩
    have hlate := undeployed_of_fired hp hfin hi
    have hcached : p.registry.Caches i := by
      refine (hp.sound.coherent.alive i ?_).1 hu
      obtain ⟨⟨j, due⟩, hmem, rfl⟩ := List.mem_map.1 hi
      exact hp.sound.evictions (j, due) ((spared_run hp hf).evictions.symm.subset (List.mem_append_left _ hmem))
    obtain ⟨before, m, after, hsplit, hold, hnew⟩ := exists_change (P := fun q => q.registry.Caches i) hcached
      fun h => by
        rw [(hp.run ms).sound.coherent.not_undeployed h] at hlate
        cases hlate
    have hm : m.Fires p.calls.length := hf m (by rw [hsplit]; simp)
    by_cases hstep : ∃ k reply, m = .step k reply
    · obtain ⟨k, reply, rfl⟩ := hstep
      exact ⟨k, hm, before, .step k reply, after, hsplit, rfl, hold, hnew⟩
    · obtain ⟨d, hd⟩ := hold
      have hleaves := leaves_of_no_step (p := p.run before) (fun k reply h => hstep ⟨k, reply, h⟩) i
      exact absurd ⟨d, (hleaves.cache d).2 hd⟩ hnew

/-- **who is told in a run of evictions**: of each record that was not undeployed and whose eviction begins, the sink, all
hooks and the context, once -/
theorem asked_finished (hp : p.Reachable) (hf : p.Firing ms) (hfin : p.Finished ms) :
    ((p.run ms).asked : Multiset Query) = p.asked +
      ∑ i ∈ (Finset.range p.registry.records.length).filter fun i =>
        (p.registry.record i).isUndeployed = false ∧ i ∈ (p.fired ms).map Prod.fst,
        (p.registry.farewells i : Multiset Query) := by
  classical
  rw [asked_run hp hf le_rfl]
  congr 1
  -- each call tells about the records that it takes out
  have hcall : ∀ k ∈ Finset.Ico p.calls.length (p.run ms).calls.length,
      ((p.beats k ms).filterMap Beat.query? : Multiset Query) = ∑ i ∈ Finset.range p.registry.records.length,
        if p.TakenBy ms k i then (p.registry.farewells i : Multiset Query) else 0 := by
    intro k hk
    have hle := (Finset.mem_Ico.1 hk).1
    rcases beats_finished hp hf hfin hle with ⟨hlog, hno⟩ | ⟨i, hlog, hone⟩
    · rw [hlog, Finset.sum_eq_zero fun i _ => if_neg (hno i)]
      rfl
    · have hi := ((taken_iff hp hf hfin).1 ⟨k, hle, (hone i).2 rfl⟩).2
      have hlt : i < p.registry.records.length := by
        obtain ⟨⟨j, due⟩, hmem, rfl⟩ := List.mem_map.1 hi
        exact hp.sound.evictions (j, due) ((spared_run hp hf).evictions.symm.subset (List.mem_append_left _ hmem))
      simp only [hone, Finset.sum_ite_eq', Finset.mem_range, hlt, if_true]
      rw [hlog]
      rfl
  rw [Finset.sum_congr rfl hcall, Finset.sum_comm, Finset.sum_filter]
  refine Finset.sum_congr rfl fun i _ => ?_
  -- and a record is taken out by one call at most
  simp only [← taken_iff hp hf hfin]
  split
  · rename_i ht
    obtain ⟨k, hle, ht⟩ := ht
    rw [Finset.sum_eq_single k, if_pos ht]
    · exact fun k' _ hne => if_neg fun ht' => hne (ht'.unique hp ht)
    · exact fun hk => absurd (Finset.mem_Ico.2 ⟨hle, ht.lt⟩) hk
  · rename_i hno
    exact Finset.sum_eq_zero fun k hk => if_neg fun ht => hno ⟨k, (Finset.mem_Ico.1 hk).1, ht⟩

/-! ## Evictions in any order -/

theorem mem_answeredTurns {replies : Nat → Reply} {n : Nat} (h : m ∈ answeredTurns k replies n) : m.place? = some k := by
  induction n generalizing replies with
  | zero => cases h
  | succ n ih =>
    rcases List.mem_cons.1 h with rfl | h
    · rfl
    · rcases List.mem_cons.1 h with rfl | h
      · rfl
      · exact ih h

/-- moves of one call begin no other -/
theorem length_of_own (h : ∀ m ∈ ms, m.place? = some k) : (p.run ms).calls.length = p.calls.length := by
  induction ms generalizing p with
  | nil => rfl
  | cons m ms ih =>
    rw [run_cons, ih fun m' hm' => h m' (List.mem_cons_of_mem _ hm')]
    have hm := h m List.mem_cons_self
    cases hc : p.call? k with
    | none => rw [step_of_ended hm hc]
    | some u =>
      rcases step_self hm hc with hstep | hstep | ⟨reply, -, hstep, -⟩ <;> rw [hstep]
      · simp [Pool.pose]
      · simp [Pool.advance]

theorem fired_of_own (h : ∀ m ∈ ms, m.place? = some k) : p.fired ms = [] := by
  refine List.eq_nil_iff_forall_not_mem.2 fun x hx => ?_
  obtain ⟨before, m, after, rfl, hm⟩ := mem_seen hx
  obtain ⟨e, rfl, -⟩ := firing?_eq_some.1 hm
  cases h (.evict e) (by simp)

theorem firing_of_own (hk : p.calls.length ≤ k) (h : ∀ m ∈ ms, m.place? = some k) : p.Firing ms := by
  intro m hm
  have hplace := h m hm
  cases m with
  | ask j => cases hplace; exact hk
  | step j reply => cases hplace; exact hk
  | _ => cases hplace

theorem now_run (p : Pool) (ms : List Move) : p.now ≤ (p.run ms).now := by
  induction ms generalizing p with
  | nil => exact le_rfl
  | cons m ms ih => exact (now_step p m).trans (ih _)

/-- while nobody holds the lock evictions that are due can be carried out in any order -/
theorem exists_firing (hp : p.Reachable) (hfree : ∀ k u, p.call? k = some u → u.call.holdsLock = false)
    {es : List (RecordId × Nat)} (hdue : ∀ x ∈ es, x.2 ≤ p.now) (hes : es.Subperm p.evictions) :
    ∃ ms, p.Firing ms ∧ p.Finished ms ∧ p.fired ms = es := by
  induction es generalizing p with
  | nil =>
    refine ⟨[], List.forall_mem_nil _, fun k hk => ?_, rfl⟩
    simp [call?, run, List.getElem?_eq_none hk]
  | cons x es ih =>
    obtain ⟨i, due⟩ := x
    have hnow : due ≤ p.now := hdue _ List.mem_cons_self
    obtain ⟨e, he⟩ := List.mem_iff_getElem?.1 (hes.subset List.mem_cons_self)
    have hp₁ := hp.step (.evict e)
    have hcall := call?_evict he hnow
    have hfree₁ : (p.step (.evict e)).isFree p.calls.length = true := by
      rw [isFree_iff, step_evict he hnow]
      intro j u hu hl
      by_contra hj
      rw [call?_enter, if_neg hj] at hu
      rw [hfree j u hu] at hl
      cases hl
    obtain ⟨n, hend⟩ := ended_of_alone hp₁ hcall hfree₁ fun _ => {}
    have hown : ∀ m ∈ answeredTurns p.calls.length (fun _ => ({} : Reply)) n, m.place? = some p.calls.length :=
      fun m => mem_answeredTurns
    generalize answeredTurns p.calls.length (fun _ => ({} : Reply)) n = turns at hend hown
    have hf : p.Firing (.evict e :: turns) := List.forall_mem_cons.2 ⟨trivial, firing_of_own le_rfl hown⟩
    have hfired : p.fired (.evict e :: turns) = [(i, due)] := by
      show (p.firing? (.evict e)).toList ++ (p.step (.evict e)).fired turns = _
      rw [firing?_eq_some.2 ⟨e, rfl, he, hnow⟩, fired_of_own hown]
      rfl
    have hspared := spared_run hp hf
    have hlen : (p.run (.evict e :: turns)).calls.length = p.calls.length + 1 := by
      rw [run_cons, length_of_own hown, step_evict he hnow]
      simp [Pool.enter]
    have hq := hp.run (.evict e :: turns)
    have hnow' : p.now ≤ (p.run (.evict e :: turns)).now := now_run p _
    change (p.run (.evict e :: turns)).Ended p.calls.length at hend
    have hrest : es.Subperm (p.run (.evict e :: turns)).evictions := by
      have h := hes.trans hspared.evictions.subperm
      rw [hfired] at h
      exact (List.subperm_cons _).1 h
    have hfree' (k : Nat) (u : Underway) (hu : (p.run (.evict e :: turns)).call? k = some u) :
        u.call.holdsLock = false := by
      rcases Nat.lt_trichotomy k p.calls.length with hk | rfl | hk
      · rw [hspared.calls k hk] at hu
        exact hfree k u hu
      · rw [hend.2] at hu
        cases hu
      · have := lt_of_call? hu
        omega
    obtain ⟨ms, hf', hfin', hfired'⟩ := ih hq hfree'
      (fun x hx => (hdue x (List.mem_cons_of_mem _ hx)).trans hnow') hrest
    refine ⟨.evict e :: turns ++ ms, ?_, fun k hk => ?_, ?_⟩
    · intro m hm
      rcases List.mem_append.1 hm with hm | hm
      · exact hf m hm
      · exact (hf' m hm).mono (by omega)
    · rw [run_append]
      rcases Nat.eq_or_lt_of_le hk with rfl | hk
      · exact (hend.run ms).2
      · exact hfin' k (by omega)
    · rw [fired, seen_append, ← fired, ← fired, hfired, hfired']
      rfl

/-- **evictions are targeted, and commute**: whatever else happens, the eviction of an undeployed record does nothing but
return, whoever is cached under the identifier of the record; and an eviction that has its turn when the record is not
undeployed takes out that record alone and tells about it once, with no departed member. No move of it touches another
record, or another eviction. Left alone with the lock it ends. Hence, where those that are told call nothing back, the
same evictions lead to the same cache, the same records and the same queries, however often each is put, in whatever order
they begin and however their steps are mixed; and while nobody holds the lock outstanding ones can be carried out in every
order. -/
theorem evictions_commute (hp : p.Reachable) :
    (∀ e i due, p.evictions[e]? = some (i, due) → due ≤ p.now →
      let p₁ := p.step (.evict e)
      let k := p.calls.length
      p₁.registry = p.registry ∧ p₁.call? k = some ⟨.remove (.expiry i), false⟩ ∧
        ((p.registry.record i).isUndeployed = true → ∀ ms m, m.place? = some k →
          (p₁.run ms).step m = p₁.run ms ∨ (p₁.run ms).step m = { p₁.run ms with
            calls := (p₁.run ms).calls.set k none
            trace := (p₁.run ms).trace ++ [Mark.returned k (.removed 0)] }) ∧
        (∀ ms, (p₁.run ms).Ended k →
          ∃ before m after, ms = before ++ m :: after ∧ m.place? = some k ∧ p₁.Lapsed ms k i before m) ∧
        (∀ ms m, m.place? = some k → ((p₁.run ms).step m).evictions = (p₁.run ms).evictions ∧
          ∀ j ≠ i, (p₁.run ms).Leaves m j) ∧
        (p₁.isFree k = true → ∀ replies, ∃ n, (p₁.run (answeredTurns k replies n)).Ended k)) ∧
      (∀ ms ms', p.Firing ms → p.Finished ms → p.Firing ms' → p.Finished ms' → (p.fired ms).Perm (p.fired ms') →
        (p.run ms).registry.cache.Perm (p.run ms').registry.cache ∧
          (p.run ms).registry.records = (p.run ms').registry.records ∧
          (p.run ms).evictions.Perm (p.run ms').evictions ∧ (p.run ms).asked.Perm (p.run ms').asked) ∧
      ((∀ k u, p.call? k = some u → u.call.holdsLock = false) → ∀ es, es.Subperm p.evictions →
        ∃ ms, p.Firing ms ∧ p.Finished ms ∧ p.fired ms = es) := by
  refine ⟨?_, ?_, ?_⟩
  · intro e i due he hdue p₁ k
    have hp₁ : p₁.Reachable := hp.step _
    have hcall : p₁.call? k = some ⟨.remove (.expiry i), false⟩ := call?_evict he hdue
    have hreg : p₁.registry = p.registry := by
      simp only [p₁, step_evict he hdue]
      rfl
    refine ⟨hreg, hcall, ?_, fun ms => exists_lapsed hp₁ hcall, ?_, ended_of_alone hp₁ hcall⟩
    · intro hu ms m hm
      rw [← hreg] at hu
      rcases late_run hp₁ hcall hu ms with hc | hend
      · exact late_step hc (undeployed_run hp₁ hu ms) hm
      · exact .inl (step_of_ended hm hend.2)
    · intro ms m hm
      obtain ⟨hev, hleaves, -⟩ := own_frame hp₁ (tearing_run hp₁ hcall rfl ms) hm
      exact ⟨hev, fun j hj => hleaves j fun ht => hj (takenBy_expiry hp₁ hcall ht)⟩
  · intro ms ms' hf hfin hf' hfin' hperm
    have hsame (i : RecordId) : i ∈ (p.fired ms).map Prod.fst ↔ i ∈ (p.fired ms').map Prod.fst :=
      (hperm.map Prod.fst).mem_iff
    have hrecords := records_finished hp hf hfin hf' hfin' hsame
    refine ⟨cache_perm (hp.run ms).sound.coherent (hp.run ms').sound.coherent hrecords, hrecords, ?_, ?_⟩
    · have h := (spared_run hp hf).evictions.symm.trans (spared_run hp hf').evictions
      exact (List.perm_append_left_iff _).1 (h.trans (hperm.symm.append_right _))
    · rw [← Multiset.coe_eq_coe, asked_finished hp hf hfin, asked_finished hp hf' hfin']
      simp only [hsame]
  · intro hfree es hes
    obtain ⟨d, hd⟩ : ∃ d, ∀ x ∈ es, x.2 ≤ d :=
      ⟨(es.map Prod.snd).sum, fun x hx => List.le_sum_of_mem (List.mem_map_of_mem hx)⟩
    obtain ⟨ms, hf, hfin, hfired⟩ := exists_firing (p := p.step (.pass d)) (hp.step _) hfree
      (fun x hx => (hd x hx).trans (Nat.le_add_left _ _)) hes
    exact ⟨.pass d :: ms, List.forall_mem_cons.2 ⟨trivial, hf⟩, hfin, hfired⟩

/-- a record is superseded, leaves with its sender, and is made anew under its identifier, where it is superseded again:
then both evictions are due, and only the second has anything to do -/
theorem expired_in_either_order :
    let x : Request := { id := ⟨"x"⟩, sender := ⟨"s"⟩, seq := 1, moduleAlias := "a" }
    let y : Request := { id := ⟨"y"⟩, sender := ⟨"s"⟩, seq := 2, moduleAlias := "a" }
    let made : Reply := { module := .ok ⟨"m", false⟩ }
    let p := (new 100).run (.addHook 7 ::
      .enter (.request x true .entering) :: turns 0 made 8 ++ .enter (.request y true .entering) :: turns 1 made 8 ++
      .enter (.remove (.departure ⟨"s"⟩)) :: turns 2 {} 8 ++
      .enter (.request x true .entering) :: turns 3 made 8 ++ .enter (.request y true .entering) :: turns 4 made 8 ++
      ([.pass 100] : List Move))
    let late : List Move := .evict 0 :: turns 5 {} 1
    let ms : List Move := late ++ .evict 0 :: turns 6 {} 4
    let ms' : List Move := .evict 1 :: turns 5 {} 4 ++ .evict 0 :: turns 6 {} 1
    p.evictions = [(0, 100), (2, 100)] ∧ (p.registry.record 0).isUndeployed = true ∧
      p.registry.lookup? ⟨"x"⟩ = some 2 ∧ (p.run late).registry = p.registry ∧
      (p.run ms).registry.records = (p.run ms').registry.records ∧
      (p.run ms).registry.cache.Perm (p.run ms').registry.cache ∧ (p.run ms).asked.Perm (p.run ms').asked ∧
      ¬ (p.run ms).registry.Caches 2 ∧ (p.run ms).asked = p.asked ++ p.registry.farewells 2 := by
  intro x y made p late ms ms'
  have hp : p.Reachable := ⟨100, _, rfl⟩
  have hev : p.evictions = [(0, 100), (2, 100)] := by decide +kernel
  have hu : (p.registry.record 0).isUndeployed = true := by decide +kernel
  have hcached : p.registry.lookup? ⟨"x"⟩ = some 2 := by decide +kernel
  have hlate : (p.run late).registry = p.registry := by decide +kernel
  have hlen : p.calls.length = 5 := by decide +kernel
  have hends : (p.run ms).calls.drop 5 = [none, none] ∧ (p.run ms').calls.drop 5 = [none, none] := by decide +kernel
  have hfired : p.fired ms = [(0, 100), (2, 100)] ∧ p.fired ms' = [(2, 100), (0, 100)] := by decide +kernel
  have hleft : (p.run ms).registry.cache.map Prod.snd = [3] := by decide +kernel
  have hasked : (p.run ms).asked = p.asked ++ p.registry.farewells 2 := by decide +kernel
  have hfires : (∀ m ∈ ms, m.Fires 5) ∧ ∀ m ∈ ms', m.Fires 5 := by
    constructor <;> simp [ms, ms', late, turns, Move.Fires]
  have hnone {ms : List Move} (h : (p.run ms).calls.drop 5 = [none, none]) (k : Nat) (hk : 5 ≤ k) :
      (p.run ms).call? k = none := by
    obtain ⟨j, rfl⟩ := Nat.exists_eq_add_of_le hk
    rw [call?, ← List.getElem?_drop, h]
    rcases j with _ | _ | j <;> rfl
  rw [← hlen] at hfires hends hnone
  clear_value p ms ms' late
  obtain ⟨-, hsame, -⟩ := evictions_commute hp
  obtain ⟨hcache, hrecords, -, hperm⟩ := hsame ms ms' hfires.1 (hnone hends.1) hfires.2 (hnone hends.2)
    (by rw [hfired.1, hfired.2]; exact List.Perm.swap _ _ _)
  refine ⟨hev, hu, hcached, hlate, hrecords, hcache, hperm, ?_, hasked⟩
  rintro ⟨d, hd⟩
  have hmem := List.mem_map_of_mem (f := Prod.snd) hd
  rw [hleft] at hmem
  simp at hmem

end Pool

end Redeploy
