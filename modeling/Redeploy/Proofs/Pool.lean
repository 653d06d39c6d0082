/-
Runs of a pool, move by move.

`Moved p m p'` lists what a move can do, with what made it possible; an invariant is one case analysis over it, and
`Reachable.induct` carries it through every run. A call keeps its place until it ends, and a place is never given to
another call, so what a move at one place does to the calls of others is nothing.

Results:
- `step_moved`: every move is one of `Moved`;
- `call?_run_of_elsewhere`: moves elsewhere leave a call alone;
- `Reachable.settled`: a call has returned one outcome exactly when it has ended;
- `Reachable.sound`: the cache is coherent, and evictions and removals are about records ever made;
- `Reachable.locked`: one call at most holds the lock, and while a request does the registry is not stopped.
-/
import Redeploy.Proofs.Call
import Redeploy.Deployment.Pool

namespace Redeploy

open Registry

namespace Pool

/-! ## Runs -/

theorem run_cons (p : Pool) (m : Move) (ms : List Move) : p.run (m :: ms) = (p.step m).run ms := rfl

theorem run_append (p : Pool) (ms ms' : List Move) : p.run (ms ++ ms') = (p.run ms).run ms' := by
  simp [run, List.foldl_append]

theorem Reachable.run {p : Pool} (hp : p.Reachable) (ms : List Move) : (p.run ms).Reachable := by
  obtain ⟨timeout, before, rfl⟩ := hp
  exact ⟨timeout, before ++ ms, (run_append _ _ _).symm⟩

theorem Reachable.step {p : Pool} (hp : p.Reachable) (m : Move) : (p.step m).Reachable := hp.run [m]

/-- the moves of a call that is left alone: so many times it puts its query and does a step -/
def turns (k : Nat) (reply : Reply) : Nat → List Move
  | 0 => []
  | n + 1 => .ask k :: .step k reply :: turns k reply n

/-- what holds at first and is kept by every move holds of every reachable pool -/
theorem Reachable.induct {P : Pool → Prop} (hnew : ∀ timeout, P (new timeout))
    (hstep : ∀ p m, p.Reachable → P p → P (p.step m)) {p : Pool} (hp : p.Reachable) : P p := by
  obtain ⟨timeout, ms, rfl⟩ := hp
  induction ms using List.reverseRecOn with
  | nil => exact hnew timeout
  | append_singleton ms m ih =>
    rw [run_append]
    exact hstep _ m ⟨timeout, ms, rfl⟩ ih

/-! ## What a move can be -/

/-- the place of the call that a move is about -/
def Move.place? : Move → Option Nat
  | .ask k => some k
  | .step k _ => some k
  | _ => none

/-- the pools differ in what no record and no call depends on -/
structure Aside (p p' : Pool) : Prop where
  records : p'.registry.records = p.registry.records
  cache : p'.registry.cache.Perm p.registry.cache
  stopped : p'.registry.stopped = p.registry.stopped
  timeout : p'.registry.timeout = p.registry.timeout
  started : p'.registry.started = p.registry.started
  calls : p'.calls = p.calls
  evictions : p'.evictions = p.evictions
  trace : p'.trace = p.trace
  now : p.now ≤ p'.now

inductive Moved (p : Pool) : Move → Pool → Prop
  /-- a move that is not possible -/
  | idle (m : Move) : Moved p m p
  | enter {c : Call} (hc : c.IsNew p.registry = true) : Moved p (.enter c) (p.enter c)
  | ask {k : Nat} {c : Call} (hc : p.call? k = some ⟨c, false⟩) (hq : c.query p.registry ≠ .nothing) :
    Moved p (.ask k) (p.pose k c)
  | step {k : Nat} {u : Underway} {reply : Reply} (hc : p.call? k = some u)
    (hready : u.asking = true ∨ u.call.query p.registry = .nothing)
    (hlock : u.call.needsLock = true → p.isFree k = true) : Moved p (.step k reply) (p.advance k u.call reply)
  | evict {k : Nat} {i : RecordId} {due : Nat} (he : p.evictions[k]? = some (i, due)) (hdue : due ≤ p.now) :
    Moved p (.evict k) ({ p with evictions := p.evictions.eraseIdx k }.enter (.remove (.expiry i)))
  /-- time passes, or something is set that no call under way waits for -/
  | aside {m : Move} {p' : Pool} (hm : m.place? = none) (h : p.Aside p') : Moved p m p'

theorem step_moved (p : Pool) (m : Move) : Moved p m (p.step m) := by
  cases m with
  | enter c =>
    simp only [Pool.step]
    split
    · rename_i h
      exact .enter h
    · exact .idle _
  | ask k =>
    simp only [Pool.step]
    split
    · rename_i c hc
      split
      · exact .idle _
      · rename_i hq
        exact .ask hc hq
    · exact .idle _
  | step k reply =>
    simp only [Pool.step]
    split
    · rename_i c asking hc
      split
      · rename_i h
        simp only [Bool.and_eq_true, Bool.or_eq_true, beq_iff_eq, Bool.not_eq_true'] at h
        refine .step hc h.1 ?_
        intro hl
        rcases h.2 with h | h
        · exact absurd hl (by simp [h])
        · exact h
      · exact .idle _
    · exact .idle _
  | evict k =>
    simp only [Pool.step]
    split
    · rename_i i due he
      split
      · rename_i hdue
        exact .evict he hdue
      · exact .idle _
    · exact .idle _
  | reorder cache =>
    simp only [Pool.step]
    split
    · rename_i hc
      exact .aside rfl ⟨rfl, hc, rfl, rfl, rfl, rfl, rfl, rfl, le_rfl⟩
    · exact .idle _
  | addHook h => exact .aside rfl ⟨rfl, List.Perm.refl _, rfl, rfl, rfl, rfl, rfl, rfl, le_rfl⟩
  | setDefaultParent label => exact .aside rfl ⟨rfl, List.Perm.refl _, rfl, rfl, rfl, rfl, rfl, rfl, le_rfl⟩
  | pass ms => exact .aside rfl ⟨rfl, List.Perm.refl _, rfl, rfl, rfl, rfl, rfl, rfl, Nat.le_add_right _ _⟩

/-- a step at rest orders no eviction -/
theorem evictions_rest {p : Pool} {es : List Effect} (h : AtRest es) :
    es.filterMap (Effect.eviction? p.now) = [] := by
  rw [List.filterMap_eq_nil_iff]
  intro e he
  have hw := h e he
  cases e <;> simp_all [Effect.isWork, Effect.eviction?]

/-- nothing that was done is taken back -/
theorem trace_step {p : Pool} {m : Move} {x : Mark} (h : x ∈ p.trace) : x ∈ (p.step m).trace := by
  have hm := step_moved p m
  generalize p.step m = p' at hm
  cases hm with
  | ask hc hq => exact List.mem_append_left _ h
  | step hc hready hlock => exact List.mem_append_left _ (List.mem_append_left _ h)
  | aside hm ha => rw [ha.trace]; exact h
  | _ => exact h

/-! ## Places -/

/-- none of the moves is about the call at the place -/
def Elsewhere (k : Nat) (ms : List Move) : Prop := ∀ m ∈ ms, m.place? ≠ some k

/-- there was a call at the place, and it has ended -/
def Ended (p : Pool) (k : Nat) : Prop := k < p.calls.length ∧ p.call? k = none

theorem call?_eq_some {p : Pool} {k : Nat} {u : Underway} : p.call? k = some u ↔ p.calls[k]? = some (some u) := by
  unfold call?
  cases h : p.calls[k]? with
  | none => simp
  | some x => simp

theorem lt_of_call? {p : Pool} {k : Nat} {u : Underway} (h : p.call? k = some u) : k < p.calls.length := by
  by_contra hk
  rw [call?_eq_some, List.getElem?_eq_none (Nat.le_of_not_lt hk)] at h
  cases h

theorem not_ended {p : Pool} {k : Nat} {u : Underway} (hc : p.call? k = some u) : ¬ p.Ended k := by
  rintro ⟨-, h⟩
  rw [h] at hc
  cases hc

theorem join_getElem?_set (l : List (Option Underway)) (k j : Nat) (x : Option Underway) :
    (l.set k x)[j]?.join = if j = k ∧ k < l.length then x else l[j]?.join := by
  rw [List.getElem?_set]
  by_cases hj : k = j
  · subst hj
    by_cases hk : k < l.length
    · simp [hk]
    · simp [hk]
  · simp [hj, Ne.symm hj]

theorem join_getElem?_append (l : List (Option Underway)) (j : Nat) (x : Option Underway) :
    (l ++ [x])[j]?.join = if j = l.length then x else l[j]?.join := by
  rcases Nat.lt_trichotomy j l.length with h | rfl | h
  · simp [List.getElem?_append_left h, h.ne]
  · simp
  · rw [List.getElem?_eq_none (by simp; omega), List.getElem?_eq_none h.le]
    simp [h.ne']

theorem underway?_eq_some {n : Next} {c : Call} {u : Underway} :
    n.underway? c = some u ↔ u.asking = false ∧ (n = .go u.call ∨ n = .wait ∧ u.call = c) := by
  obtain ⟨c', asking⟩ := u
  cases n <;> simp [Next.underway?, eq_comm, and_comm]

theorem call?_advance {p : Pool} {k : Nat} {u : Underway} (hc : p.call? k = some u) (reply : Reply) (j : Nat) :
    (p.advance k u.call reply).call? j =
      if j = k then
        (u.call.advance p.registry { reply with now := p.now }).next.underway? u.call
      else p.call? j := by
  simp [call?, Pool.advance, join_getElem?_set, lt_of_call? hc]

theorem call?_pose {p : Pool} {k : Nat} {u : Underway} (hc : p.call? k = some u) (c : Call) (j : Nat) :
    (p.pose k c).call? j = if j = k then some ⟨c, true⟩ else p.call? j := by
  simp [call?, Pool.pose, join_getElem?_set, lt_of_call? hc]

theorem call?_enter (p : Pool) (c : Call) (j : Nat) :
    (p.enter c).call? j = if j = p.calls.length then some { call := c } else p.call? j := by
  simp [call?, Pool.enter, join_getElem?_append]

theorem Aside.call? {p p' : Pool} (h : p.Aside p') (j : Nat) : p'.call? j = p.call? j := by
  simp [Pool.call?, h.calls]

theorem Aside.record {p p' : Pool} (h : p.Aside p') (i : RecordId) : p'.registry.record i = p.registry.record i := by
  simp [Registry.record, Registry.record?, h.records]

theorem length_step (p : Pool) (m : Move) : p.calls.length ≤ (p.step m).calls.length := by
  have h := step_moved p m
  generalize p.step m = p' at h
  cases h with
  | aside hm h => rw [h.calls]
  | _ => simp [Pool.enter, Pool.advance, Pool.pose]

theorem length_run (p : Pool) (ms : List Move) : p.calls.length ≤ (p.run ms).calls.length := by
  induction ms generalizing p with
  | nil => exact le_rfl
  | cons m ms ih => exact (length_step p m).trans (ih (p.step m))

/-- a move that is not about a place leaves the call there as it is -/
theorem call?_step_of_ne {p : Pool} {m : Move} {k : Nat} (hm : m.place? ≠ some k) (hk : k < p.calls.length) :
    (p.step m).call? k = p.call? k := by
  have h := step_moved p m
  generalize p.step m = p' at h
  cases h with
  | enter hc => rw [call?_enter, if_neg hk.ne]
  | evict he hdue => rw [call?_enter, if_neg hk.ne]; rfl
  | @ask j c hc hq =>
    have hne : k ≠ j := fun h => hm (by rw [h]; rfl)
    rw [call?_pose hc, if_neg hne]
  | @step j u reply hc hready hlock =>
    have hne : k ≠ j := fun h => hm (by rw [h]; rfl)
    rw [call?_advance hc, if_neg hne]
  | aside _ h => exact h.call? k
  | idle => rfl

theorem call?_run_of_elsewhere {k : Nat} {ms : List Move} (hms : Elsewhere k ms) {p : Pool} (hk : k < p.calls.length) :
    (p.run ms).call? k = p.call? k := by
  induction ms generalizing p with
  | nil => rfl
  | cons m ms ih =>
    rw [run_cons, ih (fun m' h => hms m' (List.mem_cons_of_mem _ h)) (lt_of_lt_of_le hk (length_step p m)),
      call?_step_of_ne (hms m List.mem_cons_self) hk]

/-- a move about the place of an ended call does nothing -/
theorem step_of_ended {p : Pool} {m : Move} {k : Nat} (hm : m.place? = some k) (h : p.call? k = none) :
    p.step m = p := by
  cases m with
  | ask j =>
    obtain rfl := Option.some.inj hm
    simp [Pool.step, h]
  | step j reply =>
    obtain rfl := Option.some.inj hm
    simp [Pool.step, h]
  | _ => cases hm

/-- a call that has ended stays so -/
theorem Ended.step {p : Pool} {k : Nat} (h : p.Ended k) (m : Move) : (p.step m).Ended k := by
  refine ⟨lt_of_lt_of_le h.1 (length_step p m), ?_⟩
  by_cases hm : m.place? = some k
  · rw [step_of_ended hm h.2]
    exact h.2
  · rw [call?_step_of_ne hm h.1]
    exact h.2

theorem Ended.run {p : Pool} {k : Nat} (h : p.Ended k) (ms : List Move) : (p.run ms).Ended k := by
  induction ms generalizing p with
  | nil => exact h
  | cons m ms ih => exact ih (h.step m)

/-! ## Outcomes -/

/-- the call at the place has returned that -/
def Returned (p : Pool) (k : Nat) (o : Outcome) : Prop := Mark.returned k o ∈ p.trace

instance (p : Pool) (k : Nat) (o : Outcome) : Decidable (p.Returned k o) := inferInstanceAs (Decidable (_ ∈ _))

theorem returned_advance {p : Pool} {k : Nat} {c : Call} {reply : Reply} {j : Nat} {o : Outcome} :
    (p.advance k c reply).Returned j o ↔
      p.Returned j o ∨ j = k ∧ (c.advance p.registry { reply with now := p.now }).next = .done o := by
  simp only [Returned, Pool.advance, List.mem_append, List.mem_map, reduceCtorEq, and_false, exists_false, or_false]
  cases (c.advance p.registry { reply with now := p.now }).next <;> simp [Next.marks, eq_comm]

/-- the outcomes of ended calls are in the trace, one for each, and no others are -/
structure Settled (p : Pool) : Prop where
  ended : ∀ k, p.Ended k → ∃ o, p.Returned k o
  returned : ∀ k o, p.Returned k o → p.Ended k
  unique : ∀ k o o', p.Returned k o → p.Returned k o' → o = o'

theorem settled_enter {p : Pool} (h : p.Settled) (c : Call) : (p.enter c).Settled := by
  refine ⟨?_, ?_, h.unique⟩
  · intro j hj
    have hn := hj.2
    have hlt := hj.1
    simp only [Pool.enter, List.length_append, List.length_singleton] at hlt
    rw [call?_enter] at hn
    split at hn
    · cases hn
    · exact h.ended j ⟨by omega, hn⟩
  · intro j o hr
    have hj := h.returned j o hr
    refine ⟨by simp [Pool.enter]; have := hj.1; omega, ?_⟩
    rw [call?_enter, if_neg hj.1.ne]
    exact hj.2

theorem settled_pose {p : Pool} (h : p.Settled) {k : Nat} {c : Call} (hc : p.call? k = some ⟨c, false⟩) :
    (p.pose k c).Settled := by
  have hret : ∀ j o, (p.pose k c).Returned j o ↔ p.Returned j o := by
    intro j o
    simp [Returned, Pool.pose]
  have hend : ∀ j, (p.pose k c).Ended j ↔ p.Ended j := by
    intro j
    unfold Ended
    rw [call?_pose hc]
    by_cases hj : j = k
    · subst hj
      simp [hc]
    · simp [hj, Pool.pose]
  refine ⟨?_, ?_, ?_⟩
  · intro j hj
    obtain ⟨o, ho⟩ := h.ended j ((hend j).1 hj)
    exact ⟨o, (hret j o).2 ho⟩
  · intro j o hr
    exact (hend j).2 (h.returned j o ((hret j o).1 hr))
  · intro j o o' hr hr'
    exact h.unique j o o' ((hret j o).1 hr) ((hret j o').1 hr')

theorem settled_advance {p : Pool} (h : p.Settled) {k : Nat} {u : Underway} (hc : p.call? k = some u) (reply : Reply) :
    (p.advance k u.call reply).Settled := by
  have hlive : ¬ p.Ended k := not_ended hc
  have hcall := call?_advance hc reply
  have hlen : (p.advance k u.call reply).calls.length = p.calls.length := by simp [Pool.advance]
  have hk : k < p.calls.length := lt_of_call? hc
  refine ⟨?_, ?_, ?_⟩
  · intro j hj
    have hn := hj.2
    rw [hcall] at hn
    by_cases hjk : j = k
    · rw [if_pos hjk] at hn
      cases hnext : (u.call.advance p.registry { reply with now := p.now }).next with
      | done o => exact ⟨o, returned_advance.2 (.inr ⟨hjk, hnext⟩)⟩
      | go c' => rw [hnext] at hn; cases hn
      | wait => rw [hnext] at hn; cases hn
    · rw [if_neg hjk] at hn
      obtain ⟨o, ho⟩ := h.ended j ⟨hlen ▸ hj.1, hn⟩
      exact ⟨o, returned_advance.2 (.inl ho)⟩
  · intro j o hr
    rcases returned_advance.1 hr with hr | ⟨hjk, hnext⟩
    · have hj := h.returned j o hr
      refine ⟨hlen.symm ▸ hj.1, ?_⟩
      have hjk : j ≠ k := by
        rintro rfl
        exact hlive hj
      rw [hcall, if_neg hjk]
      exact hj.2
    · refine ⟨by rw [hlen, hjk]; exact hk, ?_⟩
      rw [hcall, if_pos hjk, hnext]
      rfl
  · intro j o o' hr hr'
    rcases returned_advance.1 hr with hr | ⟨hjk, hnext⟩
    · rcases returned_advance.1 hr' with hr' | ⟨hjk, -⟩
      · exact h.unique j o o' hr hr'
      · exact absurd (h.returned j o hr) (hjk ▸ hlive)
    · rcases returned_advance.1 hr' with hr' | ⟨-, hnext'⟩
      · exact absurd (h.returned j o' hr') (hjk ▸ hlive)
      · exact Next.done.inj (hnext.symm.trans hnext')

theorem settled_step {p : Pool} (h : p.Settled) (m : Move) : (p.step m).Settled := by
  have hm := step_moved p m
  generalize p.step m = p' at hm
  cases hm with
  | enter hc => exact settled_enter h _
  | @evict k i due he hdue =>
    have hp : Settled { p with evictions := p.evictions.eraseIdx k } := ⟨h.ended, h.returned, h.unique⟩
    exact settled_enter hp _
  | ask hc hq => exact settled_pose h hc
  | step hc hready hlock => exact settled_advance h hc _
  | aside hm ha =>
    obtain ⟨h₁, h₂, h₃⟩ := h
    constructor <;> simp only [Ended, Returned, call?, ha.calls, ha.trace]
    · exact h₁
    · exact h₂
    · exact h₃
  | idle => exact h

theorem settled_new (timeout : Nat) : (new timeout).Settled := by
  refine ⟨?_, ?_, ?_⟩
  · intro k h
    exact absurd h.1 (Nat.not_lt_zero k)
  · intro k o h
    cases h
  · intro k o o' h
    cases h

theorem Reachable.settled {p : Pool} (hp : p.Reachable) : p.Settled :=
  hp.induct settled_new fun _ m _ h => settled_step h m

/-! ## Records -/

/-- the cache is coherent, and evictions and removals are about records ever made -/
structure Sound (p : Pool) : Prop where
  coherent : p.registry.Coherent
  evictions : ∀ e ∈ p.evictions, e.1 < p.registry.records.length
  named : ∀ k u, p.call? k = some u → ∀ i ∈ u.call.names, i < p.registry.records.length

theorem names_of_isNew {g : Registry} {c : Call} (h : c.IsNew g = true) : c.names = [] := by
  unfold Call.IsNew at h
  split at h
  · rfl
  · rfl
  · cases h
  · cases h
  · rename_i cause hne _
    cases cause with
    | expiry i => exact absurd rfl (hne i)
    | _ => rfl
  · rfl
  · cases h

theorem holdsLock_of_isNew {g : Registry} {c : Call} (h : c.IsNew g = true) : c.holdsLock = false := by
  unfold Call.IsNew at h
  split at h <;> first | rfl | cases h

theorem sound_enter {p : Pool} (h : p.Sound) {c : Call} (hc : ∀ i ∈ c.names, i < p.registry.records.length) :
    (p.enter c).Sound := by
  refine ⟨h.coherent, h.evictions, ?_⟩
  intro k u hu
  rw [call?_enter] at hu
  split at hu
  · cases hu
    exact hc
  · exact h.named k u hu

/-- what a step of a call does to a sound pool -/
theorem Sound.does {p : Pool} (h : p.Sound) {k : Nat} {u : Underway} (hc : p.call? k = some u) (reply : Reply) :
    ∃ born gone claimed, Call.Does p.registry { reply with now := p.now } u.call born gone claimed
      (u.call.advance p.registry { reply with now := p.now }) :=
  Call.advance_does h.coherent (h.named k u hc) _

theorem sound_advance {p : Pool} (h : p.Sound) {k : Nat} {u : Underway} (hc : p.call? k = some u) (reply : Reply) :
    (p.advance k u.call reply).Sound := by
  obtain ⟨born, gone, claimed, hd⟩ := h.does hc reply
  have he := hd.evolves h.coherent (h.named k u hc)
  have hlen : (p.advance k u.call reply).registry.records.length = p.registry.records.length + born := he.length
  refine ⟨he.coherent, ?_, ?_⟩
  · intro e hmem
    rw [hlen]
    rcases List.mem_append.1 hmem with hmem | hmem
    · exact Nat.lt_add_right born (h.evictions e hmem)
    · obtain ⟨effect, heff, hsome⟩ := List.mem_filterMap.1 hmem
      cases effect <;> simp only [Effect.eviction?, reduceCtorEq, Option.some.injEq] at hsome
      subst hsome
      exact hd.schedule_lt h.coherent heff
  · intro j v hv i hi
    rw [hlen]
    rw [call?_advance hc] at hv
    split at hv
    · obtain ⟨-, hn | ⟨-, hn⟩⟩ := underway?_eq_some.1 hv
      · rcases hd.names hn i hi with hi | hi
        · exact Nat.lt_add_right born (h.named k u hc i hi)
        · exact Nat.lt_add_right born (h.coherent.lt (he.cached i hi))
      · rw [hn] at hi
        exact Nat.lt_add_right born (h.named k u hc i hi)
    · exact Nat.lt_add_right born (h.named j v hv i hi)

theorem sound_step {p : Pool} (h : p.Sound) (m : Move) : (p.step m).Sound := by
  have hm := step_moved p m
  generalize p.step m = p' at hm
  cases hm with
  | enter hc => exact sound_enter h (by simp [names_of_isNew hc])
  | ask hc hq =>
    refine ⟨h.coherent, h.evictions, ?_⟩
    intro j v hv
    rw [call?_pose hc] at hv
    split at hv
    · cases hv
      exact h.named _ ⟨_, false⟩ hc
    · exact h.named j v hv
  | step hc hready hlock => exact sound_advance h hc _
  | @evict k i due he hdue =>
    have hp : Sound { p with evictions := p.evictions.eraseIdx k } :=
      ⟨h.coherent, fun e he' => h.evictions e (List.mem_of_mem_eraseIdx he'), h.named⟩
    refine sound_enter hp ?_
    intro j hj
    simp only [Call.remove, Call.names, RemovalPoint.queue, List.mem_singleton] at hj
    rw [hj]
    exact h.evictions _ (List.mem_of_getElem? he)
  | aside hm ha =>
    refine ⟨(evolves_flags h.coherent ha.cache ha.records).coherent, ?_, ?_⟩
    · rw [ha.evictions, ha.records]
      exact h.evictions
    · intro j v hv
      rw [ha.records]
      exact h.named j v (ha.call? j ▸ hv)
  | idle => exact h

theorem sound_new (timeout : Nat) : (new timeout).Sound := by
  refine ⟨coherent_new timeout, ?_, ?_⟩
  · intro e h
    cases h
  · intro k u h
    cases h

theorem Reachable.sound {p : Pool} (hp : p.Reachable) : p.Sound :=
  hp.induct sound_new fun _ m _ h => sound_step h m

/-! ## The lock -/

theorem isFree_iff {p : Pool} {k : Nat} :
    p.isFree k = true ↔ ∀ j u, p.call? j = some u → u.call.holdsLock = true → j = k := by
  simp only [isFree, List.all_eq_true, Prod.forall, Bool.or_eq_true, beq_iff_eq, Bool.not_eq_true', call?_eq_some]
  constructor
  · intro h j u hu hl
    rcases h (some u) j (List.mem_zipIdx_iff_getElem?.2 hu) with h | h
    · exact h
    · simp [hl] at h
  · intro h x j hx
    have hx := List.mem_zipIdx_iff_getElem?.1 hx
    cases x with
    | none => exact .inr rfl
    | some u =>
      cases hl : u.call.holdsLock with
      | false => exact .inr (by simp [hl])
      | true => exact .inl (h j u hx hl)

/-- one call at most holds the lock, and a request that holds it was let in by a registry that is not stopped -/
structure Locked (p : Pool) : Prop where
  sole : ∀ j k u v, p.call? j = some u → p.call? k = some v → u.call.holdsLock = true → v.call.holdsLock = true → j = k
  unstopped : ∀ k u, p.call? k = some u → u.call.isInside = true → p.registry.stopped = false

theorem locked_advance {p : Pool} (h : p.Locked) {k : Nat} {u : Underway} (hc : p.call? k = some u) (reply : Reply)
    (hlock : u.call.needsLock = true → p.isFree k = true) : (p.advance k u.call reply).Locked := by
  have hcall := call?_advance hc reply
  -- whoever holds the lock afterwards, the call of the step may not hold it unless it is alone
  have hsole : ∀ j v, j ≠ k → p.call? j = some v → v.call.holdsLock = true → ∀ w,
      (p.advance k u.call reply).call? k = some w → w.call.holdsLock = true → False := by
    intro j v hj hv hl w hw hlw
    rw [hcall, if_pos rfl] at hw
    have hheld : u.call.holdsLock = true ∨ u.call.needsLock = true := by
      obtain ⟨-, hn | ⟨-, hn⟩⟩ := underway?_eq_some.1 hw
      · exact Call.holdsLock_next hn hlw
      · exact .inl (hn ▸ hlw)
    rcases hheld with hheld | hneed
    · exact hj (h.sole j k v u hv hc hl hheld)
    · exact hj (isFree_iff.1 (hlock hneed) j v hv hl)
  refine ⟨?_, ?_⟩
  · intro i j v w hv hw hlv hlw
    by_cases hi : i = k <;> by_cases hj : j = k
    · rw [hi, hj]
    · subst hi
      rw [hcall, if_neg hj] at hw
      exact (hsole j w hj hw hlw v hv hlv).elim
    · subst hj
      rw [hcall, if_neg hi] at hv
      exact (hsole i v hi hv hlv w hw hlw).elim
    · rw [hcall, if_neg hi] at hv
      rw [hcall, if_neg hj] at hw
      exact h.sole i j v w hv hw hlv hlw
  · intro j v hv hin
    show (u.call.advance p.registry _).registry.stopped = false
    rw [Call.advance_stopped, Bool.or_eq_false_iff]
    by_cases hj : j = k
    · subst hj
      rw [hcall, if_pos rfl] at hv
      obtain ⟨-, hn | ⟨-, hn⟩⟩ := underway?_eq_some.1 hv
      · obtain ⟨hs, hin | hopen⟩ := Call.isInside_next hn hin
        · exact ⟨h.unstopped j u hc hin, hs⟩
        · exact ⟨hopen, hs⟩
      · rw [hn] at hin
        exact ⟨h.unstopped j u hc hin, Call.stops_of_isInside hin⟩
    · -- the registry is stopped under the lock only, which the other request holds
      rw [hcall, if_neg hj] at hv
      refine ⟨h.unstopped j v hv hin, Bool.eq_false_iff.2 fun hs => hj ?_⟩
      exact isFree_iff.1 (hlock (Call.needsLock_of_stops hs)) j v hv (Call.holdsLock_of_isInside hin)

theorem locked_step {p : Pool} (h : p.Locked) (m : Move) : (p.step m).Locked := by
  have hm := step_moved p m
  generalize p.step m = p' at hm
  have henter {p : Pool} (h : p.Locked) {c : Call} (hc : c.holdsLock = false) : (p.enter c).Locked := by
    have hold : ∀ j u, (p.enter c).call? j = some u → u.call.holdsLock = true → p.call? j = some u := by
      intro j u hu hl
      rw [call?_enter] at hu
      split at hu
      · cases hu
        rw [hc] at hl
        cases hl
      · exact hu
    exact ⟨fun i j u v hu hv hlu hlv => h.sole i j u v (hold i u hu hlu) (hold j v hv hlv) hlu hlv,
      fun j u hu hin => h.unstopped j u (hold j u hu (Call.holdsLock_of_isInside hin)) hin⟩
  cases hm with
  | enter hc => exact henter h (holdsLock_of_isNew hc)
  | @evict k i due he hdue =>
    have hp : Locked { p with evictions := p.evictions.eraseIdx k } := ⟨h.sole, h.unstopped⟩
    exact henter hp rfl
  | @ask k c hc hq =>
    have hold : ∀ j u, (p.pose k c).call? j = some u → ∃ b, p.call? j = some ⟨u.call, b⟩ := by
      intro j u hu
      rw [call?_pose hc] at hu
      split at hu
      · rename_i hj
        cases hu
        exact ⟨false, hj ▸ hc⟩
      · exact ⟨u.asking, hu⟩
    refine ⟨?_, ?_⟩
    · intro i j u v hu hv hlu hlv
      obtain ⟨b, hb⟩ := hold i u hu
      obtain ⟨b', hb'⟩ := hold j v hv
      exact h.sole i j _ _ hb hb' hlu hlv
    · intro j u hu hin
      obtain ⟨b, hb⟩ := hold j u hu
      exact h.unstopped j _ hb hin
  | step hc hready hlock => exact locked_advance h hc _ hlock
  | aside hm ha =>
    refine ⟨?_, ?_⟩
    · intro i j u v hu hv
      exact h.sole i j u v (ha.call? i ▸ hu) (ha.call? j ▸ hv)
    · intro j u hu hin
      rw [ha.stopped]
      exact h.unstopped j u (ha.call? j ▸ hu) hin
  | idle => exact h

theorem locked_new (timeout : Nat) : (new timeout).Locked := by
  refine ⟨fun i j u v hu => ?_, fun j u hu => ?_⟩ <;> cases hu

theorem Reachable.locked {p : Pool} (hp : p.Reachable) : p.Locked :=
  hp.induct locked_new fun _ m _ h => locked_step h m

end Pool

end Redeploy
