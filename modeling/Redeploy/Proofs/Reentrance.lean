/-
What sinks and hooks find when they call back.

A removal takes all its records out of the cache in one step, and only then begins to tell about them; so whoever is told
about one of them finds none of the others either. While it tells, any calls may happen, begun by those that are told.
They may enter a new record under the identifier of one that is torn down. That is another record, and what is left of
the teardown does not come near it.

`Call.toTearDown?` tells the two halves of a removal apart: nothing before the records are taken out, the queue from then
on. `taken_of_call` is the invariant: a call has taken nothing in its first half, and all in one move in its second.

Results:
- `advance_tearing`, `advance_taking`: the steps of the two halves;
- `takesOut_iff`: what a step of a call takes out of the cache;
- `taken_of_call`, `tearing_run`: what a call has taken out, and that the second half takes out nothing;
- **`callbacks_consistent`**: while a record is torn down, it and all that were taken out with it are gone for good, and
  no record that is cached then or later is touched.
-/
import Redeploy.Proofs.Versions

namespace Redeploy

open Registry

/-! ## The two halves of a removal -/

/-- the record that a sink, a hook or a context is told is gone -/
def Query.tornDown? : Query → Option RecordId
  | .undeployed i _ => some i
  | .hook _ i _ => some i
  | .release i => some i
  | _ => none

/-- the records that the removal still has to tear down, once it has taken them out -/
def RemovalPoint.toTearDown? : RemovalPoint → Option (List RecordId)
  | .telling queue => some queue
  | .hooking _ queue => some queue
  | .releasing queue => some queue
  | _ => none

namespace Call

def toTearDown? : Call → Option (List RecordId)
  | .removal _ _ p => p.toTearDown?
  | _ => none

variable {g : Registry} {reply : Reply} {c c' : Call} {queue : List RecordId}

theorem toTearDown?_tearDown {g' : Registry} {cause : Cause} {total : Nat} {before : List Effect}
    (h : (tearDown g' cause total before queue).next = .go c') : c'.toTearDown? = some queue := by
  rw [tearDown_next h]
  rfl

/-- whoever is told that a record is gone is told by a removal that tears it down -/
theorem tornDown?_query {i : RecordId} (h : (c.query g).tornDown? = some i) :
    ∃ queue, c.toTearDown? = some queue ∧ i ∈ queue := by
  have hlook {j : RecordId} {b : String} {p : LookupPoint} (h : (lookupQuery j b p).tornDown? = some i) : False := by
    cases p <;> cases h
  cases c with
  | request q report p =>
    cases p with
    | resolving j p => exact (hlook h).elim
    | _ => cases h
  | lookup j b p => exact (hlook h).elim
  | start checked => cases h
  | removal cause total p =>
    cases p with
    | starting => cases h
    | checking left gone => cases left <;> cases h
    | telling queue =>
      cases queue with
      | nil => cases h
      | cons j rest => cases h; exact ⟨_, rfl, List.mem_cons_self⟩
    | hooking hooks queue =>
      cases queue with
      | nil => cases hooks <;> cases h
      | cons j rest =>
        cases hooks with
        | nil => cases h
        | cons hook hooks => cases h; exact ⟨_, rfl, List.mem_cons_self⟩
    | releasing queue =>
      cases queue with
      | nil => cases h
      | cons j rest => cases h; exact ⟨_, rfl, List.mem_cons_self⟩

/-- **the second half**: a step takes nothing out, changes no record but those in the queue, and orders nothing; the call
goes on with what is left of the queue -/
theorem advance_tearing (h : c.toTearDown? = some queue) :
    (advance g reply c).registry.cache = g.cache ∧
      (∀ i ∉ queue, (advance g reply c).registry.record i = g.record i) ∧ AtRest (advance g reply c).effects ∧
      ∀ c', (advance g reply c).next = .go c' → ∃ queue', c'.toTearDown? = some queue' ∧ queue' ⊆ queue := by
  cases c with
  | request q report p => cases h
  | lookup i a p => cases h
  | start checked => cases h
  | removal cause total p =>
    have hqueue : p.queue = queue := by cases p <;> first | exact Option.some.inj h | cases h
    have htakes : takes g cause p = (g, []) := by cases p <;> first | rfl | cases h
    have htear {total' : Nat} {before : List Effect} {queue' : List RecordId} (hsub : queue' ⊆ queue)
        (hrest : AtRest (tearDown g cause total' before queue').effects) :
        (tearDown g cause total' before queue').registry.cache = g.cache ∧
          (∀ i ∉ queue, (tearDown g cause total' before queue').registry.record i = g.record i) ∧
          AtRest (tearDown g cause total' before queue').effects ∧
          ∀ c', (tearDown g cause total' before queue').next = .go c' →
            ∃ queue', c'.toTearDown? = some queue' ∧ queue' ⊆ queue := by
      rw [tearDown_registry]
      exact ⟨rfl, fun _ _ => rfl, hrest, fun c' hn => ⟨queue', toTearDown?_tearDown hn, hsub⟩⟩
    obtain ⟨gone, claimed, hr⟩ := advanceRemoval_removes g cause total reply p
    have hrest := hr.rest
    simp only [advance]
    generalize advanceRemoval g cause total reply p = s at hr hrest
    cases hr with
    | check hp hb =>
      rcases hp with ⟨rfl, -⟩ | ⟨left, gone, rfl⟩ <;> cases h
    | drain hp hb =>
      rw [htakes] at hrest ⊢
      exact htear (List.nil_subset _) hrest
    | hook hp hb =>
      refine ⟨rfl, fun _ _ => rfl, hrest, fun c' hn => ?_⟩
      cases hn
      exact ⟨_, rfl, by rw [← hqueue, hp.queue_eq]; exact List.Subset.refl _⟩
    | @claim _ i rest before hp hr hb =>
      have hq : queue = i :: rest := hqueue.symm.trans hp.queue_eq
      refine ⟨rfl, fun j hj => record_modify_of_ne _ ?_, hrest, fun c' hn => ?_⟩
      · rintro rfl
        exact hj (hq ▸ List.mem_cons_self)
      · cases hn
        exact ⟨_, rfl, by rw [hq]; exact List.Subset.refl _⟩
    | skip hp hr hb => exact htear (by rw [← hqueue, hp.queue_eq]; exact List.subset_cons_self _ _) hrest
    | next hb => exact htear (hqueue ▸ List.subset_cons_self _ _) hrest

/-- **the first half**: a call goes on without having taken anything out, or with all that it has just taken out -/
theorem advance_taking {born : Nat} {gone claimed : List RecordId}
    (hd : Does g reply c born gone claimed (advance g reply c)) (h : c.toTearDown? = none)
    (hn : (advance g reply c).next = .go c') :
    c'.toTearDown? = none ∧ gone = [] ∨ c'.toTearDown? = some gone := by
  generalize hs : advance g reply c = s at hd hn
  cases hd with
  | found ha =>
    cases hn
    exact .inl ⟨rfl, rfl⟩
  | other hc he hb hnames =>
    refine .inl ⟨?_, rfl⟩
    subst hs
    cases c with
    | request q report p =>
      obtain ⟨p', rfl⟩ := (advanceRequest_requests g q report reply p).stays hn
      rfl
    | lookup i a p =>
      obtain ⟨p', rfl⟩ := lookup_stays hn
      rfl
    | removal cause total p => exact absurd rfl (hc cause total p)
    | start checked => cases checked <;> simp only [advance] at hn <;> split at hn <;> cases hn <;> rfl
  | @remove cause total p gone claimed s hr =>
    have hfor {i : RecordId} {rest : List RecordId} (hp : p.IsFor i rest) : False := by
      rcases hp with rfl | ⟨hooks, rfl⟩ <;> cases h
    cases hr with
    | check hp hb =>
      cases hn
      exact .inl ⟨rfl, rfl⟩
    | drain hp hb => exact .inr (toTearDown?_tearDown hn)
    | hook hp hb => exact (hfor hp).elim
    | claim hp hr hb => exact (hfor hp).elim
    | skip hp hr hb => exact (hfor hp).elim
    | next hb => cases h

/-- only a removal takes anything out, and it does not wait -/
theorem Does.gone_of_wait {born : Nat} {gone claimed : List RecordId} {s : Step}
    (hd : Does g reply c born gone claimed s) (hs : advance g reply c = s) (hn : s.next = .wait) : gone = [] := by
  cases hd with
  | found ha => rfl
  | other hc he hb hnames => rfl
  | remove hr =>
    subst hs
    obtain ⟨i, a, p, hl, -⟩ := lookup?_wait hn
    cases hl

theorem toTearDown?_of_isNew (h : c.IsNew g = true) : c.toTearDown? = none := by
  unfold IsNew at h
  split at h <;> first | rfl | cases h

end Call

/-- the record is undeployed, and neither a lookup nor a listing returns it -/
structure Registry.Gone (g : Registry) (i : RecordId) : Prop where
  state : (g.record i).state = .undeployed
  lookup : ∀ d, g.lookup? d ≠ some i
  listing : i ∉ g.listing

namespace Pool

/-! ## What a call has taken out -/

/-- the move takes the record out of the cache -/
def TakesOut (p : Pool) (m : Move) (i : RecordId) : Prop :=
  p.registry.Caches i ∧ ¬ (p.step m).registry.Caches i

/-- in the run of the moves the call at the place has taken the record out of the cache -/
def TakenBy (p : Pool) (ms : List Move) (k : Nat) (i : RecordId) : Prop :=
  ∃ before m after, ms = before ++ m :: after ∧ m.place? = some k ∧ (p.run before).TakesOut m i

/-- a sink, a hook or a context is being told, by the call at the place, that the record is gone -/
def Tells (p : Pool) (k : Nat) (i : RecordId) : Prop :=
  ∃ c, p.call? k = some ⟨c, true⟩ ∧ (c.query p.registry).tornDown? = some i

/-- a move of a run is one of the earlier ones, or the last -/
theorem concat_eq_append_cons_iff {ms before after : List Move} {m m' : Move} :
    ms ++ [m] = before ++ m' :: after ↔
      (∃ after', ms = before ++ m' :: after' ∧ after = after' ++ [m]) ∨ ms = before ∧ m = m' ∧ after = [] := by
  constructor
  · intro heq
    rcases List.eq_nil_or_concat after with rfl | ⟨after, m'', rfl⟩
    · obtain ⟨rfl, hm⟩ := List.append_inj' heq rfl
      exact .inr ⟨rfl, List.singleton_inj.1 hm, rfl⟩
    · rw [List.concat_eq_append, ← List.cons_append, ← List.append_assoc] at heq
      obtain ⟨rfl, hm⟩ := List.append_inj' heq rfl
      obtain rfl := List.singleton_inj.1 hm
      exact .inl ⟨after, rfl, List.concat_eq_append⟩
  · rintro (⟨after, rfl, rfl⟩ | ⟨rfl, rfl, rfl⟩)
    · simp
    · rfl

theorem takenBy_concat {p : Pool} {ms : List Move} {m : Move} {k : Nat} {i : RecordId} :
    p.TakenBy (ms ++ [m]) k i ↔ p.TakenBy ms k i ∨ m.place? = some k ∧ (p.run ms).TakesOut m i := by
  constructor
  · rintro ⟨before, m', after, heq, hm, ht⟩
    rcases concat_eq_append_cons_iff.1 heq with ⟨after, rfl, -⟩ | ⟨rfl, rfl, -⟩
    · exact .inl ⟨before, m', after, rfl, hm, ht⟩
    · exact .inr ⟨hm, ht⟩
  · rintro (⟨before, m', after, heq, hm, ht⟩ | ⟨hm, ht⟩)
    · exact ⟨before, m', after ++ [m], concat_eq_append_cons_iff.2 (.inl ⟨after, heq, rfl⟩), hm, ht⟩
    · exact ⟨ms, m, [], rfl, hm, ht⟩

variable {p : Pool} {k : Nat} {u : Underway} {reply : Reply} {i : RecordId} {m : Move}

/-- a step of a call takes out of the cache what it undeploys -/
theorem takesOut_iff (hs : p.Sound) (hc : p.call? k = some u) {born : Nat} {gone claimed : List RecordId}
    (hd : Call.Does p.registry { reply with now := p.now } u.call born gone claimed
      (u.call.advance p.registry { reply with now := p.now }))
    (hm : p.step m = p.advance k u.call reply) : p.TakesOut m i ↔ i ∈ gone := by
  have he := hd.evolves hs.coherent (hs.named k u hc)
  have hcaches (hi : i < p.registry.records.length) :
      (p.step m).registry.Caches i ↔ p.registry.Caches i ∧ i ∉ gone := by
    have hi' : i < (u.call.advance p.registry { reply with now := p.now }).registry.records.length := by
      rw [he.length]
      exact Nat.lt_add_right born hi
    rw [hm]
    show (u.call.advance p.registry { reply with now := p.now }).registry.Caches i ↔ _
    rw [← he.coherent.alive i hi', ← hs.coherent.alive i hi, ← Bool.not_eq_true, ← Bool.not_eq_true, he.undeployed]
    tauto
  constructor
  · rintro ⟨hold, hnew⟩
    rw [hcaches (hs.coherent.lt hold)] at hnew
    by_contra hi
    exact hnew ⟨hold, hi⟩
  · intro hi
    have hold := he.cached i hi
    exact ⟨hold, fun hnew => ((hcaches (hs.coherent.lt hold)).1 hnew).2 hi⟩

/-- a move that is no step of a call takes nothing out -/
theorem not_takesOut (hreg : (p.step m).registry = p.registry) : ¬ p.TakesOut m i := by
  rintro ⟨hold, hnew⟩
  rw [hreg] at hnew
  exact hnew hold

/-- who takes something out is a call under way -/
theorem TakenBy.lt {ms : List Move} (h : p.TakenBy ms k i) : k < (p.run ms).calls.length := by
  obtain ⟨before, m, after, rfl, hm, ht⟩ := h
  have hk : k < (p.run before).calls.length := by
    cases hc : (p.run before).call? k with
    | none => exact absurd ht (not_takesOut (by rw [step_of_ended hm hc]))
    | some u => exact lt_of_call? hc
  rw [run_append]
  exact lt_of_lt_of_le hk (length_run _ _)

/-- what was taken out is undeployed for good -/
theorem TakenBy.undeployed (hp : p.Reachable) {ms : List Move} (h : p.TakenBy ms k i) :
    ((p.run ms).registry.record i).isUndeployed = true := by
  obtain ⟨before, m, after, rfl, -, hold, hnew⟩ := h
  have hr := hp.run before
  have hi : i < ((p.run before).step m).registry.records.length :=
    lt_of_lt_of_le (hr.sound.coherent.lt hold) (forward_step hr.sound m).1
  have hu : (((p.run before).step m).registry.record i).isUndeployed = true := by
    simpa using ((hr.step m).sound.coherent.alive i hi).not.2 hnew
  rw [run_append]
  exact undeployed_run (hr.step m) hu after

/-! ## The second half of a removal -/

/-- the call at the place has ended, or tears down no records but those -/
def TearsDown (p : Pool) (k : Nat) (queue : List RecordId) : Prop :=
  p.Ended k ∨ ∃ u queue', p.call? k = some u ∧ u.call.toTearDown? = some queue' ∧ queue' ⊆ queue

/-- what is left of the call at the place has nothing to do with the record -/
structure LeavesAlone (p : Pool) (k : Nat) (i : RecordId) : Prop where
  untold : ∀ u, p.call? k = some u → (u.call.query p.registry).tornDown? ≠ some i
  record : ∀ m : Move, m.place? = some k → (p.step m).registry.record i = p.registry.record i
  cache : ∀ m : Move, m.place? = some k → (p.step m).registry.cache = p.registry.cache
  evictions : ∀ m : Move, m.place? = some k → (p.step m).evictions = p.evictions

variable {queue : List RecordId}

/-- a move of a call that tears down takes nothing out, orders nothing, and changes no other records -/
theorem TearsDown.frame (h : p.TearsDown k queue) (hm : m.place? = some k) :
    (p.step m).registry.cache = p.registry.cache ∧ (p.step m).evictions = p.evictions ∧
      ∀ i ∉ queue, (p.step m).registry.record i = p.registry.record i := by
  rcases h with hend | ⟨u, queue', hc, hq, hsub⟩
  · rw [step_of_ended hm hend.2]
    exact ⟨rfl, rfl, fun _ _ => rfl⟩
  · rcases step_self hm hc with h | h | ⟨reply, -, h, -⟩ <;> rw [h]
    · exact ⟨rfl, rfl, fun _ _ => rfl⟩
    · exact ⟨rfl, rfl, fun _ _ => rfl⟩
    · obtain ⟨hcache, hrecord, hrest, -⟩ :=
        @Call.advance_tearing p.registry { reply with now := p.now } _ _ hq
      refine ⟨hcache, ?_, fun i hi => hrecord i fun h => hi (hsub h)⟩
      simp only [Pool.advance, evictions_rest hrest, List.append_nil]

theorem TearsDown.step (h : p.TearsDown k queue) (m : Move) : (p.step m).TearsDown k queue := by
  rcases h with hend | ⟨u, queue', hc, hq, hsub⟩
  · exact .inl (hend.step m)
  · rcases step_call hc m with ⟨b, hc'⟩ | ⟨reply, rfl, h, -⟩
    · exact .inr ⟨_, queue', hc', hq, hsub⟩
    · have hcall := call?_advance hc reply k
      rw [if_pos rfl, ← h] at hcall
      have hnext := (@Call.advance_tearing p.registry { reply with now := p.now } _ _ hq).2.2.2
      cases hn : (u.call.advance p.registry { reply with now := p.now }).next with
      | go c' =>
        obtain ⟨queue'', hq', hsub'⟩ := hnext c' hn
        rw [hn] at hcall
        exact .inr ⟨_, queue'', hcall, hq', fun i hi => hsub (hsub' hi)⟩
      | wait =>
        rw [hn] at hcall
        exact .inr ⟨_, queue', hcall, hq, hsub⟩
      | done o =>
        rw [hn] at hcall
        exact .inl ⟨lt_of_lt_of_le (lt_of_call? hc) (length_step p _), hcall⟩

theorem TearsDown.run (h : p.TearsDown k queue) (ms : List Move) : (p.run ms).TearsDown k queue := by
  induction ms generalizing p with
  | nil => exact h
  | cons m ms ih => exact ih (h.step m)

theorem TearsDown.leavesAlone (h : p.TearsDown k queue) (hi : i ∉ queue) : p.LeavesAlone k i where
  untold u hu hi' := by
    rcases h with hend | ⟨v, queue', hc, hq, hsub⟩
    · exact not_ended hu hend
    · obtain rfl : v = u := Option.some.inj (hc.symm.trans hu)
      obtain ⟨queue'', hq', hmem⟩ := Call.tornDown?_query hi'
      obtain rfl : queue'' = queue' := Option.some.inj (hq'.symm.trans hq)
      exact hi (hsub hmem)
  record m hm := (h.frame hm).2.2 i hi
  cache m hm := (h.frame hm).1
  evictions m hm := (h.frame hm).2.1

/-- a call that tears down has taken out all that it ever will -/
theorem TearsDown.takenBy {ms : List Move} (h : (p.run ms).TearsDown k queue) {ms' : List Move}
    (ht : p.TakenBy (ms ++ ms') k i) : p.TakenBy ms k i := by
  induction ms' using List.reverseRecOn with
  | nil => simpa using ht
  | append_singleton ms' m ih =>
    rw [← List.append_assoc, takenBy_concat] at ht
    rcases ht with ht | ⟨hm, hold, hnew⟩
    · exact ih ht
    · rw [run_append] at hold hnew
      refine absurd ?_ hnew
      obtain ⟨d, hd⟩ := hold
      exact ⟨d, by rw [((h.run ms').frame hm).1]; exact hd⟩

/-! ## All at once -/

/-- the records of the queue, and all that the call at the place has taken out, were taken out by one move -/
def AllAtOnce (p : Pool) (ms : List Move) (k : Nat) (queue : List RecordId) : Prop :=
  ∃ before m after, ms = before ++ m :: after ∧ m.place? = some k ∧ (∀ i ∈ queue, (p.run before).TakesOut m i) ∧
    ∀ i, p.TakenBy ms k i → (p.run before).TakesOut m i

theorem AllAtOnce.concat {ms : List Move} (h : p.AllAtOnce ms k queue) {queue' : List RecordId}
    (hsub : queue' ⊆ queue) (hm : m.place? = some k → ∀ i, ¬ (p.run ms).TakesOut m i) :
    p.AllAtOnce (ms ++ [m]) k queue' := by
  obtain ⟨before, m', after, rfl, hplace, hqueue, hall⟩ := h
  refine ⟨before, m', after ++ [m], by simp, hplace, fun i hi => hqueue i (hsub hi), fun i ht => ?_⟩
  rcases takenBy_concat.1 ht with ht | ⟨hk, ht⟩
  · exact hall i ht
  · exact absurd ht (hm hk i)

/-- what a call has taken out of the cache: nothing in its first half, all in one move in its second -/
structure TakesAtOnce (p : Pool) (ms : List Move) (k : Nat) (c : Call) : Prop where
  nothing : c.toTearDown? = none → ∀ i, ¬ p.TakenBy ms k i
  all : ∀ queue, c.toTearDown? = some queue → p.AllAtOnce ms k queue

namespace TakesAtOnce

variable {ms : List Move} {c : Call}

/-- a move that takes nothing out for the call and leaves it where it is -/
theorem concat (h : p.TakesAtOnce ms k c) (hno : m.place? = some k → ∀ i, ¬ (p.run ms).TakesOut m i) :
    p.TakesAtOnce (ms ++ [m]) k c where
  nothing hc i ht := by
    rcases takenBy_concat.1 ht with ht | ⟨hm, ht⟩
    · exact h.nothing hc i ht
    · exact hno hm i ht
  all queue hq := (h.all queue hq).concat (List.Subset.refl _) hno

theorem advance (hr : (p.run ms).Reachable) (hc : (p.run ms).call? k = some u) (h : p.TakesAtOnce ms k u.call)
    (hm : m.place? = some k) (hstep : (p.run ms).step m = (p.run ms).advance k u.call reply) {v : Underway}
    (hv : ((p.run ms).step m).call? k = some v) : p.TakesAtOnce (ms ++ [m]) k v.call := by
  obtain ⟨born, gone, claimed, hd⟩ := hr.sound.does hc reply
  have htakes (i : RecordId) := takesOut_iff (i := i) hr.sound hc hd hstep
  rw [hstep, call?_advance hc, if_pos rfl] at hv
  obtain ⟨-, hnext⟩ := underway?_eq_some.1 hv
  cases hu : u.call.toTearDown? with
  | none =>
    have hfirst (hgone : gone = []) (i : RecordId) : ¬ p.TakenBy (ms ++ [m]) k i := by
      rw [takenBy_concat, htakes, hgone]
      rintro (ht | ⟨-, hi⟩)
      · exact h.nothing hu i ht
      · cases hi
    rcases hnext with hn | ⟨hn, heq⟩
    · rcases Call.advance_taking hd hu hn with ⟨hnone, hgone⟩ | hsome
      · exact ⟨fun _ => hfirst hgone, fun queue hq => by simp [hnone] at hq⟩
      · refine ⟨fun hnone => by simp [hnone] at hsome, fun queue hq => ?_⟩
        obtain rfl : gone = queue := Option.some.inj (hsome.symm.trans hq)
        refine ⟨ms, m, [], rfl, hm, fun i hi => (htakes i).2 hi, fun i ht => ?_⟩
        exact ((takenBy_concat.1 ht).resolve_left (h.nothing hu i)).2
    · exact ⟨fun _ => hfirst (hd.gone_of_wait rfl hn), fun queue hq => by simp [heq, hu] at hq⟩
  | some queue =>
    have htears : (p.run ms).TearsDown k queue := .inr ⟨u, queue, hc, hu, List.Subset.refl _⟩
    have hno (i : RecordId) : ¬ (p.run ms).TakesOut m i := by
      rintro ⟨⟨d, hold⟩, hnew⟩
      exact hnew ⟨d, by rw [(htears.frame hm).1]; exact hold⟩
    obtain ⟨queue', hv', hsub⟩ : ∃ queue', v.call.toTearDown? = some queue' ∧ queue' ⊆ queue := by
      rcases hnext with hn | ⟨-, heq⟩
      · exact (Call.advance_tearing hu).2.2.2 v.call hn
      · exact ⟨queue, heq ▸ hu, List.Subset.refl _⟩
    refine ⟨fun hnone => by simp [hnone] at hv', fun queue'' hq => ?_⟩
    obtain rfl : queue' = queue'' := Option.some.inj (hv'.symm.trans hq)
    exact (h.all queue hu).concat hsub fun _ => hno

end TakesAtOnce

/-- **every call that began in the run takes its records out at once** -/
theorem takesAtOnce_of_call (hp : p.Reachable) (hk : p.calls.length ≤ k) (ms : List Move) :
    ∀ u, (p.run ms).call? k = some u → p.TakesAtOnce ms k u.call := by
  induction ms using List.reverseRecOn with
  | nil =>
    intro u hu
    exact absurd (lt_of_call? hu) (Nat.not_lt.2 hk)
  | append_singleton ms m ih =>
    intro u hu
    rw [run_append] at hu
    replace hu : ((p.run ms).step m).call? k = some u := hu
    by_cases hm : m.place? = some k
    · cases hc : (p.run ms).call? k with
      | none =>
        rw [step_of_ended hm hc, hc] at hu
        cases hu
      | some v =>
        rcases step_self hm hc with h | h | ⟨reply, -, h, -⟩
        · rw [h, hc] at hu
          cases hu
          exact (ih _ hc).concat fun _ i => not_takesOut (by rw [h])
        · rw [h, call?_pose hc, if_pos rfl] at hu
          cases hu
          exact (ih _ hc).concat fun _ i => not_takesOut (by rw [h]; rfl)
        · exact (ih _ hc).advance (hp.run ms) hc hm h hu
    · by_cases hlt : k < (p.run ms).calls.length
      · rw [call?_step_of_ne hm hlt] at hu
        exact (ih _ hu).concat fun h => absurd h hm
      · -- the call has just begun
        have hnone : u.call.toTearDown? = none := by
          rcases call_step hu with ⟨b, hc⟩ | (hnew | ⟨i, hnew⟩) | ⟨reply, v, rfl, hc, -⟩
          · exact absurd (lt_of_call? hc) hlt
          · exact Call.toTearDown?_of_isNew hnew
          · rw [hnew]
            rfl
          · exact absurd rfl hm
        refine ⟨fun _ i ht => ?_, fun queue h => by simp [hnone] at h⟩
        rcases takenBy_concat.1 ht with ht | ⟨h, -⟩
        · exact hlt ht.lt
        · exact hm h

/-! ## What is found by those that are told -/

theorem gone_of_undeployed {g : Registry} (hg : g.Coherent) (hu : (g.record i).isUndeployed = true) : g.Gone i := by
  have hno : ¬ g.Caches i := fun h => by
    rw [hg.not_undeployed h] at hu
    cases hu
  refine ⟨by simpa [Record.isUndeployed] using hu, fun d hd => hno (hg.lookup?_eq_some_iff.1 hd).1, fun hi => ?_⟩
  obtain ⟨⟨d, j⟩, he, rfl⟩ := List.mem_map.1 hi
  exact hno ⟨d, List.mem_mergeSort.1 he⟩

/-- **callbacks see a consistent registry**: whenever a sink, a hook or a context is told that a record is gone, whatever
was called back before and whoever else is under way, the record was taken out by the removal that tells, which took out
all its records in one move. Each of them, told about or not, is undeployed by now and answers no lookup and no listing,
and that stays so. What is left of the removal has nothing to do with any record that is cached now or later, be it
under the identifier of one that is torn down. -/
theorem callbacks_consistent {timeout : Nat} {ms : List Move} {k : Nat} {r : RecordId}
    (h : ((new timeout).run ms).Tells k r) :
    (new timeout).TakenBy ms k r ∧
      (∃ before m after, ms = before ++ m :: after ∧ m.place? = some k ∧
        ∀ ms' i, (new timeout).TakenBy (ms ++ ms') k i → ((new timeout).run before).TakesOut m i) ∧
      (∀ ms' ms'' i, (new timeout).TakenBy (ms ++ ms') k i → ((new timeout).run (ms ++ ms'')).registry.Gone i) ∧
      ∀ ms' i, ((new timeout).run (ms ++ ms')).registry.Caches i →
        i ≠ r ∧ ¬ (new timeout).TakenBy (ms ++ ms') k i ∧ ((new timeout).run (ms ++ ms')).LeavesAlone k i := by
  have hnew : (new timeout).Reachable := ⟨timeout, [], rfl⟩
  obtain ⟨c, hc, hr⟩ := h
  obtain ⟨queue, hq, hmem⟩ := Call.tornDown?_query hr
  have htears : ((new timeout).run ms).TearsDown k queue := .inr ⟨_, queue, hc, hq, List.Subset.refl _⟩
  obtain ⟨before, m, after, hsplit, hm, hqueue, hall⟩ :=
    (takesAtOnce_of_call hnew (Nat.zero_le k) ms _ hc).all queue hq
  have htaken (i : RecordId) (hi : i ∈ queue) : (new timeout).TakenBy ms k i :=
    ⟨before, m, after, hsplit, hm, hqueue i hi⟩
  have hgone (i : RecordId) (ht : (new timeout).TakenBy ms k i) (ms' : List Move) :
      ((new timeout).run (ms ++ ms')).registry.Gone i := by
    refine gone_of_undeployed (hnew.run _).sound.coherent ?_
    rw [run_append]
    exact undeployed_run (hnew.run ms) (ht.undeployed hnew) ms'
  refine ⟨htaken r hmem, ⟨before, m, after, hsplit, hm, fun ms' i ht => hall i (htears.takenBy ht)⟩,
    fun ms' ms'' i ht => hgone i (htears.takenBy ht) ms'', fun ms' i hi => ?_⟩
  have hno (ht : (new timeout).TakenBy ms k i) : False := by
    have hu := (hgone i ht ms').state
    have hnot := (hnew.run (ms ++ ms')).sound.coherent.not_undeployed hi
    simp [Record.isUndeployed, hu] at hnot
  refine ⟨?_, fun ht => hno (htears.takenBy ht), ?_⟩
  · rintro rfl
    exact hno (htaken i hmem)
  · rw [run_append]
    exact (htears.run ms').leavesAlone fun hiq => hno (htaken i hiq)

/-- a sender departs that has two deployments; told about the first, the sink has another sender's request enter a record
under the same identifier, and then a hook is told -/
theorem replaced_in_teardown :
    let x : Request := { id := ⟨"x"⟩, sender := ⟨"s"⟩, seq := 1, moduleAlias := "a" }
    let y : Request := { id := ⟨"y"⟩, sender := ⟨"s"⟩, seq := 2, moduleAlias := "b" }
    let z : Request := { id := ⟨"x"⟩, sender := ⟨"t"⟩, seq := 1, moduleAlias := "a" }
    let before := .addHook 7 :: .enter (.request x true .entering) :: turns 0 { module := .ok ⟨"m", false⟩ } 8 ++
      .enter (.request y true .entering) :: turns 1 { module := .ok ⟨"m", false⟩ } 8 ++
      [.enter (.remove (.departure ⟨"s"⟩))]
    let after := .ask 2 :: .enter (.request z true .entering) :: turns 3 { module := .ok ⟨"m", false⟩ } 8 ++
      [.step 2 {}, .ask 2]
    let p := (new 100).run (before ++ .step 2 {} :: after)
    p.Tells 2 0 ∧ p.registry.Gone 0 ∧ p.registry.Gone 1 ∧ p.registry.lookup? ⟨"x"⟩ = some 2 ∧ p.LeavesAlone 2 2 := by
  intro x y z before after p
  have hcall : p.call? 2 = some ⟨.removal (.departure ⟨"s"⟩) 2 (.hooking [7] [0, 1]), true⟩ := by decide +kernel
  have htells : p.Tells 2 0 := ⟨_, hcall, rfl⟩
  have hfound : p.registry.lookup? ⟨"x"⟩ = some 2 := by decide +kernel
  have hnew : (⟨"x"⟩, 2) ∈ p.registry.cache := by decide +kernel
  have hother : (new 100).TakenBy (before ++ .step 2 {} :: after) 2 1 := by
    refine ⟨before, .step 2 {}, after, rfl, rfl, ⟨⟨"y"⟩, by decide +kernel⟩, ?_⟩
    rintro ⟨d, hd⟩
    have hempty : (((new 100).run before).step (.step 2 {})).registry.cache = [] := by decide +kernel
    rw [hempty] at hd
    cases hd
  clear_value before after
  obtain ⟨htaken, -, hgone, halone⟩ := callbacks_consistent htells
  refine ⟨htells, ?_, ?_, hfound, ?_⟩
  · simpa using hgone [] [] 0 (by simpa using htaken)
  · simpa using hgone [] [] 1 (by simpa using hother)
  · simpa using (halone [] 2 (by simpa using ⟨_, hnew⟩)).2.2

end Pool

end Redeploy
