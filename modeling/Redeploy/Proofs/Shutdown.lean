/-
The stop of a registry is final, and its start happens once.

A stop sets its flag and takes out every record in one step, under the lock. So no request is inside at that moment, and
none gets inside afterwards; there is no record that is not undeployed, and none can be made. Whatever is called back
from the teardowns, or was on its way, finds that (`Closed`, which every move keeps). A removal that has taken out its
records before goes on to tear them down; one that comes later finds nothing.

A start that is not refused sets another flag and begins the sweep of the cache in one step, so a second one is refused
(`Succeeds`). A refused start has come no further than to look at the flags.

Results:
- `closed_of_stop`, `Closed.step`: the cache is empty after a stop, and stays so, and no record is made;
- `Closed.turnsBack`, `Closed.findsNothing`, `Closed.refuses`: requests, removals and starts that come to a closed
  registry;
- `sole_start`: of two starts one at most succeeds;
- `failed_start`: no move of a start that fails changes anything;
- **`stop_final_start_once`**: all of it, of every run.
-/
import Redeploy.Proofs.Launch
import Redeploy.Proofs.Acceptance
import Redeploy.Proofs.Reentrance
import Redeploy.Proofs.Sink

namespace Redeploy

open Registry

/-- the request has not taken the lock -/
def RequestPoint.isOutside : RequestPoint → Bool
  | .entering => true
  | .locking => true
  | _ => false

namespace Call

variable {g : Registry} {reply : Reply}

/-- a request that comes to a stopped registry does not get the lock -/
theorem advance_outside {q : Request} {report : Bool} {pt : RequestPoint} (hs : g.stopped = true)
    (hpt : pt.isOutside = true) :
    (∃ pt', (advance g reply (.request q report pt)).next = .go (.request q report pt') ∧ pt'.isOutside = true) ∨
      (advance g reply (.request q report pt)).next = .done (.failed (.senderLeft q.sender)) ∨
      (advance g reply (.request q report pt)).next = .done (.failed .shuttingDown) := by
  have hr := advanceRequest_requests g q report reply pt
  simp only [advance]
  generalize advanceRequest g q report reply pt = s at hr
  cases hr with
  | enter hl => exact .inl ⟨.locking, rfl, rfl⟩
  | left hl => exact .inr (.inl rfl)
  | lock hopen =>
    rw [hs] at hopen
    cases hopen
  | stopped hs => exact .inr (.inr rfl)
  | _ => cases hpt

/-- a removal that comes to an empty cache goes on to look for something, or ends without having found anything -/
theorem advance_empty {cause : Cause} {total : Nat} {p : RemovalPoint} (hg : g.Coherent)
    (hc : ∀ i, cause = .expiry i → i < g.records.length) (hempty : g.cache = []) (hp : p.toTearDown? = none) :
    (∃ total' p', (advance g reply (.removal cause total p)).next = .go (.removal cause total' p') ∧
        p'.toTearDown? = none) ∨
      (advance g reply (.removal cause total p)).next = .done (.removed 0) := by
  have hnil : (takes g cause p).2 = [] := by
    refine List.eq_nil_iff_forall_not_mem.2 fun i hi => ?_
    obtain ⟨d, hd⟩ := (takes_evolves hg hc p).cached i hi
    rw [hempty] at hd
    cases hd
  cases p with
  | starting =>
    cases cause with
    | sweep reason => exact .inl ⟨0, _, rfl, rfl⟩
    | _ =>
      refine .inr ?_
      simp only [takes] at hnil
      simp [advance, advanceRemoval, hnil, tearDown]
  | checking left gone =>
    cases left with
    | nil =>
      refine .inr ?_
      simp only [takes] at hnil
      simp only [advance, advanceRemoval, hnil, tearDown, List.length_nil]
    | cons i left => exact .inl ⟨total, _, rfl, rfl⟩
  | _ => cases hp

end Call

namespace Pool

variable {p p₁ : Pool} {k : Nat} {m : Move}

/-! ## After a stop -/

/-- the registry is stopped, and there is no record left -/
structure Closed (p : Pool) : Prop where
  stopped : p.registry.stopped = true
  empty : p.registry.cache = []

/-- on an empty cache every record ever made is undeployed -/
theorem Closed.undeployed (hp : p.Reachable) (h : p.Closed) {i : RecordId} (hi : i < p.registry.records.length) :
    (p.registry.record i).isUndeployed = true := by
  by_contra hu
  obtain ⟨d, hd⟩ := (hp.sound.coherent.alive i hi).1 (by simpa using hu)
  rw [h.empty] at hd
  cases hd

/-- the step of a stop that has the lock -/
theorem closed_of_stop (hp : p.Reachable) {total : Nat} {b : Bool}
    (hc : p.call? k = some ⟨.removal .stop total .starting, b⟩) (hfree : p.isFree k = true) (reply : Reply) :
    (p.step (.step k reply)).Closed := by
  rw [step_eq_advance hc (.inr rfl) (fun _ => hfree)]
  refine ⟨(Call.advance_stopped _ _ _).trans (by simp [Call.stops]), ?_⟩
  have hreg : (p.advance k (.removal .stop total .starting) reply).registry =
      (Call.drainFor p.registry .stop).1 := Call.tearDown_registry ..
  have hflags : Evolves p.registry { p.registry with stopped := true, cancelled := true } 0 [] [] :=
    evolves_flags hp.sound.coherent (List.Perm.refl _) rfl
  rw [hreg, List.eq_nil_iff_forall_not_mem]
  rintro ⟨d, i⟩ he
  have hout := ((caches_drain hflags.coherent).1 ⟨d, he⟩).2
  cases hout

/-- **stopped for good**: every move leaves the cache empty, and none makes a record -/
theorem Closed.step (hp : p.Reachable) (h : p.Closed) (m : Move) :
    (p.step m).Closed ∧ (p.step m).registry.records.length = p.registry.records.length := by
  have hs : (p.step m).registry.stopped = true := @stopped_run p [m] h.stopped
  have hp' := hp.step m
  have hm := step_moved p m
  generalize p.step m = p' at hm hs hp'
  cases hm with
  | @step k u reply hc hready hlock =>
    obtain ⟨born, gone, claimed, hd⟩ := hp.sound.does hc reply
    have he := hd.evolves hp.sound.coherent (hp.sound.named k u hc)
    have hborn : born = 0 := by
      by_contra hne
      -- a record is made by a request that holds the lock, and the registry was not stopped when it took it
      obtain ⟨-, q, report, hu⟩ := hd.born_pos (Nat.pos_of_ne_zero hne)
      have hopen := hp.locked.unstopped k u hc (by rw [hu]; rfl)
      rw [h.stopped] at hopen
      cases hopen
    have hlen : (p.advance k u.call reply).registry.records.length = p.registry.records.length := by
      rw [← Nat.add_zero p.registry.records.length, ← hborn]
      exact he.length
    refine ⟨⟨hs, ?_⟩, hlen⟩
    rw [List.eq_nil_iff_forall_not_mem]
    intro e hmem
    have hi := hp'.sound.coherent.bound e hmem
    have hnot := hp'.sound.coherent.not_undeployed ⟨e.1, hmem⟩
    have hu := (he.undeployed e.2).2 (.inl (h.undeployed hp (hlen ▸ hi)))
    exact Bool.false_ne_true (hnot.symm.trans hu)
  | aside hm ha =>
    refine ⟨⟨hs, ?_⟩, by rw [ha.records]⟩
    exact List.Perm.eq_nil (h.empty ▸ ha.cache)
  | _ => exact ⟨⟨hs, h.empty⟩, rfl⟩

theorem Closed.run (hp : p.Reachable) (h : p.Closed) (ms : List Move) :
    (p.run ms).Closed ∧ (p.run ms).registry.records.length = p.registry.records.length := by
  induction ms using List.reverseRecOn with
  | nil => exact ⟨h, rfl⟩
  | append_singleton ms m ih =>
    obtain ⟨hclosed, hlen⟩ := ih
    rw [run_append, ← hlen]
    exact hclosed.step (hp.run ms) m

/-! ## What comes to a closed registry -/

/-- the call at the place is one of those, or has returned one of the outcomes -/
def Remains (p : Pool) (k : Nat) (among : Call → Prop) (outcome : Outcome → Prop) : Prop :=
  (∃ u, p.call? k = some u ∧ among u.call) ∨ ∃ o, outcome o ∧ p.Returned k o

/-- on a closed registry a step of such a call leads to another of them, or ends it with one of the outcomes -/
def Confined (among : Call → Prop) (outcome : Outcome → Prop) : Prop :=
  ∀ (p : Pool) (k : Nat) (u : Underway) (reply : Reply), p.Reachable → p.Closed → p.call? k = some u → among u.call →
    (∃ c, (u.call.advance p.registry reply).next = .go c ∧ among c) ∨
      ∃ o, (u.call.advance p.registry reply).next = .done o ∧ outcome o

section

variable {among : Call → Prop} {outcome : Outcome → Prop} {u : Underway}

theorem Remains.step (hconf : Confined among outcome) (hp : p.Reachable) (hclosed : p.Closed)
    (h : p.Remains k among outcome) (m : Move) : (p.step m).Remains k among outcome := by
  rcases h with ⟨u, hc, hu⟩ | ⟨o, ho, hret⟩
  · rcases step_call hc m with ⟨b, hc'⟩ | ⟨reply, rfl, hstep, -⟩
    · exact .inl ⟨_, hc', hu⟩
    · rw [hstep]
      rcases hconf p k u { reply with now := p.now } hp hclosed hc hu with ⟨c, hn, hc'⟩ | ⟨o, hn, ho⟩
      · refine .inl ⟨{ call := c }, ?_, hc'⟩
        rw [call?_advance hc, if_pos rfl, hn]
        rfl
      · exact .inr ⟨o, ho, returned_advance.2 (.inr ⟨rfl, hn⟩)⟩
  · exact .inr ⟨o, ho, returned_step hret m⟩

theorem Remains.run (hconf : Confined among outcome) (hp : p.Reachable) (hclosed : p.Closed)
    (h : p.Remains k among outcome) (ms : List Move) : (p.run ms).Remains k among outcome := by
  induction ms using List.reverseRecOn with
  | nil => exact h
  | append_singleton ms m ih =>
    rw [run_append]
    exact ih.step hconf (hp.run ms) (hclosed.run hp ms).1 m

/-- left alone with the lock such a call ends: each of its turns makes it lighter -/
theorem ended_of_confined (hconf : Confined among outcome) (hp : p.Reachable) (hclosed : p.Closed)
    (hc : p.call? k = some u) (hu : among u.call) (hfree : p.isFree k = true) (reply : Reply) :
    ∃ n, (p.run (turns k reply n)).Ended k := by
  obtain ⟨c, b⟩ := u
  induction c using (InvImage.wf Call.weight WellFoundedRelation.wf).induction generalizing p b with
  | _ c ih =>
    obtain ⟨b', hc₁, hreg, hready, hothers⟩ := ask_ready hc
    have hp₁ := hp.step (.ask k)
    have hfree₁ : (p.step (.ask k)).isFree k = true := by
      rw [isFree_iff] at hfree ⊢
      intro j v hv hl
      by_contra hj
      rw [hothers j hj] at hv
      exact hj (hfree j v hv hl)
    have hclosed₁ := (hclosed.step hp (.ask k)).1
    rw [← hreg] at hready
    have hstep := step_eq_advance hc₁ hready (fun _ => hfree₁) reply
    have hrun (n : Nat) : p.run (turns k reply (n + 1)) =
        ((p.step (.ask k)).step (.step k reply)).run (turns k reply n) := rfl
    generalize p.step (.ask k) = p₁ at hc₁ hp₁ hfree₁ hclosed₁ hready hstep hrun
    have hp₂ := hp₁.step (.step k reply)
    rcases hconf p₁ k _ { reply with now := p₁.now } hp₁ hclosed₁ hc₁ hu with ⟨c', hn, hu'⟩ | ⟨o, hn, -⟩
    · have hc₂ : (p₁.step (.step k reply)).call? k = some ⟨c', false⟩ := by
        rw [hstep, call?_advance hc₁, if_pos rfl, hn]
        rfl
      have hfree₂ : (p₁.step (.step k reply)).isFree k = true := by
        rw [isFree_iff] at hfree₁ ⊢
        intro j v hv hl
        by_contra hj
        rw [hstep, call?_advance hc₁, if_neg hj] at hv
        exact hj (hfree₁ j v hv hl)
      obtain ⟨n, hend⟩ := ih c' (Call.advance_weight hn) hp₂ (hclosed₁.step hp₁ _).1 hfree₂ false hc₂ hu'
      exact ⟨n + 1, by rw [hrun]; exact hend⟩
    · have hret : (p₁.step (.step k reply)).Returned k o := by
        rw [hstep]
        exact returned_advance.2 (.inr ⟨rfl, hn⟩)
      exact ⟨1, by rw [hrun]; exact hp₂.settled.returned k o hret⟩

end

/-- a request that comes to a closed registry: it has not taken the lock, and it fails -/
theorem confined_request (q : Request) (report : Bool) :
    Confined (fun c => ∃ pt, c = .request q report pt ∧ pt.isOutside = true)
      fun o => o = .failed (.senderLeft q.sender) ∨ o = .failed .shuttingDown := by
  rintro p k ⟨c, b⟩ reply hp hclosed hc ⟨pt, rfl, hpt⟩
  rcases Call.advance_outside hclosed.stopped hpt with ⟨pt', hn, hpt'⟩ | hn | hn
  · exact .inl ⟨_, hn, pt', rfl, hpt'⟩
  · exact .inr ⟨_, hn, .inl rfl⟩
  · exact .inr ⟨_, hn, .inr rfl⟩

/-- a removal that comes to a closed registry: it has taken nothing out, and there is nothing to be taken out -/
theorem confined_removal (cause : Cause) :
    Confined (fun c => ∃ total pt, c = .removal cause total pt ∧ pt.toTearDown? = none) (· = .removed 0) := by
  rintro p k ⟨c, b⟩ reply hp hclosed hc ⟨total, pt, rfl, hpt⟩
  have hnamed : ∀ i, cause = .expiry i → i < p.registry.records.length := by
    rintro i rfl
    exact hp.sound.named k _ hc i List.mem_cons_self
  rcases Call.advance_empty hp.sound.coherent hnamed hclosed.empty hpt with ⟨total', pt', hn, hpt'⟩ | hn
  · exact .inl ⟨_, hn, total', pt', rfl, hpt'⟩
  · exact .inr ⟨_, hn, rfl⟩

/-- a start that comes to a closed registry -/
theorem confined_start : Confined (· = .start false) (· = .failed .shuttingDown) := by
  rintro p k ⟨c, b⟩ reply hp hclosed hc rfl
  refine .inr ⟨_, ?_, rfl⟩
  simp [Call.advance, hclosed.stopped]

/-- on a closed registry only a removal that has taken out its records before tears any down -/
theorem teardown_step (hp : p.Reachable) (hclosed : p.Closed) {v : Underway} (hv : (p.step m).call? k = some v)
    {queue : List RecordId} (hq : v.call.toTearDown? = some queue) {i : RecordId} (hi : i ∈ queue) :
    ∃ u queue', p.call? k = some u ∧ u.call.toTearDown? = some queue' ∧ i ∈ queue' := by
  rcases call_step hv with ⟨b, hc⟩ | hnew | ⟨reply, u, rfl, hc, hstep⟩
  · exact ⟨_, queue, hc, hq, hi⟩
  · have hnone : v.call.toTearDown? = none := by
      rcases hnew with hnew | ⟨j, hnew⟩
      · exact Call.toTearDown?_of_isNew hnew
      · rw [hnew]
        rfl
    rw [hnone] at hq
    cases hq
  · rw [hstep, call?_advance hc, if_pos rfl] at hv
    obtain ⟨-, hn | ⟨-, heq⟩⟩ := underway?_eq_some.1 hv
    · obtain ⟨born, gone, claimed, hd⟩ := hp.sound.does hc reply
      cases hu : u.call.toTearDown? with
      | none =>
        rcases Call.advance_taking hd hu hn with ⟨hnone, -⟩ | hsome
        · rw [hnone] at hq
          cases hq
        · -- what it has just taken out would have been cached
          obtain rfl : gone = queue := Option.some.inj (hsome.symm.trans hq)
          obtain ⟨d, hd'⟩ := (hd.evolves hp.sound.coherent (hp.sound.named k u hc)).cached i hi
          rw [hclosed.empty] at hd'
          cases hd'
      | some queue₀ =>
        obtain ⟨queue', hq', hsub⟩ := (Call.advance_tearing hu).2.2.2 v.call hn
        obtain rfl : queue' = queue := Option.some.inj (hq'.symm.trans hq)
        exact ⟨u, queue₀, hc, hu, hsub hi⟩
    · exact ⟨u, queue, hc, heq ▸ hq, hi⟩

theorem teardown_run (hp : p.Reachable) (hclosed : p.Closed) {ms : List Move} {v : Underway}
    (hv : (p.run ms).call? k = some v) {queue : List RecordId} (hq : v.call.toTearDown? = some queue) {i : RecordId}
    (hi : i ∈ queue) : ∃ u queue', p.call? k = some u ∧ u.call.toTearDown? = some queue' ∧ i ∈ queue' := by
  induction ms using List.reverseRecOn generalizing v queue with
  | nil => exact ⟨v, queue, hv, hq, hi⟩
  | append_singleton ms m ih =>
    rw [run_append] at hv
    obtain ⟨u, queue', hc, hq', hi'⟩ := teardown_step (hp.run ms) (hclosed.run hp ms).1 hv hq hi
    exact ih hc hq' hi'

/-- what is true of a moment `p` after a stop, which left the pool `p₁` behind -/
structure ShutDown (p₁ p : Pool) : Prop where
  empty : p.registry.cache = []
  /-- no context is made -/
  made : p.made = p₁.made
  /-- nobody begins to ask a context -/
  unasked : ∀ m k v i a cell, (p.step m).call? k = some v → v.call.lookup? = some (i, a, .asking cell) →
    ∃ b, p.call? k = some ⟨v.call, b⟩
  /-- a request that has not taken the lock fails -/
  request : ∀ k q report pt b, p.call? k = some ⟨.request q report pt, b⟩ → pt.isOutside = true →
    (∀ ms, (p.run ms).Remains k (fun c => ∃ pt, c = .request q report pt ∧ pt.isOutside = true)
      fun o => o = .failed (.senderLeft q.sender) ∨ o = .failed .shuttingDown) ∧
    (p.isFree k = true → ∀ reply, ∃ n, (p.run (turns k reply n)).Ended k)
  /-- a removal that has taken nothing out finds nothing -/
  removal : ∀ k cause total pt b, p.call? k = some ⟨.removal cause total pt, b⟩ → pt.toTearDown? = none →
    (∀ ms, (p.run ms).Remains k (fun c => ∃ total pt, c = .removal cause total pt ∧ pt.toTearDown? = none)
      (· = .removed 0)) ∧
    (p.isFree k = true → ∀ reply, ∃ n, (p.run (turns k reply n)).Ended k)
  /-- whoever is told that a record is gone is told by a removal that had taken it out by then -/
  told : ∀ k i, p.Tells k i → ∃ u queue, p₁.call? k = some u ∧ u.call.toTearDown? = some queue ∧ i ∈ queue
  start : ∀ k b, p.call? k = some ⟨.start false, b⟩ →
    (∀ ms, (p.run ms).Remains k (· = .start false) (· = .failed .shuttingDown)) ∧
    (p.isFree k = true → ∀ reply, ∃ n, (p.run (turns k reply n)).Ended k)

theorem Closed.shutDown (hp : p₁.Reachable) (h : p₁.Closed) (ms : List Move) : p₁.ShutDown (p₁.run ms) := by
  have hr := hp.run ms
  obtain ⟨hclosed, hlen⟩ := h.run hp ms
  refine ⟨hclosed.empty, ?_, ?_, ?_, ?_, ?_, ?_⟩
  · rw [hr.made, hp.made, hlen]
  · intro m k v i a cell hv hl
    obtain ⟨owner, hk⟩ := (hr.step m).kept
    have hi := hk.placed k i a _ ⟨v, hv, hl⟩
    rw [(hclosed.step hr m).2] at hi
    exact asking_step hr (hclosed.undeployed hr hi) hv hl
  · intro k q report pt b hc hpt
    refine ⟨fun ms' => ?_, fun hfree reply => ?_⟩
    · exact Remains.run (confined_request q report) hr hclosed (.inl ⟨_, hc, pt, rfl, hpt⟩) ms'
    · exact ended_of_confined (confined_request q report) hr hclosed hc ⟨pt, rfl, hpt⟩ hfree reply
  · intro k cause total pt b hc hpt
    refine ⟨fun ms' => ?_, fun hfree reply => ?_⟩
    · exact Remains.run (confined_removal cause) hr hclosed (.inl ⟨_, hc, total, pt, rfl, hpt⟩) ms'
    · exact ended_of_confined (confined_removal cause) hr hclosed hc ⟨total, pt, rfl, hpt⟩ hfree reply
  · rintro k i ⟨c, hc, hi⟩
    obtain ⟨queue, hq, hmem⟩ := Call.tornDown?_query hi
    exact teardown_run hp h hc hq hmem
  · intro k b hc
    refine ⟨fun ms' => ?_, fun hfree reply => ?_⟩
    · exact Remains.run confined_start hr hclosed (.inl ⟨_, hc, rfl⟩) ms'
    · exact ended_of_confined confined_start hr hclosed hc rfl hfree reply

/-! ## Starts -/

/-- in the run of the moves a start begins at the place -/
def Starts (p : Pool) (ms : List Move) (k : Nat) : Prop :=
  ∃ before after, ms = before ++ .enter (.start false) :: after ∧ (p.run before).calls.length = k

/-- the start at the place was not refused: it sweeps, or has returned -/
def Succeeds (p : Pool) (k : Nat) : Prop :=
  (∃ total pt b, p.call? k = some ⟨.removal (.sweep .starting) total pt, b⟩) ∨ ∃ count, p.Returned k (.removed count)

theorem call?_begin_start (p : Pool) :
    (p.step (.enter (.start false))).call? p.calls.length = some ⟨.start false, false⟩ := by
  simp [Pool.step, Call.IsNew, call?_enter]

theorem Starts.startup {ms : List Move} (hp : p.Reachable) (h : p.Starts ms k) : (p.run ms).Startup k := by
  obtain ⟨before, after, rfl, rfl⟩ := h
  rw [run_append]
  exact (Startup.beginning (call?_begin_start _)).run ((hp.run before).step _) after

theorem starts_concat {ms : List Move} :
    p.Starts (ms ++ [m]) k ↔ p.Starts ms k ∨ m = .enter (.start false) ∧ (p.run ms).calls.length = k := by
  constructor
  · rintro ⟨before, after, heq, hk⟩
    rcases concat_eq_append_cons_iff.1 heq with ⟨after, rfl, -⟩ | ⟨rfl, rfl, -⟩
    · exact .inl ⟨before, after, rfl, hk⟩
    · exact .inr ⟨rfl, hk⟩
  · rintro (⟨before, after, heq, hk⟩ | ⟨rfl, hk⟩)
    · exact ⟨before, after ++ [m], concat_eq_append_cons_iff.2 (.inl ⟨after, heq, rfl⟩), hk⟩
    · exact ⟨ms, [], rfl, hk⟩

/-- a start that was begun by a later moment, and has its place by now, has begun by now -/
theorem Starts.of_append {before after : List Move} (h : p.Starts (before ++ after) k)
    (hk : k < (p.run before).calls.length) : p.Starts before k := by
  induction after using List.reverseRecOn with
  | nil => simpa using h
  | append_singleton after m ih =>
    rw [← List.append_assoc, starts_concat] at h
    rcases h with h | ⟨-, hlen⟩
    · exact ih h
    · rw [run_append] at hlen
      have hle := length_run (p.run before) after
      omega

theorem Succeeds.started (hp : p.Reachable) (hst : p.Startup k) (h : p.Succeeds k) : p.registry.started = true := by
  rcases h with ⟨total, pt, b, hc⟩ | ⟨count, hret⟩
  · by_contra hno
    have hl := (hp.launched.before (by simpa using hno)).2 k _ hc
    cases hl
  · have hend := hp.settled.returned k _ hret
    cases hst with
    | beginning hc => exact absurd hend (not_ended hc)
    | sweeping hc => exact absurd hend (not_ended hc)
    | refused ho => cases hp.settled.unique k _ _ hret ho
    | done ho hs hno => exact hs

theorem Succeeds.step (h : p.Succeeds k) (m : Move) : (p.step m).Succeeds k := by
  rcases h with ⟨total, pt, b, hc⟩ | ⟨count, hret⟩
  · rcases step_call hc m with ⟨b', hc'⟩ | ⟨reply, rfl, hstep, -⟩
    · exact .inl ⟨total, pt, b', hc'⟩
    · rw [hstep]
      rcases Call.removal_next p.registry { reply with now := p.now } (.sweep .starting) total pt with
        ⟨total', pt', hn⟩ | ⟨count, hn⟩
      · refine .inl ⟨total', pt', false, ?_⟩
        rw [call?_advance hc, if_pos rfl, hn]
        rfl
      · exact .inr ⟨count, returned_advance.2 (.inr ⟨rfl, hn⟩)⟩
  · exact .inr ⟨count, returned_step hret m⟩

theorem Succeeds.run (h : p.Succeeds k) (ms : List Move) : (p.run ms).Succeeds k := by
  induction ms generalizing p with
  | nil => exact h
  | cons m ms ih => exact ih (h.step m)

theorem Succeeds.not_failed (hp : p.Reachable) (h : p.Succeeds k) {why : Failure} : ¬ p.Returned k (.failed why) := by
  intro ho
  rcases h with ⟨total, pt, b, hc⟩ | ⟨count, hret⟩
  · exact not_ended hc (hp.settled.returned k _ ho)
  · cases hp.settled.unique k _ _ ho hret

/-- **one step of a start**: it is refused, or looks at the flags and changes nothing, or it finds that the registry was
not started and succeeds -/
theorem start_step {checked b : Bool} (hc : p.call? k = some ⟨.start checked, b⟩) (hm : m.place? = some k) :
    ((∃ checked' b', (p.step m).call? k = some ⟨.start checked', b'⟩) ∨ (p.step m).Returned k (.failed .shuttingDown) ∨
          (p.step m).Returned k (.failed .alreadyStarted)) ∧
        p.Untouched (p.step m) ∧ (p.step m).trace.count (.did .subscribe) = p.trace.count (.did .subscribe) ∨
      p.registry.started = false ∧ (p.step m).Succeeds k := by
  rcases step_self hm hc with h | h | ⟨reply, -, h, -⟩
  · rw [h]
    exact .inl ⟨.inl ⟨checked, b, hc⟩, .refl p, rfl⟩
  · rw [h]
    refine .inl ⟨.inl ⟨checked, true, by rw [call?_pose hc, if_pos rfl]⟩, ⟨rfl, rfl, ?_⟩, ?_⟩
    · simp [Pool.pose, Call.query, Mark.isWork]
    · simp [Pool.pose, Call.query]
  · have hcall := call?_advance hc reply k
    rw [if_pos rfl] at hcall
    rw [h]
    -- a step with no effects on an unchanged registry
    have hquiet {n : Next} (hs : Call.advance p.registry { reply with now := p.now } (.start checked) =
        ⟨p.registry, [], n⟩) : p.Untouched (p.advance k (.start checked) reply) ∧
          (p.advance k (.start checked) reply).trace.count (.did .subscribe) = p.trace.count (.did .subscribe) := by
      refine ⟨untouched_advance (by rw [hs]) (by rw [hs]; simp [AtRest]), ?_⟩
      have hmarks : (n.marks k).count (.did .subscribe) = 0 := by cases n <;> simp [Next.marks]
      simp [Pool.advance, hs, hmarks]
    cases checked with
    | false =>
      cases hstop : p.registry.stopped with
      | true =>
        refine .inl ⟨.inr (.inl (returned_advance.2 (.inr ⟨rfl, ?_⟩))), hquiet (n := .done (.failed .shuttingDown)) ?_⟩
        · simp [Call.advance, hstop]
        · simp [Call.advance, hstop]
      | false =>
        refine .inl ⟨.inl ⟨true, false, ?_⟩, hquiet (n := .go (.start true)) ?_⟩
        · rw [hcall]
          simp [Call.advance, hstop, Next.underway?]
        · simp [Call.advance, hstop]
    | true =>
      cases hstart : p.registry.started with
      | true =>
        refine .inl ⟨.inr (.inr (returned_advance.2 (.inr ⟨rfl, ?_⟩))), hquiet (n := .done (.failed .alreadyStarted)) ?_⟩
        · simp [Call.advance, hstart]
        · simp [Call.advance, hstart]
      | false =>
        refine .inr ⟨rfl, .inl ⟨0, .starting, false, ?_⟩⟩
        rw [hcall]
        simp [Call.advance, hstart, Next.underway?]

/-- a start that succeeds after a move did so before, or found just now that the registry was not started -/
theorem succeeds_step (hp : p.Reachable) (hst : p.Startup k) (h : (p.step m).Succeeds k) :
    p.Succeeds k ∨ m.place? = some k ∧ p.registry.started = false := by
  cases hst with
  | @beginning checked b hc =>
    have hp' := hp.step m
    have hno {checked' b' : Bool} (hc' : (p.step m).call? k = some ⟨.start checked', b'⟩) : False := by
      rcases h with ⟨total, pt, b'', h⟩ | ⟨count, h⟩
      · rw [hc'] at h
        cases h
      · exact not_ended hc' (hp'.settled.returned k _ h)
    by_cases hm : m.place? = some k
    · rcases start_step hc hm with ⟨⟨checked', b', hc'⟩ | ho | ho, -⟩ | ⟨hs, -⟩
      · exact (hno hc').elim
      · exact absurd ho (h.not_failed hp')
      · exact absurd ho (h.not_failed hp')
      · exact .inr ⟨hm, hs⟩
    · rw [← call?_step_of_ne hm (lt_of_call? hc)] at hc
      exact (hno hc).elim
  | sweeping hc => exact .inl (.inl ⟨_, _, _, hc⟩)
  | refused ho => exact absurd (returned_step ho m) (h.not_failed (hp.step m))
  | done ho hs hno => exact .inl (.inr ⟨_, ho⟩)

/-- **of all starts in a run one at most succeeds** -/
theorem sole_start (hp : p.Reachable) {ms : List Move} {j : Nat} (hj : p.Starts ms j) (hk : p.Starts ms k)
    (hsj : (p.run ms).Succeeds j) (hsk : (p.run ms).Succeeds k) : j = k := by
  induction ms using List.reverseRecOn with
  | nil =>
    obtain ⟨before, after, heq, -⟩ := hj
    simp at heq
  | append_singleton ms m ih =>
    rw [run_append] at hsj hsk
    have hr := hp.run ms
    -- one that begins just now has not succeeded
    have hold {k : Nat} (hk : p.Starts (ms ++ [m]) k) (hs : ((p.run ms).step m).Succeeds k) : p.Starts ms k := by
      rcases starts_concat.1 hk with hk | ⟨rfl, rfl⟩
      · exact hk
      · have hc := call?_begin_start (p.run ms)
        rcases hs with ⟨total, pt, b, hs⟩ | ⟨count, hs⟩
        · rw [hc] at hs
          cases hs
        · exact absurd ((hr.step _).settled.returned _ _ hs) (not_ended hc)
    have hj' := hold hj hsj
    have hk' := hold hk hsk
    rcases succeeds_step hr (hj'.startup hp) hsj with hsj' | ⟨hmj, hnot⟩
    · rcases succeeds_step hr (hk'.startup hp) hsk with hsk' | ⟨-, hnot⟩
      · exact ih hj' hk' hsj' hsk'
      · rw [hsj'.started hr (hj'.startup hp)] at hnot
        cases hnot
    · rcases succeeds_step hr (hk'.startup hp) hsk with hsk' | ⟨hmk, -⟩
      · rw [hsk'.started hr (hk'.startup hp)] at hnot
        cases hnot
      · exact Option.some.inj (hmj.symm.trans hmk)

/-- a start looks at the flags, or was not refused, or was refused for one of two reasons -/
theorem Starts.course {ms : List Move} (hk : p.Starts ms k) :
    (∃ checked b, (p.run ms).call? k = some ⟨.start checked, b⟩) ∨ (p.run ms).Succeeds k ∨
      (p.run ms).Returned k (.failed .shuttingDown) ∨ (p.run ms).Returned k (.failed .alreadyStarted) := by
  obtain ⟨before, after, rfl, rfl⟩ := hk
  rw [run_append, run_cons]
  induction after using List.reverseRecOn with
  | nil => exact .inl ⟨false, false, call?_begin_start _⟩
  | append_singleton after m ih =>
    rw [run_append]
    show (∃ checked b, Pool.call? (Pool.step _ m) _ = some ⟨.start checked, b⟩) ∨ Succeeds (Pool.step _ m) _ ∨
      Returned (Pool.step _ m) _ _ ∨ Returned (Pool.step _ m) _ _
    generalize ((p.run before).step (.enter (.start false))).run after = p' at ih ⊢
    rcases ih with ⟨checked, b, hc⟩ | hs | ho | ho
    · by_cases hm : m.place? = some (p.run before).calls.length
      · rcases start_step hc hm with ⟨hnext | ho | ho, -⟩ | ⟨-, hs⟩
        · exact .inl hnext
        · exact .inr (.inr (.inl ho))
        · exact .inr (.inr (.inr ho))
        · exact .inr (.inl hs)
      · rw [← call?_step_of_ne hm (lt_of_call? hc)] at hc
        exact .inl ⟨checked, b, hc⟩
    · exact .inr (.inl (hs.step m))
    · exact .inr (.inr (.inl (returned_step ho m)))
    · exact .inr (.inr (.inr (returned_step ho m)))

/-- **a start that fails**: it found the registry stopped or started, and none of its moves has changed the registry,
ordered or done anything, or subscribed -/
theorem failed_start (hp : p.Reachable) {ms : List Move} (hk : p.Starts ms k) {why : Failure}
    (ho : (p.run ms).Returned k (.failed why)) :
    (why = .shuttingDown ∨ why = .alreadyStarted) ∧
      ∀ before m after, ms = before ++ m :: after → m.place? = some k →
        (p.run before).Untouched ((p.run before).step m) ∧
          ((p.run before).step m).trace.count (.did .subscribe) = (p.run before).trace.count (.did .subscribe) := by
  have hr := hp.run ms
  refine ⟨?_, ?_⟩
  · rcases hk.course with ⟨checked, b, hc⟩ | hs | ho' | ho'
    · exact absurd (hr.settled.returned k _ ho) (not_ended hc)
    · exact absurd ho (hs.not_failed hr)
    · cases hr.settled.unique k _ _ ho ho'
      exact .inl rfl
    · cases hr.settled.unique k _ _ ho ho'
      exact .inr rfl
  · rintro before m after rfl hm
    have hnot (hs : ((p.run before).step m).Succeeds k) : False := by
      rw [run_append] at ho hr
      exact (hs.run after).not_failed hr ho
    cases hc : (p.run before).call? k with
    | none =>
      rw [step_of_ended hm hc]
      exact ⟨.refl _, rfl⟩
    | some u =>
      have hend {o : Outcome} (ho : (p.run before).Returned k o) : False :=
        not_ended hc ((hp.run before).settled.returned k o ho)
      rcases (hk.of_append (lt_of_call? hc)).course with ⟨checked, b, hc'⟩ | hs | ho' | ho'
      · rcases start_step hc' hm with ⟨-, hquiet⟩ | ⟨-, hs⟩
        · exact hquiet
        · exact (hnot hs).elim
      · exact (hnot (hs.step m)).elim
      · exact (hend ho').elim
      · exact (hend ho').elim

/-- **stop is final, start happens once**: from the step in which a stop takes the records out, whatever is called back
from its teardowns and whatever was on its way, the cache stays empty, no context is made and none is asked. Requests
that have not taken the lock by then, or begin later, fail as their sender left or the registry shuts down; evictions,
departures, withdrawals, sweeps and stops that have taken nothing out by then find nothing, and nobody is told of
anything that they do; starts that begin then fail. Each of them ends if it is left alone with the lock. In the whole
run one start at most succeeds. One that fails, for want of a runtime, on a stopped or on a started registry, changes
nothing and subscribes to nothing. -/
theorem stop_final_start_once (timeout : Nat) (ms : List Move) :
    let p := (new timeout).run ms
    (∀ k total b, p.call? k = some ⟨.removal .stop total .starting, b⟩ → p.isFree k = true → ∀ reply later,
        (p.step (.step k reply)).ShutDown ((p.step (.step k reply)).run later)) ∧
      (∀ j k m n, (new timeout).Starts ms j → (new timeout).Starts ms k → p.Returned j (.removed m) →
        p.Returned k (.removed n) → j = k) ∧
      (∀ k why, (new timeout).Starts ms k → p.Returned k (.failed why) →
        (why = .shuttingDown ∨ why = .alreadyStarted) ∧
          ∀ before m after, ms = before ++ m :: after → m.place? = some k →
            ((new timeout).run before).Untouched (((new timeout).run before).step m) ∧
              (((new timeout).run before).step m).trace.count (.did .subscribe) =
                ((new timeout).run before).trace.count (.did .subscribe)) ∧
      (∀ p' : Pool, p'.Untouched (p'.step (.enter (.start false)))) ∧
      Call.ofStart? false = .error .noRuntimeForRegistry := by
  intro p
  have hnew : (new timeout).Reachable := ⟨timeout, [], rfl⟩
  have hp : p.Reachable := hnew.run ms
  refine ⟨?_, ?_, ?_, ?_, rfl⟩
  · intro k total b hc hfree reply later
    exact (closed_of_stop hp hc hfree reply).shutDown (hp.step _) later
  · intro j k m n hj hk hretj hretk
    exact sole_start hnew hj hk (.inr ⟨m, hretj⟩) (.inr ⟨n, hretk⟩)
  · intro k why hk ho
    exact failed_start hnew hk ho
  · intro p'
    exact ⟨rfl, rfl, rfl⟩

/-- a stop between the two liveness checks of a request; while its teardown tells the sink, another request, a departure
and a start begin. Of the two starts before, the second was refused -/
theorem stopped_midway :
    let x : Request := { id := ⟨"x"⟩, sender := ⟨"s"⟩, seq := 1, moduleAlias := "a" }
    let y : Request := { id := ⟨"y"⟩, sender := ⟨"t"⟩, seq := 1, moduleAlias := "a" }
    let ms := .enter (.start false) :: turns 0 {} 4 ++ .enter (.start false) :: turns 1 {} 2 ++
      .enter (.request x true .entering) :: turns 2 { module := .ok ⟨"m", false⟩ } 8 ++
      .enter (.request y true .entering) :: turns 3 {} 1 ++ [.enter (.remove .stop)]
    let later := [.ask 4, .step 3 {}] ++ .enter (.request x true .entering) :: turns 5 {} 2 ++
      .enter (.remove (.departure ⟨"s"⟩)) :: turns 6 {} 1 ++ .enter (.start false) :: turns 7 {} 1
    let p := (new 100).run ms
    let p' := (p.step (.step 4 {})).run later
    p.registry.lookup? ⟨"x"⟩ = some 0 ∧ (p.step (.step 4 {})).ShutDown p' ∧ p'.Tells 4 0 ∧
      p'.Returned 3 (.failed .shuttingDown) ∧ p'.Returned 5 (.failed .shuttingDown) ∧ p'.Returned 6 (.removed 0) ∧
      p'.Returned 7 (.failed .shuttingDown) ∧ p.Returned 0 (.removed 0) ∧ p.Returned 1 (.failed .alreadyStarted) ∧
      ∀ k n, (new 100).Starts ms k → p.Returned k (.removed n) → k = 0 := by
  intro x y ms later p p'
  have hcached : p.registry.lookup? ⟨"x"⟩ = some 0 := by decide +kernel
  have hc : p.call? 4 = some ⟨.removal .stop 0 .starting, false⟩ := by decide +kernel
  have hfree : p.isFree 4 = true := by decide +kernel
  have htold : p'.call? 4 = some ⟨.removal .stop 1 (.telling [0]), true⟩ := by decide +kernel
  have hreturned : p'.Returned 3 (.failed .shuttingDown) ∧ p'.Returned 5 (.failed .shuttingDown) ∧
      p'.Returned 6 (.removed 0) ∧ p'.Returned 7 (.failed .shuttingDown) := by decide +kernel
  have hstarts : p.Returned 0 (.removed 0) ∧ p.Returned 1 (.failed .alreadyStarted) := by decide +kernel
  have hfirst : (new 100).Starts ms 0 := ⟨[], _, rfl, rfl⟩
  obtain ⟨hstop, hsole, -⟩ := stop_final_start_once 100 ms
  obtain ⟨h₃, h₅, h₆, h₇⟩ := hreturned
  refine ⟨hcached, hstop 4 0 false hc hfree {} later, ⟨_, htold, rfl⟩, h₃, h₅, h₆, h₇, hstarts.1, hstarts.2, ?_⟩
  intro k n hk hret
  exact hsole k 0 n 0 hk hfirst hret hstarts.1

end Pool

end Redeploy
