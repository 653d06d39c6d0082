/-
The start of a registry: it succeeds once, and what is true from then on.

A start that is not refused sets a flag, has a listener subscribe to the membership, sweeps the cache once and returns.
`Launched` ties the flag, the subscription and the sweep together; `Startup` follows one start from its beginning to its
end, with any moves of others between.

Results:
- `subscribe_effect`, `launches_next`: only a start on a registry that was not started subscribes and begins the sweep;
- `Reachable.launched`: nothing is subscribed and no such sweep is under way before the flag is set, and one at most is;
- **`started_of_returned`**: once a start has returned without a failure the registry is started and subscribed, and its
  sweep is over for good.
-/
import Redeploy.Proofs.Course

namespace Redeploy

open Registry

namespace Call

/-- the sweep of a start -/
def launches : Call → Bool
  | .removal (.sweep .starting) _ _ => true
  | _ => false

variable {g : Registry} {reply : Reply} {c c' : Call}

theorem subscribe_not_mem_tearDown {cause : Cause} {total : Nat} {before : List Effect} {queue : List RecordId}
    (h : Effect.subscribe ∉ before) : Effect.subscribe ∉ (tearDown g cause total before queue).effects := by
  cases queue with
  | nil =>
    simp only [tearDown, finalNotices, List.mem_append, h, false_or]
    split <;> simp
  | cons i rest => cases cause <;> simp [tearDown, notices, h]

theorem subscribe_not_mem_release {cause : Cause} {total : Nat} {before : List Effect} {i : RecordId}
    {rest : List RecordId} (h : Effect.subscribe ∉ before) :
    Effect.subscribe ∉ (release g cause total before i rest).effects := by
  unfold release
  split
  · exact subscribe_not_mem_tearDown h
  · exact h

theorem subscribe_not_mem_removal {cause : Cause} {total : Nat} {p : RemovalPoint} :
    Effect.subscribe ∉ (advanceRemoval g cause total reply p).effects := by
  have hnil : Effect.subscribe ∉ ([] : List Effect) := by simp
  cases p with
  | starting =>
    simp only [advanceRemoval]
    split
    · split <;> simp
    · refine subscribe_not_mem_tearDown ?_
      unfold drainNotices
      split
      · split <;> simp
      · exact hnil
  | checking left gone =>
    cases left with
    | nil => exact subscribe_not_mem_tearDown hnil
    | cons i left => exact hnil
  | telling queue =>
    cases queue with
    | nil => exact subscribe_not_mem_tearDown hnil
    | cons i rest =>
      simp only [advanceRemoval]
      split
      · exact subscribe_not_mem_release hnil
      · exact hnil
  | hooking hooks queue =>
    cases queue with
    | nil => cases hooks <;> exact subscribe_not_mem_tearDown hnil
    | cons i rest =>
      cases hooks with
      | nil => exact subscribe_not_mem_release hnil
      | cons hook hooks =>
        have hreport (why : Failure) : Effect.subscribe ∉ [Effect.notice (.hookFailed (g.record i) why)] := by simp
        simp only [advanceRemoval]
        cases reply.failure with
        | none =>
          split
          · exact subscribe_not_mem_release hnil
          · exact hnil
        | some why =>
          split
          · exact subscribe_not_mem_release (hreport why)
          · exact hreport why
  | releasing queue =>
    cases queue with
    | nil => exact subscribe_not_mem_tearDown hnil
    | cons i rest =>
      refine subscribe_not_mem_tearDown ?_
      split <;> simp

/-- only a start on a registry that was not started has a listener subscribe -/
theorem subscribe_effect (hg : g.Coherent) (h : Effect.subscribe ∈ (advance g reply c).effects) :
    c = .start true ∧ g.started = false := by
  cases c with
  | request q report p =>
    have hr := advanceRequest_requests g q report reply p
    have hrej {g' : Registry} {why : Failure} {before : List Effect} (hb : Effect.subscribe ∉ before)
        (h : Effect.subscribe ∈ (rejection g' q report why before).effects) : False := by
      simp only [rejection, List.mem_append] at h
      rcases h with h | h
      · exact hb h
      · split at h <;> simp at h
    simp only [advance] at h
    generalize advanceRequest g q report reply p = s at h hr
    cases hr with
    | left hl => exact (hrej (by simp) h).elim
    | stopped hs => exact (hrej (by simp) h).elim
    | departed hl => exact (hrej (by simp) h).elim
    | refused hd => exact (hrej (by simp) h).elim
    | unresolved heq => exact (hrej (by simp) h).elim
    | fresh hd =>
      obtain ⟨-, rfl⟩ := (decide_eq_fresh_iff hg).1 hd
      rw [install_effects (nodup_verdict hg) (verdict_active hg)] at h
      split at h <;> simp at h
    | _ => simp at h
  | lookup i a p =>
    simp only [advance] at h
    split at h <;> cases h
  | removal cause total p => exact (subscribe_not_mem_removal h).elim
  | start checked =>
    cases checked with
    | false =>
      simp only [advance] at h
      split at h <;> cases h
    | true =>
      simp only [advance] at h
      split at h
      · cases h
      · rename_i hs
        exact ⟨rfl, by simpa using hs⟩

/-- a call goes on with the sweep of a start only if it was at it, or is a start on a registry that was not started -/
theorem launches_next (h : (advance g reply c).next = .go c') (hl : c'.launches = true) :
    c.launches = true ∨ c = .start true ∧ g.started = false := by
  cases c with
  | request q report p =>
    obtain ⟨p', rfl⟩ := (advanceRequest_requests g q report reply p).stays h
    cases hl
  | lookup i a p =>
    obtain ⟨p', rfl⟩ := lookup_stays h
    cases hl
  | removal cause total p =>
    obtain ⟨gone, claimed, hr⟩ := advanceRemoval_removes g cause total reply p
    obtain ⟨total', p', rfl, -⟩ := hr.stays h
    exact .inl (by cases cause with
      | sweep reason => cases reason <;> exact hl
      | _ => exact hl)
  | start checked =>
    cases checked <;> simp only [advance] at h <;> split at h <;> cases h
    · cases hl
    · rename_i hs
      exact .inr ⟨rfl, by simpa using hs⟩

/-- a removal that ends returns how many records it took out -/
theorem removal_done {cause : Cause} {total : Nat} {p : RemovalPoint} {o : Outcome}
    (h : (advance g reply (.removal cause total p)).next = .done o) : ∃ count, o = .removed count := by
  have htear {g' : Registry} {total' : Nat} {before : List Effect} {queue : List RecordId}
      (h : (tearDown g' cause total' before queue).next = .done o) : ∃ count, o = .removed count := by
    cases queue with
    | nil => exact ⟨_, (Next.done.inj h).symm⟩
    | cons i rest => cases h
  obtain ⟨gone, claimed, hr⟩ := advanceRemoval_removes g cause total reply p
  simp only [advance] at h
  generalize advanceRemoval g cause total reply p = s at h hr
  cases hr with
  | drain hp hb => exact htear h
  | skip hp hr hb => exact htear h
  | next hb => exact htear h
  | _ => cases h

/-- a removal goes on as one for the same cause, or ends -/
theorem removal_next (g : Registry) (reply : Reply) (cause : Cause) (total : Nat) (p : RemovalPoint) :
    (∃ total' p', (advance g reply (.removal cause total p)).next = .go (.removal cause total' p')) ∨
      ∃ count, (advance g reply (.removal cause total p)).next = .done (.removed count) := by
  cases hn : (advance g reply (.removal cause total p)).next with
  | go c' =>
    obtain ⟨gone, claimed, hr⟩ := advanceRemoval_removes g cause total reply p
    obtain ⟨total', p', rfl, -⟩ := hr.stays hn
    exact .inl ⟨total', p', rfl⟩
  | wait =>
    obtain ⟨i, a, p', hl, -⟩ := lookup?_wait hn
    cases hl
  | done o =>
    obtain ⟨count, rfl⟩ := removal_done hn
    exact .inr ⟨count, rfl⟩

theorem started_lookup {i : RecordId} {a : String} {p : LookupPoint} {g' : Registry} {n : LookupStep}
    (h : advanceLookup g i a reply p = (g', n)) : g'.started = g.started := by
  obtain ⟨f, rfl, -⟩ := lookup_modifies h
  rfl

/-- a registry is started by a start, and stays so -/
theorem started_advance : (advance g reply c).registry.started = true ↔ g.started = true ∨ c = .start true := by
  cases c with
  | request q report p =>
    have hsame : (advance g reply (.request q report p)).registry.started = g.started := by
      have hr := advanceRequest_requests g q report reply p
      simp only [advance]
      generalize advanceRequest g q report reply p = s at hr
      cases hr with
      | fresh hd =>
        show (g.install q _ reply.now reply.clock).1.started = g.started
        rw [install_eq]
      | look heq => exact started_lookup heq
      | wait heq => exact started_lookup heq
      | made heq => exact started_lookup heq
      | found heq => exact started_lookup heq
      | unresolved heq => exact started_lookup heq
      | _ => rfl
    simp [hsame]
  | lookup i a p =>
    rw [lookup_registry, started_lookup (Prod.eta (advanceLookup g i a reply p)).symm]
    simp
  | removal cause total p =>
    obtain ⟨gone, claimed, hr⟩ := advanceRemoval_removes g cause total reply p
    have htakes : (takes g cause p).1.started = g.started := by
      cases p with
      | starting =>
        cases cause with
        | expiry i =>
          simp only [takes, drainFor, Registry.expire]
          split <;> rfl
        | _ => rfl
      | _ => rfl
    have hsame : (advance g reply (.removal cause total p)).registry.started = g.started := by
      simp only [advance]
      generalize advanceRemoval g cause total reply p = s at hr
      cases hr with
      | drain hp hb => rw [tearDown_registry, htakes]
      | skip hp hr hb => rw [tearDown_registry]
      | next hb => rw [tearDown_registry]
      | _ => rfl
    simp [hsame]
  | start checked => cases checked <;> simp only [advance] <;> split <;> simp_all

end Call

namespace Pool

/-- before the registry is started nothing is subscribed and no start sweeps; from then on there is a subscription; one
start at most sweeps -/
structure Launched (p : Pool) : Prop where
  before : p.registry.started = false →
    Mark.did .subscribe ∉ p.trace ∧ ∀ k u, p.call? k = some u → u.call.launches = false
  after : p.registry.started = true → Mark.did .subscribe ∈ p.trace
  sole : ∀ j k u v, p.call? j = some u → p.call? k = some v → u.call.launches = true → v.call.launches = true → j = k

theorem launches_of_isNew {g : Registry} {c : Call} (h : c.IsNew g = true) : c.launches = false := by
  cases hl : c.launches with
  | false => rfl
  | true =>
    unfold Call.launches at hl
    split at hl
    · cases h
    · cases hl

/-- who sweeps for a start after a move did so before, or is a start on a registry that was not started -/
theorem launches_step {p : Pool} {m : Move} {k : Nat} {u : Underway} (hu : (p.step m).call? k = some u)
    (hl : u.call.launches = true) :
    (∃ v, p.call? k = some v ∧ v.call.launches = true) ∨
      p.registry.started = false ∧ (p.step m).registry.started = true ∧ ∃ v, p.call? k = some v ∧ v.call = .start true := by
  rcases call_step hu with ⟨b, hc⟩ | hnew | ⟨reply, v, rfl, hc, hstep⟩
  · exact .inl ⟨⟨u.call, b⟩, hc, hl⟩
  · rcases hnew with hnew | ⟨i, hnew⟩
    · rw [launches_of_isNew hnew] at hl
      cases hl
    · rw [hnew] at hl
      cases hl
  · rw [hstep, call?_advance hc, if_pos rfl] at hu
    rw [hstep]
    obtain ⟨-, hn | ⟨-, heq⟩⟩ := underway?_eq_some.1 hu
    · rcases Call.launches_next hn hl with hv | ⟨hv, hs⟩
      · exact .inl ⟨v, hc, hv⟩
      · exact .inr ⟨hs, Call.started_advance.2 (.inr hv), v, hc, hv⟩
    · exact .inl ⟨v, hc, heq ▸ hl⟩

/-- what a move adds to the trace is a subscription only if it starts the registry -/
theorem subscribe_step {p : Pool} (hs : p.Sound) {m : Move} (h : Mark.did .subscribe ∈ (p.step m).trace) :
    Mark.did .subscribe ∈ p.trace ∨ p.registry.started = false ∧
      ∃ k b, (p.step m).call? k = some ⟨.removal (.sweep .starting) 0 .starting, b⟩ := by
  have hm := step_moved p m
  generalize p.step m = p' at hm h
  cases hm with
  | ask hc hq =>
    simp only [Pool.pose, List.mem_append, List.mem_singleton, reduceCtorEq, or_false] at h
    exact .inl h
  | @step k u reply hc hready hlock =>
    simp only [Pool.advance, List.mem_append, List.mem_map, Mark.did.injEq, exists_eq_right] at h
    rcases h with (h | h) | h
    · exact .inl h
    · obtain ⟨hu, hno⟩ := Call.subscribe_effect hs.coherent h
      refine .inr ⟨hno, k, false, ?_⟩
      rw [call?_advance hc, if_pos rfl, hu]
      simp [Call.advance, hno, Next.underway?]
    · generalize (u.call.advance p.registry _).next = n at h
      cases n <;> simp [Next.marks] at h
  | aside hm ha => exact .inl (by rw [← ha.trace]; exact h)
  | _ => exact .inl h

/-- a registry stays started; the move that starts it is a step of a start, which subscribes -/
theorem started_step {p : Pool} (m : Move) :
    (p.registry.started = true → (p.step m).registry.started = true) ∧
      (p.registry.started = false → (p.step m).registry.started = true → Mark.did .subscribe ∈ (p.step m).trace) := by
  have hsame {p' : Pool} (h : p'.registry.started = p.registry.started) :
      (p.registry.started = true → p'.registry.started = true) ∧
        (p.registry.started = false → p'.registry.started = true → Mark.did .subscribe ∈ p'.trace) := by
    rw [h]
    exact ⟨id, fun hno hyes => by rw [hno] at hyes; cases hyes⟩
  have hm := step_moved p m
  generalize p.step m = p' at hm
  cases hm with
  | @step k u reply hc hready hlock =>
    refine ⟨fun h => Call.started_advance.2 (.inl h), fun hno h => ?_⟩
    rcases Call.started_advance.1 h with hyes | hu
    · rw [hno] at hyes
      cases hyes
    · refine List.mem_append_left _ (List.mem_append_right _ ?_)
      simp [hu, Call.advance, hno]
  | aside hm ha => exact hsame ha.started
  | _ => exact hsame rfl

theorem launched_step {p : Pool} (h : p.Launched) (hs : p.Sound) (m : Move) : (p.step m).Launched := by
  have hbefore : (p.step m).registry.started = false → p.registry.started = false := by
    intro hno
    by_contra hyes
    rw [(started_step m).1 (by simpa using hyes)] at hno
    cases hno
  refine ⟨fun hno => ⟨fun hsub => ?_, fun k u hu => ?_⟩, fun hyes => ?_, ?_⟩
  · rcases subscribe_step hs hsub with hold | ⟨-, k, b, hk⟩
    · exact (h.before (hbefore hno)).1 hold
    · obtain ⟨v, hv, hl⟩ | ⟨-, hyes, -⟩ := launches_step hk rfl
      · rw [(h.before (hbefore hno)).2 k v hv] at hl
        cases hl
      · rw [hno] at hyes
        cases hyes
  · by_contra hl
    obtain ⟨v, hv, hl⟩ | ⟨-, hyes, -⟩ := launches_step hu (by simpa using hl)
    · rw [(h.before (hbefore hno)).2 k v hv] at hl
      cases hl
    · rw [hno] at hyes
      cases hyes
  · cases hs : p.registry.started with
    | true => exact trace_step (h.after hs)
    | false => exact (started_step m).2 hs hyes
  · intro j k u v hu hv hlu hlv
    rcases launches_step hu hlu with ⟨u', hu', hlu'⟩ | ⟨hno, -, u', hu', hstart⟩
    · rcases launches_step hv hlv with ⟨v', hv', hlv'⟩ | ⟨hno, -⟩
      · exact h.sole j k u' v' hu' hv' hlu' hlv'
      · rw [(h.before hno).2 j u' hu'] at hlu'
        cases hlu'
    · rcases launches_step hv hlv with ⟨v', hv', hlv'⟩ | ⟨-, -, v', hv', hstart'⟩
      · rw [(h.before hno).2 k v' hv'] at hlv'
        cases hlv'
      · -- both come from the step of a start, and a move is a step of one call only
        by_contra hjk
        by_cases hm : m.place? = some j
        · have hkeep := call?_step_of_ne (m := m) (k := k)
            (fun hk => hjk (Option.some.inj (hm.symm.trans hk))) (lt_of_call? hv')
          rw [hv, hv'] at hkeep
          rw [← Option.some.inj hkeep] at hstart'
          rw [hstart'] at hlv
          cases hlv
        · have hkeep := call?_step_of_ne (m := m) hm (lt_of_call? hu')
          rw [hu, hu'] at hkeep
          rw [← Option.some.inj hkeep] at hstart
          rw [hstart] at hlu
          cases hlu

theorem launched_new (timeout : Nat) : (new timeout).Launched := by
  refine ⟨fun _ => ⟨fun h => (by cases h), fun k u hu => ?_⟩, fun h => (by cases h), fun j k u v hu => ?_⟩ <;> cases hu

theorem Reachable.launched {p : Pool} (hp : p.Reachable) : p.Launched :=
  hp.induct launched_new fun _ m hr h => launched_step h hr.sound m

/-! ## One start -/

/-- how far the start at the place has come: once it is done the registry is started and nobody sweeps for a start -/
inductive Startup (p : Pool) (k : Nat) : Prop
  | beginning {checked b : Bool} (hc : p.call? k = some ⟨.start checked, b⟩)
  | sweeping {total : Nat} {pt : RemovalPoint} {b : Bool}
    (hc : p.call? k = some ⟨.removal (.sweep .starting) total pt, b⟩)
  | refused {why : Failure} (ho : p.Returned k (.failed why))
  | done {count : Nat} (ho : p.Returned k (.removed count)) (hs : p.registry.started = true)
    (hno : ∀ j u, p.call? j = some u → u.call.launches = false)

theorem Startup.step {p : Pool} (hp : p.Reachable) {k : Nat} (h : p.Startup k) (m : Move) : (p.step m).Startup k := by
  cases h with
  | @beginning checked b hc =>
    rcases step_call hc m with ⟨b', hc'⟩ | ⟨reply, rfl, h, -⟩
    · exact .beginning hc'
    · rw [h]
      have hcall := call?_advance hc reply k
      rw [if_pos rfl] at hcall
      have hret : ∀ o, (Call.advance p.registry { reply with now := p.now } (.start checked)).next = .done o →
          (p.advance k (.start checked) reply).Returned k o := fun o h => returned_advance.2 (.inr ⟨rfl, h⟩)
      cases checked <;> simp only [Call.advance] at hcall hret <;> split at hcall
      · rename_i hs
        exact .refused (hret (.failed .shuttingDown) (by simp [hs]))
      · exact .beginning hcall
      · rename_i hs
        exact .refused (hret (.failed .alreadyStarted) (by simp [hs]))
      · exact .sweeping hcall
  | @sweeping total pt b hc =>
    rcases step_call hc m with ⟨b', hc'⟩ | ⟨reply, rfl, h, -⟩
    · exact .sweeping hc'
    · have hcall := call?_advance hc reply k
      rw [if_pos rfl, ← h] at hcall
      rcases Call.removal_next p.registry { reply with now := p.now } (.sweep .starting) total pt with
        ⟨total', pt', hn⟩ | ⟨count, hn⟩
      · rw [hn] at hcall
        exact .sweeping hcall
      · have hret : (p.step (.step k reply)).Returned k (.removed count) := by
          rw [h]
          exact returned_advance.2 (.inr ⟨rfl, hn⟩)
        -- a sweep was under way, so the registry is started, and no other sweep of a start was
        have hs : p.registry.started = true := by
          by_contra hno
          have := (hp.launched.before (by simpa using hno)).2 k _ hc
          cases this
        refine .done hret ((started_step _).1 hs) fun j u hu => ?_
        by_contra hl
        rcases launches_step hu (by simpa using hl) with ⟨v, hv, hlv⟩ | ⟨hno, -⟩
        · obtain rfl := hp.launched.sole j k v _ hv hc hlv rfl
          exact not_ended hu ((hp.step _).settled.returned j _ hret)
        · rw [hs] at hno
          cases hno
  | refused ho => exact .refused (returned_step ho m)
  | done ho hs hno =>
    refine .done (returned_step ho m) ((started_step m).1 hs) fun j u hu => ?_
    by_contra hl
    rcases launches_step hu (by simpa using hl) with ⟨v, hv, hlv⟩ | ⟨hnot, -⟩
    · rw [hno j v hv] at hlv
      cases hlv
    · rw [hs] at hnot
      cases hnot

theorem Startup.run {p : Pool} (hp : p.Reachable) {k : Nat} (h : p.Startup k) (ms : List Move) :
    (p.run ms).Startup k := by
  induction ms using List.reverseRecOn with
  | nil => exact h
  | append_singleton ms m ih =>
    rw [run_append]
    exact ih.step (hp.run ms) m

/-- **a start that succeeded is over**: the registry is started and subscribed, and nobody sweeps for a start -/
theorem started_of_returned {p : Pool} (hp : p.Reachable) {ms : List Move} {count : Nat}
    (ho : (p.run (.enter (.start false) :: ms)).Returned p.calls.length (.removed count)) :
    (p.run (.enter (.start false) :: ms)).registry.started = true ∧
      Mark.did .subscribe ∈ (p.run (.enter (.start false) :: ms)).trace ∧
      ∀ j u, (p.run (.enter (.start false) :: ms)).call? j = some u → u.call.launches = false := by
  have hr : (p.run (.enter (.start false) :: ms)).Reachable := hp.run _
  have hc : (p.step (.enter (.start false))).call? p.calls.length = some ⟨.start false, false⟩ := by
    simp [Pool.step, Call.IsNew, call?_enter]
  have hbegin : (p.step (.enter (.start false))).Startup p.calls.length := .beginning hc
  have hstage : (p.run (.enter (.start false) :: ms)).Startup p.calls.length := hbegin.run (hp.step _) ms
  generalize p.run (.enter (.start false) :: ms) = p' at ho hr hstage
  have hend := hr.settled.returned _ _ ho
  cases hstage with
  | beginning hc => exact absurd hend (not_ended hc)
  | sweeping hc => exact absurd hend (not_ended hc)
  | refused ho' => cases hr.settled.unique _ _ _ ho ho'
  | done ho' hs hno => exact ⟨hs, hr.launched.after hs, hno⟩

end Pool

end Redeploy
