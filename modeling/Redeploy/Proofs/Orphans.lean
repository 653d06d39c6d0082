/-
No orphaned deployments: a cached record of a sender that is not live is about to be taken out.

A departure is two steps, the removal from the directory and the event, and the event may be dropped before the listener
reads it; a request asks about its sender before it has the lock and once more after, and the sender may leave at any
time. `Awaited` says what is still to come that will take the records of a departed member out: an announcement, an
unread event, a reading of events lost, or a call of the listener that waits for the lock. `Guarded` is the invariant of
a registry that has started: the sender of every cached record, and of every request about to be decided about, is live
or awaited, and a sweep under way has still to come to the records that are neither.

Results:
- `Awaited.step`: what is awaited stays so until the call that takes the records out has the lock, and then no request
  is about to be decided about;
- `Guarded.directory`, `Guarded.announce`, `Guarded.stepPool`, `Guarded.listen`: every move keeps the invariant;
- **`no_orphans`**: of every cached record in a cluster whose registry has started the sender is live, or a departure
  event or a lag report is still to be handled; when nothing is in flight every sender is live.
-/
import Redeploy.Cluster
import Redeploy.Proofs.Directory
import Redeploy.Proofs.Launch

open Redeploy.Membership (Directory Announcement)

namespace Redeploy

open Registry

/-! ## What a move of a pool does to the cache -/

/-- a request comes to be decided about by hearing that its sender is live -/
theorem Call.deciding_next {g : Registry} {reply : Reply} {c : Call} {q : Request} {report : Bool}
    (hn : (Call.advance g reply c).next = .go (.request q report .deciding)) :
    c = .request q report .rechecking ∧ reply.live = true := by
  cases c with
  | request q' report' pt =>
    have hr := Call.advanceRequest_requests g q' report' reply pt
    simp only [Call.advance] at hn
    generalize Call.advanceRequest g q' report' reply pt = s at hn hr
    cases hr with
    | recheck hl =>
      cases hn
      exact ⟨rfl, hl⟩
    | _ => cases hn
  | lookup i a pt =>
    obtain ⟨pt', hpt⟩ := Call.lookup_stays hn
    cases hpt
  | start checked => cases checked <;> simp only [Call.advance] at hn <;> split at hn <;> cases hn
  | removal cause total pt =>
    obtain ⟨gone, claimed, hr⟩ := Call.advanceRemoval_removes g cause total reply pt
    obtain ⟨total', pt', hpt, -⟩ := hr.stays hn
    cases hpt

namespace Pool

variable {p : Pool}

/-- a cached record was cached before the move, or is that of the request whose decision the move is -/
theorem caches_step (hs : p.Sound) {m : Move} {i : RecordId} (h : (p.step m).registry.Caches i) :
    p.registry.Caches i ∧ ((p.step m).registry.record i).sender = (p.registry.record i).sender ∨
      ∃ k q report b, p.call? k = some ⟨.request q report .deciding, b⟩ ∧
        ((p.step m).registry.record i).sender = q.sender := by
  have hs' := sound_step hs m
  have hi := hs'.coherent.lt h
  have hlive := hs'.coherent.not_undeployed h
  have hm := step_moved p m
  generalize p.step m = p' at hm h hi hlive
  cases hm with
  | @step k u reply hc hready hlock =>
    obtain ⟨c, b⟩ := u
    obtain ⟨born, gone, claimed, hd⟩ := hs.does hc reply
    have he := hd.evolves hs.coherent (hs.named k _ hc)
    by_cases hlt : i < p.registry.records.length
    · have hold : (p.registry.record i).isUndeployed = false := by
        by_contra hu
        rw [show ((p.advance k c reply).registry.record i).isUndeployed = true from
          (he.undeployed i).2 (.inl (by simpa using hu))] at hlive
        cases hlive
      refine .inl ⟨(hs.coherent.alive i hlt).1 hold, ?_⟩
      have ho := congrArg Record.sender (he.origin i hlt)
      simp only [Record.origin] at ho
      exact ho
    · have hlen : (p.advance k c reply).registry.records.length = p.registry.records.length + born := he.length
      have hnew : ¬ i < p.registry.records.length + 0 := hlt
      rw [hlen] at hi
      refine .inr ?_
      show ∃ k' q report b', _ ∧ ((c.advance p.registry { reply with now := p.now }).registry.record i).sender = _
      generalize c.advance p.registry { reply with now := p.now } = s at hd
      cases hd with
      | @found q report ha =>
        obtain rfl : i = p.registry.records.length := le_antisymm (Nat.lt_succ_iff.1 hi) (Nat.le_of_not_lt hnew)
        exact ⟨k, q, report, b, hc, by rw [record_install_new]; rfl⟩
      | remove hr => exact absurd hi hnew
      | other hne he' hb hn => exact absurd hi hnew
  | aside hm ha =>
    obtain ⟨d, hd⟩ := h
    exact .inl ⟨⟨d, ha.cache.mem_iff.1 hd⟩, by rw [ha.record]⟩
  | _ => exact .inl ⟨h, rfl⟩

/-- a request that is about to be decided about was so before the move, or has just heard that its sender is live -/
theorem deciding_before {m : Move} {k : Nat} {q : Request} {report b : Bool}
    (h : (p.step m).call? k = some ⟨.request q report .deciding, b⟩) :
    (∃ b', p.call? k = some ⟨.request q report .deciding, b'⟩) ∨
      ∃ reply b', m = .step k reply ∧ reply.live = true ∧ p.call? k = some ⟨.request q report .rechecking, b'⟩ := by
  rcases call_step h with hold | hnew | ⟨reply, u, rfl, hc, hstep⟩
  · exact .inl hold
  · rcases hnew with hnew | ⟨i, hnew⟩ <;> cases hnew
  · rw [hstep, call?_advance hc, if_pos rfl] at h
    obtain ⟨c, b'⟩ := u
    obtain ⟨-, hn | ⟨-, heq⟩⟩ := underway?_eq_some.1 h
    · obtain ⟨rfl, hl⟩ := Call.deciding_next hn
      exact .inr ⟨reply, b', rfl, hl, hc⟩
    · exact .inl ⟨b', by rw [hc, ← show _ = c from heq]⟩

/-- once a removal has taken the lock no request is about to be decided about -/
theorem not_deciding_of_free {k : Nat} {cause : Cause} {total : Nat} {pt : RemovalPoint} {b : Bool}
    (hc : p.call? k = some ⟨.removal cause total pt, b⟩) (hfree : p.isFree k = true) (reply : Reply) {j : Nat}
    {q : Request} {report b' : Bool} :
    (p.advance k (.removal cause total pt) reply).call? j ≠ some ⟨.request q report .deciding, b'⟩ := by
  intro h
  rw [call?_advance hc] at h
  split at h
  · obtain ⟨-, hn | ⟨-, heq⟩⟩ := underway?_eq_some.1 h
    · obtain ⟨gone, claimed, hr⟩ := Call.advanceRemoval_removes p.registry cause total { reply with now := p.now } pt
      obtain ⟨total', pt', hpt, -⟩ := hr.stays hn
      cases hpt
    · cases heq
  · rename_i hj
    exact hj (isFree_iff.1 hfree j _ h rfl)

/-- a departure that gets the lock takes out the cached records of the member -/
theorem registry_departure (p : Pool) (k : Nat) (m : MemberId) (total : Nat) (reply : Reply) :
    (p.advance k (.removal (.departure m) total .starting) reply).registry =
      (p.registry.drain fun _ r => r.sender == m).1 := by
  simp only [Pool.advance, Call.advance, Call.advanceRemoval, Call.tearDown_registry, Call.drainFor]

/-- after the departure of a member has been handled, no record of it is cached -/
theorem sender_ne_of_departure (hs : p.Sound) {k : Nat} {m : MemberId} {total : Nat} {reply : Reply} {i : RecordId}
    (h : (p.advance k (.removal (.departure m) total .starting) reply).registry.Caches i) :
    ((p.advance k (.removal (.departure m) total .starting) reply).registry.record i).sender ≠ m := by
  rw [registry_departure] at h ⊢
  obtain ⟨hcached, hno⟩ := (caches_drain hs.coherent).1 h
  rw [record_drain hs.coherent, if_neg fun hin => by simp [((mem_drain hs.coherent).1 hin).2] at hno]
  simpa using hno

/-- a sweep that has asked about all senders takes out the records whose sender was not live -/
theorem not_mem_of_drained (hs : p.Sound) {k : Nat} {cause : Cause} {total : Nat} {gone : List RecordId} {reply : Reply}
    {i : RecordId} (h : (p.advance k (.removal cause total (.checking [] gone)) reply).registry.Caches i) :
    i ∉ gone := by
  have hreg : (p.advance k (.removal cause total (.checking [] gone)) reply).registry =
      (p.registry.drain fun i _ => gone.contains i).1 := by
    simp only [Pool.advance, Call.advance, Call.advanceRemoval, Call.tearDown_registry]
  rw [hreg] at h
  simpa using ((caches_drain hs.coherent).1 h).2

end Pool

namespace Cluster

variable {c : Cluster} {l : Listener} {m : MemberId} {i : RecordId}

/-! ## What is still to come -/

/-- a departure of the member is among the announcements still to be made -/
def IsUnsaid (c : Cluster) (m : MemberId) : Prop :=
  ∃ as ∈ c.unsaid, ∃ e, Announcement.event e ∈ as ∧ e.isDeparture = true ∧ e.member = m

/-- a departure of the member is in the channel, where the listener has not come to it -/
def IsUnread (c : Cluster) (l : Listener) (m : MemberId) : Prop :=
  ∃ j e, l.cursor ≤ j ∧ c.feed.oldest ≤ j ∧ c.feed.sent[j]? = some e ∧ e.isDeparture = true ∧ e.member = m

/-- the listener has read of the departure, and its call waits for the lock -/
def IsDeparting (c : Cluster) (l : Listener) (m : MemberId) : Prop :=
  ∃ k total b, l.handling = some k ∧ c.pool.call? k = some ⟨.removal (.departure m) total .starting, b⟩

/-- the channel has dropped events to which the listener had not come, which it will learn next -/
def HasLagged (c : Cluster) (l : Listener) : Prop := l.cursor < c.feed.oldest

/-- the listener has learnt that events were dropped, and its sweep has still to come to the record -/
def IsSweeping (c : Cluster) (l : Listener) (i : RecordId) : Prop :=
  ∃ k n total pt b, l.handling = some k ∧ c.pool.call? k = some ⟨.removal (.sweep (.lagged n)) total pt, b⟩ ∧
    (pt = .starting ∨ ∃ left gone, pt = .checking left gone ∧ i ∈ left ++ gone)

/-- nothing is in flight: all is announced, the listener has read all of it, and no call is under way -/
structure IsQuiet (c : Cluster) (l : Listener) : Prop where
  said : ∀ as ∈ c.unsaid, as = []
  read : c.feed.sent.length ≤ l.cursor
  idle : c.pool.IsIdle

/-- something is still to come that will take the records of the member out -/
inductive Awaited (c : Cluster) (l : Listener) (m : MemberId) : Prop
  | unsaid (h : c.IsUnsaid m)
  | unread {j : Nat} {e : Membership.Event} (hj : l.cursor ≤ j) (he : c.feed.sent[j]? = some e)
    (hd : e.isDeparture = true) (hm : e.member = m)
  | departing (h : c.IsDeparting l m)
  | lagging (h : c.HasLagged l)
  | lagged {k n total : Nat} {b : Bool} (hk : l.handling = some k)
    (hc : c.pool.call? k = some ⟨.removal (.sweep (.lagged n)) total .starting, b⟩)

/-- a sweep of the start or of the listener has still to come to the record -/
def Examined (c : Cluster) (l : Listener) (i : RecordId) : Prop :=
  ∃ k reason total left gone b, c.pool.call? k = some ⟨.removal (.sweep reason) total (.checking left gone), b⟩ ∧
    i ∈ left ++ gone ∧ (reason = .starting ∨ ∃ n, reason = .lagged n ∧ l.handling = some k)

/-- whoever has a record, or is about to get one, is live or awaited -/
structure Guarded (c : Cluster) (l : Listener) : Prop where
  records : ∀ i, c.pool.registry.Caches i →
    c.directory.isLive (c.pool.registry.record i).sender = true ∨ c.Awaited l (c.pool.registry.record i).sender ∨
      c.Examined l i
  requests : ∀ k q report b, c.pool.call? k = some ⟨.request q report .deciding, b⟩ →
    c.directory.isLive q.sender = true ∨ c.Awaited l q.sender

/-- a move that changes no record and lets no request come to be decided about, with what it keeps -/
theorem Guarded.imp {c' : Cluster} {l' : Listener} (h : c.Guarded l) (hreg : c'.pool.registry = c.pool.registry)
    (hnew : ∀ k q report b, c'.pool.call? k = some ⟨.request q report .deciding, b⟩ →
      c.pool.call? k = some ⟨.request q report .deciding, b⟩)
    (hlive : ∀ m, c.directory.isLive m = true → c'.directory.isLive m = true ∨ c'.Awaited l' m)
    (haway : ∀ m, c.Awaited l m → c'.Awaited l' m) (hex : ∀ i, c.Examined l i → c'.Examined l' i) : c'.Guarded l' := by
  refine ⟨fun i hi => ?_, fun k q report b hk => ?_⟩
  · rw [hreg] at hi ⊢
    rcases h.records i hi with hl | ha | hx
    · exact (hlive _ hl).imp_right .inl
    · exact .inr (.inl (haway _ ha))
    · exact .inr (.inr (hex i hx))
  · rcases h.requests k q report b (hnew k q report b hk) with hl | ha
    · exact hlive _ hl
    · exact .inr (haway _ ha)

/-! ## Moves of the pool -/

/-- the move with the directory's own answer in place of the one that it brings -/
def answered (c : Cluster) : Pool.Move → Pool.Move
  | .step place reply => .step place (c.answer place reply)
  | x => x

theorem stepPool_pool (c : Cluster) (x : Pool.Move) : (c.stepPool x).pool = c.pool.step (c.answered x) := by
  cases x <;> rfl

theorem stepPool_listener (c : Cluster) (x : Pool.Move) :
    (c.stepPool x).listener = c.subscribed (c.stepPool x).pool := rfl

theorem answered_eq_step {x : Pool.Move} {k : Nat} {reply : Reply} (h : c.answered x = .step k reply) :
    ∃ reply', reply = c.answer k reply' := by
  cases x <;> cases h
  exact ⟨_, rfl⟩

theorem live_answer {k : Nat} {u : Underway} (hc : c.pool.call? k = some u)
    (hq : u.call.query c.pool.registry = .live m) (reply : Reply) :
    (c.answer k reply).live = c.directory.isLive m := by
  simp [answer, hc, hq]

/-- a sweep that gets the lock has all cached records before it, and no request is about to be decided about -/
theorem sweep_begins {p : Pool} {k : Nat} {reason : SweepReason} {total : Nat} {b : Bool}
    (hc : p.call? k = some ⟨.removal (.sweep reason) total .starting, b⟩) (reply : Reply) :
    (p.advance k (.removal (.sweep reason) total .starting) reply).registry = p.registry ∧
      (p.advance k (.removal (.sweep reason) total .starting) reply).call? k =
        some ⟨.removal (.sweep reason) 0 (.checking (p.registry.cache.map Prod.snd) []), false⟩ := by
  refine ⟨rfl, ?_⟩
  rw [Pool.call?_advance hc, if_pos rfl]
  rfl

/-- a sweep of the start or of the listener that gets the lock has still to come to every cached record -/
theorem examined_of_sweep {x : Pool.Move} {k : Nat} {reason : SweepReason} {total : Nat} {b : Bool} {reply : Reply}
    (hc : c.pool.call? k = some ⟨.removal (.sweep reason) total .starting, b⟩)
    (hr : reason = .starting ∨ ∃ n, reason = .lagged n ∧ l.handling = some k)
    (hstep : c.pool.step (c.answered x) = c.pool.advance k (.removal (.sweep reason) total .starting) reply)
    (hi : (c.stepPool x).pool.registry.Caches i) : (c.stepPool x).Examined l i := by
  obtain ⟨hreg, hcall⟩ := sweep_begins hc reply
  rw [stepPool_pool, hstep, hreg] at hi
  obtain ⟨d, hd⟩ := hi
  refine ⟨k, reason, 0, c.pool.registry.cache.map Prod.snd, [], false, ?_, ?_, hr⟩
  · rw [stepPool_pool, hstep]
    exact hcall
  · rw [List.append_nil]
    exact List.mem_map.2 ⟨_, hd, rfl⟩

/-- what is awaited stays so, or the call that brings it has got the lock: then it has taken the member's records out or
has still to come to them, and no request is about to be decided about -/
theorem Awaited.step (hp : c.pool.Reachable) (h : c.Awaited l m) (x : Pool.Move) :
    (c.stepPool x).Awaited l m ∨
      (∀ i, (c.stepPool x).pool.registry.Caches i → ((c.stepPool x).pool.registry.record i).sender = m →
          (c.stepPool x).Examined l i) ∧
        ∀ k q report b, (c.stepPool x).pool.call? k ≠ some ⟨.request q report .deciding, b⟩ := by
  cases h with
  | unsaid h => exact .inl (.unsaid h)
  | unread hj he hd hm => exact .inl (.unread hj he hd hm)
  | lagging h => exact .inl (.lagging h)
  | departing h =>
    obtain ⟨k, total, b, hk, hc⟩ := h
    rcases Pool.step_call hc (c.answered x) with ⟨b', hc'⟩ | ⟨reply, -, hstep, hlock⟩
    · exact .inl (.departing ⟨k, total, b', hk, by rw [stepPool_pool]; exact hc'⟩)
    · rw [stepPool_pool, hstep]
      refine .inr ⟨fun i hi hsender => ?_, fun j q report b' => Pool.not_deciding_of_free hc (hlock rfl) reply⟩
      exact absurd hsender (Pool.sender_ne_of_departure hp.sound hi)
  | lagged hk hc =>
    rcases Pool.step_call hc (c.answered x) with ⟨b', hc'⟩ | ⟨reply, -, hstep, hlock⟩
    · exact .inl (.lagged hk (by rw [stepPool_pool]; exact hc'))
    · refine .inr ⟨fun i hi _ => examined_of_sweep hc (.inr ⟨_, rfl, hk⟩) hstep hi, fun j q report b' => ?_⟩
      rw [stepPool_pool, hstep]
      exact Pool.not_deciding_of_free hc (hlock rfl) reply

/-- a sweep comes to a record by finding its sender live or by taking it out -/
theorem Examined.step (hp : c.pool.Reachable) (h : c.Examined l i) {x : Pool.Move}
    (hi : (c.stepPool x).pool.registry.Caches i) :
    (c.stepPool x).Examined l i ∨ c.directory.isLive ((c.stepPool x).pool.registry.record i).sender = true := by
  obtain ⟨k, reason, total, left, gone, b, hc, hmem, hr⟩ := h
  rcases Pool.step_call hc (c.answered x) with ⟨b', hc'⟩ | ⟨reply, hx, hstep, -⟩
  · exact .inl ⟨k, reason, total, left, gone, b', by rw [stepPool_pool]; exact hc', hmem, hr⟩
  · cases left with
    | nil =>
      rw [stepPool_pool, hstep] at hi
      exact absurd hmem (Pool.not_mem_of_drained hp.sound hi)
    | cons j left =>
      obtain ⟨reply', rfl⟩ := answered_eq_step hx
      have hlive := live_answer hc (m := (c.pool.registry.record j).sender) rfl reply'
      have hcall := Pool.call?_advance hc (c.answer k reply') k
      rw [if_pos rfl] at hcall
      have hnext {gone' : List RecordId} (hgone : gone' =
          if (c.answer k reply').live then gone else gone ++ [j]) (hin : i ∈ left ++ gone') :
          (c.stepPool x).Examined l i := by
        refine ⟨k, reason, total, left, gone', false, ?_, hin, hr⟩
        rw [stepPool_pool, hstep, hcall, hgone]
        rfl
      have hsender : ((c.stepPool x).pool.registry.record i).sender = (c.pool.registry.record i).sender := by
        rw [stepPool_pool, hstep]
        rfl
      rw [hlive] at hnext
      cases hl : c.directory.isLive (c.pool.registry.record j).sender with
      | true =>
        simp only [hl, if_true] at hnext
        by_cases hj : i = j
        · right
          rw [hsender, hj, hl]
        · exact .inl (hnext rfl (by simpa [hj] using hmem))
      | false =>
        simp only [hl, Bool.false_eq_true, if_false] at hnext
        refine .inl (hnext rfl ?_)
        simp only [List.cons_append, List.mem_cons, List.mem_append, List.not_mem_nil, or_false] at hmem ⊢
        tauto

theorem Guarded.stepPool (hp : c.pool.Reachable) (h : c.Guarded l) (x : Pool.Move) : (c.stepPool x).Guarded l := by
  refine ⟨fun i hi => ?_, fun k q report b hk => ?_⟩
  · have haway {m : MemberId} (hm : ((c.stepPool x).pool.registry.record i).sender = m) (ha : c.Awaited l m) :
        (c.stepPool x).Awaited l ((c.stepPool x).pool.registry.record i).sender ∨ (c.stepPool x).Examined l i := by
      rcases ha.step hp x with ha | ⟨hex, -⟩
      · exact .inl (hm ▸ ha)
      · exact .inr (hex i hi hm)
    have hi' := hi
    rw [stepPool_pool] at hi'
    rcases Pool.caches_step hp.sound hi' with ⟨hold, hsender⟩ | ⟨k, q, report, b, hk, hsender⟩
    · rw [← stepPool_pool] at hsender
      rcases h.records i hold with hlive | ha | hex
      · exact .inl (by rw [hsender]; exact hlive)
      · exact .inr (haway hsender ha)
      · rcases hex.step hp hi with hex | hlive
        · exact .inr (.inr hex)
        · exact .inl hlive
    · rw [← stepPool_pool] at hsender
      rcases h.requests k q report b hk with hlive | ha
      · exact .inl (by rw [hsender]; exact hlive)
      · exact .inr (haway hsender ha)
  · have hk' := hk
    rw [stepPool_pool] at hk'
    rcases Pool.deciding_before hk' with ⟨b', hold⟩ | ⟨reply, b', hx, hlive, hold⟩
    · rcases h.requests k q report b' hold with hlive | ha
      · exact .inl hlive
      · rcases ha.step hp x with ha | ⟨-, hno⟩
        · exact .inr ha
        · exact absurd hk (hno k q report b)
    · obtain ⟨reply', rfl⟩ := answered_eq_step hx
      rw [live_answer hold (m := q.sender) rfl] at hlive
      exact .inl hlive

/-! ## Moves of the directory -/

theorem Guarded.directory (h : c.Guarded l) (op : Membership.Op) : (c.step (.directory op)).Guarded l := by
  have hsaid : (c.step (.directory op)).unsaid = c.unsaid ++ [(c.directory.apply op).2] := rfl
  have haway {m : MemberId} (ha : c.Awaited l m) : (c.step (.directory op)).Awaited l m := by
    cases ha with
    | unsaid h =>
      obtain ⟨as, has, he⟩ := h
      exact .unsaid ⟨as, by rw [hsaid]; exact List.mem_append_left _ has, he⟩
    | unread hj he hd hm => exact .unread hj he hd hm
    | departing h => exact .departing h
    | lagging h => exact .lagging h
    | lagged hk hc => exact .lagged hk hc
  have hlive {m : MemberId} (hl : c.directory.isLive m = true) :
      (c.step (.directory op)).directory.isLive m = true ∨ (c.step (.directory op)).Awaited l m := by
    cases hgone : (c.directory.apply op).1.isLive m with
    | true => exact .inl hgone
    | false =>
      obtain ⟨e, he, hd, hm⟩ := Directory.departure_apply hl hgone
      exact .inr (.unsaid ⟨_, by rw [hsaid]; exact List.mem_append_right _ List.mem_cons_self, e, he, hd, hm⟩)
  exact h.imp rfl (fun _ _ _ _ hk => hk) (fun _ => hlive) (fun _ => haway) fun _ hx => hx

theorem sent_announce (feed : Channel Membership.Event) (a : Announcement) :
    (a.event?.elim feed feed.send).sent = feed.sent ++ a.event?.toList ∧ feed.oldest ≤ (a.event?.elim feed feed.send).oldest := by
  cases a.event? with
  | none => simp
  | some e => simp [Channel.send, Channel.oldest]; omega

/-- an announcement that is made goes from those to be made to the channel -/
theorem Awaited.announce (h : c.Awaited l m) (hl : l.cursor ≤ c.feed.sent.length) (place : Nat) :
    (c.step (.announce place)).Awaited l m := by
  simp only [Cluster.step]
  split
  · rename_i a as hplace
    obtain ⟨hsent, hold⟩ := sent_announce c.feed a
    cases h with
    | unsaid h =>
      obtain ⟨as', has, e, he, hd, hm⟩ := h
      obtain ⟨idx, hidx⟩ := List.mem_iff_getElem?.1 has
      by_cases hp : idx = place
      · subst hp
        rw [hplace] at hidx
        cases hidx
        rcases List.mem_cons.1 he with rfl | he
        · exact .unread hl (by rw [hsent]; simp [Announcement.event?]) hd hm
        · refine .unsaid ⟨as, List.mem_iff_getElem?.2 ⟨idx, ?_⟩, e, he, hd, hm⟩
          have := (List.getElem?_eq_some_iff.1 hplace).1
          simp [this]
      · refine .unsaid ⟨as', List.mem_iff_getElem?.2 ⟨idx, ?_⟩, e, he, hd, hm⟩
        rw [List.getElem?_set_ne (Ne.symm hp)]
        exact hidx
    | unread hj he hd hm =>
      refine .unread hj ?_ hd hm
      rw [hsent, List.getElem?_append_left (List.getElem?_eq_some_iff.1 he).1]
      exact he
    | departing h => exact .departing h
    | lagging h => exact .lagging (lt_of_lt_of_le h hold)
    | lagged hk hc => exact .lagged hk hc
  · exact h

theorem announce_same (c : Cluster) (place : Nat) :
    (c.step (.announce place)).pool = c.pool ∧ (c.step (.announce place)).directory = c.directory ∧
      (c.step (.announce place)).listener = c.listener ∧
        c.feed.sent.length ≤ (c.step (.announce place)).feed.sent.length := by
  simp only [Cluster.step]
  split
  · rename_i a as hplace
    refine ⟨rfl, rfl, rfl, ?_⟩
    rw [(sent_announce c.feed a).1]
    simp
  · exact ⟨rfl, rfl, rfl, le_rfl⟩

theorem Guarded.announce (h : c.Guarded l) (hl : l.cursor ≤ c.feed.sent.length) (place : Nat) :
    (c.step (.announce place)).Guarded l := by
  obtain ⟨hpool, hdir, -, -⟩ := announce_same c place
  refine h.imp (by rw [hpool]) (fun k q report b hk => hpool ▸ hk) (fun m hm => .inl (by rw [hdir]; exact hm))
    (fun m ha => ha.announce hl place) fun i hx => ?_
  unfold Examined
  rw [hpool]
  exact hx

/-! ## Moves of the listener -/

theorem call?_of_attentive (hatt : c.isAttentive l = true) {k : Nat} (hk : l.handling = some k) :
    c.pool.call? k = none := by
  simpa [isAttentive, hk] using hatt

/-- a reading that brings what was awaited through the listener leaves everybody guarded -/
theorem Guarded.read (h : c.Guarded l) (hatt : c.isAttentive l = true) {c' : Cluster} {l' : Listener}
    (hdir : c'.directory = c.directory) (hreg : c'.pool.registry = c.pool.registry)
    (hcalls : ∀ k u, c.pool.call? k = some u → c'.pool.call? k = some u)
    (hnew : ∀ k q report b, c'.pool.call? k = some ⟨.request q report .deciding, b⟩ →
      c.pool.call? k = some ⟨.request q report .deciding, b⟩)
    (haway : ∀ m, c.Awaited l m → c'.Awaited l' m) : c'.Guarded l' := by
  refine h.imp hreg hnew (fun m hm => .inl (by rw [hdir]; exact hm)) haway ?_
  rintro i ⟨k, reason, total, left, gone, b, hc, hmem, hr⟩
  refine ⟨k, reason, total, left, gone, b, hcalls k _ hc, hmem, hr.imp_right ?_⟩
  rintro ⟨n, -, hk⟩
  rw [call?_of_attentive hatt hk] at hc
  cases hc

/-- the listener makes a call: what it waited for before is over -/
theorem Guarded.handle (h : c.Guarded l) (hatt : c.isAttentive l = true) (cursor : Cursor) (cause : Cause)
    (haway : ∀ m, c.Awaited l m →
      (c.handle cursor (.remove cause)).Awaited { cursor, handling := some c.pool.calls.length } m) :
    (c.handle cursor (.remove cause)).Guarded { cursor, handling := some c.pool.calls.length } := by
  refine h.read hatt rfl rfl (fun k u hk => ?_) (fun k q report b hk => ?_) haway
  · show (c.pool.enter _).call? k = some u
    rw [Pool.call?_enter, if_neg (Pool.lt_of_call? hk).ne]
    exact hk
  · have hk : (c.pool.enter (.remove cause)).call? k = _ := hk
    rw [Pool.call?_enter] at hk
    split at hk
    · cases hk
    · exact hk

/-- the call that the listener waits for is the one just made -/
theorem call?_handle (c : Cluster) (cursor : Cursor) (call : Call) :
    (c.handle cursor call).pool.call? c.pool.calls.length = some ⟨call, false⟩ := by
  show (c.pool.enter call).call? _ = _
  rw [Pool.call?_enter, if_pos rfl]

/-- the listener that has taken a reading, with what it then has before it -/
theorem Guarded.listen (h : c.Guarded l) (hl : c.listener = some l) :
    ∃ l', (c.step .listen).listener = some l' ∧ (c.step .listen).Guarded l' := by
  simp only [Cluster.step, hl]
  split
  swap
  · exact ⟨l, hl, h⟩
  rename_i hgate
  have hatt : c.isAttentive l = true := by
    rw [Bool.and_eq_true] at hgate
    exact hgate.1
  have hdeparting {m : MemberId} (ha : c.IsDeparting l m) : False := by
    obtain ⟨k, total, b, hk, hc⟩ := ha
    rw [call?_of_attentive hatt hk] at hc
    cases hc
  unfold Channel.receive
  by_cases hlag : l.cursor < c.feed.oldest
  · -- the sweep that follows comes to the records of every member
    simp only [hlag, if_true]
    refine ⟨_, rfl, h.handle hatt _ _ fun m _ => .lagged (b := false) rfl (call?_handle ..)⟩
  simp only [hlag, if_false]
  cases hnext : c.feed.sent[l.cursor]? with
  | none => exact ⟨l, hl, h⟩
  | some e =>
    -- an event after the one just read is still unread, and nothing else is awaited through the listener
    have hrest {c' : Cluster} {l' : Listener} (hfeed : c'.feed = c.feed) (hsaid : c'.unsaid = c.unsaid)
        (hcursor : l'.cursor = l.cursor + 1) (hhead : ∀ m, e.isDeparture = true → e.member = m → c'.Awaited l' m) :
        ∀ m, c.Awaited l m → c'.Awaited l' m := by
      intro m ha
      cases ha with
      | unsaid ha => exact .unsaid (by unfold IsUnsaid; rw [hsaid]; exact ha)
      | @unread j e' hj he hd hm =>
        by_cases hj' : j = l.cursor
        · subst hj'
          rw [hnext] at he
          cases he
          exact hhead m hd hm
        · exact .unread (j := j) (by rw [hcursor]; exact Nat.lt_of_le_of_ne hj (Ne.symm hj')) (by rw [hfeed]; exact he)
            hd hm
      | departing ha => exact (hdeparting ha).elim
      | lagging ha => exact absurd ha hlag
      | lagged hk hc =>
        rw [call?_of_attentive hatt hk] at hc
        cases hc
    simp only
    split
    · refine ⟨_, rfl, h.handle hatt _ _ (hrest rfl rfl rfl ?_)⟩
      rintro m - rfl
      exact .departing ⟨c.pool.calls.length, 0, false, rfl, call?_handle ..⟩
    · rename_i hjoined
      exact ⟨_, rfl, h.read hatt rfl rfl (fun _ _ h => h) (fun _ _ _ _ h => h)
        (hrest rfl rfl rfl fun m hd _ => absurd hd hjoined)⟩

/-! ## Runs -/

theorem run_append (c : Cluster) (xs ys : List Move) : c.run (xs ++ ys) = (c.run xs).run ys := by
  simp [run, List.foldl_append]

/-- the listener goes on reading where it was, and all calls under way stay where they are -/
theorem listen_keeps (hl : c.listener = some l) (hcursor : l.cursor ≤ c.feed.sent.length) :
    ∃ l', (c.step .listen).listener = some l' ∧ l'.cursor ≤ (c.step .listen).feed.sent.length ∧
      ∀ k u, c.pool.call? k = some u → (c.step .listen).pool.call? k = some u := by
  have henter (call : Call) : ∀ k u, c.pool.call? k = some u → (c.pool.enter call).call? k = some u := by
    intro k u hk
    rw [Pool.call?_enter, if_neg (Pool.lt_of_call? hk).ne]
    exact hk
  simp only [Cluster.step, hl]
  split
  · unfold Channel.receive
    by_cases hlag : l.cursor < c.feed.oldest
    · simp only [hlag, if_true]
      exact ⟨_, rfl, Nat.sub_le _ _, henter _⟩
    · simp only [hlag, if_false]
      cases hnext : c.feed.sent[l.cursor]? with
      | none => exact ⟨l, hl, hcursor, fun _ _ h => h⟩
      | some e =>
        have hlt := (List.getElem?_eq_some_iff.1 hnext).1
        simp only
        split
        · exact ⟨_, rfl, hlt, henter _⟩
        · exact ⟨_, rfl, hlt, fun _ _ h => h⟩
  · exact ⟨l, hl, hcursor, fun _ _ h => h⟩

/-- the listener waits, goes on reading, or begins a removal -/
theorem listen_step (c : Cluster) :
    c.step .listen = c ∨ (∃ l, c.step .listen = { c with listener := some l }) ∨
      ∃ cursor cause, c.step .listen = c.handle cursor (.remove cause) ∧
        (Call.remove cause).IsNew c.pool.registry = true := by
  simp only [Cluster.step]
  split
  · split
    · split
      · split
        · exact .inr (.inr ⟨_, _, rfl, rfl⟩)
        · exact .inr (.inl ⟨_, rfl⟩)
      · exact .inr (.inr ⟨_, _, rfl, rfl⟩)
      · exact .inl rfl
    · exact .inl rfl
  · exact .inl rfl

/-- a move leaves the pool as it is, is one of the pool's, or has the listener begin a removal -/
theorem pool_of_step (c : Cluster) (x : Move) :
    (c.step x).pool = c.pool ∨ (∃ y, x = .pool y ∧ (c.step x).pool = c.pool.step (c.answered y)) ∨
      ∃ cause, (c.step x).pool = c.pool.enter (.remove cause) ∧
        (c.step x).pool = c.pool.step (.enter (.remove cause)) := by
  cases x with
  | directory op => exact .inl rfl
  | announce place => exact .inl (announce_same c place).1
  | pool y => exact .inr (.inl ⟨y, rfl, stepPool_pool c y⟩)
  | listen =>
    rcases listen_step c with h | ⟨l, h⟩ | ⟨cursor, cause, h, hnew⟩ <;> rw [h]
    · exact .inl rfl
    · exact .inl rfl
    · exact .inr (.inr ⟨cause, rfl, by simp [handle, Pool.step, hnew]⟩)

/-- the calls of a cluster are the calls of a pool -/
theorem pool_step (c : Cluster) (x : Move) : ∃ ms, (c.step x).pool = c.pool.run ms := by
  rcases pool_of_step c x with h | ⟨y, -, h⟩ | ⟨cause, -, h⟩
  · exact ⟨[], h⟩
  · exact ⟨[c.answered y], h⟩
  · exact ⟨[.enter (.remove cause)], h⟩

theorem pool_run (c : Cluster) (xs : List Move) : ∃ ms, (c.run xs).pool = c.pool.run ms := by
  induction xs generalizing c with
  | nil => exact ⟨[], rfl⟩
  | cons x xs ih =>
    obtain ⟨ms, hms⟩ := pool_step c x
    obtain ⟨ms', hms'⟩ := ih (c.step x)
    exact ⟨ms ++ ms', by rw [Pool.run_append, ← hms]; exact hms'⟩

/-- the invariant of a cluster: before the registry subscribes nothing; then the sweep of its start has still to get the
lock, or everybody is guarded -/
structure Inv (c : Cluster) : Prop where
  pool : c.pool.Reachable
  unheard : c.listener = none → Mark.did .subscribe ∉ c.pool.trace
  cursor : ∀ l, c.listener = some l → l.cursor ≤ c.feed.sent.length
  guarded : ∀ l, c.listener = some l →
    (∃ k total b, c.pool.call? k = some ⟨.removal (.sweep .starting) total .starting, b⟩) ∨ c.Guarded l

theorem Inv.of_listener (hp : c.pool.Reachable) (hl : c.listener = some l) (hcursor : l.cursor ≤ c.feed.sent.length)
    (hg : (∃ k total b, c.pool.call? k = some ⟨.removal (.sweep .starting) total .starting, b⟩) ∨ c.Guarded l) :
    c.Inv := by
  have hsome : ∀ l', c.listener = some l' → l = l' := fun l' hl' => Option.some.inj (hl.symm.trans hl')
  refine ⟨hp, fun hno => ?_, fun l' hl' => hsome l' hl' ▸ hcursor, fun l' hl' => hsome l' hl' ▸ hg⟩
  rw [hl] at hno
  cases hno

theorem Inv.pool_step (h : c.Inv) (x : Pool.Move) : (c.step (.pool x)).Inv := by
  show (c.stepPool x).Inv
  have hreach : (c.stepPool x).pool.Reachable := by
    rw [stepPool_pool]
    exact h.pool.step _
  have hlistener := stepPool_listener c x
  cases hl : c.listener with
  | none =>
    simp only [subscribed, hl] at hlistener
    split at hlistener
    · rename_i hsub
      rw [stepPool_pool] at hsub
      rcases Pool.subscribe_step h.pool.sound (by simpa using hsub) with hold | ⟨-, k, b, hk⟩
      · exact absurd hold (h.unheard hl)
      · exact .of_listener hreach hlistener le_rfl (.inl ⟨k, 0, b, by rw [stepPool_pool]; exact hk⟩)
    · rename_i hsub
      refine ⟨hreach, fun _ => by simpa using hsub, fun l hl => ?_, fun l hl => ?_⟩ <;> rw [hlistener] at hl <;> cases hl
  | some l =>
    simp only [subscribed, hl] at hlistener
    refine .of_listener hreach hlistener (h.cursor l hl) ?_
    rcases h.guarded l hl with ⟨k, total, b, hc⟩ | hg
    · rcases Pool.step_call hc (c.answered x) with ⟨b', hc'⟩ | ⟨reply, -, hstep, hlock⟩
      · exact .inl ⟨k, total, b', by rw [stepPool_pool]; exact hc'⟩
      · refine .inr ⟨fun i hi => .inr (.inr (examined_of_sweep hc (.inl rfl) hstep hi)), fun j q report b' hj => ?_⟩
        rw [stepPool_pool, hstep] at hj
        exact absurd hj (Pool.not_deciding_of_free hc (hlock rfl) reply)
    · exact .inr (hg.stepPool h.pool x)

theorem Inv.step (h : c.Inv) (x : Move) : (c.step x).Inv := by
  cases x with
  | directory op =>
    exact ⟨h.pool, h.unheard, h.cursor, fun l hl => (h.guarded l hl).imp_right fun hg => hg.directory op⟩
  | announce place =>
    obtain ⟨hpool, -, hlistener, hlen⟩ := announce_same c place
    refine ⟨hpool ▸ h.pool, ?_, ?_, ?_⟩ <;> rw [hlistener]
    · rw [hpool]
      exact h.unheard
    · exact fun l hl => (h.cursor l hl).trans hlen
    · intro l hl
      rw [hpool]
      exact (h.guarded l hl).imp_right fun hg => hg.announce (h.cursor l hl) place
  | pool x => exact h.pool_step x
  | listen =>
    cases hl : c.listener with
    | none =>
      have hsame : c.step .listen = c := by simp only [Cluster.step, hl]
      rw [hsame]
      exact h
    | some l =>
      obtain ⟨l', hl', hcursor, hkeep⟩ := listen_keeps hl (h.cursor l hl)
      obtain ⟨ms, hms⟩ := Cluster.pool_step c .listen
      refine .of_listener (hms ▸ h.pool.run ms) hl' hcursor ?_
      rcases h.guarded l hl with ⟨k, total, b, hc⟩ | hg
      · exact .inl ⟨k, total, b, hkeep k _ hc⟩
      · obtain ⟨l₂, hl₂, hg'⟩ := hg.listen hl
        obtain rfl := Option.some.inj (hl'.symm.trans hl₂)
        exact .inr hg'

theorem inv_run (d : Directory) (timeout capacity : Nat) (xs : List Move) : ((new d timeout capacity).run xs).Inv := by
  induction xs using List.reverseRecOn with
  | nil =>
    refine ⟨⟨timeout, [], rfl⟩, fun _ h => (by cases h), fun l hl => ?_, fun l hl => ?_⟩ <;> cases hl
  | append_singleton xs x ih =>
    rw [run_append]
    exact ih.step x

/-! ## A registry that has started -/

/-- among the moves is the beginning of a start, which has returned without a failure -/
def HasStarted (d : Directory) (timeout capacity : Nat) (xs : List Move) : Prop :=
  ∃ before after count, xs = before ++ .pool (.enter (.start false)) :: after ∧
    ((new d timeout capacity).run xs).pool.Returned ((new d timeout capacity).run before).pool.calls.length
      (.removed count)

theorem HasStarted.over {d : Directory} {timeout capacity : Nat} {xs : List Move}
    (h : HasStarted d timeout capacity xs) :
    Mark.did .subscribe ∈ ((new d timeout capacity).run xs).pool.trace ∧
      ∀ k u, ((new d timeout capacity).run xs).pool.call? k = some u → u.call.launches = false := by
  obtain ⟨before, after, count, rfl, ho⟩ := h
  have hp := (inv_run d timeout capacity before).pool
  obtain ⟨ms, hms⟩ := pool_run (((new d timeout capacity).run before).step (.pool (.enter (.start false)))) after
  have hpool : ((new d timeout capacity).run (before ++ .pool (.enter (.start false)) :: after)).pool =
      ((new d timeout capacity).run before).pool.run (.enter (.start false) :: ms) := by
    rw [run_append]
    exact hms
  rw [hpool] at ho ⊢
  exact (Pool.started_of_returned hp ho).2

/-- **no orphaned deployments**: in a cluster whose registry has started, whatever members come and go, requests are
made and events are dropped, every cached record of a sender that is not live has a departure event of that sender still
to be published or to be handled by the listener, or a lag still to be reported or handled. When nothing is in flight
the sender of every cached record is live. -/
theorem no_orphans {d : Directory} {timeout capacity : Nat} {xs : List Move} (h : HasStarted d timeout capacity xs) :
    let c := (new d timeout capacity).run xs
    ∃ l, c.listener = some l ∧
      (∀ i, c.pool.registry.Caches i → c.directory.isLive (c.pool.registry.record i).sender = false →
          c.IsUnsaid (c.pool.registry.record i).sender ∨ c.IsUnread l (c.pool.registry.record i).sender ∨
            c.IsDeparting l (c.pool.registry.record i).sender ∨ c.HasLagged l ∨ c.IsSweeping l i) ∧
        (c.IsQuiet l →
          ∀ i, c.pool.registry.Caches i → c.directory.isLive (c.pool.registry.record i).sender = true) := by
  obtain ⟨hsub, hover⟩ := h.over
  have hinv := inv_run d timeout capacity xs
  intro c
  change c.Inv at hinv
  change Mark.did .subscribe ∈ c.pool.trace at hsub
  change ∀ k u, c.pool.call? k = some u → u.call.launches = false at hover
  clear_value c
  cases hl : c.listener with
  | none => exact absurd hsub (hinv.unheard hl)
  | some l =>
    have hg : c.Guarded l := by
      rcases hinv.guarded l hl with ⟨k, total, b, hc⟩ | hg
      · cases hover k _ hc
      · exact hg
    have hdue : ∀ i, c.pool.registry.Caches i → c.directory.isLive (c.pool.registry.record i).sender = false →
        c.IsUnsaid (c.pool.registry.record i).sender ∨ c.IsUnread l (c.pool.registry.record i).sender ∨
          c.IsDeparting l (c.pool.registry.record i).sender ∨ c.HasLagged l ∨ c.IsSweeping l i := by
      intro i hi hdead
      rcases hg.records i hi with hlive | ha | ⟨k, reason, total, left, gone, b, hc, hmem, rfl | ⟨n, rfl, hk⟩⟩
      · rw [hdead] at hlive
        cases hlive
      · by_cases hlag : c.HasLagged l
        · exact .inr (.inr (.inr (.inl hlag)))
        cases ha with
        | unsaid ha => exact .inl ha
        | @unread j e hj he hd hm => exact .inr (.inl ⟨j, e, hj, (Nat.le_of_not_lt hlag).trans hj, he, hd, hm⟩)
        | departing ha => exact .inr (.inr (.inl ha))
        | lagging ha => exact absurd ha hlag
        | @lagged k n total b hk hc =>
          exact .inr (.inr (.inr (.inr ⟨k, n, total, .starting, b, hk, hc, .inl rfl⟩)))
      · cases hover k _ hc
      · exact .inr (.inr (.inr (.inr ⟨k, n, total, _, b, hk, hc, .inr ⟨left, gone, rfl, hmem⟩⟩)))
    refine ⟨l, rfl, hdue, fun hq i hi => ?_⟩
    have hnone : ∀ k u, c.pool.call? k ≠ some u := by
      intro k u hk
      have hmem : u ∈ c.pool.underway :=
        List.mem_filterMap.2 ⟨some u, List.mem_of_getElem? (Pool.call?_eq_some.1 hk), rfl⟩
      rw [show c.pool.underway = [] from hq.idle] at hmem
      cases hmem
    by_contra hdead
    rcases hdue i hi (by simpa using hdead) with ⟨as, has, e, he, -⟩ | ⟨j, e, hj, -, he, -⟩ | ⟨k, total, b, -, hc⟩ |
      hlag | ⟨k, n, total, pt, b, -, hc, -⟩
    · rw [hq.said as has] at he
      cases he
    · have hlt := (List.getElem?_eq_some_iff.1 he).1
      exact absurd hlt (Nat.not_lt.2 (hq.read.trans hj))
    · exact hnone k _ hc
    · exact absurd hlag (Nat.not_lt.2 ((Nat.sub_le _ _).trans hq.read))
    · exact hnone k _ hc

/-- two departures on a channel that keeps one event: the first is dropped, and the sweep finds the sender's record -/
theorem found_after_lag :
    let d : Directory :=
      { self := ⟨"o"⟩, heartbeatTimeout := 30
        nodes := ["s", "t", "u"].map fun m => { id := ⟨m⟩, address := "", lastHeartbeat := default } }
    let x : Request := { id := ⟨"x"⟩, sender := ⟨"s"⟩, seq := 1, moduleAlias := "a" }
    let y : Request := { id := ⟨"y"⟩, sender := ⟨"u"⟩, seq := 1, moduleAlias := "a" }
    let departed : List Move :=
      Move.pool (.enter (.start false)) :: (Pool.turns 0 {} 4).map .pool ++
        Move.pool (.enter (.request x true .entering)) ::
          (Pool.turns 1 { module := .ok ⟨"m", false⟩ } 8).map .pool ++
        Move.pool (.enter (.request y true .entering)) ::
          (Pool.turns 2 { module := .ok ⟨"m", false⟩ } 8).map .pool ++
        [Move.directory (.fail ⟨"s"⟩), .directory (.fail ⟨"t"⟩), .announce 0, .announce 0, .announce 1, .announce 1]
    let handled := Move.listen :: (Pool.turns 3 {} 6).map .pool ++ Move.listen :: (Pool.turns 4 {} 3).map .pool
    let c := (new d 100 1).run departed
    let c' := (new d 100 1).run (departed ++ handled)
    c.directory.isLive ⟨"s"⟩ = false ∧
      (∃ l, c.listener = some l ∧ (c.IsUnsaid ⟨"s"⟩ ∨ c.IsUnread l ⟨"s"⟩ ∨ c.IsDeparting l ⟨"s"⟩ ∨ c.HasLagged l ∨
        c.IsSweeping l 0)) ∧
      c'.pool.registry.cache = [(⟨"y"⟩, 1)] ∧ c'.directory.isLive ⟨"u"⟩ = true := by
  intro d x y departed handled c c'
  have hstarted : HasStarted d 100 1 departed := ⟨[], _, 0, rfl, by decide +kernel⟩
  have hstarted' : HasStarted d 100 1 (departed ++ handled) := ⟨[], _, 0, rfl, by decide +kernel⟩
  have hcached : (⟨"x"⟩, 0) ∈ c.pool.registry.cache := by decide +kernel
  have hs : (c.pool.registry.record 0).sender = ⟨"s"⟩ := by decide +kernel
  have hdead : c.directory.isLive ⟨"s"⟩ = false := by decide +kernel
  have hcursor : c'.listener = some { cursor := 2, handling := some 4 } := by decide +kernel
  have hcache : c'.pool.registry.cache = [(⟨"y"⟩, 1)] := by decide +kernel
  have hu : (c'.pool.registry.record 1).sender = ⟨"u"⟩ := by decide +kernel
  have hquiet : c'.IsQuiet { cursor := 2, handling := some 4 } :=
    ⟨by decide +kernel, by decide +kernel, by decide +kernel⟩
  have hdue := no_orphans hstarted
  have hlive := no_orphans hstarted'
  simp only [show (new d 100 1).run departed = c from rfl] at hdue
  simp only [show (new d 100 1).run (departed ++ handled) = c' from rfl] at hlive
  clear_value c c'
  obtain ⟨l, hl, hdue, -⟩ := hdue
  obtain ⟨l', hl', -, hlive⟩ := hlive
  obtain rfl := Option.some.inj (hcursor.symm.trans hl')
  have h0 := hdue 0 ⟨_, hcached⟩ (by rw [hs]; exact hdead)
  have h1 := hlive hquiet 1 ⟨⟨"y"⟩, by rw [hcache]; exact List.mem_cons_self⟩
  rw [hs] at h0
  rw [hu] at h1
  exact ⟨hdead, ⟨l, hl, h0⟩, hcache, h1⟩

end Cluster

end Redeploy
