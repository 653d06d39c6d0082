/-
A departure and the deployments that it takes out.

The removal of a member from the directory, the event that tells of it, and the call that the listener makes of the event
are three moves of a run, and any moves come between them. The call knows the member by its identifier: it takes out all
records of that member that are cached when it gets the lock. So they need not be older than the removal. A request that
heard that the member was live before the removal may make its record after it, and when the member has registered
again, so may any other.

Everything here looks back from a moment of a run. `after c xs n` is the cluster after the first `n` moves, and what holds
at a later moment and not at an earlier one came about by one move between them (`came_about`).

Results:
- `exists_publishes`, `Publishes.unique`: every event in the channel was published by one removal;
- `exists_inserts`, `Inserts.unique`: every record was made for one request, whose sender was found live under the lock;
- `takesOut_departure`, `Evicts.unique`: what the call of the listener takes out, at one moment;
- `Drains.evicts`: its turn at the cache, after which no record of the member is left;
- `evicted_after_rejoining`: a deployment made after its sender has registered again falls to the earlier departure;
- **`departure_evicts`**: what a departure takes out was requested before the removal, or the member had registered again.
-/
import Redeploy.Proofs.Numbers
import Redeploy.Proofs.Orphans
import Redeploy.Proofs.Reentrance

open Redeploy.Membership (Directory Announcement)

namespace Redeploy

open Registry

namespace Cluster

/-! ## Moments of a run -/

/-- the cluster after the first moves of a run -/
def after (c : Cluster) (xs : List Move) (n : Nat) : Cluster := c.run (xs.take n)

variable {c : Cluster} {xs : List Move} {x : Move} {a b n : Nat}

theorem after_zero (c : Cluster) (xs : List Move) : c.after xs 0 = c := rfl

theorem after_succ (h : xs[n]? = some x) : c.after xs (n + 1) = (c.after xs n).step x := by
  unfold after
  rw [List.take_add_one, h, run_append]
  rfl

theorem after_stays (h : xs[n]? = none) : c.after xs (n + 1) = c.after xs n := by
  unfold after
  rw [List.take_add_one, h]
  simp

theorem after_of_le (c : Cluster) (xs : List Move) (h : a ≤ b) : ∃ ys, c.after xs b = (c.after xs a).run ys := by
  refine ⟨(xs.take b).drop a, ?_⟩
  unfold after
  rw [← run_append]
  congr 1
  calc xs.take b = (xs.take b).take a ++ (xs.take b).drop a := (List.take_append_drop a _).symm
    _ = xs.take a ++ (xs.take b).drop a := by rw [List.take_take, Nat.min_eq_left h]

/-- what holds at a moment and not at an earlier one came about by a move between them -/
theorem came_about {P : Cluster → Prop} (hab : a ≤ b) (ha : ¬ P (c.after xs a)) (hb : P (c.after xs b)) :
    ∃ n x, a ≤ n ∧ n < b ∧ xs[n]? = some x ∧ ¬ P (c.after xs n) ∧ P ((c.after xs n).step x) := by
  induction b, hab using Nat.le_induction with
  | base => exact absurd hb ha
  | succ b hab ih =>
    by_cases hold : P (c.after xs b)
    · obtain ⟨n, x, han, hnb, hmove⟩ := ih hold
      exact ⟨n, x, han, Nat.lt_succ_of_lt hnb, hmove⟩
    · cases hx : xs[b]? with
      | none =>
        rw [after_stays hx] at hb
        exact absurd hb hold
      | some x =>
        rw [after_succ hx] at hb
        exact ⟨b, x, hab, Nat.lt_succ_self b, hx, hold, hb⟩

/-! ## What one move does -/

/-- an announcement that is to be made was so before the move, or is made by the operation that the move is -/
theorem unsaid_step {place : Nat} {as : List Announcement} {s : Announcement}
    (h : (c.step x).unsaid[place]? = some as) (hs : s ∈ as) :
    (∃ as', c.unsaid[place]? = some as' ∧ s ∈ as') ∨
      ∃ op, x = .directory op ∧ place = c.unsaid.length ∧ s ∈ (c.directory.apply op).2 := by
  have hsame (h : c.unsaid[place]? = some as) : ∃ as', c.unsaid[place]? = some as' ∧ s ∈ as' := ⟨as, h, hs⟩
  cases x with
  | directory op =>
    replace h : (c.unsaid ++ [(c.directory.apply op).2])[place]? = some as := h
    rcases Nat.lt_or_ge place c.unsaid.length with hlt | hge
    · rw [List.getElem?_append_left hlt] at h
      exact .inl (hsame h)
    · rw [List.getElem?_append_right hge, List.getElem?_singleton] at h
      split at h
      · rename_i hzero
        obtain rfl := Option.some.inj h
        exact .inr ⟨op, rfl, by omega, hs⟩
      · cases h
  | announce k =>
    left
    simp only [Cluster.step] at h
    split at h
    · rename_i a rest hk
      by_cases hplace : k = place
      · subst hplace
        have hlt := (List.getElem?_eq_some_iff.1 hk).1
        simp only [List.getElem?_set_self hlt, Option.some.injEq] at h
        exact ⟨_, hk, List.mem_cons_of_mem _ (h ▸ hs)⟩
      · simp only [List.getElem?_set_ne hplace] at h
        exact hsame h
    · exact hsame h
  | pool y => exact .inl (hsame h)
  | listen =>
    rcases listen_step c with hl | ⟨l, hl⟩ | ⟨cursor, cause, hl, -⟩ <;> rw [hl] at h <;> exact .inl (hsame h)

/-- an event in the channel was there before the move, or the move publishes it -/
theorem sent_step {j : Nat} {e : Membership.Event} (h : (c.step x).feed.sent[j]? = some e) :
    c.feed.sent[j]? = some e ∨ ∃ place as, x = .announce place ∧ c.unsaid[place]? = some (.event e :: as) ∧
      c.feed.sent.length = j := by
  cases x with
  | directory op => exact .inl h
  | announce place =>
    simp only [Cluster.step] at h
    split at h
    · rename_i s as hplace
      simp only [(sent_announce c.feed s).1] at h
      rcases Nat.lt_or_ge j c.feed.sent.length with hlt | hge
      · rw [List.getElem?_append_left hlt] at h
        exact .inl h
      · rw [List.getElem?_append_right hge] at h
        cases s with
        | notice n => simp [Announcement.event?] at h
        | event e' =>
          simp only [Announcement.event?, Option.toList_some, List.getElem?_singleton] at h
          split at h
          · rename_i hzero
            obtain rfl := Option.some.inj h
            exact .inr ⟨place, as, rfl, hplace, by omega⟩
          · cases h
    · exact .inl h
  | pool y => exact .inl h
  | listen =>
    rcases listen_step c with hl | ⟨l, hl⟩ | ⟨cursor, cause, hl, -⟩ <;> rw [hl] at h <;> exact .inl h

/-- only an operation on the directory changes it -/
theorem directory_step (h : (c.step x).directory ≠ c.directory) : ∃ op, x = .directory op := by
  cases x with
  | directory op => exact ⟨op, rfl⟩
  | announce place => exact absurd (announce_same c place).2.1 h
  | pool y => exact absurd rfl h
  | listen =>
    rcases listen_step c with hl | ⟨l, hl⟩ | ⟨cursor, cause, hl, -⟩ <;> rw [hl] at h <;> exact absurd rfl h

/-- nothing that was announced, published, begun or made is lost -/
structure Grows (c c' : Cluster) : Prop where
  sent : c.feed.sent.length ≤ c'.feed.sent.length
  unsaid : c.unsaid.length ≤ c'.unsaid.length
  calls : c.pool.calls.length ≤ c'.pool.calls.length
  records : c.pool.registry.records.length ≤ c'.pool.registry.records.length

theorem Grows.trans {c c' c'' : Cluster} (h : c.Grows c') (h' : c'.Grows c'') : c.Grows c'' :=
  ⟨h.sent.trans h'.sent, h.unsaid.trans h'.unsaid, h.calls.trans h'.calls, h.records.trans h'.records⟩

theorem grows_step (hp : c.pool.Reachable) (x : Move) : c.Grows (c.step x) := by
  obtain ⟨hcalls, hrecords⟩ : c.pool.calls.length ≤ (c.step x).pool.calls.length ∧
      c.pool.registry.records.length ≤ (c.step x).pool.registry.records.length := by
    rcases pool_of_step c x with h | ⟨y, -, h⟩ | ⟨cause, -, h⟩ <;> rw [h]
    · simp
    · exact ⟨Pool.length_step _ _, (Pool.forward_step hp.sound _).1⟩
    · exact ⟨Pool.length_step _ _, (Pool.forward_step hp.sound _).1⟩
  refine ⟨?_, ?_, hcalls, hrecords⟩
  · cases x with
    | announce place => exact (announce_same c place).2.2.2
    | listen => rcases listen_step c with h | ⟨l, h⟩ | ⟨cursor, cause, h, -⟩ <;> simp [h, handle]
    | _ => exact le_rfl
  · cases x with
    | directory op => simp [Cluster.step]
    | announce place =>
      simp only [Cluster.step]
      split <;> simp
    | pool y => exact le_rfl
    | listen => rcases listen_step c with h | ⟨l, h⟩ | ⟨cursor, cause, h, -⟩ <;> simp [h, handle]

theorem reachable_after (hp : c.pool.Reachable) (xs : List Move) (n : Nat) : (c.after xs n).pool.Reachable := by
  obtain ⟨ms, hms⟩ := pool_run c (xs.take n)
  unfold after
  rw [hms]
  exact hp.run ms

theorem grows_after (hp : c.pool.Reachable) (xs : List Move) (hab : a ≤ b) : (c.after xs a).Grows (c.after xs b) := by
  induction b, hab using Nat.le_induction with
  | base => exact ⟨le_rfl, le_rfl, le_rfl, le_rfl⟩
  | succ b hab ih =>
    cases hx : xs[b]? with
    | none =>
      rw [after_stays hx]
      exact ih
    | some x =>
      rw [after_succ hx]
      exact ih.trans (grows_step (reachable_after hp xs b) x)

/-- a count that is never lowered passes a value once -/
theorem passes_once {f : Cluster → Nat} (hf : ∀ a b, a ≤ b → f (c.after xs a) ≤ f (c.after xs b)) {v : Nat}
    (ha : f (c.after xs a) = v) (ha' : v < f (c.after xs (a + 1))) (hb : f (c.after xs b) = v)
    (hb' : v < f (c.after xs (b + 1))) : a = b := by
  rcases Nat.lt_trichotomy a b with h | h | h
  · have := hf (a + 1) b h
    omega
  · exact h
  · have := hf (b + 1) a h
    omega

/-! ## Who publishes an event -/

/-- the operation at `r` takes the member of the event out of the directory, and its announcement makes the event the
`j`-th of the channel -/
structure Publishes (c : Cluster) (xs : List Move) (r j : Nat) (e : Membership.Event) : Prop where
  removes : ∃ op, xs[r]? = some (.directory op) ∧ .event e ∈ ((c.after xs r).directory.apply op).2
  live : (c.after xs r).directory.isLive e.member = true
  gone : (c.after xs (r + 1)).directory.isLive e.member = false
  said : ∃ s, r < s ∧ xs[s]? = some (.announce (c.after xs r).unsaid.length) ∧
    (c.after xs s).feed.sent.length = j ∧ (c.after xs (s + 1)).feed.sent[j]? = some e

/-- the removal that published an event is one -/
theorem Publishes.unique (hp : c.pool.Reachable) {r r' j : Nat} {e e' : Membership.Event}
    (h : c.Publishes xs r j e) (h' : c.Publishes xs r' j e') : r = r' := by
  obtain ⟨s, -, hs, hlen, hsent⟩ := h.said
  obtain ⟨s', -, hs', hlen', hsent'⟩ := h'.said
  have hsame : s = s' := passes_once (f := fun c => c.feed.sent.length) (fun _ _ hab => (grows_after hp xs hab).sent)
    hlen (List.getElem?_eq_some_iff.1 hsent).1 hlen' (List.getElem?_eq_some_iff.1 hsent').1
  subst hsame
  rw [hs] at hs'
  simp only [Option.some.injEq, Move.announce.injEq] at hs'
  have hlonger {r : Nat} {e : Membership.Event} (h : c.Publishes xs r j e) :
      (c.after xs r).unsaid.length < (c.after xs (r + 1)).unsaid.length := by
    obtain ⟨op, hop, -⟩ := h.removes
    rw [after_succ hop]
    simp [Cluster.step]
  exact passes_once (f := fun c => c.unsaid.length) (fun _ _ hab => (grows_after hp xs hab).unsaid) rfl (hlonger h)
    hs'.symm (hs' ▸ hlonger h')

theorem keyed_after (hd : c.directory.Keyed) (xs : List Move) (n : Nat) : (c.after xs n).directory.Keyed := by
  induction n with
  | zero => exact hd
  | succ n ih =>
    cases hx : xs[n]? with
    | none =>
      rw [after_stays hx]
      exact ih
    | some x =>
      rw [after_succ hx]
      by_cases hdir : ((c.after xs n).step x).directory = (c.after xs n).directory
      · rw [hdir]
        exact ih
      · obtain ⟨op, rfl⟩ := directory_step hdir
        exact ih.apply op

/-- **every departure in the channel was published by a removal** -/
theorem exists_publishes (hd : c.directory.Keyed) (hsent : c.feed.sent = []) (hsaid : c.unsaid = []) {j : Nat}
    {e : Membership.Event} (he : (c.after xs n).feed.sent[j]? = some e) (hleft : e.isDeparture = true) :
    ∃ r < n, c.Publishes xs r j e := by
  obtain ⟨s, x, -, hsn, hs, hold, hnew⟩ := came_about (P := fun c => c.feed.sent[j]? = some e) (Nat.zero_le n)
    (by simp [after_zero, hsent]) he
  obtain ⟨place, as, rfl, hplace, hlen⟩ := (sent_step hnew).resolve_left hold
  obtain ⟨r, x, -, hrs, hr, hold', as', hplace', he'⟩ :=
    came_about (P := fun c => ∃ as, c.unsaid[place]? = some as ∧ .event e ∈ as) (Nat.zero_le s)
      (by simp [after_zero, hsaid]) ⟨_, hplace, List.mem_cons_self⟩
  obtain ⟨op, rfl, rfl, hop⟩ := (unsaid_step hplace' he').resolve_left hold'
  obtain ⟨hlive, hgone⟩ := Directory.departed_apply (keyed_after hd xs r) hop hleft
  refine ⟨r, hrs.trans hsn, ⟨op, hr, hop⟩, hlive, ?_, s, hrs, hs, hlen, ?_⟩
  · rw [after_succ hr]
    exact hgone
  · rw [after_succ hs]
    exact hnew

/-! ## For whom a record was made -/

/-- the move at `s` is that by which the call at `k`, under the lock, hears that the sender of its request is live -/
structure Checks (c : Cluster) (xs : List Move) (s k : Nat) (q : Request) : Prop where
  move : ∃ reply, xs[s]? = some (.pool (.step k reply))
  asks : ∃ report b, (c.after xs s).pool.call? k = some ⟨.request q report .rechecking, b⟩
  live : (c.after xs s).directory.isLive q.sender = true
  hears : ∃ report b, (c.after xs (s + 1)).pool.call? k = some ⟨.request q report .deciding, b⟩

/-- the move at `d` is the decision of the call at `k` about its request, and makes the record -/
def Inserts (c : Cluster) (xs : List Move) (d k : Nat) (q : Request) (i : RecordId) : Prop :=
  ∃ reply, xs[d]? = some (.pool (.step k reply)) ∧
    (c.after xs d).pool.Makes (.step k ((c.after xs d).answer k reply)) q i

theorem Inserts.decides {d k : Nat} {q : Request} {i : RecordId} (h : c.Inserts xs d k q i) :
    ∃ report b, (c.after xs d).pool.call? k = some ⟨.request q report .deciding, b⟩ := by
  obtain ⟨reply, -, -, -, k', reply', report, b, hm, hdecides⟩ := h
  obtain ⟨rfl, -⟩ := Pool.Move.step.inj hm
  exact ⟨report, b, hdecides⟩

/-- a record is made once -/
theorem Inserts.unique (hp : c.pool.Reachable) {d d' k k' : Nat} {q q' : Request} {i : RecordId}
    (h : c.Inserts xs d k q i) (h' : c.Inserts xs d' k' q' i) : d = d' := by
  have hlen {d k : Nat} {q : Request} (h : c.Inserts xs d k q i) :
      (c.after xs d).pool.registry.records.length = i ∧ i < (c.after xs (d + 1)).pool.registry.records.length := by
    obtain ⟨reply, hmove, hi, hnew, -⟩ := h
    refine ⟨hi.symm, ?_⟩
    rw [after_succ hmove]
    show i < ((c.after xs d).stepPool (.step k reply)).pool.registry.records.length
    rw [stepPool_pool]
    exact hnew ▸ Nat.lt_succ_self i
  exact passes_once (f := fun c => c.pool.registry.records.length) (fun _ _ hab => (grows_after hp xs hab).records)
    (hlen h).1 (hlen h).2 (hlen h').1 (hlen h').2

/-- **every record was made for a request** -/
theorem exists_inserts (hp : c.pool.Reachable) (hnone : c.pool.registry.records = []) {i : RecordId}
    (hi : i < (c.after xs n).pool.registry.records.length) : ∃ d < n, ∃ k q, c.Inserts xs d k q i := by
  obtain ⟨d, x, -, hdn, hd, hold, hnew⟩ :=
    came_about (P := fun c => i < c.pool.registry.records.length) (Nat.zero_le n) (by simp [after_zero, hnone]) hi
  refine ⟨d, hdn, ?_⟩
  have hs := (reachable_after hp xs d).sound
  rcases pool_of_step (c.after xs d) x with h | ⟨y, rfl, h⟩ | ⟨cause, h, -⟩
  · rw [h] at hnew
    exact absurd hnew hold
  · rw [h] at hnew
    obtain ⟨q, hmade⟩ := Pool.makes_of_new hs hold hnew
    obtain ⟨-, -, k, reply, report, b, hy, -⟩ := id hmade
    cases y with
    | step k' reply' =>
      obtain ⟨rfl, -⟩ := Pool.Move.step.inj hy
      exact ⟨k', q, reply', hd, hmade⟩
    | _ => cases hy
  · rw [h] at hnew
    exact absurd hnew hold

/-- **who decides has heard, under the lock, that the sender was live** -/
theorem exists_checks (hnone : c.pool.calls = []) {k : Nat} {q : Request} {report b : Bool}
    (hk : (c.after xs n).pool.call? k = some ⟨.request q report .deciding, b⟩) : ∃ s < n, c.Checks xs s k q := by
  obtain ⟨s, x, -, hsn, hs, hold, report', b', hnew⟩ :=
    came_about (P := fun c => ∃ report b, c.pool.call? k = some ⟨.request q report .deciding, b⟩) (Nat.zero_le n)
      (by simp [after_zero, Pool.call?, hnone]) ⟨report, b, hk⟩
  have hhears : (c.after xs (s + 1)).pool.call? k = some ⟨.request q report' .deciding, b'⟩ := by
    rw [after_succ hs]
    exact hnew
  rcases pool_of_step (c.after xs s) x with h | ⟨y, rfl, h⟩ | ⟨cause, h, -⟩ <;> rw [h] at hnew
  · exact absurd ⟨report', b', hnew⟩ hold
  · rcases Pool.deciding_before hnew with ⟨b'', hbefore⟩ | ⟨reply, b'', hy, hlive, hasks⟩
    · exact absurd ⟨report', b'', hbefore⟩ hold
    · cases y with
      | step k' reply' =>
        obtain ⟨rfl, rfl⟩ := Pool.Move.step.inj hy
        rw [live_answer hasks (m := q.sender) rfl] at hlive
        exact ⟨s, hsn, ⟨reply', hs⟩, ⟨report', b'', hasks⟩, hlive, report', b', hhears⟩
      | _ => cases hy
  · rw [Pool.call?_enter] at hnew
    split at hnew
    · cases hnew
    · exact absurd ⟨report', b', hnew⟩ hold

end Cluster

/-! ## What the listener's call takes out -/

namespace Pool

variable {p : Pool} {k : Nat}

/-- a removal goes on for the cause for which it began -/
theorem removal_run {cause : Cause} {total : Nat} {pt : RemovalPoint} {b : Bool}
    (hc : p.call? k = some ⟨.removal cause total pt, b⟩) (ms : List Move) :
    (p.run ms).Ended k ∨ ∃ total' pt' b', (p.run ms).call? k = some ⟨.removal cause total' pt', b'⟩ := by
  induction ms generalizing p total pt b with
  | nil => exact .inr ⟨total, pt, b, hc⟩
  | cons m ms ih =>
    rcases step_call hc m with ⟨b', hc'⟩ | ⟨reply, rfl, h, -⟩
    · exact ih hc'
    · have hcall := call?_advance hc reply k
      rw [if_pos rfl, ← h] at hcall
      rcases Call.removal_next p.registry { reply with now := p.now } cause total pt with
        ⟨total', pt', hn⟩ | ⟨count, hn⟩ <;> rw [hn] at hcall
      · exact ih hcall
      · exact .inl (Ended.run ⟨lt_of_lt_of_le (lt_of_call? hc) (length_step p _), hcall⟩ ms)

/-- **a departure takes out all records of the member that are cached, and no others** -/
theorem takesOut_departure (hp : p.Reachable) {m : MemberId} {total : Nat} {pt : RemovalPoint} {b : Bool}
    (hc : p.call? k = some ⟨.removal (.departure m) total pt, b⟩) {x : Move} (hx : x.place? = some k) {i : RecordId}
    (hi : p.TakesOut x i) (j : RecordId) :
    p.TakesOut x j ↔ p.registry.Caches j ∧ (p.registry.record j).sender = m := by
  rcases step_self hx hc with h | h | ⟨reply, -, h, -⟩
  · exact absurd hi (not_takesOut (by rw [h]))
  · exact absurd hi (not_takesOut (by rw [h]; rfl))
  · obtain ⟨gone, claimed, hr⟩ :=
      Call.advanceRemoval_removes p.registry (.departure m) total { reply with now := p.now } pt
    have htakes (j : RecordId) : p.TakesOut x j ↔ j ∈ gone := takesOut_iff hp.sound hc (.remove hr) h
    have hgone : gone = (p.registry.drain fun _ r => r.sender == m).2 := by
      rw [htakes] at hi
      generalize Call.advanceRemoval p.registry (.departure m) total { reply with now := p.now } pt = s at hr
      cases hr with
      | drain hq hb =>
        cases pt with
        | starting => rfl
        | checking left gone =>
          obtain ⟨reason, hcause⟩ := hp.sweeps k _ _ _ _ _ hc
          cases hcause
        | _ => cases hi
      | _ => cases hi
    rw [htakes, hgone, mem_drain hp.sound.coherent]
    simp

/-- a call that has taken something out has taken out all that it ever will -/
theorem TakesOut.tearsDown (hp : p.Reachable) {u : Underway} (hc : p.call? k = some u) {x : Move}
    (hx : x.place? = some k) {i : RecordId} (hi : p.TakesOut x i) : ∃ queue, (p.step x).TearsDown k queue := by
  rcases step_self hx hc with h | h | ⟨reply, -, h, -⟩
  · exact absurd hi (not_takesOut (by rw [h]))
  · exact absurd hi (not_takesOut (by rw [h]; rfl))
  · obtain ⟨born, gone, claimed, hd⟩ := hp.sound.does hc reply
    rw [takesOut_iff hp.sound hc hd h] at hi
    have hcall := call?_advance hc reply k
    rw [if_pos rfl, ← h] at hcall
    cases hu : u.call.toTearDown? with
    | some queue => exact ⟨queue, TearsDown.step (.inr ⟨u, queue, hc, hu, List.Subset.refl _⟩) x⟩
    | none =>
      cases hn : (u.call.advance p.registry { reply with now := p.now }).next with
      | go c' =>
        rw [hn] at hcall
        rcases Call.advance_taking hd hu hn with ⟨-, hgone⟩ | hqueue
        · simp [hgone] at hi
        · exact ⟨gone, .inr ⟨_, gone, hcall, hqueue, List.Subset.refl _⟩⟩
      | wait => simp [hd.gone_of_wait rfl hn] at hi
      | done o =>
        rw [hn] at hcall
        exact ⟨[], .inl ⟨lt_of_lt_of_le (lt_of_call? hc) (length_step p x), hcall⟩⟩

end Pool

namespace Cluster

variable {c : Cluster} {xs : List Move} {n : Nat}

/-- the listener reads the departure that is the `j`-th event of the channel, and begins the call at `k` about it -/
structure Handles (c : Cluster) (xs : List Move) (h j k : Nat) (e : Membership.Event) : Prop where
  move : xs[h]? = some .listen
  reads : ∃ l, (c.after xs h).listener = some l ∧ l.cursor = j
  event : (c.after xs h).feed.sent[j]? = some e
  departure : e.isDeparture = true
  place : (c.after xs h).pool.calls.length = k
  begins : (c.after xs (h + 1)).pool.call? k = some ⟨.remove (.departure e.member), false⟩

/-- the move at `n` is one of the call at `k`, and takes the record out of the cache -/
def Evicts (c : Cluster) (xs : List Move) (n k : Nat) (i : RecordId) : Prop :=
  ∃ y, xs[n]? = some (.pool y) ∧ y.place? = some k ∧ (c.after xs n).pool.TakesOut ((c.after xs n).answered y) i

/-- the move at `t` brings the member into the directory, where it was not -/
structure Registers (c : Cluster) (xs : List Move) (t : Nat) (m : MemberId) : Prop where
  move : ∃ op, xs[t]? = some (.directory op)
  before : (c.after xs t).directory.isLive m = false
  after : (c.after xs (t + 1)).directory.isLive m = true

theorem place_answered (c : Cluster) (y : Pool.Move) : (c.answered y).place? = y.place? := by
  cases y <;> rfl

/-- the call that takes something out for the listener is about the departure that it read -/
theorem Handles.call (hp : c.pool.Reachable) {h j k : Nat} {e : Membership.Event} {i : RecordId}
    (hh : c.Handles xs h j k e) (he : c.Evicts xs n k i) :
    h < n ∧ ∃ total pt b, (c.after xs n).pool.call? k = some ⟨.removal (.departure e.member) total pt, b⟩ := by
  obtain ⟨y, -, hplace, hout⟩ := he
  have hunder : (c.after xs n).pool.call? k ≠ none := by
    intro hnone
    refine Pool.not_takesOut ?_ hout
    rw [Pool.step_of_ended ((place_answered _ y).trans hplace) hnone]
  have hlt : h < n := by
    by_contra hle
    have hlen := (grows_after hp xs (Nat.le_of_not_lt hle)).calls
    rw [hh.place] at hlen
    exact hunder (by simp [Pool.call?, hlen])
  refine ⟨hlt, ?_⟩
  obtain ⟨ys, hys⟩ := after_of_le c xs hlt
  obtain ⟨ms, hms⟩ := pool_run (c.after xs (h + 1)) ys
  have hpool : (c.after xs n).pool = (c.after xs (h + 1)).pool.run ms := by
    rw [hys]
    exact hms
  rw [hpool] at hunder ⊢
  exact (Pool.removal_run hh.begins ms).resolve_left fun hend => hunder hend.2

/-- a call takes records out at one moment -/
theorem Evicts.unique (hp : c.pool.Reachable) {n' k : Nat} {i i' : RecordId} (h : c.Evicts xs n k i)
    (h' : c.Evicts xs n' k i') : n = n' := by
  have hnot {n n' : Nat} {i i' : RecordId} (h : c.Evicts xs n k i) (h' : c.Evicts xs n' k i') : ¬ n < n' := by
    intro hlt
    obtain ⟨y, hmove, hplace, hout⟩ := h
    obtain ⟨y', -, hplace', hold, hnew⟩ := h'
    rw [← place_answered (c.after xs n)] at hplace
    rw [← place_answered (c.after xs n')] at hplace'
    have hr := reachable_after hp xs n
    obtain ⟨u, hu⟩ : ∃ u, (c.after xs n).pool.call? k = some u := by
      cases hc : (c.after xs n).pool.call? k with
      | none => exact absurd hout (Pool.not_takesOut (by rw [Pool.step_of_ended hplace hc]))
      | some u => exact ⟨u, rfl⟩
    obtain ⟨queue, htears⟩ := hout.tearsDown hr hu hplace
    obtain ⟨ys, hys⟩ := after_of_le c xs hlt
    obtain ⟨ms, hms⟩ := pool_run (c.after xs (n + 1)) ys
    rw [← stepPool_pool] at htears
    change ((c.after xs n).step (.pool y)).pool.TearsDown k queue at htears
    rw [← after_succ hmove] at htears
    have hlate := htears.run ms
    rw [← hms, ← hys] at hlate
    obtain ⟨d, hd⟩ := hold
    exact hnew ⟨d, by rw [(hlate.frame hplace').1]; exact hd⟩
  exact Nat.le_antisymm (Nat.le_of_not_lt (hnot h' h)) (Nat.le_of_not_lt (hnot h h'))

/-- the call at `k` about the departure of the member has not had its turn at the cache -/
def Waits (c : Cluster) (xs : List Move) (n k : Nat) (m : MemberId) : Prop :=
  ∃ total b, (c.after xs n).pool.call? k = some ⟨.removal (.departure m) total .starting, b⟩

/-- it has its turn at the move at `n` -/
def Drains (c : Cluster) (xs : List Move) (n k : Nat) (m : MemberId) : Prop :=
  c.Waits xs n k m ∧ ¬ c.Waits xs (n + 1) k m

/-- the turn is a step of the call -/
theorem Drains.step {k : Nat} {m : MemberId} (h : c.Drains xs n k m) :
    ∃ y total reply, xs[n]? = some (.pool y) ∧ y.place? = some k ∧
      (c.after xs (n + 1)).pool = (c.after xs n).pool.step ((c.after xs n).answered y) ∧
      (c.after xs n).pool.step ((c.after xs n).answered y) =
        (c.after xs n).pool.advance k (.removal (.departure m) total .starting) reply := by
  obtain ⟨⟨total, b, hcall⟩, hgone⟩ := h
  cases hx : xs[n]? with
  | none =>
    rw [Waits, after_stays hx] at hgone
    exact absurd ⟨total, b, hcall⟩ hgone
  | some x =>
    rw [Waits, after_succ hx] at hgone
    rcases pool_of_step (c.after xs n) x with hsame | ⟨y, rfl, hstep⟩ | ⟨cause, henter, -⟩
    · rw [hsame] at hgone
      exact absurd ⟨total, b, hcall⟩ hgone
    · rcases Pool.step_call hcall ((c.after xs n).answered y) with ⟨b', hcall'⟩ | ⟨reply, hy, hadvance, -⟩
      · rw [hstep] at hgone
        exact absurd ⟨total, b', hcall'⟩ hgone
      · refine ⟨y, total, reply, rfl, ?_, ?_, hadvance⟩
        · rw [← place_answered (c.after xs n), hy]
          rfl
        · rw [after_succ hx, hstep]
    · rw [henter, Pool.call?_enter, if_neg (Pool.lt_of_call? hcall).ne] at hgone
      exact absurd ⟨total, b, hcall⟩ hgone

/-- **at its turn the call takes out the cached records of the member, and leaves none** -/
theorem Drains.evicts (hp : c.pool.Reachable) {k : Nat} {m : MemberId} (h : c.Drains xs n k m) :
    (∀ i, c.Evicts xs n k i ↔
        (c.after xs n).pool.registry.Caches i ∧ ((c.after xs n).pool.registry.record i).sender = m) ∧
      ∀ i, (c.after xs (n + 1)).pool.registry.Caches i → ((c.after xs (n + 1)).pool.registry.record i).sender ≠ m := by
  obtain ⟨y, total, reply, hmove, hplace, hafter, hadvance⟩ := h.step
  have hs := (reachable_after hp xs n).sound
  rw [hafter, hadvance]
  refine ⟨fun i => ?_, fun i => Pool.sender_ne_of_departure hs⟩
  have htakes : (c.after xs n).pool.TakesOut ((c.after xs n).answered y) i ↔
      (c.after xs n).pool.registry.Caches i ∧ ((c.after xs n).pool.registry.record i).sender = m := by
    rw [Pool.TakesOut, hadvance, Pool.registry_departure, caches_drain hs.coherent]
    simp only [not_and, Bool.not_eq_false, beq_iff_eq]
    exact and_congr_right fun hi => ⟨fun hout => hout hi, fun hsender _ => hsender⟩
  rw [← htakes]
  constructor
  · rintro ⟨y', hmove', -, hout⟩
    obtain rfl : y = y' := by simpa [hmove] using hmove'
    exact hout
  · exact fun hout => ⟨y, hmove, hplace, hout⟩

/-- a call of the listener that waits no more has had its turn -/
theorem Handles.exists_drains {h j k : Nat} {e : Membership.Event} (hh : c.Handles xs h j k e) (hn : h < n)
    (hw : ¬ c.Waits xs n k e.member) : ∃ n', h < n' ∧ n' < n ∧ c.Drains xs n' k e.member := by
  have hbegins : c.Waits xs (h + 1) k e.member := ⟨_, _, hh.begins⟩
  obtain ⟨n', x, hhn', hn'n, hx, hwaits, hgone⟩ := came_about
    (P := fun c => ¬ ∃ total b, c.pool.call? k = some ⟨.removal (.departure e.member) total .starting, b⟩) hn
    (not_not.2 hbegins) hw
  rw [← after_succ hx] at hgone
  exact ⟨n', hhn', hn'n, not_not.1 hwaits, hgone⟩

/-- a record is of the sender of the request for which it was made -/
theorem Inserts.sender (hp : c.pool.Reachable) {t k : Nat} {q : Request} {i : RecordId} (h : c.Inserts xs t k q i)
    (hn : t < n) : ((c.after xs n).pool.registry.record i).sender = q.sender := by
  obtain ⟨reply, hmove, hmade⟩ := h
  obtain ⟨ys, hys⟩ := after_of_le c xs hn
  obtain ⟨ms, hms⟩ := pool_run (c.after xs (t + 1)) ys
  rw [hys, hms, after_succ hmove]
  show ((((c.after xs t).stepPool (.step k reply)).pool.run ms).registry.record i).sender = q.sender
  rw [stepPool_pool]
  exact (hmade.of_request (reachable_after hp xs t) ms).2.2.1

/-- a member that is live later and not at first has registered in between -/
theorem exists_registers {m : MemberId} {a b : Nat} (hab : a ≤ b) (ha : (c.after xs a).directory.isLive m = false)
    (hb : (c.after xs b).directory.isLive m = true) : ∃ t, a ≤ t ∧ t < b ∧ c.Registers xs t m := by
  obtain ⟨t, x, hat, htb, ht, hold, hnew⟩ :=
    came_about (P := fun c => c.directory.isLive m = true) hab (by simp [ha]) hb
  obtain ⟨op, rfl⟩ := directory_step (c := c.after xs t) (x := x) fun hdir => hold (hdir ▸ hnew)
  refine ⟨t, hat, htb, ⟨op, ht⟩, by simpa using hold, ?_⟩
  rw [after_succ ht]
  exact hnew

/-- a member leaves and registers again, and a deployment of it is accepted; only then does the listener handle the
departure, and the deployment is taken out -/
theorem evicted_after_rejoining :
    let d : Directory :=
      { self := ⟨"o"⟩, heartbeatTimeout := 30, nodes := [{ id := ⟨"s"⟩, address := "", lastHeartbeat := default }] }
    let q : Request := { id := ⟨"x"⟩, sender := ⟨"s"⟩, seq := 1, moduleAlias := "a" }
    let xs : List Move :=
      Move.pool (.enter (.start false)) :: (Pool.turns 0 {} 4).map .pool ++
        [Move.directory (.leave ⟨"s"⟩),
          .directory (.register { id := ⟨"s"⟩, address := "", lastHeartbeat := default }), .announce 0, .announce 0] ++
        Move.pool (.enter (.request q true .entering)) :: (Pool.turns 1 { module := .ok ⟨"m", false⟩ } 8).map .pool ++
        [Move.listen, .pool (.step 2 {})]
    let c := new d 100 4
    c.Registers xs 10 ⟨"s"⟩ ∧ (c.after xs 30).pool.Returned 1 (.record 0) ∧ c.Handles xs 30 0 2 (.left ⟨"s"⟩) ∧
      c.Evicts xs 31 2 0 ∧
      ¬ ∃ r t k q, c.Publishes xs r 0 (.left ⟨"s"⟩) ∧ c.Inserts xs t k q 0 ∧ t < r := by
  intro d q xs c
  have hpub : c.Publishes xs 9 0 (.left ⟨"s"⟩) :=
    ⟨⟨.leave ⟨"s"⟩, rfl, by decide +kernel⟩, by decide +kernel, by decide +kernel, 12, by decide, rfl,
      by decide +kernel, by decide +kernel⟩
  have hins : c.Inserts xs 21 1 q 0 :=
    ⟨{ module := .ok ⟨"m", false⟩ }, rfl, by decide +kernel, by decide +kernel, 1, _, true, false, rfl,
      by decide +kernel⟩
  have hregisters : c.Registers xs 10 ⟨"s"⟩ := ⟨⟨_, rfl⟩, by decide +kernel, by decide +kernel⟩
  have haccepted : (c.after xs 30).pool.Returned 1 (.record 0) := by decide +kernel
  have hhandles : c.Handles xs 30 0 2 (.left ⟨"s"⟩) :=
    ⟨rfl, ⟨{ cursor := 0 }, by decide +kernel, rfl⟩, by decide +kernel, rfl, by decide +kernel, by decide +kernel⟩
  have hevicts : c.Evicts xs 31 2 0 := by
    refine ⟨.step 2 {}, rfl, rfl, ⟨⟨"x"⟩, by decide +kernel⟩, ?_⟩
    have hempty : ((c.after xs 31).pool.step ((c.after xs 31).answered (.step 2 {}))).registry.cache = [] := by
      decide +kernel
    simp [Caches, hempty]
  refine ⟨hregisters, haccepted, hhandles, hevicts, ?_⟩
  have hp : c.pool.Reachable := ⟨100, [], rfl⟩
  clear_value xs
  rintro ⟨r, t, k, q', hpub', hins', htr⟩
  obtain rfl := hpub.unique hp hpub'
  obtain rfl := hins.unique hp hins'
  omega

/-- **what a departure takes out preceded it, or followed a return**: whatever the order of membership changes, requests
and deliveries, a departure event that the listener handles was published by a removal of the member from the directory. The
call that handles it has one turn at the cache, takes out all records of the member that are cached then, and leaves none. If
it takes any out, it does so at this one moment. Each of them was made for a request that heard under the lock that its
sender was live, and heard so before that removal, unless the member had registered again between the two. -/
theorem departure_evicts {d : Directory} (hd : d.Keyed) (timeout capacity : Nat) {xs : List Move} {h j k : Nat}
    {e : Membership.Event} (hh : (new d timeout capacity).Handles xs h j k e) :
    let c := new d timeout capacity
    (∃ r, c.Publishes xs r j e ∧ r < h) ∧
      (∀ n, h < n → ¬ c.Waits xs n k e.member → ∃ n', h < n' ∧ n' < n ∧ c.Drains xs n' k e.member) ∧
      (∀ n, c.Drains xs n k e.member →
        (∀ i, c.Evicts xs n k i ↔ (c.after xs n).pool.registry.Caches i ∧
            ((c.after xs n).pool.registry.record i).sender = e.member) ∧
          ∀ i, (c.after xs (n + 1)).pool.registry.Caches i →
            ((c.after xs (n + 1)).pool.registry.record i).sender ≠ e.member) ∧
      ∀ n i, c.Evicts xs n k i →
        (∀ n' i', c.Evicts xs n' k i' ↔
            n' = n ∧ (c.after xs n).pool.registry.Caches i' ∧
              ((c.after xs n).pool.registry.record i').sender = e.member) ∧
          ∃ r s t k' q, c.Publishes xs r j e ∧ r < h ∧ h < n ∧ c.Checks xs s k' q ∧ c.Inserts xs t k' q i ∧ s < t ∧ t < n ∧
            q.sender = e.member ∧ (s < r ∨ ∃ b, r < b ∧ b < s ∧ c.Registers xs b e.member) := by
  intro c
  have hp : c.pool.Reachable := ⟨timeout, [], rfl⟩
  obtain ⟨r, hrh, hpub⟩ := exists_publishes (c := c) hd rfl rfl hh.event hh.departure
  refine ⟨⟨r, hpub, hrh⟩, fun n => hh.exists_drains, fun n hn => hn.evicts hp, fun n i he => ?_⟩
  have hr := reachable_after hp xs n
  obtain ⟨hhn, total, pt, b, hcall⟩ := hh.call hp he
  have hall : ∀ n' i', c.Evicts xs n' k i' ↔ n' = n ∧
      (c.after xs n).pool.registry.Caches i' ∧ ((c.after xs n).pool.registry.record i').sender = e.member := by
    obtain ⟨y, hmove, hplace, hout⟩ := id he
    intro n' i'
    rw [← Pool.takesOut_departure hr hcall ((place_answered _ y).trans hplace) hout i']
    constructor
    · intro he'
      obtain rfl := Evicts.unique hp he' he
      obtain ⟨y', hmove', -, hout'⟩ := he'
      obtain rfl : y = y' := by simpa [hmove] using hmove'
      exact ⟨rfl, hout'⟩
    · rintro ⟨rfl, hout'⟩
      exact ⟨y, hmove, hplace, hout'⟩
  obtain ⟨-, hcached, hsender⟩ := (hall n i).1 he
  obtain ⟨t, htn, k', q, hins⟩ := exists_inserts (c := c) hp rfl (hr.sound.coherent.lt hcached)
  obtain ⟨report, b', hdecides⟩ := hins.decides
  obtain ⟨s, hst, hcheck⟩ := exists_checks (c := c) rfl hdecides
  have hfrom : q.sender = e.member := (hins.sender hp htn).symm.trans hsender
  refine ⟨hall, r, s, t, k', q, hpub, hrh, hhn, hcheck, hins, hst, htn, hfrom, ?_⟩
  have hlive := hcheck.live
  rw [hfrom] at hlive
  rcases Nat.lt_trichotomy s r with hlt | heq | hgt
  · exact .inl hlt
  · obtain ⟨op, hop, -⟩ := hpub.removes
    obtain ⟨reply, hmove⟩ := hcheck.move
    rw [← heq, hmove] at hop
    cases hop
  · -- the member was gone right after the removal and live at the check
    obtain ⟨b, hrb, hbs, hreg⟩ := exists_registers hgt hpub.gone hlive
    exact .inr ⟨b, hrb, hbs, hreg⟩

/-- a member has a deployment, leaves, registers again and has another one before the listener handles the departure:
both are taken out, the one as it preceded the departure, the other as it followed the return -/
theorem departure_takes_both :
    let d : Directory :=
      { self := ⟨"o"⟩, heartbeatTimeout := 30, nodes := [{ id := ⟨"s"⟩, address := "", lastHeartbeat := default }] }
    let x : Request := { id := ⟨"x"⟩, sender := ⟨"s"⟩, seq := 1, moduleAlias := "a" }
    let y : Request := { id := ⟨"y"⟩, sender := ⟨"s"⟩, seq := 2, moduleAlias := "b" }
    let xs : List Move :=
      Move.pool (.enter (.start false)) :: (Pool.turns 0 {} 4).map .pool ++
        Move.pool (.enter (.request x true .entering)) :: (Pool.turns 1 { module := .ok ⟨"m", false⟩ } 8).map .pool ++
        [Move.directory (.leave ⟨"s"⟩),
          .directory (.register { id := ⟨"s"⟩, address := "", lastHeartbeat := default }), .announce 0, .announce 0] ++
        Move.pool (.enter (.request y true .entering)) :: (Pool.turns 2 { module := .ok ⟨"n", false⟩ } 8).map .pool ++
        [Move.listen, .pool (.step 3 {})]
    let c := new d 100 4
    c.Handles xs 47 0 3 (.left ⟨"s"⟩) ∧ c.Drains xs 48 3 ⟨"s"⟩ ∧ c.Evicts xs 48 3 0 ∧ c.Evicts xs 48 3 1 ∧
      (∀ i, (c.after xs 49).pool.registry.Caches i → ((c.after xs 49).pool.registry.record i).sender ≠ ⟨"s"⟩) ∧
      ∃ r s t k q, c.Publishes xs r 0 (.left ⟨"s"⟩) ∧ c.Checks xs s k q ∧ c.Inserts xs t k q 0 ∧
        (s < r ∨ ∃ b, r < b ∧ b < s ∧ c.Registers xs b ⟨"s"⟩) := by
  intro d x y xs c
  have hkeyed : d.Keyed := by simp [Directory.Keyed, d]
  have hhandles : c.Handles xs 47 0 3 (.left ⟨"s"⟩) :=
    ⟨rfl, ⟨{ cursor := 0 }, by decide +kernel, rfl⟩, by decide +kernel, rfl, by decide +kernel, by decide +kernel⟩
  have hevicts : c.Evicts xs 48 3 0 := by
    refine ⟨.step 3 {}, rfl, rfl, ⟨⟨"x"⟩, by decide +kernel⟩, ?_⟩
    have hempty : ((c.after xs 48).pool.step ((c.after xs 48).answered (.step 3 {}))).registry.cache = [] := by
      decide +kernel
    simp [Caches, hempty]
  have hdrains : c.Drains xs 48 3 ⟨"s"⟩ := by
    refine ⟨⟨0, false, by decide +kernel⟩, ?_⟩
    rintro ⟨total, b, hcall⟩
    have htelling : (c.after xs 49).pool.call? 3 = some ⟨.removal (.departure ⟨"s"⟩) 2 (.telling [0, 1]), false⟩ := by
      decide +kernel
    cases htelling.symm.trans hcall
  have hother : (⟨"y"⟩, 1) ∈ (c.after xs 48).pool.registry.cache := by decide +kernel
  have hsender : ((c.after xs 48).pool.registry.record 1).sender = ⟨"s"⟩ := by decide +kernel
  clear_value xs
  obtain ⟨-, -, hturn, htraced⟩ := departure_evicts hkeyed 100 4 hhandles
  obtain ⟨hall, r, s, t, k, q, hpub, -, -, hchecks, hins, -, -, -, hcame⟩ := htraced 48 0 hevicts
  exact ⟨hhandles, hdrains, hevicts, (hall 48 1).2 ⟨rfl, ⟨_, hother⟩, hsender⟩, (hturn 48 hdrains).2, r, s, t, k, q, hpub,
    hchecks, hins, hcame⟩

end Cluster

end Redeploy
