/-
The sweep that takes nodes without heartbeat out of a directory.

How long a node has sent no heartbeat is told in whole seconds, rounded toward zero. So a node falls out of a timeout of
zero or more at the first full second after it; a negative timeout asks for heartbeats that lie in the future, and a node
falls out of it at once when the heartbeat is that near. A sweep decides about each node by its own entry and one reading of
the clock, so a second sweep at the same time finds nothing. The local node is passed over whatever its entry says, also
when the entry came from a registration like those of other nodes.

Results:
- `lt_tdiv_iff_of_nonneg`, `lt_tdiv_iff_of_neg`: the boundary in nanoseconds;
- `mem_evictStale`, `mem_out_evictStale`, `events_evictStale`: what stays, what goes and what is announced;
- `evictStale_again`: a second sweep at the same time changes nothing;
- `self_kept`: the local node stays;
- **`sweep_exact`**: all of it.
-/
import Redeploy.Proofs.Directory

namespace Redeploy.Membership

/-! ## Ages in whole seconds -/

variable {age timeout unit : Int}

/-- seen from the future, an age is not negative and rounds down -/
theorem tdiv_eq_neg_ediv (h : age ≤ 0) : age.tdiv unit = -((-age) / unit) := by
  rw [← Int.tdiv_eq_ediv_of_nonneg (by omega), Int.neg_tdiv, Int.neg_neg]

theorem lt_tdiv_iff_of_nonneg (hunit : 0 < unit) (h : 0 ≤ timeout) :
    timeout < age.tdiv unit ↔ (timeout + 1) * unit ≤ age := by
  by_cases hage : 0 ≤ age
  · rw [Int.tdiv_eq_ediv_of_nonneg hage, ← Int.add_one_le_iff, Int.le_ediv_iff_mul_le hunit]
  · -- a negative age is no full second, which the least of such timeouts asks for
    have hround : 0 ≤ (-age) / unit := Int.ediv_nonneg (by omega) (by omega)
    have hfull : 0 < (timeout + 1) * unit := Int.mul_pos (by omega) hunit
    rw [tdiv_eq_neg_ediv (by omega)]
    constructor
    · intro hlt
      omega
    · intro hle
      omega

theorem lt_tdiv_iff_of_neg (hunit : 0 < unit) (h : timeout < 0) :
    timeout < age.tdiv unit ↔ timeout * unit < age := by
  by_cases hage : 0 ≤ age
  · have hround : 0 ≤ age.tdiv unit := Int.tdiv_nonneg hage (by omega)
    have hneg : timeout * unit < 0 := Int.mul_neg_of_neg_of_pos h hunit
    constructor
    · intro _
      omega
    · intro _
      omega
  · calc timeout < age.tdiv unit
      _ ↔ (-age) / unit < -timeout := by rw [tdiv_eq_neg_ediv (by omega)]; omega
      _ ↔ -age < -timeout * unit := Int.ediv_lt_iff_lt_mul hunit
      _ ↔ timeout * unit < age := by rw [Int.neg_mul]; omega

namespace Directory

variable {d : Directory} {clock : Timestamp} {n : Node} {m : MemberId}

/-- a node other than the local one whose heartbeat is, in whole seconds, older than the timeout -/
def Expired (d : Directory) (clock : Timestamp) (n : Node) : Prop :=
  n.id ≠ d.self ∧ d.heartbeatTimeout.toInt < (clock.nanosSince n.lastHeartbeat).tdiv 1000000000

instance (d : Directory) (clock : Timestamp) (n : Node) : Decidable (d.Expired clock n) :=
  inferInstanceAs (Decidable (_ ∧ _))

theorem expired_iff :
    d.Expired clock n ↔ (n.id != d.self && n.isStale clock d.heartbeatTimeout) = true := by
  simp only [Expired, Node.isStale, Bool.and_eq_true, bne_iff_ne, decide_eq_true_eq]
  rfl

/-! ## One sweep -/

theorem mem_evictStale : n ∈ (d.evictStale clock).1.nodes ↔ n ∈ d.nodes ∧ ¬d.Expired clock n := by
  simp only [evictStale, List.mem_filter, expired_iff, Bool.not_eq_true, Bool.not_eq_true']

theorem mem_out_evictStale : m ∈ (d.evictStale clock).2.1 ↔ ∃ n ∈ d.nodes, n.id = m ∧ d.Expired clock n := by
  simp only [evictStale, stale, List.mem_map, List.mem_filter, expired_iff]
  constructor
  · intro h
    obtain ⟨n, ⟨hn, hout⟩, hid⟩ := h
    exact ⟨n, hn, hid, hout⟩
  · intro h
    obtain ⟨n, hn, hid, hout⟩ := h
    exact ⟨n, ⟨hn, hout⟩, hid⟩

theorem nodup_out_evictStale (h : d.Keyed) (clock : Timestamp) : (d.evictStale clock).2.1.Nodup :=
  (List.filter_sublist.map Node.id).nodup h

/-- the nodes taken out are announced in turn -/
theorem events_evictStale (d : Directory) (clock : Timestamp) :
    events (d.evictStale clock).2.2 = (d.evictStale clock).2.1.map .failed := by
  simp only [evictStale]
  induction d.stale clock with
  | nil => rfl
  | cons n ns ih =>
    rw [List.flatMap_cons, events, List.filterMap_append, List.map_cons]
    exact congrArg (Event.failed n.id :: ·) ih

/-- nothing is left for a second sweep at the same time -/
theorem evictStale_again (d : Directory) (clock : Timestamp) :
    (d.evictStale clock).1.evictStale clock = ((d.evictStale clock).1, [], []) := by
  have hstale : (d.evictStale clock).1.stale clock = [] := by
    simp only [stale, List.filter_eq_nil_iff]
    intro n hn hout
    exact (mem_evictStale.1 hn).2 (expired_iff.2 hout)
  have hnodes : (d.evictStale clock).1.nodes.filter
      (fun n => !(n.id != d.self && n.isStale clock d.heartbeatTimeout)) = (d.evictStale clock).1.nodes := by
    simp [evictStale, List.filter_filter]
  rw [evictStale, hstale]
  simp only [List.map_nil, List.flatMap_nil, Prod.mk.injEq, and_true]
  exact congrArg (fun nodes => { d with nodes }) hnodes

/-- a sweep passes the local node over -/
theorem self_kept (h : d.Keyed) (clock : Timestamp) :
    (d.evictStale clock).1.find? d.self = d.find? d.self ∧ d.self ∉ (d.evictStale clock).2.1 ∧
      eventsOf d.self (d.evictStale clock).2.2 = [] := by
  have hc := changes_apply h d.self (.evictStale clock)
  have hout : d.self ∉ (d.evictStale clock).2.1 := by
    intro hmem
    obtain ⟨n, _, hid, hexpired⟩ := mem_out_evictStale.1 hmem
    exact hexpired.1 hid
  simp only [apply] at hc
  generalize (d.evictStale clock).1.find? d.self = entry, eventsOf d.self (d.evictStale clock).2.2 = es at hc ⊢
  generalize hbefore : d.find? d.self = before at hc ⊢
  cases hc with
  | expired hself => exact absurd rfl hself
  | idle => exact ⟨rfl, hout, rfl⟩

/-- **a sweep takes out exactly the expired nodes**: those but the local one whose age in whole seconds, rounded toward
zero, exceeds the timeout. In nanoseconds that is the first full second after a timeout of zero or more, and anything above
a negative one. All other entries stay as they are. Each node taken out is returned once and announced once as failed, and
nobody else is; a second sweep at the same time does nothing. Whatever is done to the directory, sweeps among it, no sweep
takes the local node out or announces it. -/
theorem sweep_exact (h : d.Keyed) (clock : Timestamp) :
    let swept := d.evictStale clock
    swept.1 = { d with nodes := swept.1.nodes } ∧
    (∀ n, n ∈ swept.1.nodes ↔ n ∈ d.nodes ∧ ¬d.Expired clock n) ∧
    (∀ m, m ∈ swept.2.1 ↔ ∃ n ∈ d.nodes, n.id = m ∧ d.Expired clock n) ∧
    swept.2.1.Nodup ∧
    events swept.2.2 = swept.2.1.map .failed ∧
    swept.1.evictStale clock = (swept.1, [], []) ∧
    (∀ n, d.Expired clock n ↔ n.id ≠ d.self ∧
      if 0 ≤ d.heartbeatTimeout.toInt
      then (d.heartbeatTimeout.toInt + 1) * 1000000000 ≤ clock.nanosSince n.lastHeartbeat
      else d.heartbeatTimeout.toInt * 1000000000 < clock.nanosSince n.lastHeartbeat) ∧
    ∀ os clock',
      let d' := (d.run os).1
      let swept' := d'.evictStale clock'
      swept'.1.find? d.self = d'.find? d.self ∧ d.self ∉ swept'.2.1 ∧ eventsOf d.self swept'.2.2 = [] := by
  intro swept
  refine ⟨rfl, fun n => mem_evictStale, fun m => mem_out_evictStale, nodup_out_evictStale h clock,
    events_evictStale d clock, evictStale_again d clock, ?_, ?_⟩
  · intro n
    split
    · rename_i hpos
      rw [Expired, lt_tdiv_iff_of_nonneg (by decide) hpos]
    · rename_i hneg
      rw [Expired, lt_tdiv_iff_of_neg (by decide) (by omega)]
  · intro os clock' d' swept'
    have hself : d'.self = d.self := self_run d os
    have hkept := self_kept (keyed_run h os) clock'
    rw [← hself]
    exact hkept

/-- of a timeout of 30 s, 31 s less a nanosecond are not enough; of one of -1 s, a heartbeat half a second ahead is too
little. The local node stays, though its entry is as old as that of the node taken out. -/
theorem swept_at_the_second :
    let node (id : String) (t : Timestamp) : Node := ⟨⟨id⟩, id, t, [], 1⟩
    let ago (s : Int) (nanos : Nat) : Timestamp := ⟨1000 - s, nanos⟩
    let d : Directory := ⟨⟨"a"⟩, 30, [node "a" (ago 31 0), node "b" (ago 31 0), node "c" (ago 31 1)], 1⟩
    let ahead : Directory := ⟨⟨"a"⟩, -1, [node "b" (ago 0 500000000), node "c" (ago (-1) 0)], 1⟩
    let clock : Timestamp := ⟨1000, 0⟩
    d.Keyed ∧ (d.evictStale clock).1.nodes = [node "a" (ago 31 0), node "c" (ago 31 1)] ∧
      (d.evictStale clock).2.1 = [⟨"b"⟩] ∧ events (d.evictStale clock).2.2 = [.failed ⟨"b"⟩] ∧
      (d.evictStale clock).1.evictStale clock = ((d.evictStale clock).1, [], []) ∧
      (ahead.evictStale clock).2.1 = [⟨"b"⟩] := by
  intro node ago d ahead clock
  have hkeyed : d.Keyed := show (d.nodes.map Node.id).Nodup by decide
  obtain ⟨-, -, -, -, hevents, hagain, -⟩ := sweep_exact hkeyed clock
  have hout : (d.evictStale clock).2.1 = [⟨"b"⟩] := by decide
  exact ⟨hkeyed, by decide, hout, by rw [hevents, hout]; rfl, hagain, by decide⟩

end Directory

end Redeploy.Membership
