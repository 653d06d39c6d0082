/-
Whoever goes by the events alone knows which nodes are live.

A subscriber hears of a remote node when it joins and when it departs, and of nothing else: not of a registration that
renews another or is refused, not of a heartbeat, not of a removal that finds nothing. `Mirrors` is what the events about
a node then look like, and whether the node is live can be read off them. Entering the node and taking it out each owe
one event (`owed`), and every operation pays what it owes and no more.

The local node is not among them. It enters the directory without an event, and a subscriber that hears of its removal
has not heard that it joined.

Results:
- `eventsOf_apply`: what an operation announces of a remote node;
- `mirrors_run`: the events and the directory agree after every history;
- **`events_tell_liveness`**: joins and departures alternate, the last of them tells whether the node is live, and a
  departure is `left` exactly when the node was taken out by leaving.
-/
import Redeploy.Proofs.Directory

namespace Redeploy.Membership

/-- what subscribers have to hear of a node that an operation finds live or not, and leaves live or not -/
def owed (m : MemberId) (op : Op) : Bool → Bool → List Event
  | false, true => [.joined m]
  | true, false => [if op = .leave m then .left m else .failed m]
  | true, true | false, false => []

/-- events about a node that joins and departs in turn, and is live at the end or not -/
inductive Mirrors (m : MemberId) : List Event → Bool → Prop
  | start : Mirrors m [] false
  | join {es : List Event} : Mirrors m es false → Mirrors m (es ++ [.joined m]) true
  | depart {es : List Event} {e : Event} : Mirrors m es true → e = .left m ∨ e = .failed m → Mirrors m (es ++ [e]) false

namespace Mirrors

variable {m : MemberId} {es : List Event} {live live' : Bool}

theorem owed (h : Mirrors m es live) (op : Op) (live' : Bool) : Mirrors m (es ++ owed m op live live') live' := by
  cases live <;> cases live'
  · simpa [Membership.owed] using h
  · exact h.join
  · refine h.depart ?_
    split
    · exact .inl rfl
    · exact .inr rfl
  · simpa [Membership.owed] using h

/-- the node is live when an odd number of events was heard -/
theorem length (h : Mirrors m es live) : es.length % 2 = if live then 1 else 0 := by
  induction h with
  | start => rfl
  | join _ ih =>
    simp only [Bool.false_eq_true, if_false, if_true, List.length_append, List.length_singleton] at ih ⊢
    omega
  | depart _ _ ih =>
    simp only [Bool.false_eq_true, if_false, if_true, List.length_append, List.length_singleton] at ih ⊢
    omega

/-- joins are at the even places, departures at the odd ones -/
theorem turns (h : Mirrors m es live) (i : Nat) (hi : i < es.length) :
    (i % 2 = 0 → es[i] = .joined m) ∧ (i % 2 = 1 → es[i] = .left m ∨ es[i] = .failed m) := by
  induction h with
  | start => simp at hi
  | @join es h ih =>
    by_cases hlt : i < es.length
    · rw [List.getElem_append_left hlt]
      exact ih hlt
    · have heven := h.length
      obtain rfl : i = es.length := by simp at hi; omega
      rw [List.getElem_concat_length rfl]
      simp [heven]
  | @depart es e h he ih =>
    by_cases hlt : i < es.length
    · rw [List.getElem_append_left hlt]
      exact ih hlt
    · have hodd := h.length
      obtain rfl : i = es.length := by simp at hi; omega
      rw [List.getElem_concat_length rfl]
      simp [hodd, he]

theorem getLast? (h : Mirrors m es live) : live = true ↔ es.getLast? = some (.joined m) := by
  cases h with
  | start => simp
  | join h => simp
  | depart h he => rcases he with rfl | rfl <;> simp

end Mirrors

namespace Directory

variable {d : Directory} {m : MemberId}

/-- what an operation announces of a remote node is how it came or went -/
theorem eventsOf_apply (h : d.Keyed) (hm : m ≠ d.self) (op : Op) :
    eventsOf m (d.apply op).2 = owed m op (d.isLive m) ((d.apply op).1.isLive m) := by
  have hc := changes_apply h m op
  rw [isLive, isLive]
  generalize d.find? m = before, (d.apply op).1.find? m = entry, eventsOf m (d.apply op).2 = es at hc ⊢
  cases hc with
  | joined => rfl
  | renewed | refused | beat => rfl
  | left => simp [owed]
  | failed | expired => simp [owed]
  | own hself => exact absurd hself hm
  | idle => cases before <;> rfl

/-- the events and the directory agree on a remote node -/
theorem mirrors_run (self : MemberId) (heartbeatTimeout : Int64) (hm : m ≠ self) (os : List Op) :
    Mirrors m (eventsOf m ((empty self heartbeatTimeout).run os).2)
      (((empty self heartbeatTimeout).run os).1.isLive m) := by
  induction os using List.reverseRecOn with
  | nil => exact .start
  | append_singleton os op ih =>
    have hkeyed := keyed_run (keyed_empty self heartbeatTimeout) os
    have hself : m ≠ ((empty self heartbeatTimeout).run os).1.self := ne_self_run hm os
    rw [run_concat, eventsOf_append, eventsOf_apply hkeyed hself]
    exact ih.owed op _

/-- **the events about a remote node tell whether it is live**: whatever was done to a directory that was empty, the
node joined and departed in turn, and it is live exactly if it joined last. Whatever is done next, a join is announced
exactly if the node comes to be live, a departure exactly if it is taken out, and the departure is `left` exactly if it
is taken out by leaving. -/
theorem events_tell_liveness (self : MemberId) (heartbeatTimeout : Int64) (hm : m ≠ self) (os : List Op) :
    let d := ((empty self heartbeatTimeout).run os).1
    let es := eventsOf m ((empty self heartbeatTimeout).run os).2
    (∀ i (hi : i < es.length),
      (i % 2 = 0 → es[i] = .joined m) ∧ (i % 2 = 1 → es[i] = .left m ∨ es[i] = .failed m)) ∧
    (d.isLive m = true ↔ es.getLast? = some (.joined m)) ∧
    ∀ op,
      let d' := (d.apply op).1
      let new := eventsOf m (d.apply op).2
      (new = [.joined m] ↔ d.isLive m = false ∧ d'.isLive m = true) ∧
      (new = [.left m] ↔ d.isLive m = true ∧ d'.isLive m = false ∧ op = .leave m) ∧
      (new = [.failed m] ↔ d.isLive m = true ∧ d'.isLive m = false ∧ op ≠ .leave m) ∧
      (new = [] ↔ d.isLive m = d'.isLive m) := by
  intro d es
  have hmirrors : Mirrors m es (d.isLive m) := mirrors_run self heartbeatTimeout hm os
  refine ⟨hmirrors.turns, hmirrors.getLast?, fun op => ?_⟩
  intro d' new
  have hself : m ≠ d.self := ne_self_run hm os
  have hnew : new = owed m op (d.isLive m) (d'.isLive m) :=
    eventsOf_apply (keyed_run (keyed_empty self heartbeatTimeout) os) hself op
  rw [hnew]
  cases d.isLive m <;> cases d'.isLive m <;> by_cases hop : op = .leave m <;> simp [owed, hop]

/-- a node that is swept out, joins again, is refused a late registration, and leaves -/
theorem events_of_restart :
    let b : MemberId := ⟨"b"⟩
    let t : Timestamp := default
    let os : List Op := [.leave b, .register ⟨b, "b:1", t, [], 1⟩, .heartbeat b t, .evictStale t, .fail b,
      .register ⟨b, "b:2", t, [], 2⟩, .register ⟨b, "b:1", t, [], 1⟩, .register ⟨b, "b:3", t, [], 3⟩]
    let r := (empty ⟨"a"⟩ (-1)).run os
    b ≠ ⟨"a"⟩ ∧ eventsOf b r.2 = [.joined b, .failed b, .joined b] ∧ r.1.isLive b = true ∧
      eventsOf b (r.1.apply (.leave b)).2 = [.left b] := by
  intro b t os r
  obtain ⟨-, hlast, hnext⟩ := events_tell_liveness ⟨"a"⟩ (-1) (show b ≠ ⟨"a"⟩ by decide) os
  have hlive : r.1.isLive b = true := hlast.2 (by decide)
  have hleft : eventsOf b (r.1.apply (.leave b)).2 = [.left b] :=
    (hnext (.leave b)).2.1.2 ⟨hlive, isLive_erase_self _ b, rfl⟩
  exact ⟨by decide, by decide, hlive, hleft⟩

end Directory

end Redeploy.Membership
