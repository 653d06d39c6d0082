/-
The epoch that a directory has on record for a remote node.

A registration in an older epoch than the one on record is refused, one in the same or a later epoch replaces the entry.
So the record is the greatest epoch in which the node was registered, but not of all time: a removal forgets it, and the
node may join again in any epoch. What counts is the last join (`LastJoin`), the registration that found the node
absent and since which it has been live. `epochs` collects the epochs of the registrations from there on, refused ones
included, and the step lemma `greatest_apply` says that an operation which leaves the node live keeps the greatest of
them on record.

Results:
- `epoch_le_apply`, `epoch_le_run`: the epoch on record does not fall while the node is live;
- `exists_lastJoin`: a live node has joined;
- `greatest_run`: since the last join the greatest epoch is on record;
- `register_outcome`: a registration is refused exactly if it is older, and changes nothing then;
- **`fencing_epochs`**: all of it, after every history.
-/
import Redeploy.Proofs.Directory

namespace Redeploy.Membership

/-- the epochs in which some operations register a node -/
def epochs (m : MemberId) (os : List Op) : Set UInt64 := {e | ∃ n, .register n ∈ os ∧ n.id = m ∧ n.epoch = e}

variable {m : MemberId}

theorem mem_epochs_concat {os : List Op} {op : Op} {e : UInt64} :
    e ∈ epochs m (os ++ [op]) ↔ e ∈ epochs m os ∨ ∃ n, op = .register n ∧ n.id = m ∧ n.epoch = e := by
  constructor
  · intro h
    obtain ⟨n, hn, hid, he⟩ := h
    rcases List.mem_append.1 hn with hn | hn
    · exact .inl ⟨n, hn, hid, he⟩
    · exact .inr ⟨n, (List.mem_singleton.1 hn).symm, hid, he⟩
  · intro h
    rcases h with ⟨n, hn, hid, he⟩ | ⟨n, rfl, hid, he⟩
    · exact ⟨n, List.mem_append_left _ hn, hid, he⟩
    · exact ⟨n, by simp, hid, he⟩

/-- an operation that does not register the node -/
theorem epochs_concat_of_not {os : List Op} {op : Op} (h : ∀ n, op = .register n → n.id ≠ m) :
    epochs m (os ++ [op]) = epochs m os := by
  ext e
  rw [mem_epochs_concat]
  constructor
  · intro he
    rcases he with he | ⟨n, hop, hid, _⟩
    · exact he
    · exact absurd hid (h n hop)
  · exact .inl

namespace Directory

variable {d : Directory} {os : List Op} {op : Op} {known known' : Node}

/-! ## One operation -/

/-- the epoch on record does not fall -/
theorem epoch_le_apply (h : d.Keyed) (hm : m ≠ d.self) (hk : d.find? m = some known)
    (hk' : (d.apply op).1.find? m = some known') : known.epoch ≤ known'.epoch := by
  have hc := changes_apply h m op
  rw [hk, hk'] at hc
  generalize eventsOf m (d.apply op).2 = es at hc
  cases hc with
  | renewed hid hle => exact hle
  | refused | beat | idle => exact UInt64.le_refl _
  | own hself => exact absurd hself hm

/-- an operation that leaves the node live has the greatest epoch on record afterwards -/
theorem greatest_apply (h : d.Keyed) (hm : m ≠ d.self) (hk : d.find? m = some known)
    (hg : IsGreatest (epochs m os) known.epoch) (hk' : (d.apply op).1.find? m = some known') :
    IsGreatest (epochs m (os ++ [op])) known'.epoch := by
  have hle := epoch_le_apply h hm hk hk'
  have hc := changes_apply h m op
  rw [hk, hk'] at hc
  generalize eventsOf m (d.apply op).2 = es at hc
  cases hc with
  | renewed hid =>
    refine ⟨mem_epochs_concat.2 (.inr ⟨known', rfl, hid, rfl⟩), ?_⟩
    intro e he
    rcases mem_epochs_concat.1 he with he | ⟨n, hn, _, rfl⟩
    · exact UInt64.le_trans (hg.2 he) hle
    · cases hn
      exact UInt64.le_refl _
  | refused hid hlt =>
    refine ⟨mem_epochs_concat.2 (.inl hg.1), ?_⟩
    intro e he
    rcases mem_epochs_concat.1 he with he | ⟨n, hn, _, rfl⟩
    · exact hg.2 he
    · cases hn
      exact UInt64.le_of_lt hlt
  | @beat _ clock =>
    have hother : ∀ n, Op.heartbeat m clock = .register n → n.id ≠ m := fun n hn => nomatch hn
    rw [epochs_concat_of_not hother]
    exact hg
  | own hself => exact absurd hself hm
  | idle hother =>
    rw [epochs_concat_of_not hother]
    exact hg

/-- a registration is refused exactly if a later one is on record. It changes nothing then and makes no event;
otherwise it puts the node on record as it was received, and no other. -/
theorem register_outcome (d : Directory) (n : Node) :
    ((d.register n).2.1 = false ↔ ∃ known, d.find? n.id = some known ∧ n.epoch < known.epoch) ∧
    ((d.register n).2.1 = false → (d.register n).1 = d ∧ events (d.register n).2.2 = []) ∧
    ((d.register n).2.1 = true →
      (d.register n).1.find? n.id = some n ∧ ∀ m, m ≠ n.id → (d.register n).1.find? m = d.find? m) := by
  have hput : (d.put n).find? n.id = some n ∧ ∀ m, m ≠ n.id → (d.put n).find? m = d.find? m := by
    refine ⟨by rw [find?_put, if_pos rfl], ?_⟩
    intro m hm
    rw [find?_put, if_neg (Ne.symm hm)]
  cases hf : d.find? n.id with
  | none =>
    simp only [register, hf]
    exact ⟨by simp, by simp, fun _ => hput⟩
  | some known =>
    have hid : known.id = n.id := id_of_find? hf
    by_cases hlt : n.epoch < known.epoch
    · simp only [register, hf, FencingToken.isNewerThan, Node.token, hid, hlt, beq_self_eq_true, decide_true,
        Bool.and_self, if_true]
      exact ⟨by simpa using hlt, fun _ => ⟨trivial, rfl⟩, by simp⟩
    · simp only [register, hf, FencingToken.isNewerThan, Node.token, hlt, decide_false, Bool.and_false,
        Bool.false_eq_true, if_false]
      exact ⟨by simpa using hlt, by simp, fun _ => hput⟩

/-! ## Histories -/

/-- the epoch on record does not fall while the node is live -/
theorem epoch_le_run (h : d.Keyed) (hm : m ≠ d.self) (os : List Op)
    (hlive : ∀ os', os' <+: os → (d.run os').1.isLive m = true) (hk : d.find? m = some known)
    (hk' : (d.run os).1.find? m = some known') : known.epoch ≤ known'.epoch := by
  induction os using List.reverseRecOn generalizing known' with
  | nil =>
    obtain rfl : known = known' := Option.some.inj (hk.symm.trans hk')
    exact UInt64.le_refl _
  | append_singleton os op ih =>
    rw [run_concat] at hk'
    obtain ⟨between, hbetween⟩ := Option.isSome_iff_exists.1 (hlive os (List.prefix_append _ _))
    have hself : m ≠ (d.run os).1.self := ne_self_run hm _
    calc known.epoch
      _ ≤ between.epoch := ih (fun os' hos' => hlive os' (hos'.trans (List.prefix_append _ _))) hbetween
      _ ≤ known'.epoch := epoch_le_apply (keyed_run h os) hself hbetween hk'

/-- the last join of a node: it was registered as `n` after `before`, which had left it absent, and was live ever since -/
structure LastJoin (d : Directory) (m : MemberId) (before : List Op) (n : Node) (after : List Op) : Prop where
  id : n.id = m
  absent : (d.run before).1.isLive m = false
  stays : ∀ os, os <+: after → (d.run (before ++ .register n :: os)).1.isLive m = true

theorem LastJoin.init {before after : List Op} {n : Node} (h : d.LastJoin m before n (after ++ [op])) :
    d.LastJoin m before n after :=
  ⟨h.id, h.absent, fun os hos => h.stays os (hos.trans (List.prefix_append _ _))⟩

theorem LastJoin.concat {before after : List Op} {n : Node} (h : d.LastJoin m before n after)
    (hlive : (d.run (before ++ .register n :: (after ++ [op]))).1.isLive m = true) :
    d.LastJoin m before n (after ++ [op]) := by
  refine ⟨h.id, h.absent, ?_⟩
  intro os hos
  rcases List.prefix_concat_iff.1 hos with rfl | hos
  · exact hlive
  · exact h.stays os hos

/-- a live node has joined -/
theorem exists_lastJoin (h : d.Keyed) (hm : m ≠ d.self) (hnot : d.isLive m = false) (os : List Op)
    (hlive : (d.run os).1.isLive m = true) :
    ∃ before n after, os = before ++ .register n :: after ∧ d.LastJoin m before n after := by
  induction os using List.reverseRecOn with
  | nil => exact absurd (hnot.symm.trans hlive) (by decide)
  | append_singleton os op ih =>
    cases hbefore : (d.run os).1.isLive m with
    | true =>
      obtain ⟨before, n, after, rfl, hjoin⟩ := ih hbefore
      refine ⟨before, n, after ++ [op], by simp, hjoin.concat ?_⟩
      simpa using hlive
    | false =>
      have hself : m ≠ (d.run os).1.self := ne_self_run hm _
      have hnone : (d.run os).1.find? m = none := by simpa [isLive] using hbefore
      obtain ⟨known, hknown⟩ := Option.isSome_iff_exists.1 hlive
      have hc := changes_apply (keyed_run h os) m op
      rw [run_concat] at hknown
      rw [hnone, hknown] at hc
      generalize eventsOf m ((d.run os).1.apply op).2 = es at hc
      cases hc with
      | joined hid =>
        refine ⟨os, known, [], rfl, hid, hbefore, ?_⟩
        intro os' hos'
        rw [List.prefix_nil.1 hos']
        exact hlive
      | own hown => exact absurd hown hself

/-- since the last join the greatest epoch is on record -/
theorem greatest_run (h : d.Keyed) (hm : m ≠ d.self) {before after : List Op} {n : Node}
    (hjoin : d.LastJoin m before n after) :
    ∃ known, (d.run (before ++ .register n :: after)).1.find? m = some known ∧
      IsGreatest (epochs m (.register n :: after)) known.epoch := by
  induction after using List.reverseRecOn with
  | nil =>
    refine ⟨n, ?_, ⟨n, by simp, hjoin.id, rfl⟩, ?_⟩
    · have hnone : (d.run before).1.find? n.id = none := by simpa [isLive, hjoin.id] using hjoin.absent
      rw [run_concat, ← hjoin.id]
      simp [apply, register, hnone, find?_put]
    · intro e he
      obtain ⟨n', hn', _, rfl⟩ := he
      obtain rfl : n' = n := by simpa using hn'
      exact UInt64.le_refl _
  | append_singleton after op ih =>
    obtain ⟨known, hknown, hgreatest⟩ := ih hjoin.init
    have hsplit : before ++ .register n :: (after ++ [op]) = before ++ .register n :: after ++ [op] := by simp
    have hlive := hjoin.stays (after ++ [op]) (List.prefix_refl _)
    rw [hsplit, run_concat] at hlive ⊢
    obtain ⟨known', hknown'⟩ := Option.isSome_iff_exists.1 hlive
    have hself : m ≠ (d.run (before ++ .register n :: after)).1.self := ne_self_run hm _
    refine ⟨known', hknown', ?_⟩
    exact greatest_apply (keyed_run h _) hself hknown hgreatest hknown'

/-- **fencing epochs**: after every history of a directory that was empty, a remote node that is live has a last join,
and the epoch on record is the greatest in which it was registered since then. It does not fall as long as the node stays
live. A registration of any node is refused exactly if its epoch is older than the one on record; it changes nothing
then and makes no event, and otherwise the entry of the node becomes exactly what was received. -/
theorem fencing_epochs (self : MemberId) (heartbeatTimeout : Int64) (hm : m ≠ self) (os : List Op) :
    let start := empty self heartbeatTimeout
    let d := (start.run os).1
    (d.isLive m = true → ∃ before n after, os = before ++ .register n :: after ∧ start.LastJoin m before n after) ∧
    (∀ before n after, os = before ++ .register n :: after → start.LastJoin m before n after →
      ∃ known, d.find? m = some known ∧ IsGreatest (epochs m (.register n :: after)) known.epoch) ∧
    (∀ more known known', d.find? m = some known → (d.run more).1.find? m = some known' →
      (∀ os', os' <+: more → (d.run os').1.isLive m = true) → known.epoch ≤ known'.epoch) ∧
    ∀ n,
      ((d.register n).2.1 = false ↔ ∃ known, d.find? n.id = some known ∧ n.epoch < known.epoch) ∧
      ((d.register n).2.1 = false → (d.register n).1 = d ∧ events (d.register n).2.2 = []) ∧
      ((d.register n).2.1 = true →
        (d.register n).1.find? n.id = some n ∧ ∀ m', m' ≠ n.id → (d.register n).1.find? m' = d.find? m') := by
  intro start d
  have hkeyed : start.Keyed := keyed_empty self heartbeatTimeout
  refine ⟨exists_lastJoin hkeyed hm rfl os, ?_, ?_, register_outcome d⟩
  · intro before n after hos hjoin
    have h := greatest_run hkeyed hm hjoin
    rw [← hos] at h
    exact h
  · intro more known known' hknown hknown' hlive
    have hself : m ≠ d.self := ne_self_run hm _
    exact epoch_le_run (keyed_run hkeyed os) hself more hlive hknown hknown'

/-- a node that is removed in epoch 7 joins again in epoch 0, and 3 is the greatest since -/
theorem epoch_after_rejoining :
    let b : MemberId := ⟨"b"⟩
    let node (epoch : UInt64) : Node := ⟨b, "b:1", default, [], epoch⟩
    let os : List Op := [.register (node 7), .fail b, .register (node 0), .heartbeat b default, .register (node 3),
      .register (node 2)]
    let d := ((empty ⟨"a"⟩ 30).run os).1
    b ≠ ⟨"a"⟩ ∧ d.find? b = some (node 3) ∧
      (d.isLive b = true → ∃ before n after, os = before ++ .register n :: after ∧
        (empty ⟨"a"⟩ 30).LastJoin b before n after) ∧
      (d.register (node 1)).2.1 = false ∧ (d.register (node 1)).1 = d := by
  intro b node os d
  have h := fencing_epochs ⟨"a"⟩ 30 (show b ≠ ⟨"a"⟩ by decide) os
  have hrefused : (d.register (node 1)).2.1 = false := (h.2.2.2 (node 1)).1.2 ⟨node 3, by decide, by decide⟩
  exact ⟨by decide, by decide, h.1, hrefused, ((h.2.2.2 (node 1)).2.1 hrefused).1⟩

end Directory

end Redeploy.Membership
