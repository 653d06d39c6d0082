/-
What the operations of a directory do to the entry of one node, and what they announce of it.

A directory is a list of entries, and a node has one of them at most (`Keyed`), which every operation keeps. So all that
an operation does to a node is told by the entry before it, the entry after it and the events about the node, and there
are nine ways for the three to be related (`Changes`). What holds of every history is a case analysis over them.

Results:
- `departure_apply`: an operation that takes a live member out has a departure of it announced;
- `Keyed.apply`, `keyed_run`: a node keeps one entry at most;
- **`changes_apply`**: what an operation does to a node;
- `departed_apply`: a departure is announced by the operation that takes the member out.
-/
import Mathlib.Tactic
import Redeploy.Membership.History

namespace Redeploy.Membership

/-! ## Events about one node -/

/-- the events about a node among some announcements -/
def eventsOf (m : MemberId) (as : List Announcement) : List Event := (events as).filter (·.member == m)

theorem mem_eventsOf {m : MemberId} {as : List Announcement} {e : Event} :
    e ∈ eventsOf m as ↔ .event e ∈ as ∧ e.member = m := by
  simp only [eventsOf, events, List.mem_filter, List.mem_filterMap, beq_iff_eq]
  constructor
  · rintro ⟨⟨a, ha, he⟩, hm⟩
    cases a with
    | notice n => simp [Announcement.event?] at he
    | event e' =>
      obtain rfl : e' = e := by simpa [Announcement.event?] using he
      exact ⟨ha, hm⟩
  · rintro ⟨ha, hm⟩
    exact ⟨⟨_, ha, rfl⟩, hm⟩

@[simp] theorem eventsOf_nil (m : MemberId) : eventsOf m [] = [] := rfl

@[simp] theorem eventsOf_append (m : MemberId) (as bs : List Announcement) :
    eventsOf m (as ++ bs) = eventsOf m as ++ eventsOf m bs := by
  simp [eventsOf, events, List.filterMap_append, List.filter_append]

@[simp] theorem eventsOf_notice (m : MemberId) (n : Notice) (as : List Announcement) :
    eventsOf m (.notice n :: as) = eventsOf m as := rfl

@[simp] theorem eventsOf_event (m : MemberId) (e : Event) (as : List Announcement) :
    eventsOf m (.event e :: as) = if e.member = m then e :: eventsOf m as else eventsOf m as := by
  simp [eventsOf, events, Announcement.event?, List.filter_cons]

namespace Directory

variable {d : Directory} {m : MemberId}

/-! ## Entries -/

theorem isLive_iff : d.isLive m = true ↔ ∃ n ∈ d.nodes, n.id = m := by
  simp [isLive, find?, List.find?_isSome]

theorem id_of_find? {n : Node} (h : d.find? m = some n) : n.id = m := by
  simpa using List.find?_some h

/-- a change of every entry that leaves the identifiers -/
theorem find?_map {f : Node → Node} (hf : ∀ o, (f o).id = o.id) (d : Directory) (m : MemberId) :
    ({ d with nodes := d.nodes.map f } : Directory).find? m = (d.find? m).map f := by
  have hsame : (fun o : Node => o.id == m) ∘ f = fun o => o.id == m := by
    funext o
    simp [hf]
  rw [find?, List.find?_map, hsame, find?]

theorem find?_put (d : Directory) (n : Node) (m : MemberId) :
    (d.put n).find? m = if n.id = m then some n else d.find? m := by
  by_cases hlive : d.isLive n.id = true
  · have hput : d.put n = { d with nodes := d.nodes.map fun o => if o.id == n.id then n else o } := by
      simp [put, hlive]
    have hids (o : Node) : (if o.id == n.id then n else o).id = o.id := by
      by_cases ho : o.id = n.id <;> simp [ho]
    rw [hput, find?_map hids]
    split
    · rename_i hm
      subst hm
      obtain ⟨o, ho⟩ := Option.isSome_iff_exists.1 hlive
      simp [ho, id_of_find? ho]
    · rename_i hm
      cases hf : d.find? m with
      | none => rfl
      | some o =>
        have hne : o.id ≠ n.id := fun h => hm (h.symm.trans (id_of_find? hf))
        simp [hne]
  · have hput : d.put n = { d with nodes := d.nodes ++ [n] } := by
      simp [put, hlive]
    rw [hput, find?, List.find?_append, ← find?]
    split
    · rename_i hm
      subst hm
      have hnone : d.find? n.id = none := by simpa [isLive] using hlive
      simp [hnone]
    · rename_i hm
      simp [hm]

theorem find?_erase (d : Directory) (m m' : MemberId) :
    (d.erase m').find? m = if m' = m then none else d.find? m := by
  simp only [erase, find?, List.find?_filter]
  split
  · rename_i hm
    subst hm
    simp
  · rename_i hm
    congr 1
    funext o
    by_cases ho : o.id = m <;> simp [ho, Ne.symm hm]

theorem find?_heartbeat (d : Directory) (m m' : MemberId) (clock : Timestamp) :
    (d.heartbeat m' clock).1.find? m =
      if m' = m then (d.find? m).map fun n => { n with lastHeartbeat := clock } else d.find? m := by
  have hids (o : Node) : (if o.id == m' then { o with lastHeartbeat := clock } else o).id = o.id := by
    split <;> rfl
  rw [heartbeat, find?_map hids]
  cases hf : d.find? m with
  | none => simp
  | some n =>
    have hid : n.id = m := id_of_find? hf
    by_cases hm : m' = m
    · simp [hm, hid]
    · simp [hm, hid, Ne.symm hm]

theorem isLive_put (n : Node) (h : d.isLive m = true) : (d.put n).isLive m = true := by
  rw [isLive, find?_put]
  split
  · rfl
  · exact h

theorem isLive_erase {m' : MemberId} (hm : m ≠ m') (h : d.isLive m = true) : (d.erase m').isLive m = true := by
  rw [isLive, find?_erase, if_neg (Ne.symm hm)]
  exact h

theorem isLive_erase_self (d : Directory) (m : MemberId) : (d.erase m).isLive m = false := by
  rw [isLive, find?_erase, if_pos rfl]
  rfl

/-- an operation that takes a live member out has a departure of it announced -/
theorem departure_apply {op : Op} (h : d.isLive m = true) (hgone : (d.apply op).1.isLive m = false) :
    ∃ e, .event e ∈ (d.apply op).2 ∧ e.isDeparture = true ∧ e.member = m := by
  have hstays {d' : Directory} (hd : d'.isLive m = true) (hgone : d'.isLive m = false) : False := by
    rw [hd] at hgone
    cases hgone
  cases op with
  | registerSelf address clock => exact (hstays (isLive_put (d := { d with epoch := d.epoch + 1 }) _ h) hgone).elim
  | register n =>
    simp only [apply, register] at hgone
    split at hgone
    · split at hgone
      · exact (hstays h hgone).elim
      · exact (hstays (isLive_put n h) hgone).elim
    · exact (hstays (isLive_put n h) hgone).elim
  | heartbeat m' clock =>
    obtain ⟨n, hn, rfl⟩ := isLive_iff.1 h
    refine (hstays (isLive_iff.2 ⟨_, List.mem_map.2 ⟨n, hn, rfl⟩, ?_⟩) hgone).elim
    split <;> rfl
  | leave m' =>
    simp only [apply, leave] at hgone ⊢
    split at hgone
    · by_cases hm : m = m'
      · subst hm
        exact ⟨.left m, by simp, rfl, rfl⟩
      · exact (hstays (isLive_erase hm h) hgone).elim
    · exact (hstays h hgone).elim
  | fail m' =>
    simp only [apply, fail] at hgone ⊢
    split at hgone
    · by_cases hm : m = m'
      · subst hm
        exact ⟨.failed m, by simp, rfl, rfl⟩
      · exact (hstays (isLive_erase hm h) hgone).elim
    · exact (hstays h hgone).elim
  | evictStale clock =>
    obtain ⟨n, hn, rfl⟩ := isLive_iff.1 h
    have hstale : n ∈ d.stale clock := by
      by_contra hnot
      have hkept : (d.evictStale clock).1.isLive n.id = true := by
        simp only [stale, List.mem_filter, not_and, Bool.not_eq_true] at hnot
        exact isLive_iff.2 ⟨n, List.mem_filter.2 ⟨hn, by simp [hnot hn]⟩, rfl⟩
      exact hstays hkept hgone
    exact ⟨.failed n.id, List.mem_flatMap.2 ⟨n, hstale, by simp⟩, rfl, rfl⟩

/-! ## One entry for a node -/

/-- a node has one entry at most -/
def Keyed (d : Directory) : Prop := (d.nodes.map Node.id).Nodup

theorem Keyed.filter (h : d.Keyed) (p : Node → Bool) : ({ d with nodes := d.nodes.filter p } : Directory).Keyed :=
  (List.filter_sublist.map Node.id).nodup h

theorem Keyed.map (h : d.Keyed) {f : Node → Node} (hf : ∀ o, (f o).id = o.id) :
    ({ d with nodes := d.nodes.map f } : Directory).Keyed := by
  have hids : (d.nodes.map f).map Node.id = d.nodes.map Node.id := by
    rw [List.map_map]
    exact List.map_congr_left fun o _ => hf o
  unfold Keyed
  rw [hids]
  exact h

theorem Keyed.put (h : d.Keyed) (n : Node) : (d.put n).Keyed := by
  by_cases hlive : d.isLive n.id = true
  · have hput : d.put n = { d with nodes := d.nodes.map fun o => if o.id == n.id then n else o } := by
      simp [Directory.put, hlive]
    rw [hput]
    -- the entry that is replaced has the identifier of the new one
    refine h.map fun o => ?_
    by_cases ho : o.id = n.id <;> simp [ho]
  · have hput : d.put n = { d with nodes := d.nodes ++ [n] } := by
      simp [Directory.put, hlive]
    rw [hput]
    unfold Keyed
    simp only [List.map_append, List.map_cons, List.map_nil]
    refine List.nodup_append.2 ⟨h, List.nodup_singleton _, ?_⟩
    intro a ha b hb hab
    obtain ⟨o, ho, rfl⟩ := List.mem_map.1 ha
    rw [List.mem_singleton] at hb
    exact hlive (isLive_iff.2 ⟨o, ho, hab.trans hb⟩)

theorem Keyed.apply (h : d.Keyed) (op : Op) : (d.apply op).1.Keyed := by
  cases op with
  | registerSelf address clock => exact Keyed.put (d := { d with epoch := d.epoch + 1 }) h _
  | register n =>
    simp only [Directory.apply, register]
    split
    · split
      · exact h
      · exact h.put n
    · exact h.put n
  | heartbeat m clock =>
    refine h.map fun o => ?_
    split <;> rfl
  | leave m =>
    simp only [Directory.apply, leave]
    split
    · exact h.filter _
    · exact h
  | fail m =>
    simp only [Directory.apply, fail]
    split
    · exact h.filter _
    · exact h
  | evictStale clock => exact h.filter _

/-- all entries of a node -/
theorem Keyed.filter_id (h : d.Keyed) (m : MemberId) : d.nodes.filter (·.id == m) = (d.find? m).toList := by
  unfold Keyed at h
  unfold find?
  generalize d.nodes = nodes at h
  induction nodes with
  | nil => rfl
  | cons n ns ih =>
    rw [List.map_cons, List.nodup_cons] at h
    by_cases hid : n.id = m
    · -- the rest has no other entry of the node
      have hrest : ns.filter (·.id == m) = [] := by
        rw [List.filter_eq_nil_iff]
        intro o ho hom
        exact h.1 (List.mem_map.2 ⟨o, ho, (by simpa using hom : o.id = m).trans hid.symm⟩)
      simp [hid, hrest]
    · simpa [hid] using ih h.2

theorem Keyed.find?_filter (h : d.Keyed) (p : Node → Bool) (m : MemberId) :
    ({ d with nodes := d.nodes.filter p } : Directory).find? m = (d.find? m).filter p := by
  calc (d.nodes.filter p).find? (·.id == m)
    _ = ((d.nodes.filter p).filter (·.id == m)).head? := by rw [List.head?_filter]
    _ = ((d.nodes.filter (·.id == m)).filter p).head? := by rw [List.filter_comm]
    _ = (d.find? m).filter p := by rw [h.filter_id, ← Option.toList_filter, Option.head?_toList]

/-! ## What an operation does to a node -/

/-- what an operation makes of the entry of a node, and the events about the node that it announces -/
inductive Changes (d : Directory) (m : MemberId) : Op → Option Node → Option Node → List Event → Prop
  /-- an unknown node registers -/
  | joined {n : Node} : n.id = m → Changes d m (.register n) none (some n) [.joined m]
  /-- a known node registers again, in no older epoch -/
  | renewed {known n : Node} : n.id = m → known.epoch ≤ n.epoch →
    Changes d m (.register n) (some known) (some n) []
  /-- a late registration of a known node -/
  | refused {known n : Node} : n.id = m → n.epoch < known.epoch →
    Changes d m (.register n) (some known) (some known) []
  | beat {known : Node} {clock : Timestamp} :
    Changes d m (.heartbeat m clock) (some known) (some { known with lastHeartbeat := clock }) []
  | left {known : Node} : Changes d m (.leave m) (some known) none [.left m]
  | failed {known : Node} : Changes d m (.fail m) (some known) none [.failed m]
  | expired {known : Node} {clock : Timestamp} : m ≠ d.self → known.isStale clock d.heartbeatTimeout = true →
    Changes d m (.evictStale clock) (some known) none [.failed m]
  /-- the local node registers, which is not an event -/
  | own {entry : Option Node} {n : Node} {address : String} {clock : Timestamp} : m = d.self → n.id = m →
    Changes d m (.registerSelf address clock) entry (some n) []
  /-- the operation is about other nodes, or finds nothing to do -/
  | idle {op : Op} {entry : Option Node} : (∀ n, op = .register n → n.id ≠ m) → Changes d m op entry entry []

theorem changes_register (d : Directory) (m : MemberId) (n : Node) :
    Changes d m (.register n) (d.find? m) ((d.apply (.register n)).1.find? m)
      (eventsOf m (d.apply (.register n)).2) := by
  by_cases hm : n.id = m
  · subst hm
    cases hf : d.find? n.id with
    | none =>
      simp only [Directory.apply, register, hf, find?_put, if_pos, eventsOf_notice, eventsOf_event, Event.member,
        eventsOf_nil]
      exact .joined rfl
    | some known =>
      have hid : known.id = n.id := id_of_find? hf
      by_cases hlt : n.epoch < known.epoch
      · simp only [Directory.apply, register, hf, FencingToken.isNewerThan, Node.token, hid, hlt, beq_self_eq_true,
          decide_true, Bool.and_self, if_pos, eventsOf_notice, eventsOf_nil]
        exact .refused rfl hlt
      · simp only [Directory.apply, register, hf, FencingToken.isNewerThan, Node.token, hlt, decide_false,
          Bool.and_false, Bool.false_eq_true, if_neg, not_false_eq_true, find?_put, if_pos, eventsOf_nil]
        exact .renewed rfl (UInt64.not_lt.1 hlt)
  · have hsame : (d.apply (.register n)).1.find? m = d.find? m := by
      simp only [Directory.apply, register]
      split
      · split
        · rfl
        · simp [find?_put, hm]
      · simp [find?_put, hm]
    have hquiet : eventsOf m (d.apply (.register n)).2 = [] := by
      simp only [Directory.apply, register]
      split
      · split <;> rfl
      · simp [Event.member, hm]
    rw [hsame, hquiet]
    refine .idle fun n' hn' => ?_
    cases hn'
    exact hm

theorem eventsOf_expired (m : MemberId) (ns : List Node) :
    eventsOf m (ns.flatMap fun n => [.notice (.heartbeatExpired n.id n.lastHeartbeat), .event (.failed n.id)]) =
      (ns.filter (·.id == m)).map fun _ => .failed m := by
  induction ns with
  | nil => rfl
  | cons n ns ih =>
    rw [List.flatMap_cons, eventsOf_append, ih]
    by_cases hid : n.id = m <;> simp [Event.member, hid]

theorem changes_evictStale (h : d.Keyed) (m : MemberId) (clock : Timestamp) :
    Changes d m (.evictStale clock) (d.find? m) ((d.apply (.evictStale clock)).1.find? m)
      (eventsOf m (d.apply (.evictStale clock)).2) := by
  let out (n : Node) : Bool := n.id != d.self && n.isStale clock d.heartbeatTimeout
  have hentry : (d.apply (.evictStale clock)).1.find? m = (d.find? m).filter fun n => !out n :=
    h.find?_filter _ m
  have hevents : eventsOf m (d.apply (.evictStale clock)).2 =
      ((d.find? m).filter out).toList.map fun _ => .failed m := by
    rw [Directory.apply, evictStale, eventsOf_expired, stale, List.filter_comm, h.filter_id, Option.toList_filter]
  rw [hentry, hevents]
  cases hf : d.find? m with
  | none => exact .idle fun n hn => nomatch hn
  | some known =>
    have hid : known.id = m := id_of_find? hf
    cases hout : out known with
    | false =>
      simp only [Option.filter_some, hout]
      exact .idle fun n hn => nomatch hn
    | true =>
      simp only [Option.filter_some, hout]
      obtain ⟨hself, hstale⟩ : known.id ≠ d.self ∧ known.isStale clock d.heartbeatTimeout = true := by
        simpa [out] using hout
      exact .expired (hid ▸ hself) hstale

/-- **what an operation does to a node** -/
theorem changes_apply (h : d.Keyed) (m : MemberId) (op : Op) :
    Changes d m op (d.find? m) ((d.apply op).1.find? m) (eventsOf m (d.apply op).2) := by
  cases op with
  | registerSelf address clock =>
    by_cases hm : d.self = m
    · simp only [Directory.apply, registerSelf, find?_put, hm, if_pos, eventsOf_notice, eventsOf_nil]
      exact .own hm.symm rfl
    · simp only [Directory.apply, registerSelf, find?_put, hm, if_neg, not_false_eq_true, eventsOf_notice,
        eventsOf_nil]
      exact .idle fun n hn => nomatch hn
  | register n => exact changes_register d m n
  | heartbeat m' clock =>
    simp only [Directory.apply, find?_heartbeat, eventsOf_nil]
    by_cases hm : m' = m
    · subst hm
      rw [if_pos rfl]
      cases hf : d.find? m' with
      | none => exact .idle fun n hn => nomatch hn
      | some known => exact .beat
    · rw [if_neg hm]
      exact .idle fun n hn => nomatch hn
  | leave m' =>
    cases hf : d.find? m' with
    | none =>
      simp only [Directory.apply, leave, hf, eventsOf_nil]
      exact .idle fun n hn => nomatch hn
    | some known =>
      simp only [Directory.apply, leave, hf, find?_erase, eventsOf_notice, eventsOf_event, eventsOf_nil]
      by_cases hm : m' = m
      · subst hm
        rw [hf, if_pos rfl, if_pos (show (Event.left m').member = m' from rfl)]
        exact .left
      · rw [if_neg hm, if_neg (show (Event.left m').member ≠ m from hm)]
        exact .idle fun n hn => nomatch hn
  | fail m' =>
    cases hf : d.find? m' with
    | none =>
      simp only [Directory.apply, fail, hf, eventsOf_nil]
      exact .idle fun n hn => nomatch hn
    | some known =>
      simp only [Directory.apply, fail, hf, find?_erase, eventsOf_notice, eventsOf_event, eventsOf_nil]
      by_cases hm : m' = m
      · subst hm
        rw [hf, if_pos rfl, if_pos (show (Event.failed m').member = m' from rfl)]
        exact .failed
      · rw [if_neg hm, if_neg (show (Event.failed m').member ≠ m from hm)]
        exact .idle fun n hn => nomatch hn
  | evictStale clock => exact changes_evictStale h m clock

/-- a departure is announced by the operation that takes the member out -/
theorem departed_apply (h : d.Keyed) {op : Op} {e : Event} (he : .event e ∈ (d.apply op).2)
    (hd : e.isDeparture = true) : d.isLive e.member = true ∧ (d.apply op).1.isLive e.member = false := by
  have hc := changes_apply h e.member op
  have hmem : e ∈ eventsOf e.member (d.apply op).2 := mem_eventsOf.2 ⟨he, rfl⟩
  rw [isLive, isLive]
  generalize d.find? e.member = before, (d.apply op).1.find? e.member = entry,
    eventsOf e.member (d.apply op).2 = es at hc hmem ⊢
  cases hc with
  | joined hid =>
    rw [List.mem_singleton] at hmem
    rw [hmem] at hd
    exact absurd hd (by simp [Event.isDeparture])
  | left | failed | expired => exact ⟨rfl, rfl⟩
  | renewed | refused | beat | own | idle => cases hmem

/-! ## Histories -/

theorem self_apply (d : Directory) (op : Op) : (d.apply op).1.self = d.self := by
  cases op with
  | registerSelf address clock => simp [apply, registerSelf, put]
  | register n =>
    simp only [apply, register]
    split
    · split <;> rfl
    · rfl
  | heartbeat m clock => rfl
  | leave m =>
    simp only [apply, leave]
    split <;> rfl
  | fail m =>
    simp only [apply, fail]
    split <;> rfl
  | evictStale clock => rfl

theorem run_append (d : Directory) (os os' : List Op) :
    d.run (os ++ os') = (((d.run os).1.run os').1, (d.run os).2 ++ ((d.run os).1.run os').2) := by
  induction os generalizing d with
  | nil => rfl
  | cons o os ih => simp [run, ih]

theorem run_concat (d : Directory) (os : List Op) (op : Op) :
    d.run (os ++ [op]) = (((d.run os).1.apply op).1, (d.run os).2 ++ ((d.run os).1.apply op).2) := by
  simp [run_append, run]

theorem keyed_run (h : d.Keyed) (os : List Op) : (d.run os).1.Keyed := by
  induction os using List.reverseRecOn with
  | nil => exact h
  | append_singleton os op ih =>
    rw [run_concat]
    exact ih.apply op

theorem self_run (d : Directory) (os : List Op) : (d.run os).1.self = d.self := by
  induction os using List.reverseRecOn with
  | nil => rfl
  | append_singleton os op ih =>
    rw [run_concat]
    exact (self_apply _ op).trans ih

/-- a remote node stays one -/
theorem ne_self_run (hm : m ≠ d.self) (os : List Op) : m ≠ (d.run os).1.self := by
  rw [self_run]
  exact hm

/-- a directory without entries, in its first epoch -/
def empty (self : MemberId) (heartbeatTimeout : Int64) : Directory := { self, heartbeatTimeout }

theorem keyed_empty (self : MemberId) (heartbeatTimeout : Int64) : (empty self heartbeatTimeout).Keyed :=
  List.nodup_nil

end Directory

end Redeploy.Membership
