/-
What the critical sections do to a registry, record by record.

A record is read by `record`, which is total, so every operation has one equation for it. `Coherent` is the invariant
of the cache: it is a map from identifiers to records, each under its own, and holds exactly the records that are not
undeployed. `Evolves g g' born gone claimed` says what a step from `g` to `g'` does to lives: how many records it makes,
which it takes out of the cache and undeploys, and for which it claims the release of the context.

Results:
- `Coherent.lookup?_eq_some_iff`: a lookup finds exactly what the cache holds;
- `drain_evolves`, `expire_evolves`: the removals take out what they return;
- `install_evolves`, `record_install_of_lt`, `record_install_new`: a new record enters the cache, those it supersedes
  are pending, and all others are as they were;
- `Evolves.trans`: what steps do one after the other.
-/
import Mathlib.Tactic
import Redeploy.Deployment.Registry

namespace Redeploy

/-! ## Lives -/

namespace Record

theorem advanceTo?_eq_some {r r' : Record} {s : Lifecycle} :
    r.advanceTo? s = some r' ↔ r.state.rank < s.rank ∧ r' = { r with state := s } := by
  unfold advanceTo?
  split <;> simp_all [eq_comm]

theorem advanceTo?_eq_none {r : Record} {s : Lifecycle} : r.advanceTo? s = none ↔ s.rank ≤ r.state.rank := by
  unfold advanceTo?
  split <;> simp_all

theorem rank_undeployed_le {r : Record} : Lifecycle.undeployed.rank ≤ r.state.rank ↔ r.isUndeployed = true := by
  unfold isUndeployed
  cases r.state <;> simp [Lifecycle.rank]

theorem rank_pending_le {r : Record} : Lifecycle.pendingUndeploy.rank ≤ r.state.rank ↔ r.isActive = false := by
  unfold isActive
  cases r.state <;> simp [Lifecycle.rank]

/-- nothing is past the undeployed state -/
theorem advanceTo_undeployed (r : Record) : r.advanceTo .undeployed = { r with state := .undeployed } := by
  unfold advanceTo advanceTo?
  split
  · rfl
  · rename_i h
    have hu : r.isUndeployed = true := rank_undeployed_le.1 (Nat.le_of_not_lt h)
    simp only [isUndeployed, beq_iff_eq] at hu
    rw [← hu]
    rfl

/-- the record as it was made, whatever has become of it -/
def origin (r : Record) : Record := { r with state := .active, released := false, cells := [], slots := [] }

end Record

namespace Registry

/-! ## Reading a record after a change -/

theorem record_eq_default {g : Registry} {i : RecordId} (h : g.records.length ≤ i) : g.record i = default := by
  simp [record, record?, List.getElem?_eq_none h]

theorem record?_eq_some {g : Registry} {i : RecordId} (h : i < g.records.length) : g.record? i = some (g.record i) := by
  simp [record, record?, List.getElem?_eq_getElem h]

@[simp] theorem length_modify (g : Registry) (i : RecordId) (f : Record → Record) :
    (g.modify i f).records.length = g.records.length := by
  simp [modify]

theorem record_modify_self {g : Registry} {i : RecordId} (f : Record → Record) (h : i < g.records.length) :
    (g.modify i f).record i = f (g.record i) := by
  simp [record, record?, modify, List.getElem?_eq_getElem h]

theorem record_modify_of_ne {g : Registry} {i j : RecordId} (f : Record → Record) (h : i ≠ j) :
    (g.modify i f).record j = g.record j := by
  simp [record, record?, modify, List.getElem?_modify_ne _ _ h]

theorem record_modify_of_le {g : Registry} {i j : RecordId} (f : Record → Record) (h : g.records.length ≤ i) :
    (g.modify i f).record j = g.record j := by
  by_cases hj : i = j
  · subst hj
    rw [record_eq_default h, record_eq_default (by simpa using h)]
  · exact record_modify_of_ne f hj

/-- what a modification keeps of every record it meets, it keeps of all -/
theorem record_modify_congr {β : Type} (g : Registry) (i j : RecordId) {f : Record → Record} (view : Record → β)
    (h : view (f (g.record i)) = view (g.record i)) : view ((g.modify i f).record j) = view (g.record j) := by
  by_cases hj : i = j
  · subst hj
    by_cases hi : i < g.records.length
    · rw [record_modify_self f hi, h]
    · rw [record_modify_of_le f (Nat.le_of_not_lt hi)]
  · rw [record_modify_of_ne f hj]

/-- the records after some of them, each once, were modified -/
theorem getElem?_foldl_modify (f : Record → Record) (is : List RecordId) (hn : is.Nodup) (rs : List Record) (j : Nat) :
    (is.foldl (fun rs i => rs.modify i f) rs)[j]? = if j ∈ is then rs[j]?.map f else rs[j]? := by
  induction is generalizing rs with
  | nil => simp
  | cons i is ih =>
    obtain ⟨hi, hn⟩ := List.nodup_cons.1 hn
    simp only [List.foldl_cons, ih hn, List.mem_cons]
    by_cases hj : j = i
    · subst hj
      simp [hi]
    · simp [hj, List.getElem?_modify_ne _ _ (Ne.symm hj)]

theorem length_foldl_modify (f : Record → Record) (is : List RecordId) (rs : List Record) :
    (is.foldl (fun rs i => rs.modify i f) rs).length = rs.length := by
  induction is generalizing rs with
  | nil => rfl
  | cons i is ih => simp [ih]

/-! ## The invariant of the cache -/

/-- the record answers requests -/
def Caches (g : Registry) (i : RecordId) : Prop := ∃ d, (d, i) ∈ g.cache

/-- the cache is a map to records ever made, each under its own identifier, and holds those that are not undeployed -/
structure Coherent (g : Registry) : Prop where
  bound : ∀ e ∈ g.cache, e.2 < g.records.length
  own : ∀ e ∈ g.cache, (g.record e.2).id = e.1
  keys : (g.cache.map Prod.fst).Nodup
  alive : ∀ i < g.records.length, (g.record i).isUndeployed = false ↔ g.Caches i

namespace Coherent

variable {g : Registry}

theorem lt (hg : g.Coherent) {i : RecordId} (h : g.Caches i) : i < g.records.length := by
  obtain ⟨d, hd⟩ := h
  exact hg.bound _ hd

theorem mem_iff (hg : g.Coherent) {d : DeploymentId} {i : RecordId} :
    (d, i) ∈ g.cache ↔ g.Caches i ∧ (g.record i).id = d := by
  constructor
  · intro h
    exact ⟨⟨d, h⟩, hg.own _ h⟩
  · rintro ⟨⟨d', h⟩, rfl⟩
    have := hg.own _ h
    simp only at this
    rwa [this]

theorem not_undeployed (hg : g.Coherent) {i : RecordId} (h : g.Caches i) : (g.record i).isUndeployed = false :=
  (hg.alive i (hg.lt h)).2 h

/-- no record is cached under two identifiers -/
theorem records_nodup (hg : g.Coherent) : (g.cache.map Prod.snd).Nodup := by
  refine List.Nodup.map_on ?_ (List.Nodup.of_map _ hg.keys)
  intro e he e' he' h
  exact Prod.ext ((hg.own e he).symm.trans (h ▸ hg.own e' he')) h

theorem lookup?_eq_some_iff (hg : g.Coherent) {d : DeploymentId} {i : RecordId} :
    g.lookup? d = some i ↔ g.Caches i ∧ (g.record i).id = d := by
  rw [← hg.mem_iff]
  have hk := hg.keys
  unfold lookup?
  generalize g.cache = cache at hk
  induction cache with
  | nil => simp
  | cons e cache ih =>
    obtain ⟨d', i'⟩ := e
    simp only [List.map_cons, List.nodup_cons] at hk
    by_cases hd : d = d'
    · subst hd
      have hnot : (d, i) ∉ cache := fun h => hk.1 (List.mem_map.2 ⟨_, h, rfl⟩)
      simp [hnot, eq_comm]
    · have hb : (d == d') = false := by simpa using hd
      simp [List.lookup_cons, hb, ih hk.2, hd]

theorem lookup?_eq_none_iff (hg : g.Coherent) {d : DeploymentId} :
    g.lookup? d = none ↔ ∀ i, g.Caches i → (g.record i).id ≠ d := by
  rw [Option.eq_none_iff_forall_ne_some]
  constructor
  · intro h i hi hd
    exact h i (hg.lookup?_eq_some_iff.2 ⟨hi, hd⟩)
  · intro h i hi
    exact h i (hg.lookup?_eq_some_iff.1 hi).1 (hg.lookup?_eq_some_iff.1 hi).2

/-- an enumeration meets every cached record with what it is at present -/
theorem entries_eq (hg : g.Coherent) : g.entries = g.cache.map fun e => (e.2, g.record e.2) := by
  unfold entries
  rw [List.filterMap_eq_map_iff_forall_eq_some]
  intro e he
  simp [record?_eq_some (hg.bound e he)]

theorem mem_entries (hg : g.Coherent) {i : RecordId} {r : Record} :
    (i, r) ∈ g.entries ↔ g.Caches i ∧ r = g.record i := by
  rw [hg.entries_eq]
  simp only [List.mem_map, Prod.mk.injEq, Prod.exists, Caches]
  constructor
  · rintro ⟨d, j, h, rfl, rfl⟩
    exact ⟨⟨d, h⟩, rfl⟩
  · rintro ⟨⟨d, h⟩, rfl⟩
    exact ⟨d, i, h, rfl, rfl⟩

end Coherent

theorem coherent_new (timeout : Nat) : Coherent { timeout } := by
  constructor <;> simp

/-! ## Steps and what they take out of the cache -/

/-- `g'` comes from `g` by a step that makes `born` records, takes those of `gone` out of the cache for good, and claims
the release of those of `claimed`, which nobody claimed before -/
structure Evolves (g g' : Registry) (born : Nat) (gone claimed : List RecordId) : Prop where
  coherent : g'.Coherent
  length : g'.records.length = g.records.length + born
  origin : ∀ i < g.records.length, (g'.record i).origin = (g.record i).origin
  forward : ∀ i < g.records.length, (g.record i).state.rank ≤ (g'.record i).state.rank
  nodup : gone.Nodup
  cached : ∀ i ∈ gone, g.Caches i
  once : claimed.Nodup
  unreleased : ∀ i ∈ claimed, (g.record i).released = false
  undeployed : ∀ i, (g'.record i).isUndeployed = true ↔ (g.record i).isUndeployed = true ∨ i ∈ gone
  released : ∀ i, (g'.record i).released = true ↔ (g.record i).released = true ∨ i ∈ claimed

/-- a step that takes nothing out of the cache goes before any other -/
theorem Evolves.trans {g g₁ g₂ : Registry} {born₁ born₂ : Nat} {gone claimed : List RecordId}
    (h₁ : Evolves g g₁ born₁ [] []) (h₂ : Evolves g₁ g₂ born₂ gone claimed) (hc : ∀ i ∈ gone, g.Caches i) :
    Evolves g g₂ (born₁ + born₂) gone claimed where
  coherent := h₂.coherent
  length := by rw [h₂.length, h₁.length, Nat.add_assoc]
  origin i hi := (h₂.origin i (by rw [h₁.length]; omega)).trans (h₁.origin i hi)
  forward i hi := (h₁.forward i hi).trans (h₂.forward i (by rw [h₁.length]; omega))
  nodup := h₂.nodup
  cached := hc
  once := h₂.once
  unreleased i hi := by
    have h := h₂.unreleased i hi
    rw [Bool.eq_false_iff, ne_eq, h₁.released] at h
    simpa using h
  undeployed i := by simp [h₂.undeployed, h₁.undeployed]
  released i := by simp [h₂.released, h₁.released]

/-- a step that makes no record, leaves the cache alone, and at most has active records become pending -/
theorem evolves_same {g g' : Registry} {claimed : List RecordId} (hg : g.Coherent) (hc : g'.cache.Perm g.cache)
    (hl : g'.records.length = g.records.length) (ho : ∀ i, (g'.record i).origin = (g.record i).origin)
    (hs : ∀ i, (g'.record i).state = (g.record i).state ∨
      (g.record i).state = .active ∧ (g'.record i).state = .pendingUndeploy)
    (hn : claimed.Nodup) (hu : ∀ i ∈ claimed, (g.record i).released = false)
    (hr : ∀ i, (g'.record i).released = true ↔ (g.record i).released = true ∨ i ∈ claimed) :
    Evolves g g' 0 [] claimed := by
  have hid : ∀ i, (g'.record i).id = (g.record i).id := by
    intro i
    simpa only [Record.origin] using congrArg Record.id (ho i)
  have hstate : ∀ i, (g'.record i).isUndeployed = (g.record i).isUndeployed := by
    intro i
    unfold Record.isUndeployed
    rcases hs i with h | ⟨h, h'⟩
    · rw [h]
    · rw [h, h']
      rfl
  refine ⟨⟨?_, ?_, ?_, ?_⟩, hl, fun i _ => ho i, ?_, List.nodup_nil, by simp, hn, hu, by simp [hstate],
    hr⟩
  · intro e he
    rw [hl]
    exact hg.bound e (hc.mem_iff.1 he)
  · intro e he
    rw [hid]
    exact hg.own e (hc.mem_iff.1 he)
  · exact (hc.map Prod.fst).nodup_iff.2 hg.keys
  · intro i hi
    rw [hstate, hg.alive i (hl ▸ hi)]
    simp [Caches, hc.mem_iff]
  · intro i _
    rcases hs i with h | ⟨h, h'⟩
    · rw [h]
    · rw [h]
      exact Nat.zero_le _

/-- a record is undeployed when it is taken out, and only then -/
theorem Evolves.count_gone {g g' : Registry} {born : Nat} {gone claimed : List RecordId}
    (h : Evolves g g' born gone claimed) (hg : g.Coherent) (i : RecordId) :
    (g'.record i).isUndeployed.toNat = (g.record i).isUndeployed.toNat + gone.count i := by
  have hu := h.undeployed i
  by_cases hi : i ∈ gone
  · have hold := hg.not_undeployed (h.cached i hi)
    rw [List.count_eq_one_of_mem h.nodup hi, hold, hu.2 (.inr hi)]
    rfl
  · rw [List.count_eq_zero_of_not_mem hi, Nat.add_zero, Bool.eq_iff_iff.2 (hu.trans (or_iff_left hi))]

/-- the release of a record's context is claimed once -/
theorem Evolves.count_claimed {g g' : Registry} {born : Nat} {gone claimed : List RecordId}
    (h : Evolves g g' born gone claimed) (i : RecordId) :
    (g'.record i).released.toNat = (g.record i).released.toNat + claimed.count i := by
  have hr := h.released i
  by_cases hi : i ∈ claimed
  · rw [List.count_eq_one_of_mem h.once hi, h.unreleased i hi, hr.2 (.inr hi)]
    rfl
  · rw [List.count_eq_zero_of_not_mem hi, Nat.add_zero, Bool.eq_iff_iff.2 (hr.trans (or_iff_left hi))]

theorem Evolves.refl {g : Registry} (hg : g.Coherent) : Evolves g g 0 [] [] :=
  evolves_same hg (List.Perm.refl _) rfl (fun _ => rfl) (fun _ => .inl rfl) List.nodup_nil (by simp) (by simp)

/-- a change of what the registry keeps beside the cache and the records -/
theorem evolves_flags {g g' : Registry} (hg : g.Coherent) (hc : g'.cache.Perm g.cache)
    (hr : g'.records = g.records) : Evolves g g' 0 [] [] := by
  have hrec : ∀ i, g'.record i = g.record i := fun i => by simp [record, record?, hr]
  exact evolves_same hg hc (by rw [hr]) (fun i => by rw [hrec]) (fun i => .inl (by rw [hrec]))
    List.nodup_nil (by simp) (by simp [hrec])

/-- a change of one record's modules -/
theorem modify_evolves {g : Registry} (hg : g.Coherent) (i : RecordId) (f : Record → Record)
    (ho : (f (g.record i)).origin = (g.record i).origin) (hs : (f (g.record i)).state = (g.record i).state)
    (hr : (f (g.record i)).released = (g.record i).released) : Evolves g (g.modify i f) 0 [] [] := by
  refine evolves_same hg (List.Perm.refl _) (by simp) ?_ (fun j => .inl ?_) List.nodup_nil (by simp)
    ?_
  · intro j
    exact record_modify_congr g i j Record.origin ho
  · exact record_modify_congr g i j Record.state hs
  · intro j
    simp [record_modify_congr g i j Record.released hr]

/-- the claim to release the context of a record ever made -/
theorem claim_evolves {g : Registry} (hg : g.Coherent) {i : RecordId} (hi : i < g.records.length)
    (hr : (g.record i).released = false) :
    Evolves g (g.modify i fun r => { r with released := true }) 0 [] [i] := by
  refine evolves_same hg (List.Perm.refl _) (by simp) ?_ (fun j => .inl ?_) (List.nodup_singleton i)
    (by simpa using hr) ?_
  · intro j
    exact record_modify_congr g i j Record.origin rfl
  · exact record_modify_congr g i j Record.state rfl
  · intro j
    by_cases hj : i = j
    · subst hj
      simp [record_modify_self _ hi]
    · simp [record_modify_of_ne _ hj, Ne.symm hj]

/-- a step that takes records out of the cache and undeploys them, and changes no other records -/
theorem evolves_removal {g g' : Registry} {gone : List RecordId} (hg : g.Coherent) (hn : gone.Nodup)
    (hgone : ∀ i ∈ gone, g.Caches i) (hc : g'.cache = g.cache.filter fun e => !gone.contains e.2)
    (hl : g'.records.length = g.records.length)
    (hrec : ∀ i, g'.record i = if i ∈ gone then { g.record i with state := .undeployed } else g.record i) :
    Evolves g g' 0 gone [] := by
  have ho : ∀ i, (g'.record i).origin = (g.record i).origin := by
    intro i
    rw [hrec]
    split <;> rfl
  have hid : ∀ i, (g'.record i).id = (g.record i).id := by
    intro i
    simpa only [Record.origin] using congrArg Record.id (ho i)
  have hu : ∀ i, (g'.record i).isUndeployed = true ↔ (g.record i).isUndeployed = true ∨ i ∈ gone := by
    intro i
    rw [hrec]
    split
    · rename_i h
      simp [Record.isUndeployed, h]
    · rename_i h
      simp [h]
  have hcache : ∀ i, g'.Caches i ↔ g.Caches i ∧ i ∉ gone := by
    intro i
    simp [Caches, hc, List.mem_filter]
  refine ⟨⟨?_, ?_, ?_, ?_⟩, hl, fun i _ => ho i, ?_, hn, hgone, List.nodup_nil, by simp, hu,
    ?_⟩
  · intro e he
    rw [hl]
    exact hg.bound e (List.mem_of_mem_filter (hc ▸ he))
  · intro e he
    rw [hid]
    exact hg.own e (List.mem_of_mem_filter (hc ▸ he))
  · rw [hc]
    exact hg.keys.sublist (List.filter_sublist.map _)
  · intro i hi
    rw [hcache, ← hg.alive i (hl ▸ hi), ← Bool.not_eq_true, ← Bool.not_eq_true, hu]
    tauto
  · intro i _
    rw [hrec]
    split
    · cases (g.record i).state <;> simp [Lifecycle.rank]
    · exact le_rfl
  · intro i
    rw [hrec]
    split <;> simp

/-! ## Removals -/

theorem drain_snd {g : Registry} (hg : g.Coherent) (p : RecordId → Record → Bool) :
    (g.drain p).2 = (g.cache.filter fun e => p e.2 (g.record e.2)).map Prod.snd := by
  simp [drain, hg.entries_eq, List.filter_map, Function.comp_def]

/-- a drain takes out the cached records that it names -/
theorem mem_drain {g : Registry} (hg : g.Coherent) {p : RecordId → Record → Bool} {i : RecordId} :
    i ∈ (g.drain p).2 ↔ g.Caches i ∧ p i (g.record i) = true := by
  rw [drain_snd hg]
  simp [Caches]

theorem nodup_drain {g : Registry} (hg : g.Coherent) (p : RecordId → Record → Bool) : (g.drain p).2.Nodup := by
  rw [drain_snd hg]
  exact hg.records_nodup.sublist (List.filter_sublist.map _)

theorem record_drain {g : Registry} (hg : g.Coherent) (p : RecordId → Record → Bool) (i : RecordId) :
    (g.drain p).1.record i = if i ∈ (g.drain p).2 then { g.record i with state := .undeployed } else g.record i := by
  have hn := nodup_drain hg p
  have hlt : i ∈ (g.drain p).2 → i < g.records.length := fun h => hg.lt ((mem_drain hg).1 h).1
  unfold drain at hn hlt ⊢
  simp only [record, record?, getElem?_foldl_modify _ _ hn]
  split
  · rename_i h
    simp [List.getElem?_eq_getElem (hlt h), Record.advanceTo_undeployed]
  · rfl

/-- a drain leaves in the cache what it does not name -/
theorem caches_drain {g : Registry} (hg : g.Coherent) {p : RecordId → Record → Bool} {i : RecordId} :
    (g.drain p).1.Caches i ↔ g.Caches i ∧ p i (g.record i) = false := by
  have hout : (g.drain p).1.Caches i ↔ g.Caches i ∧ i ∉ (g.drain p).2 := by
    simp [Caches, drain, List.mem_filter]
  rw [hout, mem_drain hg, not_and, Bool.not_eq_true]
  exact and_congr_right fun hi => ⟨fun h => h hi, fun h _ => h⟩

theorem length_drain (g : Registry) (p : RecordId → Record → Bool) :
    (g.drain p).1.records.length = g.records.length :=
  length_foldl_modify _ _ _

theorem drain_evolves {g : Registry} (hg : g.Coherent) (p : RecordId → Record → Bool) :
    Evolves g (g.drain p).1 0 (g.drain p).2 [] :=
  evolves_removal hg (nodup_drain hg p) (fun _ h => ((mem_drain hg).1 h).1) rfl (length_drain g p) (record_drain hg p)

/-- the eviction of a record ever made takes it out unless it was undeployed -/
theorem expire_evolves {g : Registry} (hg : g.Coherent) {i : RecordId} (hi : i < g.records.length) :
    Evolves g (g.expire i).1 0 (if (g.expire i).2 then [i] else []) [] := by
  cases hu : (g.record i).isUndeployed with
  | true =>
    have hnone : (g.record i).advanceTo? .undeployed = none :=
      Record.advanceTo?_eq_none.2 (Record.rank_undeployed_le.2 hu)
    simp only [expire, hnone]
    exact Evolves.refl hg
  | false =>
    have hsome : (g.record i).advanceTo? .undeployed = some { g.record i with state := .undeployed } := by
      refine Record.advanceTo?_eq_some.2 ⟨?_, rfl⟩
      by_contra hn
      rw [Record.rank_undeployed_le.1 (Nat.le_of_not_lt hn)] at hu
      cases hu
    have hc : g.Caches i := (hg.alive i hi).1 hu
    simp only [expire, hsome, if_true]
    rw [if_pos (hg.lookup?_eq_some_iff.2 ⟨hc, rfl⟩)]
    refine evolves_removal hg (List.nodup_singleton i) (by simpa using hc) ?_ (by simp [modify]) ?_
    · -- the record is cached under its own identifier only, so its key and its identity name the same entry
      refine List.filter_congr ?_
      intro e he
      have hown := hg.own e he
      have hmem : e.1 = (g.record i).id ↔ e.2 = i := by
        constructor
        · intro h
          have h₁ := hg.lookup?_eq_some_iff.2 ⟨⟨e.1, he⟩, hown⟩
          have h₂ := hg.lookup?_eq_some_iff.2 ⟨hc, h.symm⟩
          simpa [h₁] using h₂
        · rintro rfl
          exact hown.symm
      by_cases h : e.2 = i <;> simp [bne, h, hmem]
    · intro j
      show (g.modify i _).record j = _
      by_cases hj : j = i
      · subst hj
        simp [record_modify_self _ hi]
      · simp [record_modify_of_ne _ (Ne.symm hj), hj]

/-! ## Entering a record -/

theorem record_supersede {g : Registry} {i : RecordId} (hi : i < g.records.length) (delay : Nat) (j : RecordId) :
    (g.supersede i delay).1.record j =
      if j = i ∧ (g.record i).isActive then { g.record j with state := .pendingUndeploy } else g.record j := by
  cases ha : (g.record i).isActive with
  | false =>
    have hnone : (g.record i).advanceTo? .pendingUndeploy = none :=
      Record.advanceTo?_eq_none.2 (Record.rank_pending_le.2 ha)
    simp [supersede, hnone]
  | true =>
    have hsome : (g.record i).advanceTo? .pendingUndeploy = some { g.record i with state := .pendingUndeploy } := by
      refine Record.advanceTo?_eq_some.2 ⟨?_, rfl⟩
      by_contra hn
      rw [Record.rank_pending_le.1 (Nat.le_of_not_lt hn)] at ha
      cases ha
    simp only [supersede, hsome, and_true]
    by_cases hj : j = i
    · subst hj
      simp [record_modify_self _ hi]
    · simp [record_modify_of_ne _ (Ne.symm hj), hj]

theorem supersede_snd (g : Registry) (i : RecordId) (delay : Nat) :
    (g.supersede i delay).2 = if (g.record i).isActive then [.schedule i delay] else [] := by
  unfold supersede
  split
  · rename_i h
    have hlt := (Record.advanceTo?_eq_some.1 h).1
    have ha : (g.record i).isActive = true := by
      by_contra hn
      have := Record.rank_pending_le.2 (Bool.eq_false_iff.2 hn)
      omega
    simp [ha]
  · rename_i h
    simp [Record.rank_pending_le.1 (Record.advanceTo?_eq_none.1 h)]

/-- all but the records is as it was -/
theorem supersede_eq (g : Registry) (i : RecordId) (delay : Nat) :
    (g.supersede i delay).1 = { g with records := (g.supersede i delay).1.records } := by
  unfold supersede
  split <;> rfl

theorem length_supersede (g : Registry) (i : RecordId) (delay : Nat) :
    (g.supersede i delay).1.records.length = g.records.length := by
  unfold supersede
  split <;> simp

theorem supersede_evolves {g : Registry} (hg : g.Coherent) {i : RecordId} (hi : i < g.records.length) (delay : Nat) :
    Evolves g (g.supersede i delay).1 0 [] [] := by
  refine evolves_same hg (by rw [supersede_eq]) (length_supersede g i delay) ?_ ?_
    List.nodup_nil (by simp) ?_
  · intro j
    rw [record_supersede hi]
    split <;> rfl
  · intro j
    rw [record_supersede hi]
    split
    · rename_i h
      have ha : (g.record j).state = .active := by simpa [Record.isActive, h.1] using h.2
      exact .inr ⟨ha, rfl⟩
    · exact .inl rfl
  · intro j
    rw [record_supersede hi]
    split <;> simp

theorem supersedeAll_eq (g : Registry) (q : Request) (is : List RecordId) :
    (g.supersedeAll q is).1 = { g with records := (g.supersedeAll q is).1.records } := by
  induction is generalizing g with
  | nil => rfl
  | cons i is ih =>
    simp only [supersedeAll]
    rw [ih, supersede_eq]

theorem length_supersedeAll (g : Registry) (q : Request) (is : List RecordId) :
    (g.supersedeAll q is).1.records.length = g.records.length := by
  induction is generalizing g with
  | nil => rfl
  | cons i is ih =>
    simp only [supersedeAll]
    rw [ih, length_supersede]

/-- active records, each named once, are all pending afterwards, and no others are changed -/
theorem record_supersedeAll {g : Registry} (q : Request) {is : List RecordId} (hn : is.Nodup)
    (ha : ∀ i ∈ is, i < g.records.length ∧ (g.record i).isActive = true) (j : RecordId) :
    (g.supersedeAll q is).1.record j =
      if j ∈ is then { g.record j with state := .pendingUndeploy } else g.record j := by
  induction is generalizing g with
  | nil => simp [supersedeAll]
  | cons i is ih =>
    obtain ⟨hi, hn⟩ := List.nodup_cons.1 hn
    obtain ⟨hlt, hact⟩ := ha i List.mem_cons_self
    have hstep := record_supersede hlt g.timeout
    have ha' : ∀ k ∈ is, k < (g.supersede i g.timeout).1.records.length ∧
        ((g.supersede i g.timeout).1.record k).isActive = true := by
      intro k hk
      obtain ⟨h₁, h₂⟩ := ha k (List.mem_cons_of_mem _ hk)
      have hki : k ≠ i := fun h => hi (h ▸ hk)
      rw [length_supersede, hstep]
      simp [hki, h₁, h₂]
    simp only [supersedeAll]
    rw [ih hn ha', hstep]
    by_cases hj : j = i
    · subst hj
      simp [hi, hact]
    · simp [hj]

/-- one eviction is ordered for each of them, after the network timeout, and nothing else but notices -/
theorem supersedeAll_snd {g : Registry} (q : Request) {is : List RecordId} (hn : is.Nodup)
    (ha : ∀ i ∈ is, i < g.records.length ∧ (g.record i).isActive = true) :
    (g.supersedeAll q is).2 =
      is.flatMap fun i => [.notice (.superseding q (g.record i)), .schedule i g.timeout] := by
  induction is generalizing g with
  | nil => rfl
  | cons i is ih =>
    obtain ⟨hi, hn⟩ := List.nodup_cons.1 hn
    obtain ⟨hlt, hact⟩ := ha i List.mem_cons_self
    have hkeep : ∀ k ∈ is, (g.supersede i g.timeout).1.record k = g.record k := by
      intro k hk
      have hki : k ≠ i := fun h => hi (h ▸ hk)
      rw [record_supersede hlt]
      simp [hki]
    have ha' : ∀ k ∈ is, k < (g.supersede i g.timeout).1.records.length ∧
        ((g.supersede i g.timeout).1.record k).isActive = true := by
      intro k hk
      rw [length_supersede, hkeep k hk]
      exact ha k (List.mem_cons_of_mem _ hk)
    have htime : (g.supersede i g.timeout).1.timeout = g.timeout := by rw [supersede_eq]
    simp only [supersedeAll, List.flatMap_cons]
    rw [ih hn ha', supersede_snd, htime]
    simp only [hact, if_true, List.cons_append, List.nil_append, List.cons.injEq, true_and]
    exact List.flatMap_congr fun k hk => by rw [hkeep k hk]

theorem supersedeAll_evolves {g : Registry} (hg : g.Coherent) (q : Request) {is : List RecordId}
    (hlt : ∀ i ∈ is, i < g.records.length) : Evolves g (g.supersedeAll q is).1 0 [] [] := by
  induction is generalizing g with
  | nil => exact Evolves.refl hg
  | cons i is ih =>
    have h₁ := supersede_evolves hg (hlt i List.mem_cons_self) g.timeout
    have h₂ := ih h₁.coherent fun k hk => by
      rw [length_supersede]
      exact hlt k (List.mem_cons_of_mem _ hk)
    exact h₁.trans h₂ (by simp)

/-- the registry with a record more, which the cache holds -/
def enter (g : Registry) (d : DeploymentId) (r : Record) : Registry :=
  { g with records := g.records ++ [r], cache := g.cache ++ [(d, g.records.length)] }

theorem record_enter_of_lt {g : Registry} {j : RecordId} (d : DeploymentId) (r : Record) (hj : j < g.records.length) :
    (g.enter d r).record j = g.record j := by
  simp [enter, record, record?, List.getElem?_append_left hj]

theorem record_enter_new (g : Registry) (d : DeploymentId) (r : Record) :
    (g.enter d r).record g.records.length = r := by
  simp [enter, record, record?]

theorem record_enter_of_gt {g : Registry} {j : RecordId} (d : DeploymentId) (r : Record) (hj : g.records.length < j) :
    (g.enter d r).record j = g.record j := by
  rw [record_eq_default hj.le, record_eq_default]
  simp only [enter, List.length_append, List.length_singleton]
  omega

theorem enter_evolves {g : Registry} (hg : g.Coherent) {d : DeploymentId} {r : Record} (hd : g.lookup? d = none)
    (hid : r.id = d) (hs : r.isUndeployed = false) (hr : r.released = false) : Evolves g (g.enter d r) 1 [] [] := by
  have hfresh : ∀ i, (d, i) ∉ g.cache := by
    intro i h
    have h' := hg.mem_iff.1 h
    exact hg.lookup?_eq_none_iff.1 hd i h'.1 h'.2
  have hview {β : Type} (view : Record → β) (hv : view r = view default) (i : RecordId) :
      view ((g.enter d r).record i) = view (g.record i) := by
    rcases lt_trichotomy i g.records.length with h | rfl | h
    · rw [record_enter_of_lt d r h]
    · rw [record_enter_new, record_eq_default le_rfl, hv]
    · rw [record_enter_of_gt d r h]
  have hu := hview Record.isUndeployed (hs.trans (by decide))
  have hr' := hview Record.released (hr.trans (by decide))
  have hcaches : ∀ i, (g.enter d r).Caches i ↔ g.Caches i ∨ i = g.records.length := by
    intro i
    simp [Caches, enter, exists_or]
  have hold : ∀ i < g.records.length, (g.enter d r).record i = g.record i := fun i hi => record_enter_of_lt d r hi
  refine ⟨⟨?_, ?_, ?_, ?_⟩, by simp [enter], fun i hi => by rw [hold i hi], fun i hi => by rw [hold i hi],
    List.nodup_nil, by simp, List.nodup_nil, by simp, by simp [hu], by simp [hr']⟩
  · intro e he
    simp only [enter, List.mem_append, List.mem_singleton, List.length_append, List.length_singleton] at he ⊢
    rcases he with he | rfl
    · exact Nat.lt_succ_of_lt (hg.bound e he)
    · exact Nat.lt_succ_self _
  · intro e he
    simp only [enter, List.mem_append, List.mem_singleton] at he
    rcases he with he | rfl
    · rw [record_enter_of_lt d r (hg.bound e he)]
      exact hg.own e he
    · rw [record_enter_new, hid]
  · simp only [enter, List.map_append, List.map_cons, List.map_nil]
    refine List.nodup_append.2 ⟨hg.keys, List.nodup_singleton d, ?_⟩
    intro a ha b hb
    obtain ⟨⟨d', i⟩, he, rfl⟩ := List.mem_map.1 ha
    rw [List.mem_singleton] at hb
    rintro h
    exact hfresh i (by rw [← hb, ← h]; exact he)
  · intro i hi
    rw [hcaches, hu]
    simp only [enter, List.length_append, List.length_singleton] at hi
    rcases Nat.lt_succ_iff_lt_or_eq.1 hi with h | rfl
    · rw [hg.alive i h]
      simp [h.ne]
    · simp [record_eq_default le_rfl, show (default : Record).isUndeployed = false by decide]

/-- the new record of a request, as a verdict has it enter the cache -/
def newcomer (q : Request) (v : Verdict) (now : Nat) (clock : Timestamp) : Record :=
  { Record.ofRequest q now clock with state := if v.grace = 0 then .active else .pendingUndeploy }

variable {g : Registry} {q : Request} {v : Verdict} {now : Nat} {clock : Timestamp}

theorem install_snd_fst : (g.install q v now clock).2.1 = g.records.length := by
  simp only [install]
  exact length_supersedeAll g q v.superseded

/-- the registry between the two parts of an installation: older records are pending, the new one is entered -/
theorem install_fst : (g.install q v now clock).1 =
    if v.grace = 0 then (g.supersedeAll q v.superseded).1.enter q.id (Record.ofRequest q now clock)
    else (((g.supersedeAll q v.superseded).1.enter q.id (Record.ofRequest q now clock)).supersede
      g.records.length v.grace).1 := by
  simp only [install, enter]
  split
  · rfl
  · rw [length_supersedeAll]

theorem install_eq : (g.install q v now clock).1 =
    { g with
      records := (g.install q v now clock).1.records
      cache := g.cache ++ [(q.id, g.records.length)] } := by
  rw [install_fst]
  split
  · rw [supersedeAll_eq, enter]
    simp [length_supersedeAll]
  · rw [supersede_eq, supersedeAll_eq, enter]
    simp [length_supersedeAll]

theorem length_install : (g.install q v now clock).1.records.length = g.records.length + 1 := by
  rw [install_fst]
  split
  · simp [enter, length_supersedeAll]
  · rw [length_supersede]
    simp [enter, length_supersedeAll]

theorem record_install_new : (g.install q v now clock).1.record g.records.length = newcomer q v now clock := by
  have hnew := record_enter_new (g.supersedeAll q v.superseded).1 q.id (Record.ofRequest q now clock)
  rw [length_supersedeAll] at hnew
  rw [install_fst]
  split
  · rename_i h
    rw [hnew]
    simp [newcomer, h, Record.ofRequest]
  · rename_i h
    rw [record_supersede (by simp [enter, length_supersedeAll]), hnew]
    simp [newcomer, h, Record.ofRequest, Record.isActive]

/-- of the other records those in the verdict become pending, and nothing else changes -/
theorem record_install_of_lt (hn : v.superseded.Nodup)
    (ha : ∀ i ∈ v.superseded, i < g.records.length ∧ (g.record i).isActive = true) {j : RecordId}
    (hj : j < g.records.length) :
    (g.install q v now clock).1.record j =
      if j ∈ v.superseded then { g.record j with state := .pendingUndeploy } else g.record j := by
  have hold : ((g.supersedeAll q v.superseded).1.enter q.id (Record.ofRequest q now clock)).record j =
      (g.supersedeAll q v.superseded).1.record j :=
    record_enter_of_lt _ _ (by rw [length_supersedeAll]; exact hj)
  rw [install_fst]
  split
  · rw [hold, record_supersedeAll q hn ha]
  · rw [record_supersede (by simp [enter, length_supersedeAll]), hold, record_supersedeAll q hn ha]
    simp [hj.ne]

theorem install_effects (hn : v.superseded.Nodup)
    (ha : ∀ i ∈ v.superseded, i < g.records.length ∧ (g.record i).isActive = true) :
    (g.install q v now clock).2.2 =
      (v.superseded.flatMap fun i => [Effect.notice (.superseding q (g.record i)), .schedule i g.timeout]) ++
        (if v.grace = 0 then [] else [Effect.notice (.stale q v.grace)]) ++
        [Effect.create g.records.length (q.parent <|> g.defaultParent)] ++
        (if v.grace = 0 then [] else [Effect.schedule g.records.length v.grace]) ++
        [Effect.notice (.created (Record.ofRequest q now clock))] := by
  have hnew := record_enter_new (g.supersedeAll q v.superseded).1 q.id (Record.ofRequest q now clock)
  rw [length_supersedeAll] at hnew
  simp only [install, supersedeAll_snd q hn ha, length_supersedeAll]
  split
  · rfl
  · have hact : (((g.supersedeAll q v.superseded).1.enter q.id (Record.ofRequest q now clock)).supersede
        g.records.length v.grace).2 = [.schedule g.records.length v.grace] := by
      rw [supersede_snd, hnew]
      rfl
    simp only [enter, length_supersedeAll] at hact
    rw [hact]

theorem install_evolves (hg : g.Coherent) (hd : g.lookup? q.id = none)
    (hlt : ∀ i ∈ v.superseded, i < g.records.length) : Evolves g (g.install q v now clock).1 1 [] [] := by
  have h₁ := supersedeAll_evolves hg q hlt
  have hd₁ : (g.supersedeAll q v.superseded).1.lookup? q.id = none := by
    rw [supersedeAll_eq]
    exact hd
  have h₂ := h₁.trans (enter_evolves h₁.coherent hd₁ (r := Record.ofRequest q now clock) rfl rfl rfl) (by simp)
  rw [install_fst]
  split
  · exact h₂
  · exact h₂.trans (supersede_evolves h₂.coherent (by simp [enter, length_supersedeAll]) _) (by simp)

end Registry

end Redeploy
