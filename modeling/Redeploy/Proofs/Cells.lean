/-
The cells in which modules are kept, and the calls that fill them.

A call that resolves an alias takes the alias's cell, and keeps it however the slots change. Every cell has an owner,
the alias for which it was made: `Kept` says that slots and calls use only cells of their own alias, that a cell is busy
while a call has the context materialise its module, and that only one call has.

Results:
- `advanceLookup_looks`: what one step of a resolution does to its record;
- `Reachable.kept`: the invariant;
- `module?_run`: the module of a resolved alias stays the same;
- `hasResolved_run`: a resolved alias stays resolved.
-/
import Redeploy.Proofs.Pool

namespace Redeploy

open Registry

/-- the cell that a resolution at the point has taken -/
def LookupPoint.cell? : LookupPoint → Option Nat
  | .trying cell => some cell
  | .asking cell => some cell
  | _ => none

/-- the modules of a record: its cells, and the slots in use -/
def Record.store (r : Record) : List Cell × List (String × Nat) := (r.cells, r.slots)

namespace Record

/-- closing the slots of one alias leaves the others -/
theorem lookup_filter_ne {a b : String} (h : b ≠ a) (slots : List (String × Nat)) :
    (slots.filter fun e => e.1 != a).lookup b = slots.lookup b := by
  induction slots with
  | nil => rfl
  | cons e slots ih =>
    obtain ⟨c, cell⟩ := e
    by_cases hc : c = a
    · subst hc
      have hb : (b == c) = false := by simpa using h
      simp [List.lookup_cons, ih, hb]
    · simp [List.lookup_cons, ih, hc]

theorem lookup_filter_self (a : String) (slots : List (String × Nat)) :
    (slots.filter fun e => e.1 != a).lookup a = none := by
  apply List.lookup_eq_none_iff.2
  intro e he
  have hne : e.1 ≠ a := bne_iff_ne.1 (List.mem_filter.1 he).2
  exact bne_iff_ne.2 hne.symm

theorem mem_of_lookup {slots : List (String × Nat)} {a : String} {cell : Nat} (h : slots.lookup a = some cell) :
    (a, cell) ∈ slots := by
  obtain ⟨l₁, l₂, hl, -⟩ := List.lookup_eq_some_iff.1 h
  simp [hl]

theorem lookup_closeSlot_of_ne {r : Record} {a b : String} (h : b ≠ a) :
    (r.closeSlot a).slots.lookup b = r.slots.lookup b := by
  unfold closeSlot
  split
  · rfl
  · exact lookup_filter_ne h r.slots

/-- a slot is closed only if the alias has no module -/
theorem module?_closeSlot {r : Record} {a : String} : (r.closeSlot a).module? a = r.module? a := by
  unfold closeSlot
  split
  · rfl
  · rename_i hres
    have hnone : r.module? a = none := by simpa [hasResolved] using hres
    rw [hnone]
    simp [module?, lookup_filter_self]

theorem module?_eq_some {r : Record} {a : String} {m : Module} :
    r.module? a = some m ↔ ∃ cell, r.slots.lookup a = some cell ∧ r.content? cell = some m := by
  simp [module?, Option.bind_eq_some_iff]

theorem hasResolved_iff {r : Record} {a : String} : r.hasResolved a = true ↔ ∃ m, r.module? a = some m := by
  simp [hasResolved, Option.isSome_iff_exists]

end Record

namespace Call

/-- the record, the alias and the point of a call that resolves an alias -/
def lookup? : Call → Option (RecordId × String × LookupPoint)
  | .request q _ (.resolving i p) => some (i, q.moduleAlias, p)
  | .lookup i a p => some (i, a, p)
  | _ => none

/-- `Looks r a reply p r' n`: what a step of a resolution on the record `r` can be, and the record `r'` after it -/
inductive Looks (r : Record) (a : String) (reply : Reply) : LookupPoint → Record → LookupStep → Prop
  | found {cell : Nat} (h : r.slots.lookup a = some cell) : Looks r a reply .looking r (.go (.trying cell))
  | opened (h : r.slots.lookup a = none) :
    Looks r a reply .looking
      { r with cells := r.cells ++ [{}], slots := r.slots ++ [(a, r.cells.length)] } (.go (.trying r.cells.length))
  | missing {cell : Nat} (h : r.cells[cell]? = none) : Looks r a reply (.trying cell) r .wait
  | full {cell : Nat} {m : Module} (h : r.content? cell = some m) : Looks r a reply (.trying cell) r (.found m false)
  | busy {cell : Nat} (h : r.cells[cell]? = some ⟨none, true⟩) : Looks r a reply (.trying cell) r .wait
  | gone {cell : Nat} (h : r.cells[cell]? = some ⟨none, false⟩) (hu : r.isUndeployed = true) :
    Looks r a reply (.trying cell) r (.go (.clearing (undeployedFailure a r)))
  | ask {cell : Nat} (h : r.cells[cell]? = some ⟨none, false⟩) (hu : r.isUndeployed = false) :
    Looks r a reply (.trying cell) (r.setCell cell ⟨none, true⟩) (.go (.asking cell))
  | made {cell : Nat} {m : Module} (h : reply.module = .ok m) :
    Looks r a reply (.asking cell) (r.setCell cell ⟨some m, false⟩) (.found m true)
  | refused {cell : Nat} {why : Failure} (h : reply.module = .error why) :
    Looks r a reply (.asking cell) (r.setCell cell ⟨none, false⟩) (.go (.clearing why))
  | cleared {why : Failure} : Looks r a reply (.clearing why) (r.closeSlot a) (.failed why)

namespace Looks

variable {r r' : Record} {a : String} {reply : Reply} {p : LookupPoint} {n : LookupStep}

theorem length_le (h : Looks r a reply p r' n) : r.cells.length ≤ r'.cells.length := by
  cases h with
  | opened h => simp
  | cleared => rw [Record.closeSlot_eq]
  | _ => simp [Record.setCell]

/-- a slot is old, or it is the alias's with a new cell -/
theorem mem_slots (h : Looks r a reply p r' n) {e : String × Nat} (he : e ∈ r'.slots) :
    e ∈ r.slots ∨ e = (a, r.cells.length) ∧ r.cells.length < r'.cells.length := by
  cases h with
  | opened h =>
    rcases List.mem_append.1 he with he | he
    · exact .inl he
    · exact .inr ⟨List.mem_singleton.1 he, by simp⟩
  | cleared =>
    unfold Record.closeSlot at he
    split at he
    · exact .inl he
    · exact .inl (List.mem_of_mem_filter he)
  | _ => exact .inl he

/-- the cell that the call has after the step is the alias's, or the one that it had -/
theorem cell?_eq_some (h : Looks r a reply p r' n) {p' : LookupPoint} (hn : n = .go p') {cell : Nat}
    (hcell : p'.cell? = some cell) : r'.slots.lookup a = some cell ∨ p.cell? = some cell := by
  cases h with
  | found h =>
    cases hn
    cases hcell
    exact .inl h
  | opened h =>
    cases hn
    cases hcell
    exact .inl (by simp [List.lookup_append, h])
  | ask h hu =>
    cases hn
    exact .inr hcell
  | gone h hu => cases hn; cases hcell
  | refused h => cases hn; cases hcell
  | _ => cases hn

/-- a cell stays as it is, unless the call fills it or asks for it to be filled -/
theorem getElem?_cells (h : Looks r a reply p r' n) {cell : Nat} {c : Cell} (hc : r.cells[cell]? = some c)
    (hp : p ≠ .asking cell) (hfree : c ≠ ⟨none, false⟩) : r'.cells[cell]? = some c := by
  have hset {k : Nat} {x : Cell} (hk : k ≠ cell) : (r.setCell k x).cells[cell]? = some c := by
    simp [Record.setCell, hk, hc]
  cases h with
  | opened h =>
    have hlt : cell < r.cells.length := (List.getElem?_eq_some_iff.1 hc).1
    simp [List.getElem?_append_left hlt, hc]
  | @ask k h hu =>
    refine hset fun hk => hfree ?_
    rw [hk, hc] at h
    exact Option.some.inj h
  | @made k m h => exact hset fun hk => hp (by rw [hk])
  | @refused k why h => exact hset fun hk => hp (by rw [hk])
  | cleared => rw [Record.closeSlot_eq]; exact hc
  | _ => exact hc

/-- the context is asked for a module for an empty cell that no other call fills -/
theorem ask_cell (h : Looks r a reply p r' n) {cell : Nat} (hn : n = .go (.asking cell)) :
    r.cells[cell]? = some ⟨none, false⟩ ∧ r'.cells[cell]? = some ⟨none, true⟩ := by
  cases h with
  | ask h hu =>
    cases hn
    exact ⟨h, by simp [Record.setCell, (List.getElem?_eq_some_iff.1 h).1]⟩
  | _ => cases hn

/-- a cell is busy because it was, or because the call asks for it to be filled -/
theorem busy_cell (h : Looks r a reply p r' n) {cell : Nat} (hc : r'.cells[cell]? = some ⟨none, true⟩) :
    r.cells[cell]? = some ⟨none, true⟩ ∧ p ≠ .asking cell ∨ n = .go (.asking cell) := by
  have hset {k : Nat} {x : Cell} (hc : (r.setCell k x).cells[cell]? = some ⟨none, true⟩) (hx : x ≠ ⟨none, true⟩) :
      r.cells[cell]? = some ⟨none, true⟩ ∧ k ≠ cell := by
    simp only [Record.setCell, List.getElem?_set] at hc
    split_ifs at hc with hk hlt
    · exact absurd (Option.some.inj hc) hx
    · exact ⟨hc, hk⟩
  cases h with
  | opened h =>
    refine .inl ⟨?_, by simp⟩
    rcases Nat.lt_trichotomy cell r.cells.length with hlt | rfl | hlt
    · simpa [List.getElem?_append_left hlt] using hc
    · simp at hc
    · rw [List.getElem?_eq_none (by simp; omega)] at hc
      cases hc
  | @ask k h hu =>
    by_cases hk : k = cell
    · rw [hk]
      exact .inr rfl
    · refine .inl ⟨?_, by simp⟩
      simpa [Record.setCell, hk] using hc
  | made h =>
    obtain ⟨hc, hk⟩ := hset hc (by simp)
    exact .inl ⟨hc, by simpa using hk⟩
  | refused h =>
    obtain ⟨hc, hk⟩ := hset hc (by simp)
    exact .inl ⟨hc, by simpa using hk⟩
  | cleared =>
    rw [Record.closeSlot_eq] at hc
    exact .inl ⟨hc, by simp⟩
  | _ => exact .inl ⟨hc, by simp⟩

theorem of_wait (h : Looks r a reply p r' n) (hn : n = .wait) : ∃ cell, p = .trying cell := by
  cases h with
  | missing h => exact ⟨_, rfl⟩
  | busy h => exact ⟨_, rfl⟩
  | _ => cases hn

/-- a filled cell stays filled, if the call fills an empty one -/
theorem content?_eq_some (h : Looks r a reply p r' n)
    (hp : ∀ cell, p = .asking cell → r.cells[cell]? = some ⟨none, true⟩) {cell : Nat} {m : Module}
    (hm : r.content? cell = some m) : r'.content? cell = some m := by
  obtain ⟨c, hc, hcm⟩ := Option.bind_eq_some_iff.1 hm
  have hkept : r'.cells[cell]? = some c := by
    refine h.getElem?_cells hc (fun hask => ?_) fun hfree => ?_
    · rw [hp cell hask] at hc
      rw [← Option.some.inj hc] at hcm
      cases hcm
    · rw [hfree] at hcm
      cases hcm
  exact Option.bind_eq_some_iff.2 ⟨c, hkept, hcm⟩

/-- a resolved alias keeps its module -/
theorem module?_eq_some (h : Looks r a reply p r' n)
    (hp : ∀ cell, p = .asking cell → r.cells[cell]? = some ⟨none, true⟩) {b : String} {m : Module}
    (hm : r.module? b = some m) : r'.module? b = some m := by
  obtain ⟨cell, hslot, hcell⟩ := Record.module?_eq_some.1 hm
  refine Record.module?_eq_some.2 ⟨cell, ?_, h.content?_eq_some hp hcell⟩
  cases h with
  | opened h => simp [List.lookup_append, hslot]
  | cleared =>
    unfold Record.closeSlot
    split
    · exact hslot
    · rename_i hres
      have hne : b ≠ a := by
        rintro rfl
        exact hres (Record.hasResolved_iff.2 ⟨m, hm⟩)
      rw [Record.lookup_filter_ne hne, hslot]
  | _ => exact hslot

/-- the slot of another alias stays -/
theorem lookup_of_ne (h : Looks r a reply p r' n) {b : String} (hb : b ≠ a) :
    r'.slots.lookup b = r.slots.lookup b := by
  have hbeq : (b == a) = false := by simpa using hb
  cases h with
  | opened h => simp [List.lookup_append, List.lookup_cons, hbeq]
  | cleared => exact Record.lookup_closeSlot_of_ne hb
  | _ => rfl

/-- the alias's slot stays, unless it is removed after a failure -/
theorem lookup_self (h : Looks r a reply p r' n) {cell : Nat} (hslot : r.slots.lookup a = some cell)
    (hp : ∀ why, p = .clearing why → r.hasResolved a = true) : r'.slots.lookup a = some cell := by
  cases h with
  | opened h =>
    rw [hslot] at h
    cases h
  | cleared =>
    rw [Record.closeSlot, if_pos (hp _ rfl)]
    exact hslot
  | _ => exact hslot

/-- the slot of another alias stays, and so does what is in it if the call works on another cell -/
theorem frame (h : Looks r a reply p r' n) {b : String} (hb : b ≠ a)
    (hcell : ∀ cell, r.slots.lookup b = some cell → cell < r.cells.length ∧ p.cell? ≠ some cell) :
    r'.slots.lookup b = r.slots.lookup b ∧ r'.module? b = r.module? b := by
  have hslot := h.lookup_of_ne hb
  refine ⟨hslot, ?_⟩
  unfold Record.module?
  rw [hslot]
  cases hl : r.slots.lookup b with
  | none => rfl
  | some cell =>
    obtain ⟨hlt, hne⟩ := hcell cell hl
    have hset {k : Nat} {x : Cell} (hk : p.cell? = some k) : (r.setCell k x).content? cell = r.content? cell := by
      have : k ≠ cell := by
        rintro rfl
        exact hne hk
      simp [Record.content?, Record.setCell, this]
    show r'.content? cell = r.content? cell
    cases h with
    | opened h => simp [Record.content?, List.getElem?_append_left hlt]
    | ask h hu => exact hset rfl
    | made h => exact hset rfl
    | refused h => exact hset rfl
    | cleared => rw [Record.closeSlot_eq]; rfl
    | _ => rfl

end Looks

/-- every step of a resolution is one of `Looks`, and changes its record only -/
theorem advanceLookup_looks (g : Registry) {i : RecordId} (hi : i < g.records.length) (a : String) (reply : Reply)
    (p : LookupPoint) : Looks (g.record i) a reply p ((advanceLookup g i a reply p).1.record i)
      (advanceLookup g i a reply p).2 := by
  cases p with
  | looking =>
    simp only [advanceLookup, record_modify_self _ hi]
    unfold Record.openSlot
    split
    · rename_i cell h
      exact .found h
    · rename_i h
      exact .opened h
  | trying cell =>
    simp only [advanceLookup]
    split
    · rename_i h
      exact .missing h
    · rename_i c h
      obtain ⟨m, busy⟩ := c
      cases m with
      | some m => exact .full (by simp [Record.content?, h])
      | none =>
        cases busy with
        | true => exact .busy h
        | false =>
          cases hu : (g.record i).isUndeployed with
          | true => simpa [hu] using Looks.gone h hu
          | false => simpa [hu, record_modify_self _ hi] using Looks.ask h hu
  | asking cell =>
    simp only [advanceLookup]
    split
    · rename_i m h
      rw [record_modify_self _ hi]
      exact .made h
    · rename_i why h
      rw [record_modify_self _ hi]
      exact .refused h
  | clearing why =>
    simp only [advanceLookup, record_modify_self _ hi]
    exact .cleared

/-- a step of a call that resolves an alias is the step of the resolution -/
theorem advance_registry_of_lookup? {g : Registry} {reply : Reply} {c : Call} {i : RecordId} {a : String}
    {p : LookupPoint} (h : c.lookup? = some (i, a, p)) :
    (advance g reply c).registry = (advanceLookup g i a reply p).1 := by
  unfold lookup? at h
  split at h
  · cases h
    simp only [advance, advanceRequest]
    split <;> rename_i heq <;> simp only [heq, rejection]
  · cases h
    exact lookup_registry g i a reply p
  · cases h

/-- a call goes on with its resolution, or is done with it -/
theorem lookup?_next {g : Registry} {reply : Reply} {c c' : Call} {i : RecordId} {a : String} {p : LookupPoint}
    (h : c.lookup? = some (i, a, p)) (hn : (advance g reply c).next = .go c') {j : RecordId} {b : String}
    {p' : LookupPoint} (h' : c'.lookup? = some (j, b, p')) :
    j = i ∧ b = a ∧ (advanceLookup g i a reply p).2 = .go p' := by
  unfold lookup? at h
  split at h
  · rename_i q report i p
    cases h
    have hr := advanceRequest_requests g q report reply (.resolving i p)
    simp only [advance] at hn
    generalize advanceRequest g q report reply (.resolving i p) = s at hn hr
    cases hr with
    | look heq =>
      cases hn
      cases h'
      exact ⟨rfl, rfl, by rw [heq]⟩
    | made heq =>
      cases hn
      cases h'
    | _ => cases hn
  · cases h
    simp only [advance] at hn
    split at hn <;> rename_i heq
    · cases hn
      cases h'
      exact ⟨rfl, rfl, by rw [heq]⟩
    all_goals cases hn
  · cases h

/-- a resolution that goes on keeps the call going -/
theorem advance_of_go {g : Registry} {reply : Reply} {c : Call} {i : RecordId} {a : String} {p p' : LookupPoint}
    (h : c.lookup? = some (i, a, p)) (hn : (advanceLookup g i a reply p).2 = .go p') :
    ∃ c', (advance g reply c).next = .go c' ∧ c'.lookup? = some (i, a, p') := by
  unfold lookup? at h
  split at h
  · rename_i q report j pt
    cases h
    refine ⟨.request q report (.resolving i p'), ?_, rfl⟩
    simp only [advance, advanceRequest]
    split <;> rename_i heq <;> rw [heq] at hn <;> cases hn
    rfl
  · cases h
    refine ⟨.lookup i a p', ?_, rfl⟩
    simp only [advance]
    split <;> rename_i heq <;> rw [heq] at hn <;> cases hn
    rfl
  · cases h

/-- a call begins a resolution by looking for the slot, on a record that was made -/
theorem lookup?_begin {g : Registry} (hg : g.Coherent) {reply : Reply} {c c' : Call} (h : c.lookup? = none)
    (hn : (advance g reply c).next = .go c') {i : RecordId} {a : String} {p : LookupPoint}
    (h' : c'.lookup? = some (i, a, p)) : p = .looking ∧ i < (advance g reply c).registry.records.length := by
  cases c with
  | lookup i a p => cases h
  | removal cause total pt =>
    obtain ⟨gone, claimed, hr⟩ := advanceRemoval_removes g cause total reply pt
    obtain ⟨total', p', rfl, -⟩ := hr.stays hn
    cases h'
  | start checked => cases checked <;> simp only [advance] at hn <;> split at hn <;> cases hn <;> cases h'
  | request q report pt =>
    have hr := advanceRequest_requests g q report reply pt
    simp only [advance] at hn ⊢
    generalize advanceRequest g q report reply pt = s at hn hr ⊢
    cases hr with
    | cached hd =>
      cases hn
      cases h'
      exact ⟨rfl, hg.lt ((decide_eq_cached_iff hg).1 hd).1⟩
    | fresh hd =>
      cases hn
      cases h'
      exact ⟨rfl, by rw [length_install]; exact Nat.lt_succ_self _⟩
    | look heq => cases h
    | _ => cases hn <;> cases h'

theorem store_takes {g : Registry} (hg : g.Coherent) (c : Cause) (p : RemovalPoint) (i : RecordId) :
    ((takes g c p).1.record i).store = (g.record i).store := by
  have hdrain {g : Registry} (hg : g.Coherent) (p : RecordId → Record → Bool) :
      ((g.drain p).1.record i).store = (g.record i).store := by
    rw [record_drain hg]
    split <;> rfl
  cases p with
  | starting =>
    cases c with
    | expiry j =>
      simp only [takes, drainFor, Registry.expire]
      split
      · rename_i r hr
        obtain ⟨-, rfl⟩ := Record.advanceTo?_eq_some.1 hr
        exact record_modify_congr g j i Record.store rfl
      · rfl
    | sweep reason => rfl
    | stop =>
      have hflags : Evolves g { g with stopped := true, cancelled := true } 0 [] [] :=
        evolves_flags hg (List.Perm.refl _) rfl
      exact hdrain hflags.coherent _
    | _ => exact hdrain hg _
  | checking left gone => exact hdrain hg _
  | _ => rfl

/-- only resolutions change cells and slots -/
theorem store_advance {g : Registry} (hg : g.Coherent) {reply : Reply} {c : Call} (h : c.lookup? = none)
    (i : RecordId) : ((advance g reply c).registry.record i).store = (g.record i).store := by
  cases c with
  | lookup i a p => cases h
  | removal cause total p =>
    obtain ⟨gone, claimed, hr⟩ := advanceRemoval_removes g cause total reply p
    simp only [advance]
    generalize advanceRemoval g cause total reply p = s at hr
    cases hr with
    | drain hp hb => rw [tearDown_registry, store_takes hg]
    | claim hp hr hb => exact record_modify_congr g _ i Record.store rfl
    | skip hp hr hb => rw [tearDown_registry]
    | next hb => rw [tearDown_registry]
    | _ => rfl
  | start checked => cases checked <;> simp only [advance] <;> split <;> rfl
  | request q report p =>
    have hr := advanceRequest_requests g q report reply p
    simp only [advance]
    generalize advanceRequest g q report reply p = s at hr
    cases hr with
    | fresh hd =>
      obtain ⟨-, rfl⟩ := (decide_eq_fresh_iff hg).1 hd
      rcases lt_trichotomy i g.records.length with hi | rfl | hi
      · rw [record_install_of_lt (nodup_verdict hg) (verdict_active hg) hi]
        split <;> rfl
      · rw [record_install_new, record_eq_default le_rfl]
        rfl
      · rw [record_eq_default hi.le, record_eq_default]
        rw [length_install]
        exact hi
    | look heq => cases h
    | wait heq => cases h
    | made heq => cases h
    | found heq => cases h
    | unresolved heq => cases h
    | _ => rfl

/-- only a resolution waits for another call -/
theorem lookup?_wait {g : Registry} {reply : Reply} {c : Call} (hn : (advance g reply c).next = .wait) :
    ∃ i a p, c.lookup? = some (i, a, p) ∧ (advanceLookup g i a reply p).2 = .wait := by
  cases c with
  | lookup i a p =>
    refine ⟨i, a, p, rfl, ?_⟩
    simp only [advance] at hn
    split at hn <;> rename_i heq
    · cases hn
    · rw [heq]
    · cases hn
    · cases hn
  | removal cause total p =>
    have htear {g : Registry} {total : Nat} {before : List Effect} {queue : List RecordId} :
        (tearDown g cause total before queue).next ≠ .wait := by
      cases queue <;> simp [tearDown]
    obtain ⟨gone, claimed, hr⟩ := advanceRemoval_removes g cause total reply p
    simp only [advance] at hn
    generalize advanceRemoval g cause total reply p = s at hn hr
    cases hr with
    | drain hp hb => exact absurd hn htear
    | skip hp hr hb => exact absurd hn htear
    | next hb => exact absurd hn htear
    | _ => cases hn
  | start checked => cases checked <;> simp only [advance] at hn <;> split at hn <;> cases hn
  | request q report p =>
    have hr := advanceRequest_requests g q report reply p
    simp only [advance] at hn
    generalize advanceRequest g q report reply p = s at hn hr
    cases hr with
    | @wait g' i p heq => exact ⟨i, q.moduleAlias, p, rfl, by rw [heq]⟩
    | _ => cases hn

end Call

namespace Pool

/-- the call at the place resolves the alias on the record, and is at that point -/
def Resolves (p : Pool) (k : Nat) (i : RecordId) (a : String) (pt : LookupPoint) : Prop :=
  ∃ u, p.call? k = some u ∧ u.call.lookup? = some (i, a, pt)

/-- slots and calls use the cells of their own alias; a cell is busy while a call fills it, and one call at most does;
`filled`: no cell is busy without one -/
structure Kept (p : Pool) (owner : RecordId → Nat → String) : Prop where
  slots : ∀ i, ∀ e ∈ (p.registry.record i).slots, owner i e.2 = e.1 ∧ e.2 < (p.registry.record i).cells.length
  placed : ∀ k i a pt, p.Resolves k i a pt → i < p.registry.records.length
  held : ∀ k i a pt cell, p.Resolves k i a pt → pt.cell? = some cell →
    owner i cell = a ∧ cell < (p.registry.record i).cells.length
  busy : ∀ k i a cell, p.Resolves k i a (.asking cell) →
    (p.registry.record i).cells[cell]? = some { module := none, busy := true }
  sole : ∀ j k i a b cell, p.Resolves j i a (.asking cell) → p.Resolves k i b (.asking cell) → j = k
  filled : ∀ i cell, (p.registry.record i).cells[cell]? = some { module := none, busy := true } →
    ∃ k a, p.Resolves k i a (.asking cell)

theorem resolves_enter {p : Pool} {c : Call} {k : Nat} {i : RecordId} {a : String} {pt : LookupPoint}
    (h : (p.enter c).Resolves k i a pt) : p.Resolves k i a pt ∨ c.lookup? = some (i, a, pt) := by
  obtain ⟨u, hu, hl⟩ := h
  rw [call?_enter] at hu
  split at hu
  · cases hu
    exact .inr hl
  · exact .inl ⟨u, hu, hl⟩

/-- a call that resolves an alias after a step of it has gone on, has begun, or has to wait -/
theorem resolves_advance_self {p : Pool} (hs : p.Sound) {k : Nat} {u : Underway} (hc : p.call? k = some u)
    {reply : Reply} {i : RecordId} {a : String} {pt : LookupPoint}
    (h : (p.advance k u.call reply).Resolves k i a pt) :
    (u.call.lookup? = none ∧ pt = .looking ∧ i < (p.advance k u.call reply).registry.records.length) ∨
      ∃ pt₀, u.call.lookup? = some (i, a, pt₀) ∧
        ((Call.advanceLookup p.registry i a { reply with now := p.now } pt₀).2 = .go pt ∨
          (Call.advanceLookup p.registry i a { reply with now := p.now } pt₀).2 = .wait ∧ pt = pt₀) := by
  obtain ⟨v, hv, hl⟩ := h
  rw [call?_advance hc, if_pos rfl] at hv
  obtain ⟨-, hn | ⟨hn, heq⟩⟩ := underway?_eq_some.1 hv
  · cases hu : u.call.lookup? with
    | none => exact .inl ⟨rfl, Call.lookup?_begin hs.coherent hu hn hl⟩
    | some x =>
      obtain ⟨i₀, a₀, pt₀⟩ := x
      obtain ⟨rfl, rfl, hgo⟩ := Call.lookup?_next hu hn hl
      exact .inr ⟨pt₀, rfl, .inl hgo⟩
  · obtain ⟨i₀, a₀, pt₀, hu, hw⟩ := Call.lookup?_wait hn
    rw [heq, hu] at hl
    cases hl
    exact .inr ⟨pt, hu, .inr ⟨hw, rfl⟩⟩

theorem resolves_advance_of_ne {p : Pool} {k j : Nat} (hj : j ≠ k) {u : Underway} (hc : p.call? k = some u)
    {reply : Reply} {i : RecordId} {a : String} {pt : LookupPoint} :
    (p.advance k u.call reply).Resolves j i a pt ↔ p.Resolves j i a pt := by
  unfold Resolves
  rw [call?_advance hc, if_neg hj]

/-- a step of a call that resolves nothing -/
theorem kept_advance_of_none {p : Pool} {owner : RecordId → Nat → String} (h : p.Kept owner) (hs : p.Sound) {k : Nat}
    {u : Underway} (hc : p.call? k = some u) (hl : u.call.lookup? = none) (reply : Reply) :
    (p.advance k u.call reply).Kept owner := by
  have hself : ∀ i a pt, (p.advance k u.call reply).Resolves k i a pt → pt = .looking ∧
      i < (p.advance k u.call reply).registry.records.length := by
    intro i a pt hr
    rcases resolves_advance_self hs hc hr with ⟨-, h⟩ | ⟨pt₀, h, -⟩
    · exact h
    · rw [hl] at h
      cases h
  have hstore : ∀ i, ((p.advance k u.call reply).registry.record i).store = (p.registry.record i).store :=
    Call.store_advance hs.coherent hl
  have hcells : ∀ i, ((p.advance k u.call reply).registry.record i).cells = (p.registry.record i).cells :=
    fun i => congrArg Prod.fst (hstore i)
  have hslots : ∀ i, ((p.advance k u.call reply).registry.record i).slots = (p.registry.record i).slots :=
    fun i => congrArg Prod.snd (hstore i)
  obtain ⟨born, gone, claimed, hd⟩ := hs.does hc reply
  have hlen : (p.advance k u.call reply).registry.records.length = p.registry.records.length + born :=
    (hd.evolves hs.coherent (hs.named k u hc)).length
  refine ⟨?_, ?_, ?_, ?_, ?_, ?_⟩
  · intro i e he
    rw [hslots] at he
    rw [hcells]
    exact h.slots i e he
  · intro j i a pt hr
    by_cases hj : j = k
    · subst hj
      exact (hself i a pt hr).2
    · rw [hlen]
      exact Nat.lt_add_right born (h.placed j i a pt ((resolves_advance_of_ne hj hc).1 hr))
  · intro j i a pt cell hr hcell
    by_cases hj : j = k
    · subst hj
      rw [(hself i a pt hr).1] at hcell
      cases hcell
    · rw [hcells]
      exact h.held j i a pt cell ((resolves_advance_of_ne hj hc).1 hr) hcell
  · intro j i a cell hr
    by_cases hj : j = k
    · subst hj
      cases (hself i a _ hr).1
    · rw [hcells]
      exact h.busy j i a cell ((resolves_advance_of_ne hj hc).1 hr)
  · intro j j' i a b cell hr hr'
    by_cases hj : j = k
    · subst hj
      cases (hself i a _ hr).1
    · by_cases hj' : j' = k
      · subst hj'
        cases (hself i b _ hr').1
      · exact h.sole j j' i a b cell ((resolves_advance_of_ne hj hc).1 hr) ((resolves_advance_of_ne hj' hc).1 hr')
  · intro i cell hbusy
    rw [hcells] at hbusy
    obtain ⟨j, a, hr⟩ := h.filled i cell hbusy
    have hj : j ≠ k := by
      rintro rfl
      obtain ⟨v, hv, hlv⟩ := hr
      rw [hc] at hv
      cases hv
      rw [hl] at hlv
      cases hlv
    exact ⟨j, a, (resolves_advance_of_ne hj hc).2 hr⟩

/-- `p'` is `p` after the call at the place `k`, which resolves the alias `a` on the record `i` and was at the point
`pt`, did a step of its resolution with the outcome `n` -/
structure Looked (p p' : Pool) (k : Nat) (i : RecordId) (a : String) (pt : LookupPoint) (reply : Reply)
    (n : Call.LookupStep) : Prop where
  resolves : p.Resolves k i a pt
  looks : Call.Looks (p.registry.record i) a reply pt (p'.registry.record i) n
  others : ∀ j, j ≠ i → p'.registry.record j = p.registry.record j
  length : p'.registry.records.length = p.registry.records.length
  self : ∀ j b pt', p'.Resolves k j b pt' → j = i ∧ b = a ∧ (n = .go pt' ∨ n = .wait ∧ pt' = pt)
  goes : ∀ pt', n = .go pt' → p'.Resolves k i a pt'
  elsewhere : ∀ {j}, j ≠ k → ∀ {l b pt'}, p'.Resolves j l b pt' ↔ p.Resolves j l b pt'

theorem looked_advance {p : Pool} (hs : p.Sound) {k : Nat} {u : Underway} (hc : p.call? k = some u) {i : RecordId}
    (hi : i < p.registry.records.length) {a : String} {pt : LookupPoint} (hl : u.call.lookup? = some (i, a, pt))
    (reply : Reply) : ∃ n, p.Looked (p.advance k u.call reply) k i a pt { reply with now := p.now } n := by
  have hreg : (p.advance k u.call reply).registry =
      (Call.advanceLookup p.registry i a { reply with now := p.now } pt).1 :=
    Call.advance_registry_of_lookup? hl
  refine ⟨(Call.advanceLookup p.registry i a { reply with now := p.now } pt).2, ⟨u, hc, hl⟩, ?_, ?_, ?_,
    ?_, ?_, fun hj => resolves_advance_of_ne hj hc⟩
  · rw [hreg]
    exact Call.advanceLookup_looks p.registry hi a { reply with now := p.now } pt
  · intro j hj
    rw [hreg]
    exact Call.record_lookup_of_ne rfl (Ne.symm hj)
  · rw [hreg]
    exact (Call.evolves_lookup hs.coherent rfl).length
  · intro j b pt' hr
    rcases resolves_advance_self hs hc hr with ⟨hnone, -⟩ | ⟨pt₁, hsome, hgo⟩
    · rw [hl] at hnone
      cases hnone
    · rw [hl] at hsome
      cases hsome
      exact ⟨rfl, rfl, hgo⟩
  · intro pt' hn
    obtain ⟨c', hgo, hl'⟩ := Call.advance_of_go hl hn
    refine ⟨{ call := c' }, ?_, hl'⟩
    rw [call?_advance hc, if_pos rfl, hgo]
    rfl

/-- the cell that would be made next on the record belongs to the alias -/
def ownerWith (p : Pool) (owner : RecordId → Nat → String) (i₀ : RecordId) (a₀ : String) (i : RecordId) (cell : Nat) :
    String :=
  if i = i₀ ∧ cell = (p.registry.record i₀).cells.length then a₀ else owner i cell

/-- no slot and no call has the cell that is about to be made, so its owner can still be chosen -/
theorem ownerWith_of_lt {p : Pool} {owner : RecordId → Nat → String} {i₀ i : RecordId} {a₀ : String} {cell : Nat}
    (h : cell < (p.registry.record i).cells.length) : p.ownerWith owner i₀ a₀ i cell = owner i cell := by
  refine if_neg ?_
  rintro ⟨rfl, rfl⟩
  exact lt_irrefl _ h

namespace Looked

variable {p p' : Pool} {k : Nat} {i₀ : RecordId} {a₀ : String} {pt₀ : LookupPoint} {reply : Reply}
  {n : Call.LookupStep} {owner : RecordId → Nat → String}

theorem length_le (h : p.Looked p' k i₀ a₀ pt₀ reply n) (i : RecordId) :
    (p.registry.record i).cells.length ≤ (p'.registry.record i).cells.length := by
  by_cases hi : i = i₀
  · rw [hi]
    exact h.looks.length_le
  · rw [h.others i hi]

theorem slots (h : p.Looked p' k i₀ a₀ pt₀ reply n) (hk : p.Kept owner) (i : RecordId) {e : String × Nat}
    (he : e ∈ (p'.registry.record i).slots) :
    p.ownerWith owner i₀ a₀ i e.2 = e.1 ∧ e.2 < (p'.registry.record i).cells.length := by
  have hkeep (he : e ∈ (p.registry.record i).slots) :
      p.ownerWith owner i₀ a₀ i e.2 = e.1 ∧ e.2 < (p'.registry.record i).cells.length := by
    obtain ⟨ho, hlt⟩ := hk.slots i e he
    exact ⟨(ownerWith_of_lt hlt).trans ho, lt_of_lt_of_le hlt (h.length_le i)⟩
  by_cases hi : i = i₀
  · subst hi
    rcases h.looks.mem_slots he with he | ⟨rfl, hlt⟩
    · exact hkeep he
    · exact ⟨if_pos ⟨rfl, rfl⟩, hlt⟩
  · rw [h.others i hi] at he
    exact hkeep he

theorem held (h : p.Looked p' k i₀ a₀ pt₀ reply n) (hk : p.Kept owner) {j : Nat} {i : RecordId} {a : String}
    {pt : LookupPoint} {cell : Nat} (hr : p'.Resolves j i a pt) (hcell : pt.cell? = some cell) :
    p.ownerWith owner i₀ a₀ i cell = a ∧ cell < (p'.registry.record i).cells.length := by
  have hkeep {pt : LookupPoint} (hr : p.Resolves j i a pt) (hcell : pt.cell? = some cell) :
      p.ownerWith owner i₀ a₀ i cell = a ∧ cell < (p'.registry.record i).cells.length := by
    obtain ⟨ho, hlt⟩ := hk.held j i a pt cell hr hcell
    exact ⟨(ownerWith_of_lt hlt).trans ho, lt_of_lt_of_le hlt (h.length_le i)⟩
  by_cases hj : j = k
  · subst hj
    obtain ⟨rfl, rfl, hn | ⟨-, rfl⟩⟩ := h.self i a pt hr
    · rcases h.looks.cell?_eq_some hn hcell with hslot | hcell
      · exact h.slots hk _ (Record.mem_of_lookup hslot)
      · exact hkeep h.resolves hcell
    · exact hkeep h.resolves hcell
  · exact hkeep ((h.elsewhere hj).1 hr) hcell

/-- a call that asks its context after the step has just begun to, and has found the cell free -/
theorem asks (h : p.Looked p' k i₀ a₀ pt₀ reply n) {i : RecordId} {a : String} {cell : Nat}
    (hr : p'.Resolves k i a (.asking cell)) :
    i = i₀ ∧ (p.registry.record i).cells[cell]? = some ⟨none, false⟩ ∧
      (p'.registry.record i).cells[cell]? = some ⟨none, true⟩ := by
  obtain ⟨rfl, rfl, hn | ⟨hn, heq⟩⟩ := h.self i a _ hr
  · exact ⟨rfl, h.looks.ask_cell hn⟩
  · obtain ⟨cell', hcell'⟩ := h.looks.of_wait hn
    rw [hcell'] at heq
    cases heq

theorem busy (h : p.Looked p' k i₀ a₀ pt₀ reply n) (hk : p.Kept owner) {j : Nat} {i : RecordId} {a : String}
    {cell : Nat} (hr : p'.Resolves j i a (.asking cell)) :
    (p'.registry.record i).cells[cell]? = some ⟨none, true⟩ := by
  by_cases hj : j = k
  · subst hj
    exact (h.asks hr).2.2
  · have hr := (h.elsewhere hj).1 hr
    have hbusy := hk.busy j i a cell hr
    by_cases hi : i = i₀
    · subst hi
      refine h.looks.getElem?_cells hbusy (fun hask => hj ?_) (by simp)
      exact hk.sole j k i a a₀ cell hr (hask ▸ h.resolves)
    · rw [h.others i hi]
      exact hbusy

theorem sole (h : p.Looked p' k i₀ a₀ pt₀ reply n) (hk : p.Kept owner) {j j' : Nat} {i : RecordId} {a b : String}
    {cell : Nat} (hr : p'.Resolves j i a (.asking cell)) (hr' : p'.Resolves j' i b (.asking cell)) : j = j' := by
  have hfree {j : Nat} {a b : String} (hj : j ≠ k) (hrj : p'.Resolves j i a (.asking cell))
      (hrk : p'.Resolves k i b (.asking cell)) : False := by
    have hbusy := hk.busy j i a cell ((h.elsewhere hj).1 hrj)
    rw [(h.asks hrk).2.1] at hbusy
    cases hbusy
  by_cases hj : j = k <;> by_cases hj' : j' = k
  · rw [hj, hj']
  · subst hj
    exact (hfree hj' hr' hr).elim
  · subst hj'
    exact (hfree hj hr hr').elim
  · exact hk.sole j j' i a b cell ((h.elsewhere hj).1 hr) ((h.elsewhere hj').1 hr')

theorem filled (h : p.Looked p' k i₀ a₀ pt₀ reply n) (hk : p.Kept owner) {i : RecordId} {cell : Nat}
    (hbusy : (p'.registry.record i).cells[cell]? = some ⟨none, true⟩) : ∃ j a, p'.Resolves j i a (.asking cell) := by
  have hkeep (hbusy : (p.registry.record i).cells[cell]? = some ⟨none, true⟩) (hpt : i = i₀ → pt₀ ≠ .asking cell) :
      ∃ j a, p'.Resolves j i a (.asking cell) := by
    obtain ⟨j, a, hr⟩ := hk.filled i cell hbusy
    refine ⟨j, a, (h.elsewhere ?_).2 hr⟩
    rintro rfl
    obtain ⟨u, hu, hl⟩ := hr
    obtain ⟨v, hv, hlv⟩ := h.resolves
    rw [hu] at hv
    cases hv
    rw [hl] at hlv
    cases hlv
    exact hpt rfl rfl
  by_cases hi : i = i₀
  · subst hi
    rcases h.looks.busy_cell hbusy with ⟨hold, hpt⟩ | hn
    · exact hkeep hold fun _ => hpt
    · exact ⟨k, a₀, h.goes _ hn⟩
  · rw [h.others i hi] at hbusy
    exact hkeep hbusy fun heq => absurd heq hi

theorem kept (h : p.Looked p' k i₀ a₀ pt₀ reply n) (hk : p.Kept owner) : p'.Kept (p.ownerWith owner i₀ a₀) where
  slots i e := h.slots hk i
  placed j i a pt hr := by
    rw [h.length]
    by_cases hj : j = k
    · subst hj
      rw [(h.self i a pt hr).1]
      exact hk.placed j i₀ a₀ pt₀ h.resolves
    · exact hk.placed j i a pt ((h.elsewhere hj).1 hr)
  held j i a pt cell := h.held hk
  busy j i a cell := h.busy hk
  sole j j' i a b cell := h.sole hk
  filled i cell := h.filled hk

end Looked

theorem lookup?_of_isNew {g : Registry} {c : Call} (h : c.IsNew g = true) {i : RecordId} {a : String}
    {pt : LookupPoint} (hl : c.lookup? = some (i, a, pt)) : pt = .looking ∧ i < g.records.length := by
  unfold Call.IsNew at h
  split at h
  · cases hl
  · cases hl
    exact ⟨rfl, by simpa using h⟩
  · cases h
  · cases h
  · simp [Call.lookup?] at hl
  · simp [Call.lookup?] at hl
  · cases h

theorem kept_enter {p : Pool} {owner : RecordId → Nat → String} (h : p.Kept owner) {c : Call}
    (hc : ∀ i a pt, c.lookup? = some (i, a, pt) → pt = .looking ∧ i < p.registry.records.length) :
    (p.enter c).Kept owner := by
  have hnew : ∀ k i a pt, (p.enter c).Resolves k i a pt → p.Resolves k i a pt ∨ pt = .looking ∧
      i < p.registry.records.length := by
    intro k i a pt hr
    rcases resolves_enter hr with hr | hl
    · exact .inl hr
    · exact .inr (hc i a pt hl)
  refine ⟨h.slots, ?_, ?_, ?_, ?_, ?_⟩
  · intro k i a pt hr
    rcases hnew k i a pt hr with hr | ⟨-, hi⟩
    · exact h.placed k i a pt hr
    · exact hi
  · intro k i a pt cell hr hcell
    rcases hnew k i a pt hr with hr | ⟨rfl, -⟩
    · exact h.held k i a pt cell hr hcell
    · cases hcell
  · intro k i a cell hr
    rcases hnew k i a _ hr with hr | ⟨heq, -⟩
    · exact h.busy k i a cell hr
    · cases heq
  · intro j k i a b cell hr hr'
    rcases hnew j i a _ hr with hr | ⟨heq, -⟩
    · rcases hnew k i b _ hr' with hr' | ⟨heq, -⟩
      · exact h.sole j k i a b cell hr hr'
      · cases heq
    · cases heq
  · intro i cell hbusy
    obtain ⟨k, a, u, hu, hl⟩ := h.filled i cell hbusy
    refine ⟨k, a, u, ?_, hl⟩
    rw [call?_enter, if_neg (lt_of_call? hu).ne]
    exact hu

theorem kept_step {p : Pool} (h : ∃ owner, p.Kept owner) (hs : p.Sound) (m : Move) :
    ∃ owner, (p.step m).Kept owner := by
  obtain ⟨owner, h⟩ := h
  have hm := step_moved p m
  generalize p.step m = p' at hm
  cases hm with
  | enter hc => exact ⟨owner, kept_enter h fun i a pt hl => lookup?_of_isNew hc hl⟩
  | @evict k i due he hdue =>
    have hp : Kept { p with evictions := p.evictions.eraseIdx k } owner :=
      ⟨h.slots, h.placed, h.held, h.busy, h.sole, h.filled⟩
    exact ⟨owner, kept_enter hp fun i a pt hl => by cases hl⟩
  | @ask k c hc hq =>
    have hold : ∀ j i a pt, (p.pose k c).Resolves j i a pt ↔ p.Resolves j i a pt := by
      intro j i a pt
      unfold Resolves
      rw [call?_pose hc]
      by_cases hj : j = k
      · subst hj
        simp [hc]
      · simp [hj]
    refine ⟨owner, h.slots, ?_, ?_, ?_, ?_, ?_⟩ <;> simp only [hold]
    · exact h.placed
    · exact h.held
    · exact h.busy
    · exact h.sole
    · exact h.filled
  | @step k u reply hc hready hlock =>
    cases hl : u.call.lookup? with
    | none => exact ⟨owner, kept_advance_of_none h hs hc hl reply⟩
    | some x =>
      obtain ⟨i, a, pt⟩ := x
      obtain ⟨n, hlooked⟩ := looked_advance hs hc (h.placed k i a pt ⟨u, hc, hl⟩) hl reply
      exact ⟨_, hlooked.kept h⟩
  | @aside m p' hm ha =>
    have hcalls : ∀ j i a pt, p'.Resolves j i a pt ↔ p.Resolves j i a pt := by
      intro j i a pt
      simp only [Resolves, ha.call?]
    refine ⟨owner, ?_, ?_, ?_, ?_, ?_, ?_⟩ <;> simp only [ha.record, ha.records, hcalls]
    · exact h.slots
    · exact h.placed
    · exact h.held
    · exact h.busy
    · exact h.sole
    · exact h.filled
  | idle => exact ⟨owner, h⟩

theorem kept_new (timeout : Nat) : ∃ owner, (new timeout).Kept owner := by
  have hnone : ∀ k i a pt, ¬ (new timeout).Resolves k i a pt := by
    rintro k i a pt ⟨u, hu, -⟩
    cases hu
  refine ⟨fun _ _ => "", ?_, fun k i a pt h => (hnone k i a pt h).elim,
    fun k i a pt cell h => (hnone k i a pt h).elim, fun k i a cell h => (hnone k i a _ h).elim,
    fun j k i a b cell h => (hnone j i a _ h).elim, ?_⟩
  · intro i e he
    rw [record_eq_default (Nat.zero_le i)] at he
    cases he
  · intro i cell h
    rw [record_eq_default (Nat.zero_le i)] at h
    cases h

theorem Reachable.kept {p : Pool} (hp : p.Reachable) : ∃ owner, p.Kept owner :=
  hp.induct kept_new fun _ m hr h => kept_step h hr.sound m

/-- the cell that a context is asked to fill is busy -/
theorem Reachable.busy_cell {p : Pool} (hp : p.Reachable) {k : Nat} {i : RecordId} {a : String} {pt : LookupPoint}
    (hr : p.Resolves k i a pt) {cell : Nat} (hpt : pt = .asking cell) :
    (p.registry.record i).cells[cell]? = some ⟨none, true⟩ := by
  obtain ⟨owner, hk⟩ := hp.kept
  subst hpt
  exact hk.busy k i a cell hr

/-! ## What stays -/

/-- a step of a call on one record is no step on another, or it is a step of a resolution there -/
theorem record_step {p : Pool} (hs : p.Sound) {owner : RecordId → Nat → String} (h : p.Kept owner) (m : Move)
    (i : RecordId) : ((p.step m).registry.record i).store = (p.registry.record i).store ∨
      ∃ k reply a pt n, m = .step k reply ∧ p.Resolves k i a pt ∧
        Call.Looks (p.registry.record i) a { reply with now := p.now } pt ((p.step m).registry.record i) n := by
  have hm := step_moved p m
  generalize p.step m = p' at hm
  cases hm with
  | @step k u reply hc hready hlock =>
    cases hl : u.call.lookup? with
    | none => exact .inl (Call.store_advance hs.coherent hl i)
    | some x =>
      obtain ⟨j, a, pt⟩ := x
      obtain ⟨n, hlooked⟩ := looked_advance hs hc (h.placed k j a pt ⟨u, hc, hl⟩) hl reply
      by_cases hi : i = j
      · subst hi
        exact .inr ⟨k, reply, a, pt, n, rfl, hlooked.resolves, hlooked.looks⟩
      · rw [hlooked.others i hi]
        exact .inl rfl
  | aside hm ha =>
    rw [ha.record]
    exact .inl rfl
  | _ => exact .inl rfl

theorem module?_congr {r r' : Record} (h : r'.store = r.store) (a : String) : r'.module? a = r.module? a := by
  have hcells : r'.cells = r.cells := congrArg Prod.fst h
  have hslots : r'.slots = r.slots := congrArg Prod.snd h
  have hcontent : r'.content? = r.content? := by
    funext cell
    simp [Record.content?, hcells]
  simp only [Record.module?, hslots, hcontent]

/-- a resolved alias keeps its module along every run -/
theorem module?_run {p : Pool} (hp : p.Reachable) {i : RecordId} {a : String} {m : Module}
    (h : (p.registry.record i).module? a = some m) (ms : List Move) :
    ((p.run ms).registry.record i).module? a = some m := by
  induction ms using List.reverseRecOn with
  | nil => exact h
  | append_singleton ms move ih =>
    rw [run_append]
    have hr := hp.run ms
    obtain ⟨owner, hk⟩ := hr.kept
    rcases record_step hr.sound hk move i with hstore | ⟨k, reply, b, pt, n, rfl, hres, hlooks⟩
    · exact (module?_congr hstore a).trans ih
    · exact hlooks.module?_eq_some (fun _ => hr.busy_cell hres) ih

theorem hasResolved_run {p : Pool} (hp : p.Reachable) {i : RecordId} {a : String}
    (h : (p.registry.record i).hasResolved a = true) (ms : List Move) :
    ((p.run ms).registry.record i).hasResolved a = true := by
  obtain ⟨m, hm⟩ := Record.hasResolved_iff.1 h
  exact Record.hasResolved_iff.2 ⟨m, module?_run hp hm ms⟩

/-- a call that resolves another alias on the record does not have the cell in the alias's slot -/
theorem Kept.apart {p : Pool} {owner : RecordId → Nat → String} (h : p.Kept owner) {k : Nat} {i : RecordId} {a b : String}
    {pt : LookupPoint} (hres : p.Resolves k i b pt) (hb : a ≠ b) {cell : Nat}
    (hslot : (p.registry.record i).slots.lookup a = some cell) :
    cell < (p.registry.record i).cells.length ∧ pt.cell? ≠ some cell := by
  obtain ⟨ho, hlt⟩ := h.slots i (a, cell) (Record.mem_of_lookup hslot)
  refine ⟨hlt, fun hcell => hb ?_⟩
  exact ho.symm.trans (h.held k i b pt cell hres hcell).1

/-- no other call resolves the alias on the record -/
def Alone (p : Pool) (k : Nat) (i : RecordId) (a : String) : Prop := ∀ j pt, j ≠ k → ¬ p.Resolves j i a pt

/-- others that resolve other aliases or on other records leave slot and module of an alias alone -/
theorem frame_step {p : Pool} (hp : p.Reachable) {k : Nat} {i : RecordId} {a : String} (ha : p.Alone k i a)
    {m : Move} (hm : m.place? ≠ some k) :
    ((p.step m).registry.record i).slots.lookup a = (p.registry.record i).slots.lookup a ∧
      ((p.step m).registry.record i).module? a = (p.registry.record i).module? a := by
  obtain ⟨owner, hk⟩ := hp.kept
  rcases record_step hp.sound hk m i with hstore | ⟨j, reply, b, pt, n, rfl, hres, hlooks⟩
  · have hslots : ((p.step m).registry.record i).slots = (p.registry.record i).slots := congrArg Prod.snd hstore
    exact ⟨by rw [hslots], module?_congr hstore a⟩
  · have hj : j ≠ k := fun h => hm (by rw [h]; rfl)
    have hb : a ≠ b := by
      rintro rfl
      exact ha j pt hj hres
    exact hlooks.frame hb fun cell => hk.apart hres hb

end Pool

end Redeploy
