/-
The settings that a file gives.

No table of a document has a name twice: the reader of TOML refuses a name that is there already, that of JSON lets the
last one count. `Tidy` says so of a setting, down to its leaves; what stands in a list is not looked at, because lists are
never merged.

A tidy setting is what it becomes when it is merged into nothing. So a document whose names at the top are plain names, and
no paths, amounts to the very tables that stand in it.

Results:
- `Setting.tidy_ofJson`: what is read of a JSON value is tidy;
- `Toml.tidy_of_read`: so is what is read of a TOML document, every statement of which keeps its tables so;
- `Config.Formats.tidy_own`, `Config.tidy_readFile`: so is every file in a format that is read here, and in others if their
  readers keep names unique;
- `Setting.merge_nothing`, **`Setting.override_plain`**: a file with plain names at the top, loaded into nothing;
- `Setting.lookup_change`, `Setting.lookup_mergeEntries`: one name of a tree that is changed.
-/
import Mathlib.Data.List.Nodup
import Redeploy.Config.Load

namespace Redeploy

/-! ## Entries by name -/

section

variable {α : Type} {k : String} {a : α} {es : List (String × α)}

/-- the entries with the one of that name replaced, or added at the end -/
def upsert (name : String) (a : α) : List (String × α) → List (String × α)
  | [] => [(name, a)]
  | (k, b) :: es => if k = name then (k, a) :: es else (k, b) :: upsert name a es

theorem mem_upsert {e : String × α} (he : e ∈ upsert k a es) : e = (k, a) ∨ e ∈ es := by
  induction es with
  | nil => exact .inl (List.mem_singleton.1 he)
  | cons e' es ih =>
    obtain ⟨k', b⟩ := e'
    unfold upsert at he
    split at he
    · rename_i hk
      rcases List.mem_cons.1 he with rfl | he
      · exact .inl (by rw [hk])
      · exact .inr (List.mem_cons_of_mem _ he)
    · rcases List.mem_cons.1 he with rfl | he
      · exact .inr List.mem_cons_self
      · exact (ih he).imp_right (List.mem_cons_of_mem _)

/-- names stay, and the new one is added if it is not among them -/
theorem names_upsert : (upsert k a es).map Prod.fst =
    if k ∈ es.map Prod.fst then es.map Prod.fst else es.map Prod.fst ++ [k] := by
  induction es with
  | nil => rfl
  | cons e es ih =>
    obtain ⟨k', b⟩ := e
    unfold upsert
    split
    · rename_i hk
      simp [hk]
    · rename_i hk
      rw [List.map_cons, ih]
      by_cases hmem : k ∈ es.map Prod.fst
      · simp [hmem]
      · simp [hmem, Ne.symm hk]

theorem nodup_upsert (h : (es.map Prod.fst).Nodup) : ((upsert k a es).map Prod.fst).Nodup := by
  rw [names_upsert]
  split
  · exact h
  · rename_i hnot
    refine List.nodup_append.2 ⟨h, List.nodup_singleton k, ?_⟩
    rintro b hb _ hk rfl
    exact hnot (List.mem_singleton.1 hk ▸ hb)

theorem lookup_upsert (name : String) :
    (upsert k a es).lookup name = if name = k then some a else es.lookup name := by
  induction es with
  | nil => by_cases hname : name = k <;> simp [upsert, List.lookup_cons, beq_eq_decide, hname]
  | cons e es ih =>
    obtain ⟨k', b⟩ := e
    unfold upsert
    split
    · rename_i hk
      subst hk
      by_cases hname : name = k' <;> simp [List.lookup_cons, beq_eq_decide, hname]
    · rename_i hk
      by_cases hname : name = k'
      · subst hname
        simp [hk]
      · have hne : (name == k') = false := by simpa using hname
        rw [List.lookup_cons, List.lookup_cons, hne]
        exact ih

/-- a new name comes last -/
theorem upsert_of_not_mem (h : k ∉ es.map Prod.fst) : upsert k a es = es ++ [(k, a)] := by
  induction es with
  | nil => rfl
  | cons e es ih =>
    obtain ⟨k', b⟩ := e
    rw [List.map_cons, List.mem_cons, not_or] at h
    rw [upsert, if_neg (Ne.symm h.1), ih h.2]
    rfl

theorem mem_of_lookup (h : es.lookup k = some a) : (k, a) ∈ es := by
  obtain ⟨l₁, l₂, hes, -⟩ := List.lookup_eq_some_iff.1 h
  simp [hes]

theorem lookup_eq_none_of_not_mem (h : k ∉ es.map Prod.fst) : es.lookup k = none := by
  rw [List.lookup_eq_none_iff]
  intro e he
  simpa using fun hk : k = e.1 => h (List.mem_map.2 ⟨e, he, hk.symm⟩)

theorem lookup_eq_some_iff_mem (h : (es.map Prod.fst).Nodup) : es.lookup k = some a ↔ (k, a) ∈ es := by
  refine ⟨mem_of_lookup, fun hmem => ?_⟩
  induction es with
  | nil => cases hmem
  | cons e es ih =>
    obtain ⟨hnot, hnames⟩ := List.nodup_cons.1 h
    rcases List.mem_cons.1 hmem with rfl | hmem
    · simp
    · have hne : (k == e.1) = false := by simpa using fun hk : k = e.1 => hnot (hk ▸ List.mem_map_of_mem hmem)
      rw [List.lookup_cons, hne]
      exact ih hnames hmem

/-- where names are unique their order does not matter -/
theorem lookup_of_perm {es' : List (String × α)} (h : (es.map Prod.fst).Nodup) (hp : es'.Perm es) (k : String) :
    es'.lookup k = es.lookup k := by
  have h' : (es'.map Prod.fst).Nodup := (hp.map Prod.fst).nodup_iff.2 h
  ext a
  rw [lookup_eq_some_iff_mem h', lookup_eq_some_iff_mem h, hp.mem_iff]

end

theorem Setting.putEntry_eq (k : String) (v : Setting) (es : List (String × Setting)) :
    Setting.putEntry k v es = upsert k v es := by
  induction es with
  | nil => rfl
  | cons e es ih => simp only [Setting.putEntry, upsert, ih]

theorem Toml.put_eq (k : String) (n : Toml.Node) (es : Toml.Entries) : Toml.put k n es = upsert k n es := by
  induction es with
  | nil => rfl
  | cons e es ih => simp only [Toml.put, upsert, ih]

namespace Setting

/-- no table in the setting has a name twice -/
inductive Tidy : Setting → Prop
  | table {es : List (String × Setting)} (names : (es.map Prod.fst).Nodup) (entries : ∀ e ∈ es, Tidy e.2) :
    Tidy (.table es)
  | leaf {s : Setting} (h : ∀ es, s ≠ .table es) : Tidy s

variable {es : List (String × Setting)} {k : String} {v : Setting}

theorem Tidy.names (h : Tidy (.table es)) : (es.map Prod.fst).Nodup := by
  cases h with
  | table names entries => exact names
  | leaf h => exact absurd rfl (h es)

theorem Tidy.entries (h : Tidy (.table es)) : ∀ e ∈ es, e.2.Tidy := by
  cases h with
  | table names entries => exact entries
  | leaf h => exact absurd rfl (h es)

theorem Tidy.putEntry (h : Tidy (.table es)) (hv : v.Tidy) : Tidy (.table (putEntry k v es)) := by
  rw [putEntry_eq]
  refine .table (nodup_upsert h.names) fun e he => ?_
  rcases mem_upsert he with rfl | he
  · exact hv
  · exact h.entries e he

theorem tidy_nil : Tidy (.table []) := .table List.nodup_nil fun e he => by cases he

/-! ## JSON -/

mutual

theorem tidy_ofJson : (v : Json.Value) → (Setting.ofJson v).Tidy
  | .object members => by
    unfold Setting.ofJson
    exact tidy_ofJsonMembers members tidy_nil
  | .null | .bool _ | .int _ | .float _ | .string _ | .garbled | .array _ => by
    unfold Setting.ofJson
    exact .leaf fun es h => by cases h

theorem tidy_ofJsonMembers {es : List (String × Setting)} : (ms : List (String × Json.Value)) → Tidy (.table es) →
    Tidy (.table (Setting.ofJsonMembers ms es))
  | [], h => by
    unfold Setting.ofJsonMembers
    exact h
  | (k, v) :: ms, h => by
    unfold Setting.ofJsonMembers
    exact tidy_ofJsonMembers ms (h.putEntry (tidy_ofJson v))

end

end Setting

/-! ## TOML -/

namespace Toml

mutual

/-- no table at or below the node has a name twice -/
inductive Node.Tidy : Node → Prop
  | value {s : Setting} (h : s.Tidy) : Node.Tidy (.value s)
  | table {origin : Origin} {es : Entries} (h : Tidy es) : Node.Tidy (.table origin es)
  | tables {elements : List Entries} (h : ∀ es ∈ elements, Tidy es) : Node.Tidy (.tables elements)

/-- so it is for the entries of a table -/
inductive Tidy : Entries → Prop
  | intro {es : Entries} (names : (es.map Prod.fst).Nodup) (nodes : ∀ e ∈ es, Node.Tidy e.2) : Tidy es

end

variable {es es' : Entries} {k : String} {n : Node} {s : Setting}

theorem tidy_nil : Tidy [] := .intro List.nodup_nil fun e he => by cases he

theorem Tidy.lookup (h : Tidy es) (hn : es.lookup k = some n) : n.Tidy := by
  obtain ⟨-, nodes⟩ := h
  exact nodes _ (mem_of_lookup hn)

theorem Tidy.put (h : Tidy es) (hn : n.Tidy) : Tidy (put k n es) := by
  obtain ⟨names, nodes⟩ := h
  rw [put_eq]
  refine .intro (nodup_upsert names) fun e he => ?_
  rcases mem_upsert he with rfl | he
  · exact hn
  · exact nodes e he

/-- a change at the end of a path keeps tables tidy if it keeps the last one so -/
theorem Tidy.change {dotted : Bool} {f : Entries → Option Entries} (hf : ∀ es es', Tidy es → f es = some es' → Tidy es')
    {path : List String} (h : Tidy es) (hc : change dotted f path es = some es') : Tidy es' := by
  induction path generalizing es es' with
  | nil => exact hf es es' h hc
  | cons k path ih =>
    unfold Toml.change at hc
    split at hc
    · obtain ⟨inner, hinner, heq⟩ := Option.bind_eq_some_iff.1 hc
      cases heq
      exact h.put (.table (ih tidy_nil hinner))
    · rename_i origin inner hl
      split at hc
      · cases hc
      · obtain ⟨inner', hinner, heq⟩ := Option.bind_eq_some_iff.1 hc
        cases heq
        cases h.lookup hl with
        | table hold => exact h.put (.table (ih hold hinner))
    · rename_i elements hl
      split at hc
      · cases hc
      · split at hc
        · rename_i last before hrev
          obtain ⟨last', hlast, heq⟩ := Option.bind_eq_some_iff.1 hc
          cases heq
          cases h.lookup hl with
          | tables hold =>
            have hmem {inner : Entries} (hi : inner ∈ last :: before) : Tidy inner :=
              hold inner (List.mem_reverse.1 (hrev ▸ hi))
            refine h.put (.tables fun inner hi => ?_)
            rcases List.mem_append.1 hi with hi | hi
            · exact hmem (List.mem_cons_of_mem _ (List.mem_reverse.1 hi))
            · rw [List.mem_singleton.1 hi]
              exact ih (hmem List.mem_cons_self) hlast
        · cases hc
    · cases hc

theorem Tidy.insert {path : List String} (h : Tidy es) (hs : s.Tidy) (hc : insert path k s es = some es') : Tidy es' := by
  refine h.change ?_ hc
  intro es es' h heq
  split at heq
  · cases heq
  · cases heq
    exact h.put (.value hs)

theorem Tidy.openTable {path : List String} (h : Tidy es) (hc : openTable path k es = some es') : Tidy es' := by
  refine h.change ?_ hc
  intro es es' h heq
  split at heq
  · cases heq
    exact h.put (.table tidy_nil)
  · rename_i inner hl
    cases heq
    cases h.lookup hl with
    | table hinner => exact h.put (.table hinner)
  · cases heq

theorem Tidy.openElement {path : List String} (h : Tidy es) (hc : openElement path k es = some es') : Tidy es' := by
  refine h.change ?_ hc
  intro es es' h heq
  split at heq
  · cases heq
    exact h.put (.tables fun inner hi => List.mem_singleton.1 hi ▸ tidy_nil)
  · rename_i elements hl
    cases heq
    cases h.lookup hl with
    | tables hold =>
      refine h.put (.tables fun inner hi => ?_)
      rcases List.mem_append.1 hi with hi | hi
      · exact hold inner hi
      · rw [List.mem_singleton.1 hi]
        exact tidy_nil
  · cases heq

theorem tidy_tableSetting {es : List (String × Setting)} (h : (Setting.table es).Tidy)
    (hs : tableSetting es = some s) : s.Tidy := by
  unfold tableSetting at hs
  split at hs
  · cases hs
    exact h
  · split at hs
    · cases hs
      exact h
    · split at hs
      · split at hs
        · cases hs
          exact .leaf fun es h => by cases h
        · cases hs
      · cases hs

mutual

theorem Node.Tidy.setting? {s : Setting} : {n : Node} → n.Tidy → n.setting? = some s → s.Tidy
  | .value t, h, hs => by
    unfold Node.setting? at hs
    cases hs
    cases h with
    | value h => exact h
  | .table origin es, h, hs => by
    unfold Node.setting? at hs
    obtain ⟨es', hes, hs⟩ := Option.bind_eq_some_iff.1 hs
    cases h with
    | table h => exact tidy_tableSetting (h.settings? hes).2 hs
  | .tables elements, h, hs => by
    unfold Node.setting? at hs
    obtain ⟨items, -, rfl⟩ := Option.map_eq_some_iff.1 hs
    exact .leaf fun es h => by cases h

theorem Tidy.settings? {es' : List (String × Setting)} : {es : Entries} → Tidy es → settings? es = some es' →
    es'.map Prod.fst = es.map Prod.fst ∧ (Setting.table es').Tidy
  | [], h, hs => by
    unfold Toml.settings? at hs
    cases hs
    exact ⟨rfl, Setting.tidy_nil⟩
  | (k, n) :: es, h, hs => by
    unfold Toml.settings? at hs
    obtain ⟨s, hn, hs⟩ := Option.bind_eq_some_iff.1 hs
    obtain ⟨rest, hrest, heq⟩ := Option.bind_eq_some_iff.1 hs
    cases heq
    obtain ⟨names, nodes⟩ := h
    have hes : Tidy es := .intro (List.nodup_cons.1 names).2 fun e he => nodes e (List.mem_cons_of_mem _ he)
    obtain ⟨hnames, htidy⟩ := hes.settings? hrest
    have hs : s.Tidy := (nodes (k, n) List.mem_cons_self).setting? hn
    refine ⟨by rw [List.map_cons, List.map_cons, hnames], .table ?_ ?_⟩
    · rw [List.map_cons, hnames]
      exact names
    · intro e he
      rcases List.mem_cons.1 he with rfl | he
      · exact hs
      · exact htidy.entries e he

end

theorem scalar?_ne_table {t : List Char} (es : List (String × Setting)) : scalar? t ≠ some (.table es) := by
  intro h
  unfold scalar? at h
  split at h
  -- the eight words, and then numbers
  iterate 8 cases h
  split at h
  split at h
  · dsimp only at h
    rw [Option.ite_none_right_eq_some] at h
    cases h.2
  · split at h
    · split at h
      · cases h
      · cases h
    · cases h

theorem tidy_scalarStart? {t r : List Char} (h : scalarStart? t = some (s, r)) : s.Tidy := by
  refine .leaf ?_
  rintro es rfl
  unfold scalarStart? at h
  split at h
  · cases h
  · obtain ⟨v, hv, heq⟩ := Option.map_eq_some_iff.1 h
    cases heq
    exact scalar?_ne_table es hv

/-- what is read of an array is a list -/
theorem tidy_items? {room fuel : Nat} {acc : List Setting} {t r : List Char}
    (h : items? room fuel acc t = some (s, r)) : s.Tidy := by
  refine .leaf ?_
  rintro es rfl
  induction fuel generalizing acc t with
  | zero =>
    unfold items? at h
    cases h
  | succ fuel ih =>
    unfold items? at h
    split at h
    · cases h
    · split at h
      · cases h
      · split at h
        · exact ih h
        · cases h
        · cases h

theorem tidy_read {fuel : Nat} :
    (∀ {room t s r}, value? room fuel t = some (s, r) → Setting.Tidy s) ∧
      ∀ {room es t s r}, Tidy es → members? room fuel es t = some (s, r) → Setting.Tidy s := by
  have hclose {es : Entries} {t : Setting × List Char} {r : List Char} (hes : Tidy es)
      (h : (Entries.setting? es).map (fun s => (s, r)) = some t) : t.1.Tidy := by
    obtain ⟨s, hs, rfl⟩ := Option.map_eq_some_iff.1 h
    obtain ⟨es', hes', hs⟩ := Option.bind_eq_some_iff.1 hs
    exact tidy_tableSetting (hes.settings? hes').2 hs
  have htext {x : Option (String × List Char)} {t : Setting × List Char}
      (h : x.map (fun e => (Setting.text e.1, e.2)) = some t) : t.1.Tidy := by
    obtain ⟨⟨text, r⟩, -, rfl⟩ := Option.map_eq_some_iff.1 h
    exact .leaf fun es h => by cases h
  induction fuel with
  | zero =>
    constructor
    · intro room t s r h
      unfold value? at h
      cases h
    · intro room es t s r hes h
      unfold members? at h
      cases h
  | succ fuel ih =>
    obtain ⟨ihvalue, ihmembers⟩ := ih
    constructor
    · intro room t s r h
      unfold value? at h
      split at h
      iterate 4 exact htext h
      · split at h
        · cases h
        · exact tidy_items? h
      · split at h
        · cases h
        · exact ihmembers tidy_nil h
      · exact tidy_scalarStart? h
    · intro room es t s r hes h
      unfold members? at h
      split at h
      · exact hclose hes h
      · split at h
        · cases h
        · split at h
          · split at h
            · cases h
            · rename_i v r' hv
              split at h
              · cases h
              · rename_i es' hes'
                have hkept := hes.insert (ihvalue hv) hes'
                split at h
                · exact ihmembers hkept h
                · exact hclose hkept h
                · cases h
          · cases h

theorem tidy_statements? {fuel : Nat} {here : List String} {t : List Char} (h : Tidy es)
    (hs : statements? fuel here es t = some es') : Tidy es' := by
  induction fuel generalizing here es t with
  | zero =>
    unfold statements? at hs
    cases hs
  | succ fuel ih =>
    unfold statements? at hs
    split at hs
    · cases hs
      exact h
    · obtain ⟨⟨ks, r⟩, -, hs⟩ := Option.bind_eq_some_iff.1 hs
      dsimp only at hs
      split at hs
      · obtain ⟨es₁, hopen, hs⟩ := Option.bind_eq_some_iff.1 hs
        obtain ⟨r₁, -, hs⟩ := Option.bind_eq_some_iff.1 hs
        exact ih (h.openElement hopen) hs
      · cases hs
    · obtain ⟨⟨ks, r⟩, -, hs⟩ := Option.bind_eq_some_iff.1 hs
      dsimp only at hs
      split at hs
      · obtain ⟨es₁, hopen, hs⟩ := Option.bind_eq_some_iff.1 hs
        obtain ⟨r₁, -, hs⟩ := Option.bind_eq_some_iff.1 hs
        exact ih (h.openTable hopen) hs
      · cases hs
    · obtain ⟨⟨ks, r⟩, -, hs⟩ := Option.bind_eq_some_iff.1 hs
      dsimp only at hs
      split at hs
      · obtain ⟨⟨v, r₁⟩, hv, hs⟩ := Option.bind_eq_some_iff.1 hs
        obtain ⟨es₁, hput, hs⟩ := Option.bind_eq_some_iff.1 hs
        obtain ⟨r₂, -, hs⟩ := Option.bind_eq_some_iff.1 hs
        refine ih (h.change ?_ hput) hs
        exact fun es es' hes => hes.insert (tidy_read.1 hv)
      · cases hs

theorem tidy_of_read {text : String} {es : List (String × Setting)} (h : read text = some es) :
    (Setting.table es).Tidy := by
  unfold read at h
  dsimp only at h
  split at h
  · rename_i es' hes
    cases h
    obtain ⟨entries, hstatements, hsetting⟩ := Option.bind_eq_some_iff.1 hes
    obtain ⟨es'', hes'', hs⟩ := Option.bind_eq_some_iff.1 hsetting
    exact tidy_tableSetting ((tidy_statements? tidy_nil hstatements).settings? hes'').2 hs
  · cases h

end Toml

namespace Config

theorem tidy_readJson {text : String} {es : List (String × Setting)} (h : readJson text = some es) :
    (Setting.table es).Tidy := by
  unfold readJson at h
  split at h
  · split at h
    · cases h
      exact Setting.tidy_ofJsonMembers _ Setting.tidy_nil
    · cases h
  · cases h

namespace Formats

/-- what the readers give is tidy -/
def Tidy (formats : Formats) : Prop :=
  ∀ extension read text es, formats extension = some read → read text = some es → (Setting.table es).Tidy

theorem tidy_own : own.Tidy := by
  intro extension read text es hread hes
  unfold own at hread
  split at hread
  · cases hread
    exact Toml.tidy_of_read hes
  · cases hread
    exact tidy_readJson hes
  · cases hread

theorem Tidy.or {formats others : Formats} (h : formats.Tidy) (hothers : others.Tidy) : (formats.or others).Tidy := by
  intro extension read text es hread hes
  rcases Option.or_eq_some_iff.1 hread with hread | ⟨-, hread⟩
  · exact h extension read text es hread hes
  · exact hothers extension read text es hread hes

end Formats

/-- **what a file gives is tidy** -/
theorem tidy_readFile {formats : Formats} (h : formats.Tidy) {name text : String} {es : List (String × Setting)}
    (hes : readFile formats name text = .ok es) : (Setting.table es).Tidy := by
  unfold readFile at hes
  split at hes
  · cases hes
  · rename_i read hread
    split at hes
    · rename_i es' hes'
      cases hes
      exact h _ _ _ _ hread hes'
    · cases hes

end Config

/-! ## Loading into nothing -/

namespace Setting

/-- entries under new names are added as they are -/
theorem mergeEntries_of_new {old es : List (String × Setting)} (hnames : (es.map Prod.fst).Nodup)
    (hnew : ∀ e ∈ es, e.1 ∉ old.map Prod.fst) (hes : ∀ e ∈ es, merge nothing e.2 = e.2) :
    mergeEntries old es = old ++ es := by
  induction es generalizing old with
  | nil => simp [mergeEntries]
  | cons e es ih =>
    obtain ⟨k, v⟩ := e
    obtain ⟨hk, hnames⟩ := List.nodup_cons.1 hnames
    have hnot : k ∉ old.map Prod.fst := hnew (k, v) List.mem_cons_self
    have hv : merge nothing v = v := hes (k, v) List.mem_cons_self
    rw [mergeEntries, lookup_eq_none_of_not_mem hnot, Option.getD_none, hv, putEntry_eq, upsert_of_not_mem hnot,
      ih hnames ?_ fun e he => hes e (List.mem_cons_of_mem _ he)]
    · rw [List.append_assoc]
      rfl
    · intro e he hmem
      rw [List.map_append, List.mem_append] at hmem
      rcases hmem with hmem | hmem
      · exact hnew e (List.mem_cons_of_mem _ he) hmem
      · exact hk (List.mem_map.2 ⟨e, he, List.mem_singleton.1 hmem⟩)

/-- a tidy setting is what it becomes when it is merged into nothing -/
theorem merge_nothing {s : Setting} (h : s.Tidy) : merge nothing s = s := by
  induction h with
  | @table es names entries ih =>
    rw [merge, show Setting.entries nothing = [] from rfl, mergeEntries_of_new names (fun e _ h => by cases h) ih,
      List.nil_append]
  | @leaf s h =>
    cases s with
    | table es => exact absurd rfl (h es)
    | _ => rfl

/-- a source is merged name by name -/
theorem override_cons (s : Setting) (k : String) (v : Setting) (es : List (String × Setting)) :
    s.override ((k, v) :: es) =
      if (path k).all Step.isReachable then (s.change (·.merge v) (path k)).override es else none := by
  rw [override, List.foldlM_cons]
  by_cases hreach : (path k).all Step.isReachable
  · simp only [hreach, if_true]
    rfl
  · simp only [hreach]
    rfl

theorem override_of_cons {s d v : Setting} {k : String} {es : List (String × Setting)}
    (h : s.override ((k, v) :: es) = some d) : (s.change (·.merge v) (path k)).override es = some d := by
  rw [override_cons, Option.ite_none_right_eq_some] at h
  exact h.2

/-- a source whose keys are plain names is merged as a table -/
theorem override_plain {old es : List (String × Setting)} (h : ∀ e ∈ es, path e.1 = [.key e.1]) :
    (table old).override es = some (table (mergeEntries old es)) := by
  induction es generalizing old with
  | nil => rfl
  | cons e es ih =>
    obtain ⟨k, v⟩ := e
    have hk : path k = [.key k] := h (k, v) List.mem_cons_self
    have hreach : [Step.key k].all Step.isReachable = true := rfl
    rw [override_cons, hk, if_pos hreach]
    exact ih fun e he => h e (List.mem_cons_of_mem _ he)

/-- every path begins with a name -/
theorem exists_path (key : String) : ∃ k rest, path key = .key k :: rest := by
  unfold path
  dsimp only
  cases hname : name? key.toList with
  | none => exact ⟨key, [], rfl⟩
  | some e =>
    cases hsteps : steps? (e.2.length + 1) e.2 with
    | none => exact ⟨key, [], by simp [hsteps]⟩
    | some rest => exact ⟨e.1, rest, by simp [hsteps]⟩

/-- a change at the end of a path changes what stands under its first name -/
theorem lookup_change (f : Setting → Setting) (k : String) (rest : List Step) (s : Setting) (name : String) :
    (change f (.key k :: rest) s).entries.lookup name =
      if name = k then some (change f rest ((s.entries.lookup k).getD nothing)) else s.entries.lookup name := by
  rw [change, entries, putEntry_eq, lookup_upsert]

/-- tables are merged name by name -/
theorem lookup_mergeEntries {old es : List (String × Setting)} (hnames : (es.map Prod.fst).Nodup) (name : String) :
    (mergeEntries old es).lookup name =
      ((es.lookup name).map (merge ((old.lookup name).getD nothing))).or (old.lookup name) := by
  induction es generalizing old with
  | nil => rfl
  | cons e es ih =>
    obtain ⟨k, v⟩ := e
    obtain ⟨hnot, hnames⟩ := List.nodup_cons.1 hnames
    rw [mergeEntries, ih hnames, putEntry_eq, lookup_upsert, List.lookup_cons]
    by_cases hk : name = k
    · subst hk
      simp [lookup_eq_none_of_not_mem hnot]
    · have hne : (name == k) = false := by simpa using hk
      rw [hne, if_neg hk]

end Setting

end Redeploy
