/-
Where the value of a field comes from.

The configuration has eight fields in three sections. Each has a variable that names it, a place in the file, and a default,
and its value is the first of these that there is (`Field.chosen`), converted to what the field holds. The sources are merged
as trees before anything is converted. Merging is field by field nevertheless, as every variable leads to one leaf of the
tree (`in?_change`), so no field has anything to do with the sources of another one.

A name at the top of a file is followed as a path if it is one. It can so give a field whose section the file does not have,
or take a section for a list and drop all that is in it. Then the order of the names matters too, of which a file has none. So
what a file gives is looked up among its own names (`contents`), for fields that no such path comes to (`Field.Clear`);
nothing is assumed of the format but that tables have unique names. For any names at all the same is true of the tree in which
they have been followed, one after the other (`document`).

It also takes sections that are tables. One that is given as a list, its fields by place, is dropped as a whole when a
variable names one of its fields.

Results:
- `in?_change`, `exists_override`: what variables change in a tree;
- `get_of_ofSetting`, `ofSetting_of_get`: what is read of a tree, field by field;
- `in?_override`, `document_plain`: where the tree is what the file says;
- **`precedence`**: for each field the variable, else the file, else the default;
- `node_id_under_path`: a file with a path for its only name.
-/
import Redeploy.Proofs.Documents
import Redeploy.Proofs.Environment

namespace Redeploy.Config

open Environment

/-- the fields of a configuration -/
inductive Field where
  | networkTimeout
  | nodeId
  | heartbeatTimeout
  | checkInterval
  | level
  | format
  | directives
  | filePath
deriving DecidableEq, Repr

namespace Field

def all : List Field :=
  [networkTimeout, nodeId, heartbeatTimeout, checkInterval, level, format, directives, filePath]

theorem mem_all (f : Field) : f ∈ all := by
  cases f <;> decide

/-- the section of the field -/
def heading : Field → String
  | networkTimeout => "deployment"
  | nodeId | heartbeatTimeout | checkInterval => "membership"
  | level | format | directives | filePath => "logging"

/-- the name in the section -/
def name : Field → String
  | networkTimeout => "network_timeout_ms"
  | nodeId => "node_id"
  | heartbeatTimeout => "heartbeat_timeout_secs"
  | checkInterval => "check_interval_secs"
  | level => "level"
  | format => "format"
  | directives => "directives"
  | filePath => "file_path"

/-- the key of variables that name the field, and of complaints about it -/
def key (f : Field) : String := f.heading ++ "." ++ f.name

def Value : Field → Type
  | networkTimeout | checkInterval => UInt64
  | heartbeatTimeout => Int64
  | nodeId | level => String
  | format => LogFormat
  | directives => List String
  | filePath => Option String

def get (c : Config) : (f : Field) → f.Value
  | networkTimeout => c.deployment.networkTimeout
  | nodeId => c.membership.nodeId
  | heartbeatTimeout => c.membership.heartbeatTimeout
  | checkInterval => c.membership.checkInterval
  | level => c.logging.level
  | format => c.logging.format
  | directives => c.logging.directives
  | filePath => c.logging.filePath

def default (f : Field) : f.Value := get {} f

/-- how the field is converted; complaints name the key -/
def convert : (f : Field) → String → Setting → Except LoadError f.Value
  | networkTimeout | checkInterval => word
  | heartbeatTimeout => signedWord
  | nodeId | level => text
  | format => Config.format
  | directives => texts
  | filePath => optionalText

def read (f : Field) : Setting → Except LoadError f.Value := f.convert f.key

/-- the setting that a tree gives for the field -/
def in? (s : Setting) (f : Field) : Option Setting := (s.entries.lookup f.heading).bind fun t => t.entries.lookup f.name

/-- the value of the variable that names the field; of several the last one counts -/
def said? (environment : List (String × String)) (f : Field) : Option String :=
  (environment.reverse.find? fun e => key? e.1 == some f.key).map Prod.snd

/-- **the first that there is**: what the variable says, what the file gives, the default -/
def chosen (f : Field) (said : Option String) (given : Option Setting) : Except LoadError f.Value :=
  match said, given with
  | some v, _ => f.read (setting v)
  | none, some s => f.read s
  | none, none => .ok f.default

/-- the section of the field is given as a list -/
def Listed (s : Setting) (f : Field) : Prop := ∃ items, s.entries.lookup f.heading = some (.list items)

/-- the section of the field is a table if it is given -/
def Tabled (s : Setting) (f : Field) : Prop := ∀ t, s.entries.lookup f.heading = some t → ∃ es, t = .table es

/-- the path comes to the field: it leads there or on from there, or it takes the section for a list -/
def meets (f : Field) : List Setting.Step → Bool
  | .key h :: .key n :: _ => h == f.heading && n == f.name
  | .key h :: _ => h == f.heading
  | _ => false

/-- no name at the top is a path that comes to the field, but the name of its section -/
def Clear (es : List (String × Setting)) (f : Field) : Prop :=
  ∀ e ∈ es, e.1 ≠ f.heading → f.meets (Setting.path e.1) = false

instance (es : List (String × Setting)) (f : Field) : Decidable (f.Clear es) := inferInstanceAs (Decidable (∀ e ∈ es, _ → _))

end Field

/-- the configuration with these values -/
def ofFields (value : (f : Field) → f.Value) : Config :=
  { deployment := ⟨value .networkTimeout⟩
    membership := ⟨value .nodeId, value .heartbeatTimeout, value .checkInterval⟩
    logging := ⟨value .level, value .format, value .directives, value .filePath⟩ }

/-- the settings at the top of the file at a path, as they stand there; none without a file -/
def contents (formats : Formats) (files : Files) (path : Option String) :
    Except LoadError (List (String × Setting)) :=
  (source formats files path).getD (.ok [])

/-- the tree that they make up, in which names that are paths have been followed -/
def document (formats : Formats) (files : Files) (path : Option String) : Except LoadError Setting := do
  match (Setting.table []).override (← contents formats files path) with
  | some d => pure d
  | none => .error .outOfReach

/-- every variable that counts names a field -/
def NamesFields (environment : List (String × String)) : Prop :=
  ∀ e ∈ environment, ∀ k, key? e.1 = some k → ∃ f : Field, f.key = k

instance (environment : List (String × String)) : Decidable (NamesFields environment) :=
  decidable_of_iff (∀ e ∈ environment, ∀ k ∈ key? e.1, ∃ f ∈ Field.all, f.key = k) (by simp [NamesFields, Field.mem_all])

/-! ## What variables change -/

namespace Field

variable {f g : Field} {s : Setting}

theorem path_key (f : Field) : Setting.path f.key = [.key f.heading, .key f.name] := by
  cases f <;> decide +kernel

theorem path_heading (f : Field) : Setting.path f.heading = [.key f.heading] := by
  cases f <;> decide +kernel

theorem eq_of_places (hheading : f.heading = g.heading) (hname : f.name = g.name) : f = g := by
  revert hheading hname
  cases f <;> cases g <;> decide

theorem eq_of_key_eq (h : f.key = g.key) : f = g := by
  have hpath : Setting.path f.key = Setting.path g.key := by rw [h]
  rw [path_key, path_key] at hpath
  simp only [List.cons.injEq, Setting.Step.key.injEq, and_true] at hpath
  exact eq_of_places hpath.1 hpath.2

theorem said?_cons (e : String × String) (environment : List (String × String)) (f : Field) :
    said? (e :: environment) f =
      (said? environment f).or (if key? e.1 = some f.key then some e.2 else none) := by
  unfold said?
  rw [List.reverse_cons, List.find?_append]
  cases environment.reverse.find? fun e => key? e.1 == some f.key with
  | some e' => rfl
  | none => by_cases he : key? e.1 = some f.key <;> simp [he]

end Field

section

variable {s d m : Setting} {f g : Field} {c : Config}

/-- the tree with the variable of that field and value over it -/
def changed (g : Field) (v : String) (s : Setting) : Setting :=
  s.change (·.merge (setting v)) [.key g.heading, .key g.name]

theorem lookup_changed (g : Field) (v : String) (s : Setting) (heading : String) :
    (changed g v s).entries.lookup heading =
      if heading = g.heading then
        some (.table (upsert g.name (setting v) ((s.entries.lookup g.heading).getD .nothing).entries))
      else s.entries.lookup heading := by
  rw [changed, Setting.lookup_change, Setting.change, Setting.change, merge_setting, Setting.putEntry_eq]

/-- **one leaf changes** -/
theorem in?_change (f g : Field) (v : String) (s : Setting) :
    f.in? (changed g v s) = if f = g then some (setting v) else f.in? s := by
  unfold Field.in?
  rw [lookup_changed]
  by_cases hheading : f.heading = g.heading
  · rw [if_pos hheading, Option.bind_some, Setting.entries, lookup_upsert, hheading]
    by_cases hname : f.name = g.name
    · rw [if_pos hname, if_pos (Field.eq_of_places hheading hname)]
    · have hne : f ≠ g := fun h => hname (h ▸ rfl)
      rw [if_neg hname, if_neg hne]
      cases s.entries.lookup g.heading <;> rfl
  · have hne : f ≠ g := fun h => hheading (h ▸ rfl)
    rw [if_neg hheading, if_neg hne]

/-- a section with a variable's field in it is a list no more -/
theorem listed_of_changed {v : String} (h : f.Listed (changed g v s)) : f.Listed s ∧ f.heading ≠ g.heading := by
  obtain ⟨items, hitems⟩ := h
  rw [lookup_changed] at hitems
  split at hitems
  · cases hitems
  · rename_i hother
    exact ⟨⟨items, hitems⟩, hother⟩

theorem tabled_changed (v : String) (h : f.Tabled s) : f.Tabled (changed g v s) := by
  intro t ht
  rw [lookup_changed] at ht
  split at ht
  · cases ht
    exact ⟨_, rfl⟩
  · exact h t ht

/-- `m` is the tree `d` with the variables over it -/
structure Overridden (environment : List (String × String)) (d m : Setting) : Prop where
  leaves : ∀ f : Field, f.in? m = ((f.said? environment).map setting).or (f.in? d)
  listed : ∀ f : Field, f.Listed m → f.Listed d ∧ f.said? environment = none
  tabled : ∀ f : Field, f.Tabled d → f.Tabled m

/-- variables that name fields are over any tree, one after the other -/
theorem exists_override {environment : List (String × String)} (h : NamesFields environment) (d : Setting) :
    ∃ m, d.override (settings environment) = some m ∧ Overridden environment d m := by
  -- the first variable is merged first and any later one counts more, so the tree has to be general
  induction environment generalizing d with
  | nil => exact ⟨d, rfl, fun f => rfl, fun f hf => ⟨hf, rfl⟩, fun f => id⟩
  | cons e environment ih =>
    have hrest : NamesFields environment := fun e' he' => h e' (List.mem_cons_of_mem _ he')
    cases hkey : key? e.1 with
    | none =>
      have hskip : settings (e :: environment) = settings environment := List.filterMap_cons_none (by simp [hkey])
      have hsaid (f : Field) : f.said? (e :: environment) = f.said? environment := by
        rw [Field.said?_cons, hkey]
        simp
      obtain ⟨m, hm, hover⟩ := ih hrest d
      refine ⟨m, hskip ▸ hm, fun f => ?_, fun f hf => ?_, hover.tabled⟩
      · rw [hsaid, hover.leaves f]
      · rw [hsaid]
        exact hover.listed f hf
    | some k =>
      obtain ⟨g, rfl⟩ := h e List.mem_cons_self k hkey
      have hfirst : settings (e :: environment) = (g.key, setting e.2) :: settings environment :=
        List.filterMap_cons_some (by simp [hkey])
      have hstep : d.override (settings (e :: environment)) = (changed g e.2 d).override (settings environment) := by
        have hreach : [Setting.Step.key g.heading, .key g.name].all Setting.Step.isReachable = true := rfl
        rw [hfirst, Setting.override_cons, Field.path_key, if_pos hreach]
        rfl
      have hsaid {f : Field} (hf : f ≠ g) : f.said? (e :: environment) = f.said? environment := by
        have hother : g.key ≠ f.key := fun hk => hf (Field.eq_of_key_eq hk).symm
        simp [Field.said?_cons, hkey, hother]
      obtain ⟨m, hm, hover⟩ := ih hrest (changed g e.2 d)
      refine ⟨m, hstep ▸ hm, fun f => ?_, fun f hf => ?_, fun f hf => hover.tabled f (tabled_changed e.2 hf)⟩
      · rw [hover.leaves f, in?_change]
        by_cases hfield : f = g
        · subst hfield
          rw [Field.said?_cons, hkey, if_pos rfl, if_pos rfl]
          cases f.said? environment <;> rfl
        · rw [hsaid hfield, if_neg hfield]
      · obtain ⟨hlisted, hnone⟩ := hover.listed f hf
        obtain ⟨hlisted, hheading⟩ := listed_of_changed hlisted
        have hfield : f ≠ g := fun h => hheading (h ▸ rfl)
        exact ⟨hlisted, hsaid hfield ▸ hnone⟩

/-! ## What the names of a file change -/

section

variable {es : List (String × Setting)} {k : String} {rest : List Setting.Step} {v : Setting}

/-- a path that does not come to the field leaves it as it is -/
theorem in?_change_of_not_meets (g : Setting → Setting) (s : Setting) (h : f.meets (.key k :: rest) = false) :
    f.in? (s.change g (.key k :: rest)) = f.in? s ∧ (f.Listed (s.change g (.key k :: rest)) → f.Listed s) := by
  by_cases hk : f.heading = k
  · -- the path goes on to another name in the section, which becomes a table
    subst hk
    cases rest with
    | nil => simp [Field.meets] at h
    | cons step rest =>
      cases step with
      | index i => simp [Field.meets] at h
      | key n =>
        have hn : f.name ≠ n := by
          rintro rfl
          simp [Field.meets] at h
        constructor
        · rw [Field.in?, Setting.lookup_change, if_pos rfl, Option.bind_some, Setting.lookup_change, if_neg hn, Field.in?]
          cases s.entries.lookup f.heading <;> rfl
        · rintro ⟨items, hitems⟩
          rw [Setting.lookup_change, if_pos rfl, Setting.change] at hitems
          cases hitems
  · rw [Field.in?, Field.Listed, Setting.lookup_change, if_neg hk]
    exact ⟨rfl, id⟩

/-- the section of a file is put over a tree that does not give the field -/
theorem in?_merge (hs : f.in? s = none) (hv : v.Tidy) :
    f.in? (s.change (·.merge v) [.key f.heading]) = v.entries.lookup f.name ∧
      (f.Listed (s.change (·.merge v) [.key f.heading]) → ∃ items, v = .list items) := by
  have hold : ((s.entries.lookup f.heading).getD .nothing).entries.lookup f.name = none := by
    unfold Field.in? at hs
    cases hsection : s.entries.lookup f.heading with
    | none => rfl
    | some t =>
      rw [hsection] at hs
      exact hs
  rw [Field.in?, Field.Listed, Setting.lookup_change, if_pos rfl, Setting.change, Option.bind_some]
  cases v with
  | table es =>
    constructor
    · rw [Setting.merge, Setting.entries, Setting.lookup_mergeEntries hv.names, hold, Option.or_none, Setting.entries]
      cases hname : es.lookup f.name with
      | none => rfl
      | some t => exact congrArg some (Setting.merge_nothing (hv.entries _ (mem_of_lookup hname)))
    · rintro ⟨items, hitems⟩
      rw [Setting.merge] at hitems
      cases hitems
  | list items => exact ⟨rfl, fun _ => ⟨items, rfl⟩⟩
  | _ =>
    refine ⟨rfl, ?_⟩
    rintro ⟨items, hitems⟩
    cases hitems

/-- where the file does not give the section, the field is as it was -/
theorem in?_override_of_not_mem (hclear : f.Clear es) (hnot : f.heading ∉ es.map Prod.fst)
    (h : s.override es = some d) : f.in? d = f.in? s ∧ (f.Listed d → f.Listed s) := by
  induction es generalizing s with
  | nil =>
    cases h
    exact ⟨rfl, id⟩
  | cons e es ih =>
    obtain ⟨key, v⟩ := e
    rw [List.map_cons, List.mem_cons, not_or] at hnot
    have hover := Setting.override_of_cons h
    obtain ⟨k, rest, hpath⟩ := Setting.exists_path key
    have hapart := hclear (key, v) List.mem_cons_self (Ne.symm hnot.1)
    rw [hpath] at hapart hover
    obtain ⟨hin, hlisted⟩ := in?_change_of_not_meets (·.merge v) s hapart
    obtain ⟨hin', hlisted'⟩ := ih (fun e he => hclear e (List.mem_cons_of_mem _ he)) hnot.2 hover
    exact ⟨hin'.trans hin, hlisted ∘ hlisted'⟩

/-- **what a file gives is what it says**, if no path comes to the field -/
theorem in?_override (hclear : f.Clear es) (hes : (Setting.table es).Tidy) (hs : f.in? s = none) (hlist : ¬f.Listed s)
    (h : s.override es = some d) :
    f.in? d = f.in? (.table es) ∧ (f.Listed d → f.Listed (.table es)) := by
  induction es generalizing s with
  | nil =>
    cases h
    exact ⟨hs, fun hd => absurd hd hlist⟩
  | cons e es ih =>
    obtain ⟨key, v⟩ := e
    obtain ⟨hnot, hnames⟩ := List.nodup_cons.1 hes.names
    have hrest : f.Clear es := fun e he => hclear e (List.mem_cons_of_mem _ he)
    have hover := Setting.override_of_cons h
    by_cases hkey : f.heading = key
    · -- the section itself, after which nothing comes to the field
      subst hkey
      have hlookup : ((f.heading, v) :: es).lookup f.heading = some v := by simp
      rw [f.path_heading] at hover
      obtain ⟨hin, hlisted⟩ := in?_merge hs (hes.entries _ List.mem_cons_self)
      obtain ⟨hin', hlisted'⟩ := in?_override_of_not_mem hrest hnot hover
      constructor
      · rw [hin', hin, Field.in?, Setting.entries, hlookup, Option.bind_some]
      · intro hd
        obtain ⟨items, rfl⟩ := hlisted (hlisted' hd)
        exact ⟨items, hlookup⟩
    · have hlookup : ((key, v) :: es).lookup f.heading = es.lookup f.heading := by
        have hne : (f.heading == key) = false := by simpa using hkey
        rw [List.lookup_cons, hne]
      obtain ⟨k, rest, hpath⟩ := Setting.exists_path key
      have hapart := hclear (key, v) List.mem_cons_self (Ne.symm hkey)
      rw [hpath] at hapart hover
      obtain ⟨hin, hlisted⟩ := in?_change_of_not_meets (·.merge v) s hapart
      have htidy : (Setting.table es).Tidy := .table hnames fun e he => hes.entries e (List.mem_cons_of_mem _ he)
      obtain ⟨hin', hlisted'⟩ := ih hrest htidy (hin.trans hs) (fun hd => hlist (hlisted hd)) hover
      constructor
      · rw [hin', Field.in?, Field.in?, Setting.entries, Setting.entries, hlookup]
      · intro hd
        obtain ⟨items, hitems⟩ := hlisted' hd
        exact ⟨items, hlookup.trans hitems⟩

end

/-! ## What is read of a tree -/

/-- the setting converted, or the default -/
def Field.orDefault (f : Field) (given : Option Setting) : Except LoadError f.Value :=
  match given with
  | some s => f.read s
  | none => .ok f.default

theorem Field.chosen_eq (f : Field) (said : Option String) (given : Option Setting) :
    f.chosen said given = f.orDefault ((said.map setting).or given) := by
  cases said <;> cases given <;> rfl

theorem bind_eq_ok_iff {α β : Type} {x : Except LoadError α} {f : α → Except LoadError β} {b : β} :
    (x >>= f) = .ok b ↔ ∃ a, x = .ok a ∧ f a = .ok b := by
  cases x with
  | ok a => exact ⟨fun h => ⟨a, rfl, h⟩, fun ⟨_, ha, h⟩ => Except.ok.inj ha ▸ h⟩
  | error e => exact ⟨fun h => (nomatch h), fun ⟨_, ha, _⟩ => (nomatch ha)⟩

/-- what stands under a name, converted under its key, or the default -/
theorem field_entries {α : Type} (name : String) (key : String → String) (otherwise : α)
    (read : String → Setting → Except LoadError α) (es : List (String × Setting)) :
    field name otherwise read (es.map fun e => (e.1, key e.1, e.2)) =
      match es.lookup name with
      | some s => read (key name) s
      | none => .ok otherwise := by
  have hlookup : (es.map fun e => (e.1, key e.1, e.2)).lookup name = (es.lookup name).map fun s => (key name, s) := by
    induction es with
    | nil => rfl
    | cons e es ih =>
      rw [List.map_cons, List.lookup_cons, List.lookup_cons]
      split
      · rename_i hname
        rw [← beq_iff_eq.1 hname]
        rfl
      · exact ih
  rw [field, hlookup]
  cases es.lookup name <;> rfl

section

variable {es : List (String × Setting)}

theorem Field.orDefault_lookup (f : Field) (es : List (String × Setting)) :
    f.orDefault (es.lookup f.name) =
      field f.name f.default f.convert (es.map fun e => (e.1, f.heading ++ "." ++ e.1, e.2)) := by
  rw [field_entries f.name (f.heading ++ "." ++ ·)]
  rfl

theorem deploymentOf_eq_ok {c : DeploymentConfig} :
    deploymentOf "deployment" (.table es) = .ok c ↔
      Field.networkTimeout.orDefault (es.lookup Field.networkTimeout.name) = .ok c.networkTimeout := by
  have hread : deploymentOf "deployment" (.table es) = do
      let networkTimeout ← Field.networkTimeout.orDefault (es.lookup Field.networkTimeout.name)
      return { networkTimeout } := by
    rw [Field.orDefault_lookup]
    rfl
  rw [hread, bind_eq_ok_iff]
  constructor
  · rintro ⟨n, hn, heq⟩
    cases heq
    exact hn
  · intro hn
    exact ⟨_, hn, rfl⟩

theorem membershipOf_eq_ok {c : MembershipConfig} :
    membershipOf "membership" (.table es) = .ok c ↔
      Field.nodeId.orDefault (es.lookup Field.nodeId.name) = .ok c.nodeId ∧
      Field.heartbeatTimeout.orDefault (es.lookup Field.heartbeatTimeout.name) = .ok c.heartbeatTimeout ∧
      Field.checkInterval.orDefault (es.lookup Field.checkInterval.name) = .ok c.checkInterval := by
  have hread : membershipOf "membership" (.table es) = do
      let nodeId ← Field.nodeId.orDefault (es.lookup Field.nodeId.name)
      let heartbeatTimeout ← Field.heartbeatTimeout.orDefault (es.lookup Field.heartbeatTimeout.name)
      let checkInterval ← Field.checkInterval.orDefault (es.lookup Field.checkInterval.name)
      return { nodeId, heartbeatTimeout, checkInterval } := by
    simp only [Field.orDefault_lookup]
    rfl
  rw [hread]
  simp only [bind_eq_ok_iff]
  constructor
  · rintro ⟨i, hi, t, ht, n, hn, heq⟩
    cases heq
    exact ⟨hi, ht, hn⟩
  · rintro ⟨hi, ht, hn⟩
    exact ⟨_, hi, _, ht, _, hn, rfl⟩

theorem loggingOf_eq_ok {c : LoggingConfig} :
    loggingOf "logging" (.table es) = .ok c ↔
      Field.level.orDefault (es.lookup Field.level.name) = .ok c.level ∧
      Field.format.orDefault (es.lookup Field.format.name) = .ok c.format ∧
      Field.directives.orDefault (es.lookup Field.directives.name) = .ok c.directives ∧
      Field.filePath.orDefault (es.lookup Field.filePath.name) = .ok c.filePath := by
  have hread : loggingOf "logging" (.table es) = do
      let level ← Field.level.orDefault (es.lookup Field.level.name)
      let format ← Field.format.orDefault (es.lookup Field.format.name)
      let directives ← Field.directives.orDefault (es.lookup Field.directives.name)
      let filePath ← Field.filePath.orDefault (es.lookup Field.filePath.name)
      return { level, format, directives, filePath } := by
    simp only [Field.orDefault_lookup]
    rfl
  rw [hread]
  simp only [bind_eq_ok_iff]
  constructor
  · rintro ⟨l, hl, f, hf, ds, hds, p, hp, heq⟩
    cases heq
    exact ⟨hl, hf, hds, hp⟩
  · rintro ⟨hl, hf, hds, hp⟩
    exact ⟨_, hl, _, hf, _, hds, _, hp, rfl⟩

end

/-- the entries of a section -/
def entriesOf (s : Setting) (heading : String) : List (String × Setting) :=
  ((s.entries.lookup heading).getD (.table [])).entries

theorem in?_eq (f : Field) (s : Setting) : f.in? s = (entriesOf s f.heading).lookup f.name := by
  unfold Field.in? entriesOf
  cases s.entries.lookup f.heading <;> rfl

section

variable {α : Type} {heading : String} {names : List String} {otherwise a : α}
  {make : List (String × String × Setting) → Except LoadError α}

/-- a section has been read of the table that it is, unless it is a list; of a missing one it is as of an empty one -/
theorem read_of_section (hempty : (fields heading names (.table []) >>= make) = .ok otherwise)
    (hlist : ¬∃ items, s.entries.lookup heading = some (.list items))
    (h : field heading otherwise (fun key t => fields key names t >>= make)
      (s.entries.map fun e => (e.1, id e.1, e.2)) = .ok a) :
    (fields heading names (.table (entriesOf s heading)) >>= make) = .ok a := by
  rw [field_entries] at h
  unfold entriesOf
  cases ht : s.entries.lookup heading with
  | none =>
    rw [ht] at h
    cases h
    exact hempty
  | some t =>
    rw [ht] at h
    cases t with
    | table es => exact h
    | list items => exact absurd ⟨items, ht⟩ hlist
    | _ => cases h

theorem section_of_read (hempty : (fields heading names (.table []) >>= make) = .ok otherwise)
    (htable : ∀ t, s.entries.lookup heading = some t → ∃ es, t = .table es)
    (h : (fields heading names (.table (entriesOf s heading)) >>= make) = .ok a) :
    field heading otherwise (fun key t => fields key names t >>= make)
      (s.entries.map fun e => (e.1, id e.1, e.2)) = .ok a := by
  rw [field_entries]
  unfold entriesOf at h
  cases ht : s.entries.lookup heading with
  | none =>
    rw [ht] at h
    exact hempty ▸ h
  | some t =>
    rw [ht] at h
    obtain ⟨es, rfl⟩ := htable t ht
    exact h

end

theorem ofSetting_eq_ok :
    ofSetting s = .ok c ↔
      field "deployment" {} deploymentOf (s.entries.map fun e => (e.1, id e.1, e.2)) = .ok c.deployment ∧
      field "membership" {} membershipOf (s.entries.map fun e => (e.1, id e.1, e.2)) = .ok c.membership ∧
      field "logging" {} loggingOf (s.entries.map fun e => (e.1, id e.1, e.2)) = .ok c.logging := by
  unfold ofSetting
  simp only [bind_eq_ok_iff]
  constructor
  · rintro ⟨d, hd, m, hm, l, hl, heq⟩
    cases heq
    exact ⟨hd, hm, hl⟩
  · rintro ⟨hd, hm, hl⟩
    exact ⟨_, hd, _, hm, _, hl, rfl⟩

/-- every field of what is read of a tree is what the tree gives, or its default -/
theorem get_of_ofSetting (h : ofSetting s = .ok c) (hf : ¬f.Listed s) : f.orDefault (f.in? s) = .ok (f.get c) := by
  obtain ⟨hd, hm, hl⟩ := ofSetting_eq_ok.1 h
  rw [in?_eq]
  cases f with
  | networkTimeout => exact deploymentOf_eq_ok.1 (read_of_section rfl hf hd)
  | nodeId => exact (membershipOf_eq_ok.1 (read_of_section rfl hf hm)).1
  | heartbeatTimeout => exact (membershipOf_eq_ok.1 (read_of_section rfl hf hm)).2.1
  | checkInterval => exact (membershipOf_eq_ok.1 (read_of_section rfl hf hm)).2.2
  | level => exact (loggingOf_eq_ok.1 (read_of_section rfl hf hl)).1
  | format => exact (loggingOf_eq_ok.1 (read_of_section rfl hf hl)).2.1
  | directives => exact (loggingOf_eq_ok.1 (read_of_section rfl hf hl)).2.2.1
  | filePath => exact (loggingOf_eq_ok.1 (read_of_section rfl hf hl)).2.2.2

/-- a tree of tables is read when each field is -/
theorem ofSetting_of_get (htable : ∀ f : Field, f.Tabled s) (h : ∀ f : Field, f.orDefault (f.in? s) = .ok (f.get c)) :
    ofSetting s = .ok c := by
  simp only [in?_eq] at h
  refine ofSetting_eq_ok.2 ⟨?_, ?_, ?_⟩
  · exact section_of_read rfl (htable .networkTimeout) (deploymentOf_eq_ok.2 (h .networkTimeout))
  · exact section_of_read rfl (htable .nodeId)
      (membershipOf_eq_ok.2 ⟨h .nodeId, h .heartbeatTimeout, h .checkInterval⟩)
  · exact section_of_read rfl (htable .level)
      (loggingOf_eq_ok.2 ⟨h .level, h .format, h .directives, h .filePath⟩)

/-! ## Loading -/

section

variable {formats : Formats} {files : Files} {path : Option String} {environment : List (String × String)}
  {es : List (String × Setting)}

theorem loadFrom_eq (formats : Formats) (files : Files) (path : Option String) (environment : List (String × String)) :
    loadFrom formats files path environment = document formats files path >>= fun d =>
      match d.override (settings environment) with
      | some m => ofSetting m
      | none => .error .outOfReach := by
  have hload : loadFrom formats files path environment = contents formats files path >>= fun es =>
      match ((Setting.table []).override es).bind (·.override (settings environment)) with
      | some m => ofSetting m
      | none => .error .outOfReach := by
    unfold loadFrom load contents
    cases source formats files path <;> rfl
  rw [hload, document]
  cases contents formats files path with
  | error e => rfl
  | ok es =>
    cases hover : (Setting.table []).override es with
    | none => simp [bind, Except.bind, hover]
    | some d => simp [bind, Except.bind, pure, Except.pure, hover]

theorem source_of_missing {p : String} (h : files p = .nothing) : source formats files (some p) = none := by
  simp [source, h]

theorem tidy_contents (hformats : formats.Tidy) (h : contents formats files path = .ok es) :
    (Setting.table es).Tidy := by
  unfold contents source at h
  split at h
  · cases h
    exact Setting.tidy_nil
  · cases h
    exact Setting.tidy_nil
  · exact tidy_readFile hformats h
  · cases h

theorem override_of_document (hes : contents formats files path = .ok es) (hd : document formats files path = .ok d) :
    (Setting.table []).override es = some d := by
  rw [document, hes] at hd
  cases hover : (Setting.table []).override es with
  | none => simp [bind, Except.bind, hover] at hd
  | some d' =>
    simp only [bind, Except.bind, hover, pure, Except.pure, Except.ok.injEq] at hd
    rw [hd]

/-- where no path comes to a field, the tree has what the file says -/
theorem in?_document (hformats : formats.Tidy) (hes : contents formats files path = .ok es)
    (hd : document formats files path = .ok d) (hclear : f.Clear es) :
    f.in? d = f.in? (.table es) ∧ (f.Listed d → f.Listed (.table es)) := by
  have hempty : ¬f.Listed (.table []) := by
    rintro ⟨items, hitems⟩
    cases hitems
  exact in?_override hclear (tidy_contents hformats hes) rfl hempty (override_of_document hes hd)

theorem document_plain (hformats : formats.Tidy) (hes : contents formats files path = .ok es)
    (hplain : ∀ e ∈ es, Setting.path e.1 = [.key e.1]) : document formats files path = .ok (.table es) := by
  have hmerge : Setting.mergeEntries [] es = es := by
    have hnothing := Setting.merge_nothing (tidy_contents hformats hes)
    simpa [Setting.merge, Setting.entries] using hnothing
  simp [document, hes, Setting.override_plain hplain, hmerge, bind, Except.bind, pure, Except.pure]

theorem document_of_loadFrom (hload : loadFrom formats files path environment = .ok c) :
    ∃ es d, contents formats files path = .ok es ∧ document formats files path = .ok d := by
  rw [loadFrom_eq] at hload
  obtain ⟨d, hd, -⟩ := bind_eq_ok_iff.1 hload
  have hes := hd
  rw [document] at hes
  obtain ⟨es, hes, -⟩ := bind_eq_ok_iff.1 hes
  exact ⟨es, d, hes, hd⟩

theorem loadFrom_of_document (henv : NamesFields environment) (hd : document formats files path = .ok d) :
    ∃ m, Overridden environment d m ∧ loadFrom formats files path environment = ofSetting m := by
  obtain ⟨m, hm, hover⟩ := exists_override henv d
  refine ⟨m, hover, ?_⟩
  rw [loadFrom_eq, hd]
  simp only [bind, Except.bind, hm]

theorem chosen_of_document (henv : NamesFields environment) (hd : document formats files path = .ok d)
    (hload : loadFrom formats files path environment = .ok c) (hf : f.said? environment = none → ¬f.Listed d) :
    f.chosen (f.said? environment) (f.in? d) = .ok (f.get c) := by
  obtain ⟨m, hover, hm⟩ := loadFrom_of_document henv hd
  rw [hm] at hload
  -- what is still a list after the merge was one before, and no variable names the field
  have hlisted : ¬f.Listed m := fun h => hf (hover.listed f h).2 (hover.listed f h).1
  rw [Field.chosen_eq, ← hover.leaves]
  exact get_of_ofSetting hload hlisted

theorem chosen_of_contents (hformats : formats.Tidy) (henv : NamesFields environment)
    (hes : contents formats files path = .ok es) (hload : loadFrom formats files path environment = .ok c)
    (hclear : f.Clear es) (hf : f.said? environment = none → ¬f.Listed (.table es)) :
    f.chosen (f.said? environment) (f.in? (.table es)) = .ok (f.get c) := by
  obtain ⟨-, d, -, hd⟩ := document_of_loadFrom hload
  obtain ⟨hin, hlisted⟩ := in?_document hformats hes hd hclear
  rw [← hin]
  exact chosen_of_document henv hd hload fun hnone h => hf hnone (hlisted h)

theorem loadFrom_of_chosen (henv : NamesFields environment) (hd : document formats files path = .ok d)
    (htable : ∀ f : Field, f.Tabled d) (h : ∀ f : Field, f.chosen (f.said? environment) (f.in? d) = .ok (f.get c)) :
    loadFrom formats files path environment = .ok c := by
  obtain ⟨m, hover, hm⟩ := loadFrom_of_document henv hd
  rw [hm]
  refine ofSetting_of_get (fun f => hover.tabled f (htable f)) fun f => ?_
  rw [hover.leaves, ← Field.chosen_eq]
  exact h f

/-- the order of the names at the top does not matter to a field -/
theorem Field.of_perm {es' : List (String × Setting)} (hnames : (es.map Prod.fst).Nodup) (hp : es'.Perm es) (f : Field) :
    (f.Clear es' ↔ f.Clear es) ∧ (f.Listed (.table es') ↔ f.Listed (.table es)) ∧
      f.in? (.table es') = f.in? (.table es) := by
  have hlookup : es'.lookup f.heading = es.lookup f.heading := lookup_of_perm hnames hp f.heading
  unfold Field.Clear Field.Listed Field.in?
  simp only [Setting.entries, hlookup, hp.mem_iff, true_and]

end

/-- **precedence of sources**, for variables that name fields and a file in any format that keeps names unique. In a
configuration that is loaded, each field has what its variable says, else what the file gives, else the default, unless
another name at the top of the file is a path that comes to the field, or its section is a list. A field that has the same
sources in two loads has the same value, whatever the others have. The order of the names at the top does not matter either.
A path that leads nowhere is as good as none.

Where names are paths, the same is true of the tree in which they have been followed. If its sections are tables and every
field can be converted then the configuration is loaded. The tree is the file itself if its names at the top are plain. -/
theorem precedence {formats : Formats} {files : Files} {path : Option String} {environment : List (String × String)}
    (hformats : formats.Tidy) (henv : NamesFields environment) :
    (∀ c, loadFrom formats files path environment = .ok c → ∃ es, contents formats files path = .ok es ∧
      ∀ f : Field, f.Clear es → (f.said? environment = none → ¬f.Listed (.table es)) →
        f.chosen (f.said? environment) (f.in? (.table es)) = .ok (f.get c)) ∧
    (∀ formats' files' path' environment' es es' c c', formats'.Tidy → NamesFields environment' →
      contents formats files path = .ok es → contents formats' files' path' = .ok es' →
      loadFrom formats files path environment = .ok c → loadFrom formats' files' path' environment' = .ok c' →
      ∀ f : Field, f.Clear es → f.Clear es' →
        (f.said? environment = none → ¬f.Listed (.table es) ∧ ¬f.Listed (.table es')) →
        f.said? environment = f.said? environment' → f.in? (.table es) = f.in? (.table es') → f.get c = f.get c') ∧
    (∀ formats' files' path' es es' c c', formats'.Tidy →
      contents formats files path = .ok es → contents formats' files' path' = .ok es' → es'.Perm es →
      loadFrom formats files path environment = .ok c → loadFrom formats' files' path' environment = .ok c' →
      ∀ f : Field, f.Clear es → (f.said? environment = none → ¬f.Listed (.table es)) → f.get c = f.get c') ∧
    (∀ p, path = some p → files p = .nothing → loadFrom formats files path environment = load none environment) ∧
    (∀ d, document formats files path = .ok d →
      (∀ c, loadFrom formats files path environment = .ok c → ∀ f : Field, (f.said? environment = none → ¬f.Listed d) →
        f.chosen (f.said? environment) (f.in? d) = .ok (f.get c)) ∧
      ∀ value : (f : Field) → f.Value, (∀ f : Field, f.Tabled d) →
        (∀ f : Field, f.chosen (f.said? environment) (f.in? d) = .ok (value f)) →
        loadFrom formats files path environment = .ok (ofFields value)) ∧
    ∀ es, contents formats files path = .ok es → (∀ e ∈ es, Setting.path e.1 = [.key e.1]) →
      document formats files path = .ok (.table es) := by
  refine ⟨?_, ?_, ?_, ?_, ?_, ?_⟩
  · intro c hload
    obtain ⟨es, -, hes, -⟩ := document_of_loadFrom hload
    exact ⟨es, hes, fun f => chosen_of_contents hformats henv hes hload⟩
  · intro formats' files' path' environment' es es' c c' hformats' henv' hes hes' hload hload' f hf hf' hlisted hsaid hin
    have hc := chosen_of_contents hformats henv hes hload hf fun hnone => (hlisted hnone).1
    have hc' := chosen_of_contents hformats' henv' hes' hload' hf' fun hnone => (hlisted (hsaid.trans hnone)).2
    rw [hsaid, hin] at hc
    exact Except.ok.inj (hc.symm.trans hc')
  · intro formats' files' path' es es' c c' hformats' hes hes' hp hload hload' f hf hlisted
    obtain ⟨hclear, hlist, hin⟩ := Field.of_perm (tidy_contents hformats hes).names hp f
    have hc := chosen_of_contents hformats henv hes hload hf hlisted
    have hc' := chosen_of_contents hformats' henv hes' hload' (hclear.2 hf) fun hnone h => hlisted hnone (hlist.1 h)
    rw [hin] at hc'
    exact Except.ok.inj (hc.symm.trans hc')
  · rintro p rfl hmissing
    rw [loadFrom, source_of_missing hmissing]
  · intro d hd
    refine ⟨fun c hload f => chosen_of_document henv hd hload, fun value htable h => ?_⟩
    refine loadFrom_of_chosen henv hd htable fun f => ?_
    rw [h f]
    cases f <;> rfl
  · exact fun es => document_plain hformats

/-- of one section, a field from its variable although the file gives it, one from the file, and one that has its default, in a
format that is read here and in one that is not. `HOME` does not count, and a variable for the third field would leave the
second one as it is. -/
theorem node_id_over_file :
    let toml := "[membership]\nnode_id = \"north\"\nheartbeat_timeout_secs = 45\n"
    let ini := "[membership]\nnode_id=north\nheartbeat_timeout_secs=45\n"
    let es := [("membership", Setting.table [("node_id", .text "north"), ("heartbeat_timeout_secs", .text "45")])]
    let formats := Formats.own.or fun extension =>
      if extension = "ini" then some fun text => if text = ini then some es else none else none
    let files : Files := fun p =>
      if p = "/etc/node.toml" then .file "node.toml" toml
      else if p = "/etc/node.ini" then .file "node.ini" ini
      else .nothing
    let environment := [("PEERDEPLOY_MEMBERSHIP__NODE_ID", "south"), ("HOME", "/root")]
    let environment' := [("PEERDEPLOY_MEMBERSHIP__CHECK_INTERVAL_SECS", "7")]
    let loaded : Config := { membership := { nodeId := "south", heartbeatTimeout := 45, checkInterval := 10 } }
    formats.Tidy ∧ NamesFields environment ∧
      loadFrom formats files (some "/etc/node.toml") environment = .ok loaded ∧
      loadFrom formats files (some "/etc/node.ini") environment = .ok loaded ∧
      loadFrom formats files (some "/etc/none.toml") environment = load none environment ∧
      contents formats files (some "/etc/node.ini") = .ok es ∧ Field.nodeId.Clear es ∧
      Field.nodeId.chosen (some "south") (Field.nodeId.in? (.table es)) = .ok "south" ∧
      Field.heartbeatTimeout.chosen none (Field.heartbeatTimeout.in? (.table es)) = .ok (45 : Int64) ∧
      ∀ c, loadFrom formats files (some "/etc/node.ini") environment' = .ok c → c.membership.heartbeatTimeout = 45 := by
  intro toml ini es formats files environment environment' loaded
  have hformats : formats.Tidy := by
    refine Formats.tidy_own.or fun extension read text es' hread hes' => ?_
    obtain ⟨-, rfl⟩ : extension = "ini" ∧ _ = read := by simpa using hread
    obtain ⟨-, rfl⟩ : text = ini ∧ es = es' := by simpa using hes'
    refine .table (by decide) fun e he => ?_
    obtain rfl := List.mem_singleton.1 he
    refine .table (by decide) fun e he => .leaf fun _ htable => ?_
    simp only [List.mem_cons, List.not_mem_nil, or_false] at he
    rcases he with rfl | rfl
    · cases htable
    · cases htable
  have henv : NamesFields environment := by decide +kernel
  have henv' : NamesFields environment' := by decide +kernel
  have htoml : loadFrom formats files (some "/etc/node.toml") environment = .ok loaded := by decide +kernel
  have hini : loadFrom formats files (some "/etc/node.ini") environment = .ok loaded := by decide +kernel
  have hes : contents formats files (some "/etc/node.ini") = .ok es := by
    have hextension : extension "node.ini" = "ini" := by decide +kernel
    have hmark : withoutMark ini = ini := by decide +kernel
    simp [contents, source, files, readFile, formats, Formats.or, Formats.own, hextension, hmark]
  have hclear : Field.nodeId.Clear es := by decide +kernel
  have hclear' : Field.heartbeatTimeout.Clear es := by decide +kernel
  have hlisted : ¬Field.heartbeatTimeout.Listed (.table es) := by
    rintro ⟨items, hitems⟩
    simp [es, Setting.entries, Field.heading] at hitems
  have hsouth : Field.nodeId.said? environment = some "south" := by decide +kernel
  have hsilent : Field.heartbeatTimeout.said? environment = none := by decide +kernel
  have hsilent' : Field.heartbeatTimeout.said? environment' = none := by decide +kernel
  obtain ⟨hchosen, halone, -⟩ := @precedence formats files (some "/etc/node.ini") environment hformats henv
  obtain ⟨es', hes', hchosen⟩ := hchosen loaded hini
  obtain rfl := Except.ok.inj (hes.symm.trans hes')
  have hid := hchosen .nodeId hclear fun hnone => absurd (hsouth.symm.trans hnone) (Option.some_ne_none _)
  have hheart := hchosen .heartbeatTimeout hclear' fun _ => hlisted
  rw [hsouth] at hid
  rw [hsilent] at hheart
  obtain ⟨-, -, -, hmissing, -⟩ := @precedence formats files (some "/etc/none.toml") environment hformats henv
  refine ⟨hformats, henv, htoml, hini, hmissing _ rfl rfl, hes, hclear, hid, hheart, fun c hc => ?_⟩
  exact (halone _ _ _ _ _ _ _ _ hformats henv' hes hes hini hc .heartbeatTimeout hclear' hclear'
    (fun _ => ⟨hlisted, hlisted⟩) (hsilent.trans hsilent'.symm) rfl).symm

/-- **a name that is a path**: the only name in the file leads to a place in a section. There is no table for the section, and
yet its first field does not have its default, and has it again once a variable names another field. -/
theorem node_id_under_path :
    let files : Files := fun _ => .file "node.json" "\x7b\"membership[0]\": \"z\"\x7d"
    let environment := [("PEERDEPLOY_MEMBERSHIP__CHECK_INTERVAL_SECS", "7")]
    NamesFields [] ∧ NamesFields environment ∧
      loadFrom .own files (some "node.json") [] = .ok { membership := { nodeId := "z" } } ∧
      loadFrom .own files (some "node.json") environment = .ok { membership := { checkInterval := 7 } } ∧
      (∃ es, contents .own files (some "node.json") = .ok es ∧ (∀ f : Field, f.Tabled (.table es)) ∧
        ¬∀ c, loadFrom .own files (some "node.json") [] = .ok c →
          Field.nodeId.chosen none (Field.nodeId.in? (.table es)) = .ok (Field.nodeId.get c)) ∧
      ¬∀ c c', loadFrom .own files (some "node.json") [] = .ok c →
        loadFrom .own files (some "node.json") environment = .ok c' → Field.nodeId.get c = Field.nodeId.get c' := by
  intro files environment
  have hload : loadFrom .own files (some "node.json") [] = .ok { membership := { nodeId := "z" } } := by decide +kernel
  have hload' : loadFrom .own files (some "node.json") environment = .ok { membership := { checkInterval := 7 } } := by
    decide +kernel
  obtain ⟨es, -, hes, -⟩ := document_of_loadFrom hload
  have hnames : (contents .own files (some "node.json")).toOption.map (·.map Prod.fst) = some ["membership[0]"] := by
    decide +kernel
  rw [hes] at hnames
  have hlookup (f : Field) : es.lookup f.heading = none := by
    refine lookup_eq_none_of_not_mem ?_
    rw [show es.map Prod.fst = ["membership[0]"] from Option.some.inj hnames]
    cases f <;> decide
  refine ⟨by decide, by decide +kernel, hload, hload', ⟨es, hes, fun f t ht => ?_, fun hall => ?_⟩, fun hall => ?_⟩
  · cases (hlookup f).symm.trans ht
  · have hid := hall _ hload
    have hnone : Field.nodeId.in? (.table es) = none := by
      unfold Field.in?
      rw [Setting.entries, hlookup]
      rfl
    rw [hnone] at hid
    exact absurd (show "" = "z" from Except.ok.inj hid) (by decide)
  · exact absurd (show "z" = "" from hall _ _ hload hload') (by decide)

/-- a section by place is dropped as a whole when a variable names one of its fields -/
example :
    let files : Files := fun _ => .file "node.toml" "membership = [\"north\", 45, 5]\n"
    loadFrom .own files (some "node.toml") [] =
        .ok { membership := { nodeId := "north", heartbeatTimeout := 45, checkInterval := 5 } } ∧
      loadFrom .own files (some "node.toml") [("PEERDEPLOY_MEMBERSHIP__CHECK_INTERVAL_SECS", "7")] =
        .ok { membership := { checkInterval := 7 } } := by
  decide +kernel

end

end Redeploy.Config
