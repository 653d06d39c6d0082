/-
The table that a TOML document builds up, statement by statement. A table may be defined once, and how it was
defined says what may be added to it: one that only came about as part of a header's path may still be given a
header of its own, until a dotted key reaches it; a table with a header may not be reached by a dotted key.
-/
import Redeploy.Config.Setting
import Redeploy.Toml.Moment

namespace Redeploy.Toml

/-- how a table came about -/
inductive Origin where
  /-- as part of a header's path -/
  | implied
  | header
  /-- as part of a dotted key -/
  | dotted
deriving DecidableEq

inductive Node where
  /-- a value; tables and arrays written in line are complete -/
  | value (s : Setting)
  | table (origin : Origin) (entries : List (String × Node))
  /-- an array of tables, each with a header of its own -/
  | tables (elements : List (List (String × Node)))

abbrev Entries := List (String × Node)

/-- the entries with the one of that name replaced, or added at the end -/
def put (name : String) (n : Node) : Entries → Entries
  | [] => [(name, n)]
  | (k, m) :: es => if k = name then (k, n) :: es else (k, m) :: put name n es

/-- change the table at the end of a path; tables on the way are made when missing, and an array of tables stands
for its last element, which a dotted key may pass through but not add to -/
def change (dotted : Bool) (f : Entries → Option Entries) : List String → Entries → Option Entries
  | [], es => f es
  | k :: path, es =>
    match es.lookup k with
    | none => do
      let inner ← change dotted f path []
      pure (put k (.table (if dotted then .dotted else .implied) inner) es)
    | some (.table origin inner) =>
      if dotted && origin == .header then none
      else do
        let inner ← change dotted f path inner
        pure (put k (.table (if dotted then .dotted else origin) inner) es)
    | some (.tables elements) =>
      if dotted && path.isEmpty then none
      else
        match elements.reverse with
        | last :: before => do
          let last ← change dotted f path last
          pure (put k (.tables (before.reverse ++ [last])) es)
        | [] => none
    | some (.value _) => none

/-- a new entry under a dotted key -/
def insert (path : List String) (name : String) (s : Setting) : Entries → Option Entries :=
  change true (fun es => if (es.lookup name).isSome then none else some (put name (.value s) es)) path

/-- the header of a table -/
def openTable (path : List String) (name : String) : Entries → Option Entries :=
  change false (fun es =>
    match es.lookup name with
    | none => some (put name (.table .header []) es)
    | some (.table .implied inner) => some (put name (.table .header inner) es)
    | _ => none) path

/-- the header of the next element of an array of tables -/
def openElement (path : List String) (name : String) : Entries → Option Entries :=
  change false (fun es =>
    match es.lookup name with
    | none => some (put name (.tables [[]]) es)
    | some (.tables elements) => some (put name (.tables (elements ++ [[]])) es)
    | _ => none) path

/-- the name under which a table holds the text of a moment -/
def momentName : String := "$__toml_private_datetime"

/-- the setting for a table with these entries; one whose first name, in order, is that for moments stands for the
moment that it holds -/
def tableSetting (es : List (String × Setting)) : Option Setting :=
  match es.lookup momentName with
  | none => some (.table es)
  | some held =>
    if es.any fun (k, _) => decide (k < momentName) then some (.table es)
    else match held with
      | .text s =>
        match Moment.read? s.toList with
        | some (m, []) => some (.text (String.ofList m))
        | _ => none
      | _ => none

mutual

/-- the setting that a node stands for -/
def Node.setting? : Node → Option Setting
  | .value s => some s
  | .table _ es => (settings? es).bind tableSetting
  | .tables elements => (elementSettings? elements).map .list

def settings? : Entries → Option (List (String × Setting))
  | [] => some []
  | (k, n) :: es => do
    let s ← n.setting?
    return (k, s) :: (← settings? es)

def elementSettings? : List Entries → Option (List Setting)
  | [] => some []
  | es :: rest => do
    let s ← (settings? es).bind tableSetting
    return s :: (← elementSettings? rest)

end

def Entries.setting? (es : Entries) : Option Setting := (settings? es).bind tableSetting

end Redeploy.Toml
