/-
Settings: the untyped tree that configuration sources are merged into.

A source gives settings under key paths such as `logging.level` or `logging.directives[0]`. A later source
overrides an earlier one setting by setting: tables are merged, anything else is replaced.
-/
import Redeploy.Number.Binary64

namespace Redeploy

inductive Setting where
  | nothing
  | flag (b : Bool)
  | int (n : Int)
  | float (x : Binary64)
  | text (s : String)
  | list (items : List Setting)
  /-- names are unique -/
  | table (entries : List (String × Setting))
deriving Inhabited

namespace Setting

/-- one step of a key path -/
inductive Step where
  | key (name : String)
  /-- places below zero count from the end -/
  | index (i : Int)
deriving DecidableEq, Repr

/-- more items than any list has -/
def maxItems : Nat := 1 <<< 56

/-- whether there can be a list with that place -/
def Step.isReachable : Step → Bool
  | .key _ => true
  | .index i => decide (i.natAbs < maxItems)

/-- the entries of a table; of anything else, none -/
def entries : Setting → List (String × Setting)
  | table es => es
  | _ => []

/-- the items of a list; of anything else, none -/
def items : Setting → List Setting
  | list is => is
  | _ => []

/-- the entries with the one of that name replaced, or added at the end -/
def putEntry (name : String) (v : Setting) : List (String × Setting) → List (String × Setting)
  | [] => [(name, v)]
  | (k, w) :: es => if k = name then (k, v) :: es else (k, w) :: putEntry name v es

/-- the items with the one at a place changed; missing ones are made up of nothings -/
def changeItem (i : Int) (f : Setting → Setting) (is : List Setting) : List Setting :=
  let place : Int := if 0 ≤ i then i else is.length + i
  if 0 ≤ place then
    (is ++ List.replicate (place.toNat + 1 - is.length) nothing).modify place.toNat f
  else (List.replicate (-place).toNat nothing ++ is).modify 0 f

/-- change what is found at the end of the path; what stands in the way becomes a table or a list -/
def change (f : Setting → Setting) : List Step → Setting → Setting
  | [], s => f s
  | .key k :: path, s => table (putEntry k (change f path ((s.entries.lookup k).getD nothing)) s.entries)
  | .index i :: path, s => list (changeItem i (change f path) s.items)

mutual

/-- `new` over `old`: tables entry by entry, anything else replaces -/
def merge (old : Setting) : Setting → Setting
  | table es => table (mergeEntries old.entries es)
  | v => v

def mergeEntries (old : List (String × Setting)) : List (String × Setting) → List (String × Setting)
  | [] => old
  | (k, v) :: es => mergeEntries (putEntry k (merge ((old.lookup k).getD nothing) v) old) es

end

def isNameChar (c : Char) : Bool := c.isAlphanum || c == '_' || c == '-'

/-- a name in a key path -/
def name? (s : List Char) : Option (String × List Char) :=
  let n := s.takeWhile isNameChar
  if n.isEmpty then none else some (String.ofList n, s.dropWhile isNameChar)

/-- the steps after the first name -/
def steps? : Nat → List Char → Option (List Step)
  | _, [] => some []
  | 0, _ => none
  | fuel + 1, '.' :: r => do
    let (n, r) ← name? r
    return .key n :: (← steps? fuel r)
  | fuel + 1, '[' :: r =>
    let isSpace (c : Char) : Bool := c == ' ' || c == '\t'
    let number := (r.takeWhile (· != ']')).dropWhile isSpace
    let number := (number.reverse.dropWhile isSpace).reverse
    match number, r.dropWhile (· != ']') with
    | '+' :: _, _ => none
    | _, ']' :: r' => do
      let i ← intNumeral? number
      if i < Int64.minValue.toInt ∨ Int64.maxValue.toInt < i then none
      return .index i :: (← steps? fuel r')
    | _, _ => none
  | _, _ => none

/-- the path that a key stands for; a key that is no path stands for itself -/
def path (key : String) : List Step :=
  let steps : Option (List Step) := do
    let (n, r) ← name? key.toList
    return .key n :: (← steps? (r.length + 1) r)
  steps.getD [.key key]

/-- the settings with those of a source over them; nothing if a key leads to a place that no list has -/
def override (settings : Setting) (source : List (String × Setting)) : Option Setting :=
  source.foldlM (fun s (key, v) =>
    let steps := path key
    if steps.all Step.isReachable then some (change (merge · v) steps s) else none) settings

end Setting

end Redeploy
