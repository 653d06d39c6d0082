/-
Settings from environment variables.

A variable counts if its name starts with `PEERDEPLOY_`, in any case of letters; the rest of the name, with dots
for double underscores, is the key. Its value is a flag, an integer, a number or else a text, whichever of these
it is first.
-/
import Redeploy.Config.Setting

namespace Redeploy.Environment

/-- start of the names of variables that count, in small letters -/
def mark : List Char := "peerdeploy_".toList

/-- the small letter of a capital one, as far as keys are concerned: the sign for kelvin is the only letter outside
ASCII that has its small form inside -/
def lowered (c : Char) : Char := if c = '\u212a' then 'k' else c.toLower

/-- the text with a dot for every double underscore -/
def dotted : List Char → List Char
  | '_' :: '_' :: r => '.' :: dotted r
  | c :: r => c :: dotted r
  | [] => []

/-- the key of a variable -/
def key? (name : String) : Option String :=
  let s := name.toList.map lowered
  if s.take mark.length = mark then some (String.ofList (dotted (s.drop mark.length))) else none

/-- the setting that a value stands for -/
def setting (value : String) : Setting :=
  match value.toLower with
  | "true" => .flag true
  | "false" => .flag false
  | _ =>
    let number : Setting :=
      match Decimal.ofNumeral? value.toList with
      | some d => .float (.ofDecimal d)
      | none => .text value
    match intNumeral? value.toList with
    | some n => if Int64.minValue.toInt ≤ n ∧ n ≤ Int64.maxValue.toInt then .int n else number
    | none => number

/-- the settings that an environment gives -/
def settings (environment : List (String × String)) : List (String × Setting) :=
  environment.filterMap fun (name, value) => (key? name).map fun k => (k, setting value)

end Redeploy.Environment
