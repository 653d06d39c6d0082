/-
JSON values and their text.

Integers that fit a 64-bit word, signed or unsigned, are kept apart from all other numbers. Members of an object
are kept in the order in which they are written, repeated names included: what a repetition means is up to the
reader of the object.
-/
import Redeploy.Number.Binary64
import Redeploy.Text.Quoted

namespace Redeploy.Json

inductive Value where
  | null
  | bool (b : Bool)
  /-- at least `-2 ^ 63` and below `2 ^ 64` -/
  | int (n : Int)
  /-- any other number; infinite when it is too great for one -/
  | float (x : Binary64)
  | string (s : String)
  /-- what can be passed over but not read: a string with half of a surrogate pair, or an object with such a name -/
  | garbled
  | array (items : List Value)
  | object (members : List (String × Value))
deriving Inhabited

mutual

/-- all strings are readable, all numbers finite, and nothing nests deeper than `depth` -/
def soundWithin (depth : Nat) : Value → Bool
  | .garbled => false
  | .float (.finite ..) => true
  | .float _ => false
  | .array items => depth != 0 && itemsSoundWithin (depth - 1) items
  | .object members => depth != 0 && membersSoundWithin (depth - 1) members
  | _ => true

def itemsSoundWithin (depth : Nat) : List Value → Bool
  | [] => true
  | v :: vs => soundWithin depth v && itemsSoundWithin depth vs

def membersSoundWithin (depth : Nat) : List (String × Value) → Bool
  | [] => true
  | (_, v) :: ms => soundWithin depth v && membersSoundWithin depth ms

end

/-- how deep a value may nest that is kept as a whole -/
def maxDepth : Nat := 127

/-- whether the value can be kept as a whole, before it is known what its parts are for -/
def Value.isSound (v : Value) : Bool := soundWithin maxDepth v

/-- a character between the quotes of a JSON string -/
def escape (c : Char) : List Char :=
  match c with
  | '"' => ['\\', '"']
  | '\\' => ['\\', '\\']
  | '\n' => ['\\', 'n']
  | '\r' => ['\\', 'r']
  | '\t' => ['\\', 't']
  | '\x08' => ['\\', 'b']
  | '\x0c' => ['\\', 'f']
  | c => if c < ' ' then ['\\', 'u', '0', '0'] ++ (if c.toNat < 16 then ['0'] else []) ++ Text.hex c.toNat else [c]

def quote (s : String) : List Char := '"' :: (s.toList.flatMap escape ++ ['"'])

/-- texts with a comma between each two -/
def commaSeparated : List (List Char) → List Char
  | [] => []
  | [x] => x
  | x :: xs => x ++ ',' :: commaSeparated xs

mutual

/-- the text of a value, without white space -/
def write : Value → List Char
  | .null => "null".toList
  | .bool b => (if b then "true" else "false").toList
  | .int n => (toString n).toList
  | .float (.finite negative m q) => (Binary64.finite negative m q).shortText.toList
  | .float _ => "null".toList
  | .string s => quote s
  | .garbled => "\"\"".toList
  | .array items => '[' :: (commaSeparated (writeItems items) ++ [']'])
  | .object members => '\x7b' :: (commaSeparated (writeMembers members) ++ ['\x7d'])

def writeItems : List Value → List (List Char)
  | [] => []
  | v :: vs => write v :: writeItems vs

def writeMembers : List (String × Value) → List (List Char)
  | [] => []
  | (k, v) :: ms => (quote k ++ ':' :: write v) :: writeMembers ms

end

def Value.text (v : Value) : String := String.ofList (write v)

/-- the last member of that name -/
def Value.get? (v : Value) (name : String) : Option Value :=
  match v with
  | .object members => members.reverse.lookup name
  | _ => none

end Redeploy.Json
