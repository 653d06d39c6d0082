/-
Reading JSON texts. Each reader takes the characters from where it stands and returns what it read with the characters
that are left, or nothing if the text is ill formed there.
-/
import Redeploy.Json.Value

namespace Redeploy.Json

def isSpace (c : Char) : Bool := c == ' ' || c == '\n' || c == '\t' || c == '\r'

def skip (s : List Char) : List Char := s.dropWhile isSpace

def hexDigit? (c : Char) : Option Nat :=
  if c.isDigit then some (c.toNat - 48)
  else if 'a' ≤ c ∧ c ≤ 'f' then some (c.toNat - 87)
  else if 'A' ≤ c ∧ c ≤ 'F' then some (c.toNat - 55)
  else none

/-- the number of four hexadecimal digits -/
def unit? : List Char → Option (Nat × List Char)
  | a :: b :: c :: d :: r => do
    let a ← hexDigit? a
    let b ← hexDigit? b
    let c ← hexDigit? c
    let d ← hexDigit? d
    pure (((a * 16 + b) * 16 + c) * 16 + d, r)
  | _ => none

/-- what an escape stands for: a character, or half of a surrogate pair, which is none -/
def unescape? : List Char → Option (Option Char × List Char)
  | '"' :: r => some (some '"', r)
  | '\\' :: r => some (some '\\', r)
  | '/' :: r => some (some '/', r)
  | 'b' :: r => some (some '\x08', r)
  | 'f' :: r => some (some '\x0c', r)
  | 'n' :: r => some (some '\n', r)
  | 'r' :: r => some (some '\r', r)
  | 't' :: r => some (some '\t', r)
  | 'u' :: r => do
    let (n, r) ← unit? r
    if 0xdc00 ≤ n ∧ n < 0xe000 then pure (none, r)
    else if 0xd800 ≤ n ∧ n < 0xdc00 then
      match r with
      | '\\' :: 'u' :: r' => do
        let (m, r'') ← unit? r'
        if 0xdc00 ≤ m ∧ m < 0xe000 then
          pure (some (Char.ofNat (0x10000 + (n - 0xd800) * 0x400 + (m - 0xdc00))), r'')
        else pure (none, r)
      | _ => pure (none, r)
    else pure (some (Char.ofNat n), r)
  | _ => none

/-- the rest of a string after its opening quote; `ok` while every escape stood for a character -/
def stringRest? : Nat → List Char → Bool → List Char → Option (Value × List Char)
  | 0, _, _, _ => none
  | _, _, _, [] => none
  | _, acc, ok, '"' :: r => some (if ok then .string (String.ofList acc.reverse) else .garbled, r)
  | fuel + 1, acc, ok, '\\' :: r =>
    match unescape? r with
    | none => none
    | some (some c, r') => stringRest? fuel (c :: acc) ok r'
    | some (none, r') => stringRest? fuel acc false r'
  | fuel + 1, acc, ok, c :: r => if c < ' ' then none else stringRest? fuel (c :: acc) ok r

/-- digits appended to a number as long as it stays below `2 ^ 64`; how many were, and the text that is left -/
def takeDigits (n taken : Nat) : List Char → Nat × Nat × List Char
  | [] => (n, taken, [])
  | c :: r =>
    if c.isDigit then
      let n' := 10 * n + (c.toNat - '0'.toNat)
      if n' < UInt64.size then takeDigits n' (taken + 1) r else (n, taken, c :: r)
    else (n, taken, c :: r)

/-- a number without fraction or exponent; minus zero is no integer, and neither is one that fits no word -/
def ofInteger (negative : Bool) (n : Nat) : Value :=
  if negative then
    if n = 0 ∨ 1 <<< 63 < n then .float (Binary64.ofNat n).negate else .int (-(n : Int))
  else .int n

/-- the number `n * 10 ^ e`, as near as rounding at each step comes to it -/
def ofParts (negative : Bool) (n : Nat) (e : Int) : Value :=
  let x := (Binary64.ofNat n).scaledByTen e
  .float (if negative then x.negate else x)

/-- an exponent, if one follows -/
def exponent? : List Char → Option (Option Int × List Char)
  | c :: r =>
    if c = 'e' ∨ c = 'E' then
      let (sign, r) := match r with
        | '+' :: r' => (1, r')
        | '-' :: r' => (-1, r')
        | _ => ((1 : Int), r)
      let ds := r.takeWhile Char.isDigit
      if ds.isEmpty then none else some (some (sign * ofDigits ds), r.dropWhile Char.isDigit)
    else some (none, c :: r)
  | [] => some (none, [])

/-- a number, after its sign. Digits count as long as they fit a word; of those that do not, the ones before the point
count as zeros and the ones after it not at all -/
def number? (negative : Bool) (s : List Char) : Option (Value × List Char) := do
  let whole := s.takeWhile Char.isDigit
  if whole.isEmpty || (whole.length > 1 && whole.head? == some '0') then none
  let (n, taken, _) := takeDigits 0 0 whole
  let dropped := whole.length - taken
  match s.dropWhile Char.isDigit with
  | '.' :: r =>
    if (r.takeWhile Char.isDigit).isEmpty then none
    let (n, places, _) := takeDigits n 0 r
    let (e, r) ← exponent? (r.dropWhile Char.isDigit)
    pure (ofParts negative n (e.getD 0 + dropped - places), r)
  | r =>
    let (e, r) ← exponent? r
    match e with
    | none => pure (if dropped = 0 then ofInteger negative n else ofParts negative n dropped, r)
    | some e => pure (ofParts negative n (e + dropped), r)

/-- an object, if all names can be read -/
def ofMembers (members : List (Value × Value)) : Value :=
  let named := members.mapM fun
    | (.string k, v) => some (k, v)
    | _ => none
  match named with
  | some ms => .object ms
  | none => .garbled

def word? (w : String) (v : Value) (s : List Char) : Option (Value × List Char) :=
  if s.take w.length = w.toList then some (v, s.drop w.length) else none

mutual

/-- a value; white space before it is skipped -/
def value? : Nat → List Char → Option (Value × List Char)
  | 0, _ => none
  | fuel + 1, s =>
    match skip s with
    | '"' :: r => stringRest? (r.length + 1) [] true r
    | '[' :: r =>
      match skip r with
      | ']' :: r' => some (.array [], r')
      | _ => items? fuel [] r
    | '\x7b' :: r =>
      match skip r with
      | '\x7d' :: r' => some (.object [], r')
      | _ => members? fuel [] r
    | '-' :: r => number? true r
    | 'n' :: r => word? "ull" .null r
    | 't' :: r => word? "rue" (.bool true) r
    | 'f' :: r => word? "alse" (.bool false) r
    | r => number? false r

/-- the items of an array up to its closing bracket -/
def items? : Nat → List Value → List Char → Option (Value × List Char)
  | 0, _, _ => none
  | fuel + 1, acc, s =>
    match value? fuel s with
    | none => none
    | some (v, r) =>
      match skip r with
      | ',' :: r' => items? fuel (v :: acc) r'
      | ']' :: r' => some (.array (v :: acc).reverse, r')
      | _ => none

/-- the members of an object up to its closing brace -/
def members? : Nat → List (Value × Value) → List Char → Option (Value × List Char)
  | 0, _, _ => none
  | fuel + 1, acc, s =>
    match skip s with
    | '"' :: r =>
      match stringRest? (r.length + 1) [] true r with
      | none => none
      | some (k, r) =>
        match skip r with
        | ':' :: r =>
          match value? fuel r with
          | none => none
          | some (v, r) =>
            match skip r with
            | ',' :: r' => members? fuel ((k, v) :: acc) r'
            | '\x7d' :: r' => some (ofMembers ((k, v) :: acc).reverse, r')
            | _ => none
        | _ => none
    | _ => none

end

/-- the value of a whole text -/
def readChars (s : List Char) : Option Value :=
  match value? (s.length + 1) s with
  | some (v, r) => if (skip r).isEmpty then some v else none
  | none => none

/-- the value of a JSON text, if it is one -/
def readText (text : String) : Option Value := readChars text.toList

end Redeploy.Json
