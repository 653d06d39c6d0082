/-
Numerals: the texts that stand for a number, and the number they stand for.

An integer numeral is decimal digits, perhaps after a sign. A decimal numeral has a fraction, an exponent or
both as well, or is one of the words for the values that are no numbers.
-/
namespace Redeploy

/-- value of a decimal digit -/
def digit? (c : Char) : Option Nat := if c.isDigit then some (c.toNat - '0'.toNat) else none

/-- the number that a list of digits stands for; digits are looked at from the most significant one -/
def ofDigits (ds : List Char) : Nat := ds.foldl (fun n c => 10 * n + (c.toNat - '0'.toNat)) 0

/-- an unsigned integer numeral: digits, at least one, perhaps after a plus sign -/
def natNumeral? (s : List Char) : Option Nat :=
  let ds := match s with
    | '+' :: r => r
    | _ => s
  if !ds.isEmpty && ds.all Char.isDigit then some (ofDigits ds) else none

/-- a signed integer numeral -/
def intNumeral? : List Char → Option Int
  | '-' :: ds => if !ds.isEmpty && ds.all Char.isDigit then some (-(ofDigits ds : Int)) else none
  | s => (natNumeral? s).map Int.ofNat

/-- what a decimal numeral stands for, exactly -/
inductive Decimal where
  /-- `digits * 10 ^ exponent`, negated if `negative` -/
  | finite (negative : Bool) (digits : Nat) (exponent : Int)
  | infinite (negative : Bool)
  | nan
deriving DecidableEq, Repr

namespace Decimal

/-- an exponent part, `e` and an integer, or nothing -/
def exponent? : List Char → Option Int
  | [] => some 0
  | c :: r => if c = 'e' ∨ c = 'E' then intNumeral? r else none

/-- digits with a point somewhere among them, then an exponent -/
def unsigned? (negative : Bool) (s : List Char) : Option Decimal :=
  let whole := s.takeWhile Char.isDigit
  match s.dropWhile Char.isDigit with
  | '.' :: r =>
    let fraction := r.takeWhile Char.isDigit
    if whole.isEmpty && fraction.isEmpty then none
    else (exponent? (r.dropWhile Char.isDigit)).map fun e =>
      .finite negative (ofDigits (whole ++ fraction)) (e - fraction.length)
  | r => if whole.isEmpty then none else (exponent? r).map (.finite negative (ofDigits whole))

/-- a decimal numeral; the words `inf`, `infinity` and `nan` in any case of letters count too -/
def ofNumeral? (s : List Char) : Option Decimal :=
  let (negative, body) := match s with
    | '-' :: r => (true, r)
    | '+' :: r => (false, r)
    | _ => (false, s)
  match String.ofList (body.map Char.toLower) with
  | "inf" | "infinity" => some (.infinite negative)
  | "nan" => some .nan
  | _ => unsigned? negative body

end Decimal

end Redeploy
