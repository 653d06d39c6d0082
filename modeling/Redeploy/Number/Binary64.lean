/-
Binary floating-point numbers of 64 bits, as exact values: a sign and `m * 2 ^ q` with `m < 2 ^ 53` and
`-1074 ≤ q ≤ 971`.

A decimal numeral is rounded to the nearest number, ties going to the even `m`. A number is written with the
fewest digits that read back as it, and of the shortest ones with those nearest to it; where two are equally near,
it depends on the form of the text which ones these are.
-/
import Redeploy.Number.Numeral

namespace Redeploy

inductive Binary64 where
  | finite (negative : Bool) (m : Nat) (q : Int)
  | infinite (negative : Bool)
  | nan
deriving DecidableEq, Repr

/-- which of two equally near numbers is taken: whether the greater one is, given the lesser one -/
abbrev Ties := Nat → Bool

def Ties.toGreater : Ties := fun _ => true

def Ties.toEven : Ties := (· % 2 == 1)

/-- a quotient rounded to the nearest number -/
def roundQuotient (ties : Ties) (num den : Nat) : Nat :=
  let f := num / den
  let r := num % den
  if 2 * r < den then f else if den < 2 * r then f + 1 else if ties f then f + 1 else f

/-- `num * base ^ e / den` as a fraction -/
def scaled (base : Nat) (e : Int) (num den : Nat) : Nat × Nat :=
  if 0 ≤ e then (num * Nat.pow base e.toNat, den) else (num, den * Nat.pow base (-e).toNat)

namespace Binary64

/-- least exponent -/
def minExponent : Int := -1074

/-- the number nearest to a positive fraction -/
def ofFraction (negative : Bool) (num den : Nat) : Binary64 :=
  let k : Int := (Nat.log2 num : Int) - Nat.log2 den
  let exponent (q : Int) : Bool :=
    let (n, d) := scaled 2 (-q) num den
    decide (n < d <<< 53)
  let q₀ := if exponent (k - 53) then k - 53 else k - 52
  let q := max q₀ minExponent
  let (n, d) := scaled 2 (-q) num den
  let m := roundQuotient .toEven n d
  let (m, q) := if m = 1 <<< 53 then (1 <<< 52, q + 1) else (m, q)
  if 971 < q then .infinite negative else .finite negative m q

/-- the number nearest to what a numeral stands for -/
def ofDecimal : Decimal → Binary64
  | .infinite negative => .infinite negative
  | .nan => .nan
  | .finite negative digits e =>
    let places : Int := (Nat.toDigits 10 digits).length
    if digits = 0 ∨ e + places < -330 then .finite negative 0 minExponent
    else if 310 < e + places then .infinite negative
    else
      let (n, d) := scaled 10 e digits 1
      ofFraction negative n d

/-- the number nearest to a natural number -/
def ofNat (n : Nat) : Binary64 := if n = 0 then .finite false 0 minExponent else ofFraction false n 1

/-- the number nearest to a power of ten -/
def powerOfTen (k : Nat) : Binary64 := ofFraction false (Nat.pow 10 k) 1

/-- the number times a power of ten, both rounded -/
def timesPower (x : Binary64) (k : Nat) : Binary64 :=
  match x, powerOfTen k with
  | .finite negative m q, .finite _ n r =>
    if m = 0 then x
    else
      let (num, den) := scaled 2 (q + r) (m * n) 1
      ofFraction negative num den
  | _, _ => x

/-- the number divided by a power of ten, both rounded -/
def overPower (x : Binary64) (k : Nat) : Binary64 :=
  match x, powerOfTen k with
  | .finite negative m q, .finite _ n r =>
    if m = 0 then x
    else
      let (num, den) := scaled 2 (q - r) m n
      ofFraction negative num den
  | _, _ => x

def isZero : Binary64 → Bool
  | .finite _ m _ => m == 0
  | _ => false

/-- greatest power of ten that is no infinity -/
def maxPower : Nat := 308

/-- the number scaled by a power of ten, in steps that are rounded each: a quick way to read a numeral, that may miss
the nearest number -/
def scaledByTen (x : Binary64) (e : Int) : Binary64 :=
  if 0 ≤ e then
    if e.toNat ≤ maxPower then x.timesPower e.toNat
    else match x with
      | .finite negative m _ => if m = 0 then x else .infinite negative
      | _ => x
  else if (-e).toNat ≤ maxPower then x.overPower (-e).toNat
  else if x.isZero then x
  else scaledByTen (x.overPower maxPower) (e + maxPower)
termination_by (-e).toNat
decreasing_by simp only [maxPower]; omega

/-- the opposite number -/
def negate : Binary64 → Binary64
  | .finite negative m q => .finite (!negative) m q
  | .infinite negative => .infinite (!negative)
  | .nan => .nan

/-- the absolute value as a fraction -/
def fraction (m : Nat) (q : Int) : Nat × Nat := scaled 2 q m 1

/-- the reals that round to `m * 2 ^ q`, as two fractions over four times its denominator; the ends count iff `m` is
even -/
def interval (m : Nat) (q : Int) : Nat × Nat × Nat :=
  let (n, d) := scaled 2 q 1 1
  let below := if m = 1 <<< 52 ∧ minExponent < q then 1 else 2
  ((4 * m - below) * n, (4 * m + 2) * n, 4 * d)

/-- how many places the first digit of `num / den` is left of the point: 0 for 1 to 9, negative below 1 -/
def leadingPlace (num den : Nat) : Int :=
  if den ≤ num then ((Nat.toDigits 10 (num / den)).length : Int) - 1 else below 400 1
where
  below : Nat → Nat → Int
    | 0, j => -(j : Int)
    | fuel + 1, j => if den ≤ num * Nat.pow 10 j then -(j : Int) else below fuel (j + 1)

/-- the least count of digits, `count` or more, for which a grid point reads back as the number; the grid point
and the place of its last digit -/
def shortest (ties : Ties) (m : Nat) (q : Int) (lead : Int) : Nat → Nat → Nat × Int
  | 0, count => candidate count
  | fuel + 1, count =>
    let (c, place) := candidate count
    if reads c place then (c, place) else shortest ties m q lead fuel (count + 1)
where
  reads (c : Nat) (place : Int) : Bool :=
    let (bottom, top, unit) := interval m q
    let (n, d) := scaled 10 place c 1
    if m % 2 = 0 then bottom * d ≤ n * unit && n * unit ≤ top * d
    else bottom * d < n * unit && n * unit < top * d
  /-- of the two grid points around the number the one that reads back, the nearer one if both do -/
  candidate (count : Nat) : Nat × Int :=
    let place := lead - count + 1
    let (n, d) := fraction m q
    let (n, d) := scaled 10 (-place) n d
    let near := roundQuotient ties n d
    let far := if near = n / d then near + 1 else n / d
    (if reads near place || !reads far place then near else far, place)

/-- the digits of a positive number and the place of the last one; no digit 0 at the end -/
def digits (ties : Ties) (m : Nat) (q : Int) : List Char × Int :=
  let (n, d) := fraction m q
  let (c, place) := shortest ties m q (leadingPlace n d) 20 1
  let ds := (Nat.toDigits 10 c).reverse
  let zeros := (ds.takeWhile (· == '0')).length
  ((ds.drop zeros).reverse, place + zeros)

/-- digits with a point where it belongs, and no exponent -/
def positional (ds : List Char) (place : Int) : List Char :=
  if 0 ≤ place then ds ++ List.replicate place.toNat '0'
  else
    let after := (-place).toNat
    if after < ds.length then ds.take (ds.length - after) ++ '.' :: ds.drop (ds.length - after)
    else '0' :: '.' :: (List.replicate (after - ds.length) '0' ++ ds)

/-- the number with the fewest digits, without exponent; a whole number has no point -/
def text : Binary64 → String
  | .nan => "NaN"
  | .infinite negative => if negative then "-inf" else "inf"
  | .finite negative m q =>
    let body := if m = 0 then ['0'] else
      let (ds, place) := digits .toGreater m q
      positional ds place
    String.ofList (if negative then '-' :: body else body)

/-- digits as one before the point, and the power of ten that this leaves -/
def scientific (ds : List Char) (place : Int) : List Char :=
  let e := place + ds.length - 1
  let exponent := 'e' :: (if e < 0 then '-' else '+') :: (toString e.natAbs).toList
  match ds with
  | d :: e :: r => d :: '.' :: e :: r ++ exponent
  | _ => ds ++ exponent

/-- the number with the fewest digits; without exponent, but with a point, from `10 ^ -5` up to `10 ^ 16` -/
def shortText : Binary64 → String
  | .finite negative m q =>
    let body := if m = 0 then ['0', '.', '0'] else
      let (ds, place) := digits .toEven m q
      if place + ds.length ≤ -5 ∨ 16 < place + ds.length then scientific ds place
      else if 0 ≤ place then positional ds place ++ ['.', '0']
      else positional ds place
    String.ofList (if negative then '-' :: body else body)
  | x => x.text

/-- the nearest integer, halves going away from zero; none for infinities, zero for what is no number -/
def round? : Binary64 → Option Int
  | .nan => some 0
  | .infinite _ => none
  | .finite negative m q =>
    let (n, d) := fraction m q
    let k : Int := roundQuotient .toGreater n d
    some (if negative then -k else k)

/-- the nearest integer between two bounds -/
def roundWithin (low high : Int) (x : Binary64) : Int :=
  match x with
  | .infinite negative => if negative then low else high
  | x => max low (min high (x.round?.getD 0))

end Binary64

end Redeploy
