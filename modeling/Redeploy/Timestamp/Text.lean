/-
The text of a point of time, as RFC 3339 has it: `2024-01-02T03:04:05.678Z`.

Written, a time is in UTC with as many groups of three fraction digits as it needs. Read, it may have any
offset, white space between its parts, a space or a small `t` before the time of day, and more than nine
fraction digits, of which nine count. A year outside 0 to 9999 has a sign.
-/
import Redeploy.Calendar
import Redeploy.Timestamp
import Redeploy.Number.Numeral
import Redeploy.Text.Blank

namespace Redeploy.Timestamp

/-- decimal digits, filled up with zeros to the width -/
def padded (width n : Nat) : List Char :=
  let ds := Nat.toDigits 10 n
  List.replicate (width - ds.length) '0' ++ ds

def writeYear (y : Int) : List Char :=
  if 0 ≤ y ∧ y ≤ 9999 then padded 4 y.toNat
  else (if y < 0 then '-' else '+') :: padded 4 y.natAbs

/-- the fraction, in 0, 3, 6 or 9 digits -/
def writeFraction (nanos : Nat) : List Char :=
  if nanos = 0 then []
  else if nanos % 1000000 = 0 then '.' :: padded 3 (nanos / 1000000)
  else if nanos % 1000 = 0 then '.' :: padded 6 (nanos / 1000)
  else '.' :: padded 9 nanos

def write (t : Timestamp) : List Char :=
  let date := Date.ofDays (t.seconds.fdiv 86400)
  let ofDay := (t.seconds.fmod 86400).toNat
  let leap := if 1000000000 ≤ t.nanos then 1 else 0
  writeYear date.year ++ '-' :: padded 2 date.month ++ '-' :: padded 2 date.day ++ 'T' :: padded 2 (ofDay / 3600) ++
    ':' :: padded 2 (ofDay / 60 % 60) ++ ':' :: padded 2 (ofDay % 60 + leap) ++
    writeFraction (t.nanos % 1000000000) ++ ['Z']

def text (t : Timestamp) : String := String.ofList t.write

/-- the years that dates may have -/
def minYear : Int := -262143
def maxYear : Int := 262142

def skip (s : List Char) : List Char := s.dropWhile Text.isBlank

/-- a number of at least one and at most `width` digits, after white space -/
def number? (width : Nat) (s : List Char) : Option (Nat × List Char) :=
  let s := skip s
  let ds := (s.take width).takeWhile Char.isDigit
  if ds.isEmpty then none else some (ofDigits ds, s.drop ds.length)

/-- a year: four digits at most, or a sign and any number of digits -/
def year? (s : List Char) : Option (Int × List Char) :=
  match skip s with
  | '-' :: r =>
    let ds := r.takeWhile Char.isDigit
    if ds.isEmpty then none else some (-(ofDigits ds : Int), r.dropWhile Char.isDigit)
  | '+' :: r =>
    let ds := r.takeWhile Char.isDigit
    if ds.isEmpty then none else some (ofDigits ds, r.dropWhile Char.isDigit)
  | r => (number? 4 r).map fun (n, r) => ((n : Int), r)

/-- the character, after white space -/
def expect? (c : Char) (s : List Char) : Option (List Char) :=
  match skip s with
  | d :: r => if c = d then some r else none
  | [] => none

/-- nanoseconds, if a fraction follows -/
def fraction? : List Char → Option (Nat × List Char)
  | '.' :: r =>
    let ds := r.takeWhile Char.isDigit
    if ds.isEmpty then none
    else
      let nine := ds.take 9
      some (ofDigits nine * Nat.pow 10 (9 - nine.length), r.dropWhile Char.isDigit)
  | r => some (0, r)

/-- an offset from UTC in seconds; hours go up to 99 -/
def offset? (s : List Char) : Option (Int × List Char) :=
  if (s.take 3).map Char.toUpper = ['U', 'T', 'C'] then some (0, s.drop 3)
  else match s with
    | [] => none
    | sign :: r =>
      if sign = 'Z' ∨ sign = 'z' then some (0, r)
      else if sign = '+' ∨ sign = '-' ∨ sign = '\u2212' then
        match r with
        | h₁ :: h₂ :: r =>
          match r.dropWhile fun c => c == ':' || Text.isBlank c with
          | m₁ :: m₂ :: r =>
            if [h₁, h₂, m₁, m₂].all Char.isDigit ∧ m₁ ≤ '5' then
              let seconds : Int := ofDigits [h₁, h₂] * 3600 + ofDigits [m₁, m₂] * 60
              some (if sign = '+' then seconds else -seconds, r)
            else none
          | _ => none
        | _ => none
      else none

/-- the time that a text stands for -/
def parse? (s : String) : Option Timestamp := do
  let (year, r) ← year? s.toList
  let r ← expect? '-' r
  let (month, r) ← number? 2 r
  let r ← expect? '-' r
  let (day, r) ← number? 2 r
  let r ← match r with
    | c :: r => if c = 'T' ∨ c = 't' ∨ c = ' ' then some r else none
    | [] => none
  let (hour, r) ← number? 2 r
  let r ← expect? ':' r
  let (minute, r) ← number? 2 r
  let r ← expect? ':' r
  let (second, r) ← number? 2 r
  let (nanos, r) ← fraction? r
  let (offset, r) ← offset? (skip r)
  let date : Date := ⟨year, month, day⟩
  if (skip r).isEmpty && date.IsValid && minYear ≤ year && year ≤ maxYear && hour ≤ 23 && minute ≤ 59 &&
      second ≤ 60 && -86400 < offset && offset < 86400 then
    let leap := second == 60
    let seconds := date.toDays * 86400 + (hour * 3600 + minute * 60 + (if leap then 59 else second)) - offset
    let inUtc := Date.ofDays (seconds.fdiv 86400)
    if minYear ≤ inUtc.year && inUtc.year ≤ maxYear then
      pure ⟨seconds, if leap then nanos + 1000000000 else nanos⟩
    else none
  else none

end Redeploy.Timestamp
