/-
Dates and times in TOML documents: a date, a time of day, or both with or without an offset. A setting keeps one
as its text in a fixed form: a capital `T` between date and time, no white space, no zeros at the end of a
fraction.
-/
import Redeploy.Calendar
import Redeploy.Number.Numeral

namespace Redeploy.Toml.Moment

/-- exactly `n` digits and the number they stand for -/
def fixed? (n : Nat) (s : List Char) : Option (Nat × List Char) :=
  let ds := s.take n
  if ds.length = n ∧ ds.all Char.isDigit then some (ofDigits ds, s.drop n) else none

def expect? (c : Char) : List Char → Option (List Char)
  | d :: r => if c = d then some r else none
  | [] => none

/-- a date that exists; its text is its own form -/
def date? (s : List Char) : Option (List Char × List Char) := do
  let (y, r) ← fixed? 4 s
  let r ← expect? '-' r
  let (m, r) ← fixed? 2 r
  let r ← expect? '-' r
  let (d, r) ← fixed? 2 r
  if Date.IsValid ⟨y, m, d⟩ then pure (s.take 10, r) else none

/-- a time of day; seconds may be left out -/
def time? (s : List Char) : Option (List Char × List Char) := do
  let (h, r) ← fixed? 2 s
  let r ← expect? ':' r
  let (m, r) ← fixed? 2 r
  if h > 23 || m > 59 then none
  match r with
  | ':' :: r =>
    let (sec, r) ← fixed? 2 r
    if sec > 60 then none
    match r with
    | '.' :: r =>
      let ds := r.takeWhile Char.isDigit
      if ds.isEmpty then none
      let kept := ((ds.take 9).reverse.dropWhile (· == '0')).reverse
      let fraction := if kept.isEmpty then ".0".toList else '.' :: kept
      pure (s.take 8 ++ fraction, r.dropWhile Char.isDigit)
    | r => pure (s.take 8, r)
  | r => pure (s.take 5, r)

/-- an offset, if one follows -/
def offset? : List Char → Option (List Char × List Char)
  | c :: r =>
    if c = 'Z' ∨ c = 'z' then some (['Z'], r)
    else if c = '+' ∨ c = '-' then do
      let (h, r') ← fixed? 2 r
      let r' ← expect? ':' r'
      let (m, r'') ← fixed? 2 r'
      if h > 23 || m > 59 then none
      pure (if h = 0 && m = 0 then "+00:00".toList else c :: r.take 5, r'')
    else some ([], c :: r)
  | [] => some ([], [])

/-- a date, a time, or both -/
def read? (s : List Char) : Option (List Char × List Char) :=
  match date? s with
  | none => time? s
  | some (date, r) =>
    let timed (r' : List Char) : Option (List Char × List Char) := do
      let (time, r') ← time? r'
      let (offset, r') ← offset? r'
      pure (date ++ 'T' :: time ++ offset, r')
    match r with
    | 'T' :: r' => timed r'
    | 't' :: r' => timed r'
    | ' ' :: r' => if r'.head?.any Char.isDigit then timed r' else some (date, r)
    | _ => some (date, r)

end Redeploy.Toml.Moment
