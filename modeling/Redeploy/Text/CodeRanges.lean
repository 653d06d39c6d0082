/-
Sets of characters given as ranges of code points, in ascending order, as the tables of the Unicode Character Database
list them. Membership is one binary search.
-/
namespace Redeploy.Text

/-- a set of code points: inclusive ranges, ascending and apart from one another -/
structure CodeRanges where
  ranges : Array (Nat × Nat)

namespace CodeRanges

/-- binary search among the ranges with index in [lo, hi); the fuel bounds the number of halvings -/
def search (t : CodeRanges) (n : Nat) : Nat → Nat → Nat → Bool
  | 0, _, _ => false
  | fuel + 1, lo, hi =>
    if lo < hi then
      let mid := (lo + hi) / 2
      match t.ranges[mid]? with
      | none => false
      | some (a, b) =>
        if n < a then t.search n fuel lo mid
        else if b < n then t.search n fuel (mid + 1) hi
        else true
    else false

/-- whether the character lies in one of the ranges -/
def contains (t : CodeRanges) (c : Char) : Bool :=
  t.search c.toNat (t.ranges.size + 1) 0 t.ranges.size

end CodeRanges

end Redeploy.Text
