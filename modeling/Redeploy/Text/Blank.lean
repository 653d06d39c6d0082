/-
White space (property White_Space, Unicode 17).
-/
import Redeploy.Text.CodeRanges

namespace Redeploy.Text

/-- property White_Space -/
def blank : CodeRanges := ⟨#[
    (0x9, 0xd), (0x20, 0x20), (0x85, 0x85), (0xa0, 0xa0), (0x1680, 0x1680), (0x2000, 0x200a), (0x2028, 0x2029),
    (0x202f, 0x202f), (0x205f, 0x205f), (0x3000, 0x3000)]⟩

/-- whether the character is white space -/
def isBlank (c : Char) : Bool := blank.contains c

/-- the text without the white space at its two ends -/
def trim (s : List Char) : List Char :=
  ((s.dropWhile isBlank).reverse.dropWhile isBlank).reverse

end Redeploy.Text
