/-
Pieces of a text, cut out between two positions. A position counts the bytes of the text in UTF-8, so it may fall inside
a character; there is no piece then.
-/
import Redeploy.Text.Quoted

namespace Redeploy.Text

/-- a position inside a character, at which no text can be cut -/
structure Split where
  /-- the piece was to start there; otherwise it was to end there -/
  atStart : Bool
  position : Nat
  character : Char
  /-- position of the character -/
  first : Nat
deriving DecidableEq, Repr

def Split.message (s : Split) : String :=
  (if s.atStart then "start" else "end") ++ " byte index " ++ toString s.position ++
    " is not a char boundary; it is inside '" ++ String.ofList (quoteChar s.character) ++ "' (bytes " ++
    toString s.first ++ ".." ++ toString (s.first + s.character.utf8Size) ++ " of string)"

/-- the character that the position falls inside of, with its own position; `i` is the position of the first one -/
def inside? (position : Nat) : Nat → List Char → Option (Char × Nat)
  | _, [] => none
  | i, c :: r =>
    if position ≤ i then none
    else if position < i + c.utf8Size then some (c, i)
    else inside? position (i + c.utf8Size) r

/-- the text from a position on -/
def dropBytes (n : Nat) : List Char → List Char
  | [] => []
  | c :: r => if n = 0 then c :: r else dropBytes (n - c.utf8Size) r

/-- the text up to a position -/
def takeBytes (n : Nat) : List Char → List Char
  | [] => []
  | c :: r => if n = 0 then [] else c :: takeBytes (n - c.utf8Size) r

/-- the text from one position on -/
def pieceFrom (text : List Char) (start : Nat) : Except Split (List Char) :=
  match inside? start 0 text with
  | some (c, i) => .error ⟨true, start, c, i⟩
  | none => .ok (dropBytes start text)

/-- the text from one position up to another one -/
def piece (text : List Char) (start stop : Nat) : Except Split (List Char) := do
  let rest ← pieceFrom text start
  match inside? stop 0 text with
  | some (c, i) => .error ⟨false, stop, c, i⟩
  | none => pure (takeBytes (stop - start) rest)

end Redeploy.Text
