/-
Regular expressions, as far as telling whether an automaton over UTF-8 text can be built for one.

No tables of character properties are at hand. What needs one (a shorthand such as `\d`, a match without regard to case,
a word boundary) can be built only where a flag switches Unicode off. There, in turn, nothing can be built that would
match a byte of a longer character: a dot, the complement of a set, a byte above 127.
-/
namespace Redeploy.Logging.Pattern

/-- a character, and whether it was written as a byte: `\x` and two digits -/
structure Literal where
  char : Char
  isByte : Bool := false
deriving DecidableEq, Repr

/-- what stands between the brackets of a class -/
inductive CharSet where
  | nothing
  | literal (l : Literal)
  | range (first last : Literal)
  /-- a set by its name, such as `[:alpha:]` -/
  | named (negated : Bool)
  /-- `\d`, `\s` or `\w`; negated when the letter is a capital -/
  | shorthand (negated : Bool)
  | bracketed (negated : Bool) (inner : CharSet)
  | union (parts : List CharSet)
  /-- what two sets have in common, or what they differ in -/
  | operation (a b : CharSet)

/-- flags that are switched on or off; the ones left out have no part in what can be built -/
structure Flags where
  caseless : Option Bool := none
  unicode : Option Bool := none
  /-- white space and comments between the parts do not count -/
  spaced : Option Bool := none

inductive Expr where
  | empty
  /-- flags for the rest of the group -/
  | flags (f : Flags)
  | literal (l : Literal)
  | dot
  /-- start or end of a line or of the text -/
  | edge
  | wordBoundary
  | shorthand (negated : Bool)
  | charSet (negated : Bool) (inner : CharSet)
  | repetition (e : Expr)
  | group (f : Flags) (e : Expr)
  | concat (es : List Expr)
  | choice (es : List Expr)

/-! Nesting -/

mutual

/-- how deep the parts of a set nest -/
def CharSet.depth : CharSet → Nat
  | .bracketed _ s => s.depth + 1
  | .union parts => CharSet.depths parts + 1
  | .operation a b => max a.depth b.depth + 1
  | _ => 0

def CharSet.depths : List CharSet → Nat
  | [] => 0
  | s :: ss => max s.depth (CharSet.depths ss)

end

mutual

/-- how deep the parts of an expression nest -/
def Expr.depth : Expr → Nat
  | .charSet _ s => s.depth + 1
  | .repetition e => e.depth + 1
  | .group _ e => e.depth + 1
  | .concat es => Expr.depths es + 1
  | .choice es => Expr.depths es + 1
  | _ => 0

def Expr.depths : List Expr → Nat
  | [] => 0
  | e :: es => max e.depth (Expr.depths es)

end

/-- deepest nesting that is allowed -/
def maxDepth : Nat := 250

/-! What can be built -/

/-- the flags in force at a place -/
structure Mode where
  caseless : Bool := false
  unicode : Bool := true

def Mode.switch (m : Mode) (f : Flags) : Mode := ⟨f.caseless.getD m.caseless, f.unicode.getD m.unicode⟩

def Literal.isAscii (l : Literal) : Bool := decide (l.char.toNat < 128)

mutual

/-- whether the set can be built; without Unicode it must not reach beyond ASCII -/
def CharSet.buildable (m : Mode) : CharSet → Bool
  | .nothing => true
  | .literal l => if m.unicode then !m.caseless else l.isAscii
  | .range a b => if m.unicode then !m.caseless else a.isAscii && b.isAscii
  | .named negated => if m.unicode then !m.caseless else !negated
  | .shorthand negated => !m.unicode && !negated
  | .bracketed negated s => (m.unicode || !negated) && s.buildable m
  | .union parts => CharSet.allBuildable m parts
  | .operation a b => a.buildable m && b.buildable m

def CharSet.allBuildable (m : Mode) : List CharSet → Bool
  | [] => true
  | s :: ss => s.buildable m && CharSet.allBuildable m ss

end

/-- whether the character can be built on its own -/
def Literal.buildable (m : Mode) (l : Literal) : Bool :=
  if m.unicode then !m.caseless else l.isAscii || !l.isByte

/-- what is known after a part of an expression: the flags in force, and whether a word boundary came up where words
are those of Unicode -/
structure Survey where
  mode : Mode := {}
  boundary : Bool := false

mutual

/-- the survey after an expression; nothing if a part of it cannot be built -/
def Expr.survey (v : Survey) : Expr → Option Survey
  | .empty => some v
  | .flags f => some { v with mode := v.mode.switch f }
  | .literal l => if l.buildable v.mode then some v else none
  | .dot => if v.mode.unicode then some v else none
  | .edge => some v
  | .wordBoundary => some { v with boundary := v.boundary || v.mode.unicode }
  | .shorthand negated => if !v.mode.unicode && !negated then some v else none
  | .charSet negated s => if (CharSet.bracketed negated s).buildable v.mode then some v else none
  | .repetition e => e.survey v
  | .group f e => (e.survey { v with mode := v.mode.switch f }).map fun w => { w with mode := v.mode }
  | .concat es => Expr.surveyAll v es
  | .choice es => Expr.surveyAll v es

def Expr.surveyAll (v : Survey) : List Expr → Option Survey
  | [] => some v
  | e :: es =>
    match e.survey v with
    | none => none
    | some w => Expr.surveyAll w es

end

/-- why there is no automaton for a text -/
inductive Fault where
  /-- it is no expression, nests too deep, or has a part that cannot be built -/
  | unbuildable
  /-- an automaton cannot tell the boundaries of words of Unicode -/
  | wordBoundary
deriving DecidableEq, Repr

def Expr.fault? (e : Expr) : Option Fault :=
  if maxDepth < e.depth then some .unbuildable
  else match e.survey {} with
    | none => some .unbuildable
    | some v => if v.boundary then some .wordBoundary else none

end Redeploy.Logging.Pattern
