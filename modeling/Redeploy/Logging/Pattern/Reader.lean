/-
Reading regular expressions. The grammar is the usual one of linear-time engines: alternatives of concatenations of
repeated items; an item is a character, an escape, a bracketed class, a group with optional name or flags, or an
assertion; neither look-around nor back references.

Each reader takes the characters from where it stands and returns what it read with the characters that are left, or
nothing if the text is ill formed there. Patterns stand between the commas, braces and equals signs of a directive, so
a brace that opens is never closed: counts of repetitions and names in braces are always ill formed.
-/
import Redeploy.Logging.Pattern
import Redeploy.Text.Alphanumeric
import Redeploy.Text.Blank

namespace Redeploy.Logging.Pattern

/-! White space -/

/-- past white space and comments; `comment`: inside a comment, which ends with its line -/
def skipSpace : (comment : Bool) → List Char → List Char
  | _, [] => []
  | true, c :: r => skipSpace (c != '\n') r
  | false, c :: r =>
    if Text.isBlank c then skipSpace false r
    else if c == '#' then skipSpace true r
    else c :: r

/-- past what does not count where white space does not -/
def skip (spaced : Bool) (s : List Char) : List Char := if spaced then skipSpace false s else s

/-- the next character that is no white space, passing over at most one sign of a comment; when there is none, simply
the next character -/
def peek (spaced : Bool) (s : List Char) : Option Char :=
  if spaced then
    match s.dropWhile Text.isBlank with
    | '#' :: r => ((r.dropWhile Text.isBlank).head?).orElse fun _ => s.head?
    | [] => s.head?
    | c :: _ => some c
  else s.head?

/-! Escapes -/

/-- punctuation that has a meaning of its own, or may get one -/
def isMeta (c : Char) : Bool := "\\.+*?()|[]\x7b\x7d^$#&-~".toList.contains c

/-- punctuation that a backslash makes literal -/
def isEscapable (c : Char) : Bool :=
  isMeta c || (decide (c.toNat < 128) && !c.isAlphanum && c != '<' && c != '>')

def hexDigit? (c : Char) : Option Nat :=
  if c.isDigit then some (c.toNat - 48)
  else if 'a' ≤ c ∧ c ≤ 'f' then some (c.toNat - 87)
  else if 'A' ≤ c ∧ c ≤ 'F' then some (c.toNat - 55)
  else none

/-- exactly `n` more hexadecimal digits of a number -/
def hexDigits? (spaced : Bool) : Nat → Nat → List Char → Option (Nat × List Char)
  | 0, v, s => some (v, skip spaced s)
  | n + 1, v, s =>
    match skip spaced s with
    | c :: r => (hexDigit? c).bind fun d => hexDigits? spaced n (16 * v + d) r
    | [] => none

/-- the character with the code point of `n` hexadecimal digits -/
def hexLiteral? (spaced : Bool) (n : Nat) (s : List Char) : Option (Literal × List Char) :=
  match hexDigits? spaced n 0 s with
  | some (v, r) => if v < 0xd800 ∨ 0xdfff < v ∧ v < 0x110000 then some (⟨Char.ofNat v, n == 2⟩, r) else none
  | none => none

/-- what an escape stands for -/
inductive Escape where
  | literal (l : Literal)
  | shorthand (negated : Bool)
  | edge
  | wordBoundary

/-- an escape, after its backslash; one that names a property of characters stands for nothing -/
def escape? (spaced : Bool) : List Char → Option (Escape × List Char)
  | [] => none
  | 'x' :: r => (hexLiteral? spaced 2 r).map fun (l, r) => (.literal l, r)
  | 'u' :: r => (hexLiteral? spaced 4 r).map fun (l, r) => (.literal l, r)
  | 'U' :: r => (hexLiteral? spaced 8 r).map fun (l, r) => (.literal l, r)
  | c :: r =>
    if "dsw".toList.contains c then some (.shorthand false, r)
    else if "DSW".toList.contains c then some (.shorthand true, r)
    else if "Az".toList.contains c then some (.edge, r)
    else if "bB<>".toList.contains c then some (.wordBoundary, r)
    else match c with
      | 'a' => some (.literal ⟨'\x07', false⟩, r)
      | 'f' => some (.literal ⟨'\x0c', false⟩, r)
      | 'n' => some (.literal ⟨'\n', false⟩, r)
      | 'r' => some (.literal ⟨'\r', false⟩, r)
      | 't' => some (.literal ⟨'\t', false⟩, r)
      | 'v' => some (.literal ⟨'\x0b', false⟩, r)
      | c => if isEscapable c then some (.literal ⟨c, false⟩, r) else none

/-! Classes -/

/-- names of character sets -/
def setNames : List String :=
  ["alnum", "alpha", "ascii", "blank", "cntrl", "digit", "graph", "lower", "print", "punct", "space", "upper", "word",
    "xdigit"]

/-- a named set `[:name:]`, after its opening bracket, and whether it is negated; anything else is read as a class in
the class -/
def namedSet? : List Char → Option (Bool × List Char)
  | ':' :: r =>
    let (negated, r) := match r with
      | '^' :: r' => (true, r')
      | _ => (false, r)
    match r.dropWhile (· != ':') with
    | ':' :: ']' :: rest =>
      if setNames.contains (String.ofList (r.takeWhile (· != ':'))) then some (negated, rest) else none
    | _ => none
  | _ => none

/-- a set of parts, one after the other; the latest one is first in the list -/
def CharSet.ofParts : List CharSet → CharSet
  | [] => .nothing
  | [s] => s
  | parts => .union parts.reverse

/-- dashes at the start of a class, each standing for itself; something must follow -/
def dashes? (spaced : Bool) : Nat → List CharSet → List Char → Option (List CharSet × List Char)
  | 0, _, _ => none
  | fuel + 1, parts, s =>
    match skip spaced s with
    | [] => none
    | '-' :: r => dashes? spaced fuel (.literal ⟨'-', false⟩ :: parts) r
    | r => some (parts, r)

/-- after the bracket that opens a class: whether a `^` negates it, and dashes or a bracket that stand for themselves -/
def classStart? (spaced : Bool) (s : List Char) : Option (Bool × List CharSet × List Char) :=
  let (negated, s) := match skip spaced s with
    | '^' :: r => (true, r)
    | r => (false, r)
  match dashes? spaced (s.length + 1) [] s with
  | some ([], ']' :: r) =>
    match skip spaced r with
    | [] => none
    | r => some (negated, [.literal ⟨']', false⟩], r)
  | some (parts, r) => some (negated, parts, r)
  | none => none

/-- one end of a range, or an item alone -/
def classItem? (spaced : Bool) : List Char → Option (Escape × List Char)
  | [] => none
  | '\\' :: r => escape? spaced r
  | c :: r => some (.literal ⟨c, false⟩, r)

/-- the set that an item alone stands for -/
def Escape.charSet? : Escape → Option CharSet
  | .literal l => some (.literal l)
  | .shorthand negated => some (.shorthand negated)
  | _ => none

/-- an item or a range; a dash makes a range unless a bracket or another dash follows it -/
def classRange? (spaced : Bool) (s : List Char) : Option (CharSet × List Char) :=
  match classItem? spaced s with
  | none => none
  | some (low, r) =>
    match skip spaced r with
    | [] => none
    | '-' :: r' =>
      if peek spaced r' == some ']' || peek spaced r' == some '-' then low.charSet?.map fun a => (a, '-' :: r')
      else match low, classItem? spaced (skip spaced r') with
        | .literal a, some (.literal b, r'') => if a.char ≤ b.char then some (.range a b, r'') else none
        | _, _ => none
    | r' => low.charSet?.map fun a => (a, r')

/-- the inside of a class up to its closing bracket; `pending`: the set in front of the latest operator -/
def classBody? (spaced : Bool) :
    Nat → Option CharSet → List CharSet → List Char → Option (CharSet × List Char)
  | 0, _, _, _ => none
  | fuel + 1, pending, parts, s =>
    match skip spaced s with
    | [] => none
    | ']' :: r => some (complete pending parts, r)
    | '[' :: r =>
      match namedSet? r with
      | some (negated, r') => classBody? spaced fuel pending (.named negated :: parts) r'
      | none =>
        match classStart? spaced r with
        | none => none
        | some (negated, inner, r') =>
          match classBody? spaced fuel none inner r' with
          | none => none
          | some (s, r'') => classBody? spaced fuel pending (.bracketed negated s :: parts) r''
    | '&' :: '&' :: r => classBody? spaced fuel (some (complete pending parts)) [] r
    | '-' :: '-' :: r => classBody? spaced fuel (some (complete pending parts)) [] r
    | '~' :: '~' :: r => classBody? spaced fuel (some (complete pending parts)) [] r
    | s =>
      match classRange? spaced s with
      | some (a, r) => classBody? spaced fuel pending (a :: parts) r
      | none => none
where
  /-- the parts after the operator, and what is in front of it -/
  complete (pending : Option CharSet) (parts : List CharSet) : CharSet :=
    match pending with
    | none => .ofParts parts
    | some a => .operation a (.ofParts parts)

/-! Groups -/

def Flags.set (f : Flags) (flag : Char) (on : Bool) : Flags :=
  match flag with
  | 'i' => { f with caseless := some on }
  | 'u' => { f with unicode := some on }
  | 'x' => { f with spaced := some on }
  | _ => f

/-- flags up to the colon or parenthesis that ends them, which is returned too; no flag twice, one minus sign at most,
and a flag after it; there may be none before a colon only -/
def flags? : List Char → Flags → (dangling : Bool) → List Char → Option (Flags × Char × List Char)
  | _, _, _, [] => none
  | seen, f, dangling, c :: r =>
    if c = ':' ∨ c = ')' then if dangling || c == ')' && seen.isEmpty then none else some (f, c, r)
    else if seen.contains c then none
    else if c = '-' then flags? (c :: seen) f true r
    else if "imsUuxR".toList.contains c then flags? (c :: seen) (f.set c (!seen.contains '-')) false r
    else none

/-- a group name up to the bracket that ends it -/
def groupName? (s : List Char) : Option (String × List Char) :=
  let name := s.takeWhile (· != '>')
  match name, s.dropWhile (· != '>') with
  | c :: cs, '>' :: r =>
    if (c == '_' || Text.isAlphabetic c) &&
        cs.all fun d => d == '_' || d == '.' || d == '[' || d == ']' || Text.isAlphanumeric d then
      some (String.ofList name, r)
    else none
  | _, _ => none

/-- how a group begins -/
inductive Opening where
  | group (f : Flags) (name : Option String)
  /-- flags for the group around, and no group -/
  | flags (f : Flags)

/-- after the parenthesis that opens a group -/
def opening? (spaced : Bool) (s : List Char) : Option (Opening × List Char) :=
  match skip spaced s with
  | '?' :: 'P' :: '<' :: r => (groupName? r).map fun (n, r) => (.group {} (some n), r)
  | '?' :: '<' :: r => (groupName? r).map fun (n, r) => (.group {} (some n), r)
  | '?' :: r =>
    match flags? [] {} false r with
    | some (f, ':', r) => some (.group f none, r)
    | some (f, _, r) => some (.flags f, r)
    | none => none
  | r => some (.group {} none, r)

/-! Expressions -/

/-- a concatenation of items, of which the latest one is first in the list -/
def Expr.ofItems : List Expr → Expr
  | [] => .empty
  | [e] => e
  | es => .concat es.reverse

/-- alternatives, of which the latest one is first in the list -/
def Expr.ofBranches : List Expr → Expr
  | [e] => e
  | es => .choice es.reverse

/-- the items with the latest one repeated; flags cannot be -/
def repeatLatest? : List Expr → Option (List Expr)
  | [] => none
  | .flags _ :: _ => none
  | e :: es => some (.repetition e :: es)

/-- past a question mark, which makes the repetition before it lazy -/
def skipLazy : List Char → List Char
  | '?' :: r => r
  | r => r

def Escape.expr : Escape → Expr
  | .literal l => .literal l
  | .shorthand negated => .shorthand negated
  | .edge => .edge
  | .wordBoundary => .wordBoundary

/-- an expression up to the parenthesis that ends its group, or to the end of the text; `names` are the group names
taken so far, `branches` the alternatives before the present one and `items` what was read of it -/
def expression? : Nat → (spaced : Bool) → (names : List String) → (branches items : List Expr) → List Char →
    Option (Expr × List String × List Char)
  | 0, _, _, _, _, _ => none
  | fuel + 1, spaced, names, branches, items, s =>
    match skip spaced s with
    | [] => some (.ofBranches (.ofItems items :: branches), names, [])
    | ')' :: r => some (.ofBranches (.ofItems items :: branches), names, ')' :: r)
    | '|' :: r => expression? fuel spaced names (.ofItems items :: branches) [] r
    | '(' :: r =>
      match opening? spaced r with
      | none => none
      | some (.flags f, r) => expression? fuel (f.spaced.getD spaced) names branches (.flags f :: items) r
      | some (.group f name, r) =>
        if name.any names.contains then none
        else match expression? fuel (f.spaced.getD spaced) (name.toList ++ names) [] [] r with
          | some (e, names, ')' :: r) => expression? fuel spaced names branches (.group f e :: items) r
          | _ => none
    | '[' :: r =>
      match classStart? spaced r with
      | none => none
      | some (negated, parts, r) =>
        match classBody? spaced (r.length + 1) none parts r with
        | none => none
        | some (a, r) => expression? fuel spaced names branches (.charSet negated a :: items) r
    | '\x7b' :: _ => none
    | '\\' :: r =>
      match escape? spaced r with
      | none => none
      | some (e, r) => expression? fuel spaced names branches (e.expr :: items) r
    | c :: r =>
      if c = '*' ∨ c = '+' ∨ c = '?' then
        match repeatLatest? items with
        | none => none
        | some items => expression? fuel spaced names branches items (skipLazy r)
      else
        let item : Expr :=
          if c = '.' then .dot else if c = '^' ∨ c = '$' then .edge else .literal ⟨c, false⟩
        expression? fuel spaced names branches (item :: items) r

/-- the expression that a whole text stands for -/
def read? (s : List Char) : Option Expr :=
  match expression? (s.length + 1) false [] [] [] s with
  | some (e, _, []) => some e
  | _ => none

/-- why no automaton can be built for a text, if that is so -/
def faultOf? (s : List Char) : Option Fault :=
  match read? s with
  | none => some .unbuildable
  | some e => e.fault?

end Redeploy.Logging.Pattern
