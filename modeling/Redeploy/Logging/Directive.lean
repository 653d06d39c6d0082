/-
Filter directives: one rule of a log filter, such as `name::part[span{field=value}]=level`.

A directive names a target, a span and fields, all optional, and the least severe level it lets through. It is
read one character at a time by a machine whose states are the parts of that form.
-/
import Redeploy.Logging.Entry
import Redeploy.Logging.Pattern.Reader
import Redeploy.Number.Numeral
import Redeploy.Text.Piece

namespace Redeploy.Logging

/-- the least severe level let through; `none` lets nothing through -/
abbrev LevelFilter := Option Level

namespace LevelFilter

def ofName? (s : String) : Option LevelFilter :=
  match s.toLower with
  | "off" => some none
  | "" | "error" => some (some .error)
  | "warn" => some (some .warn)
  | "info" => some (some .info)
  | "debug" => some (some .debug)
  | "trace" => some (some .trace)
  | _ => none

/-- a level by number, 0 for off to 5 for trace, or by name in any case of letters -/
def parse? (s : List Char) : Option LevelFilter :=
  match natNumeral? s with
  | some 0 => some none
  | some 1 => some (some .error)
  | some 2 => some (some .warn)
  | some 3 => some (some .info)
  | some 4 => some (some .debug)
  | some 5 => some (some .trace)
  | _ => ofName? (String.ofList s)

end LevelFilter

inductive DirectiveError where
  | malformed
  | level
  /-- the value of a field is no pattern that could be matched -/
  | pattern (why : Pattern.Fault)
deriving DecidableEq, Repr

def DirectiveError.message : DirectiveError → String
  | malformed => "invalid filter directive"
  | level =>
    "error parsing level filter: expected one of \"off\", \"error\", \"warn\", \"info\", \"debug\", \"trace\", " ++
      "or a number 0-5"
  | pattern .unbuildable => "invalid field filter: error building NFA"
  | pattern .wordBoundary =>
    "invalid field filter: unsupported regex feature for DFAs: cannot build DFAs for regexes with Unicode word " ++
      "boundaries; switch to ASCII word boundaries, or heuristically enable Unicode word boundaries or use a " ++
      "different regex engine"

/-- a field that an entry or span must have, perhaps with a value -/
structure FieldMatch where
  name : String
  value : Option String := none
deriving DecidableEq, Repr, Inhabited

namespace FieldMatch

/-- whether a field's value is a plain one, to be compared as it is, and not a pattern -/
def isPlainValue (s : List Char) : Bool :=
  s == "true".toList || s == "false".toList || (Decimal.ofNumeral? s).isSome

/-- a name, or a name and a value with an equals sign between them; what follows a second one is not looked at -/
def parse (s : List Char) : Except DirectiveError FieldMatch :=
  let name := String.ofList (s.takeWhile (· != '='))
  match s.dropWhile (· != '=') with
  | [] => .ok ⟨name, none⟩
  | _ :: r =>
    let value := r.takeWhile (· != '=')
    if isPlainValue value then .ok ⟨name, some (String.ofList value)⟩
    else match Pattern.faultOf? value with
      | none => .ok ⟨name, some (String.ofList value)⟩
      | some why => .error (.pattern why)

end FieldMatch

structure Directive where
  target : Option String := none
  span : Option String := none
  fields : List FieldMatch := []
  level : LevelFilter := some .trace
deriving DecidableEq, Repr, Inhabited

namespace Directive

/-- the part that is being read, with the position at which it starts -/
inductive Part where
  | start
  | levelOrTarget (start : Nat)
  | span (start : Nat)
  | field (start : Nat)
  | fields
  | target
  | level (start : Nat)
  | complete

/-- reading a directive: it may be no directive, or it may have to be cut inside a character, which nothing comes back
from -/
abbrev Reading := ExceptT DirectiveError (Except Text.Split)

/-- whether a level or target may start with the character -/
def isStart (c : Char) : Bool := c == '-' || c == ':' || c == '_' || Text.isAlphanumeric c

/-- a level on its own, or else a target with everything let through -/
def withLevelOrTarget (d : Directive) (s : List Char) : Directive :=
  match LevelFilter.parse? s with
  | some l => { d with level := l, target := none }
  | none => { d with target := some (String.ofList s), level := some .trace }

/-- a level after an equals sign; without one everything is let through -/
def withLevel (d : Directive) (s : List Char) : Reading Directive :=
  if s.isEmpty then pure { d with level := some .trace }
  else match LevelFilter.parse? s with
    | some l => pure { d with level := l }
    | none => throw .level

def withField (d : Directive) (s : List Char) : Reading Directive := do
  if s.isEmpty then throw .malformed
  match FieldMatch.parse s with
  | .ok f => pure { d with fields := d.fields ++ [f] }
  | .error e => throw e

/-- the machine reads the character at position `i`; parts are cut out of `text` -/
def step (text : List Char) (i : Nat) (c : Char) (d : Directive) : Part → Reading (Directive × Part)
  | .start =>
    if c = '[' then pure (d, .span (i + 1))
    else if isStart c then pure (d, .levelOrTarget i)
    else throw .malformed
  | .levelOrTarget start => do
    if c = '=' then pure ({ d with target := some (← cut start) }, .level (i + 1))
    else if c = '[' then pure ({ d with target := some (← cut start) }, .span (i + 1))
    else if c = ',' then pure (d.withLevelOrTarget (← Text.pieceFrom text start), .complete)
    else pure (d, .levelOrTarget start)
  | .target => if c = '=' then pure (d, .level (i + 1)) else throw .malformed
  | .span start => do
    if c = ']' then pure ({ d with span := some (← cut start) }, .target)
    else if c = '\x7b' then
      let name ← cut start
      pure ({ d with span := if name.isEmpty then none else some name }, .field (i + 1))
    else pure (d, .span start)
  | .field start => do
    if c = '\x7d' then pure (← d.withField (← Text.piece text start i), .fields)
    else if c = ',' then pure (← d.withField (← Text.piece text start i), .field (i + 1))
    else pure (d, .field start)
  | .fields => if c = ']' then pure (d, .target) else throw .malformed
  | .level start => do
    if c = ',' then pure (← d.withLevel (← Text.piece text start i), .complete) else pure (d, .level start)
  | .complete => throw .malformed
where
  cut (start : Nat) : Reading String := do return String.ofList (← Text.piece text start i)

/-- the machine at the end of the text -/
def finish (text : List Char) (d : Directive) : Part → Reading Directive
  | .levelOrTarget start => do return d.withLevelOrTarget (← Text.pieceFrom text start)
  | .level start => do d.withLevel (← Text.pieceFrom text start)
  | .target => pure d
  | .complete => pure d
  | _ => throw .malformed

def run (text : List Char) : Nat → Directive → Part → List Char → Reading Directive
  | _, d, p, [] => finish text d p
  | i, d, p, c :: r => do
    let (d, p) ← step text i c d p
    run text (i + c.utf8Size) d p r

/-- the directive that a text stands for. White space around it is passed over when the parts are found; they are then
cut out of the text as it is given, by the positions they had -/
def parse (s : String) : Reading Directive := run s.toList 0 {} .start (Text.trim s.toList)

end Directive

end Redeploy.Logging
