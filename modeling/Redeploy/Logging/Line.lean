/-
Log entries as lines: JSON objects for programs, and a form for people, which is coloured on a terminal.
-/
import Redeploy.Json.Value
import Redeploy.Logging.Entry
import Redeploy.Text.Quoted

namespace Redeploy.Logging

/-- when and where an entry came about -/
structure Stamp where
  time : String
  file : String
  line : String

namespace Value

def toJson : Value → Json.Value
  | rendered s => .string s
  | text s => .string s
  | number n => .int n

/-- the value as people read it -/
def display : Value → String
  | rendered s => s
  | text s => Text.quote s
  | number n => toString n

end Value

namespace Entry

def toJson (s : Stamp) (e : Entry) : Json.Value :=
  .object [("timestamp", .string s.time), ("level", .string e.level.label),
    ("fields", .object (("message", .string e.message) :: e.fields.map fun (k, v) => (k, v.toJson))),
    ("target", .string e.target), ("filename", .string s.file), ("line_number", .string s.line)]

/-- a terminal's command for a style -/
def style (code : String) : String := "\x1b[" ++ code ++ "m"

def reset : String := style "0"

/-- the colour of a level -/
def colour : Level → String
  | .trace => "35"
  | .debug => "34"
  | .info => "32"
  | .warn => "33"
  | .error => "31"

/-- the name of the level, five characters wide -/
def paddedLabel (l : Level) : String := String.ofList (List.replicate (5 - l.label.length) ' ') ++ l.label

/-- the entry on one line, and more if values have line ends -/
def plain (s : Stamp) (e : Entry) : String :=
  "  " ++ s.time ++ " " ++ paddedLabel e.level ++ " " ++ e.target ++ ":" ++ s.line ++ ": " ++
    ", ".intercalate (e.message :: e.fields.map fun (k, v) => k ++ ": " ++ v.display) ++ "\n"

/-- the same in the colour of the level; names stand out -/
def coloured (s : Stamp) (e : Entry) : String :=
  let normal := style (colour e.level)
  let strong := style ("1;" ++ colour e.level)
  "  " ++ style "2" ++ s.time ++ reset ++ " " ++ normal ++ paddedLabel e.level ++ reset ++ " " ++
    strong ++ e.target ++ reset ++ normal ++ ":" ++ normal ++ s.line ++ ": " ++
    ", ".intercalate ((normal ++ e.message) ::
      e.fields.map fun (k, v) => strong ++ k ++ reset ++ normal ++ ": " ++ v.display) ++ reset ++ "\n"

end Entry

end Redeploy.Logging
