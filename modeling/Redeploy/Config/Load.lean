/-
Loading a configuration: from a file, with environment variables overriding it, and defaults for the rest.

TOML and JSON are read here. The other formats, which are YAML, INI, RON and JSON5, are read by whatever reader is given for
the extension of the file. Of an extension without a reader no file is loaded.

A path that leads nowhere is as good as none. One that leads to something that cannot be read, as a directory cannot, is not:
then nothing is loaded.
-/
import Redeploy.Config.Coerce
import Redeploy.Config.Environment
import Redeploy.Json.Reader
import Redeploy.Toml.Reader

namespace Redeploy

mutual

/-- the setting that a JSON value stands for; of members of one name the last one counts -/
def Setting.ofJson : Json.Value → Setting
  | .null => .nothing
  | .bool b => .flag b
  | .int n => .int n
  | .float x => .float x
  | .string s => .text s
  | .garbled => .nothing
  | .array items => .list (Setting.ofJsonItems items)
  | .object members => .table (Setting.ofJsonMembers members [])

def Setting.ofJsonItems : List Json.Value → List Setting
  | [] => []
  | v :: vs => Setting.ofJson v :: Setting.ofJsonItems vs

def Setting.ofJsonMembers : List (String × Json.Value) → List (String × Setting) → List (String × Setting)
  | [], es => es
  | (k, v) :: ms, es => Setting.ofJsonMembers ms (Setting.putEntry k (Setting.ofJson v) es)

end

namespace Config

/-- the settings in a JSON text, which must be an object -/
def readJson (text : String) : Option (List (String × Setting)) :=
  match Json.readText text with
  | some (.object members) =>
    if (Json.Value.object members).isSound then some (Setting.ofJsonMembers members []) else none
  | _ => none

/-- what follows the last dot of a file name, if the name does not begin with that dot -/
def extension (name : String) : String :=
  let s := name.toList.reverse
  match s.dropWhile (· != '.') with
  | [] => ""
  | [_] => ""
  | _ => String.ofList (s.takeWhile (· != '.')).reverse

/-- what reads a format: the settings at the top of a text, or nothing if the text is malformed -/
abbrev Reader := String → Option (List (String × Setting))

/-- the readers by the extensions of their files -/
abbrev Formats := String → Option Reader

namespace Formats

/-- the formats that are read here -/
def own : Formats
  | "toml" => some Toml.read
  | "json" => some readJson
  | _ => none

/-- these formats, and those that others know besides -/
def or (formats others : Formats) : Formats := fun extension => (formats extension).or (others extension)

end Formats

/-- the text without the byte order mark in front of it -/
def withoutMark (text : String) : String :=
  match text.toList with
  | '\ufeff' :: r => String.ofList r
  | _ => text

/-- the settings in a file, whose name tells its format -/
def readFile (formats : Formats) (name text : String) : Except LoadError (List (String × Setting)) :=
  match formats (extension name) with
  | none => .error .unknownFormat
  | some read =>
    match read (withoutMark text) with
    | some es => .ok es
    | none => .error .malformed

/-- the configuration that the environment and a file, if there is one, give; of the file there is what reading it gave -/
def load (file : Option (Except LoadError (List (String × Setting)))) (environment : List (String × String)) :
    Except LoadError Config := do
  let fromFile ← match file with
    | none => pure []
    | some settings => settings
  match ((Setting.table []).override fromFile).bind (·.override (Environment.settings environment)) with
  | some s => ofSetting s
  | none => .error .outOfReach

/-- what there is at a path -/
inductive Found where
  | nothing
  /-- a file: its name and its text -/
  | file (name text : String)
  /-- something that cannot be read as a text, with no file that could stand for it -/
  | unreadable
deriving DecidableEq, Repr

/-- what there is, by path -/
abbrev Files := String → Found

/-- what reading at a path gives; none without a path, or if there is nothing -/
def source (formats : Formats) (files : Files) (path : Option String) :
    Option (Except LoadError (List (String × Setting))) :=
  match path.map files with
  | none | some .nothing => none
  | some (.file name text) => some (readFile formats name text)
  | some .unreadable => some (.error .unreadable)

/-- the configuration that the file at a path, if it exists, and the environment give -/
def loadFrom (formats : Formats) (files : Files) (path : Option String) (environment : List (String × String)) :
    Except LoadError Config :=
  load (source formats files path) environment

end Config

end Redeploy
