/-
The start of a program that runs a node: its configuration is loaded and checked, and logging is set up. Logging
can be set up once only.
-/
import Redeploy.Config.Load
import Redeploy.Logging.Filter
import Redeploy.Logging.Line
import Redeploy.Notice

namespace Redeploy

/-- why a log file cannot be opened -/
inductive OpenError where
  | notFound
  | isDirectory
  | notADirectory
  | invalidName
  | invalidInput
deriving DecidableEq, Repr

def OpenError.kind : OpenError → String
  | notFound => "NotFound"
  | isDirectory => "IsADirectory"
  | notADirectory => "NotADirectory"
  | invalidName => "InvalidFilename"
  | invalidInput => "InvalidInput"

/-- a place in the tree of directories: the names on the way to it from the root -/
abbrev Place := List String

/-- the names in a path -/
def Place.names (path : String) : List String := (path.splitOn "/").filter (· != "")

/-- the directories and files there are, by their paths -/
structure Storage where
  directories : List String
  files : List String

namespace Storage

def isDirectory (s : Storage) (p : Place) : Bool := p.isEmpty || s.directories.any fun d => Place.names d == p

def isFile (s : Storage) (p : Place) : Bool := s.files.any fun f => Place.names f == p

/-- longest name, in bytes -/
def maxName : Nat := 255

/-- longest path, in bytes -/
def maxPath : Nat := 4095

/-- where a path leads from a place; all but its last name must be those of directories -/
def walk (s : Storage) (here : Place) : List String → Except OpenError Place
  | [] => .ok here
  | name :: rest =>
    if !s.isDirectory here then .error (if s.isFile here then .notADirectory else .notFound)
    else if name = "." then s.walk here rest
    else if name = ".." then s.walk here.dropLast rest
    else if maxName < name.utf8ByteSize then .error .invalidName
    else s.walk (here ++ [name]) rest

/-- the place of a file that can be opened for appending; it is made if its directory exists -/
def openFile (s : Storage) (path : String) : Except OpenError Place := do
  if path.toList.contains '\x00' then throw .invalidInput
  if path.isEmpty then throw .notFound
  if maxPath < path.utf8ByteSize then throw .invalidName
  let names := Place.names path
  let directory ← s.walk [] names.dropLast
  let isNamed := names.getLast?.any fun n => n != "." && n != ".."
  if s.isDirectory directory && isNamed && path.toList.getLast? == some '/' then throw .isDirectory
  let place ← s.walk [] names
  if s.isDirectory place then throw .isDirectory
  pure place

end Storage

/-- logging at work -/
structure Logger where
  filter : Logging.Filter
  format : LogFormat
  /-- the file that is written; without one it is the terminal -/
  file : Option Place

/-- what an entry becomes, with the end of its last line -/
def Logger.written (l : Logger) (s : Logging.Stamp) (e : Logging.Entry) : String :=
  match l.format with
  | .json => (e.toJson s).text ++ "\n"
  | .pretty => if l.file.isSome then e.plain s else e.coloured s

inductive BootstrapError where
  | load (e : LoadError)
  | invalid (problems : List String)
  | filter (complaint : String)
  | logFile (e : OpenError)
  /-- logging was set up before -/
  | installed
deriving Repr

namespace BootstrapError

/-- the text of errors that are made here -/
def message : BootstrapError → String
  | invalid problems => "Invalid configuration: " ++ Config.joined problems
  | filter complaint => complaint
  | installed => "a global default trace dispatcher has already been set"
  | load _ => ""
  | logFile e => e.kind

end BootstrapError

/-- a start that may fail, or come to nothing at a directive that cannot be cut -/
abbrev Start := ExceptT BootstrapError (Except Text.Split)

namespace Logger

/-- set up logging, unless it was `installed` before -/
def ofConfig (storage : Storage) (installed : Bool) (environment : List (String × String)) (c : LoggingConfig) :
    Start Logger := do
  let filter ← ExceptT.adapt .filter (Logging.Filter.choose environment c)
  let file : Option Place ← match c.filePath with
    | none => pure none
    | some path =>
      match storage.openFile path with
      | .ok place => pure (some place)
      | .error e => throw (.logFile e)
  if installed then throw .installed else pure ⟨filter, c.format, file⟩

/-- the first thing that is logged -/
def greeting (c : LoggingConfig) : Notice := .loggingReady c.format.describe c.level

end Logger

/-- load and check the configuration, given what is read of its file, then set up logging -/
def bootstrap (storage : Storage) (installed : Bool) (file : Option (Except LoadError (List (String × Setting))))
    (environment : List (String × String)) : Start (Config × Logger) := do
  let c ← match Config.load file environment with
    | .ok c => pure c
    | .error e => throw (.load e)
  match ← c.problems with
  | [] => return (c, ← Logger.ofConfig storage installed environment c.logging)
  | ps => throw (.invalid ps)

end Redeploy
