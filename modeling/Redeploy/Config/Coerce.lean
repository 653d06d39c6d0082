/-
From settings to a configuration. A setting of another kind than the one wanted is converted where that makes sense:
numbers, flags and texts into one another.
-/
import Redeploy.Config.Basic
import Redeploy.Config.Setting

namespace Redeploy

/-- why no configuration could be loaded -/
inductive LoadError where
  /-- the file is not well formed -/
  | malformed
  /-- the file is in no known format -/
  | unknownFormat
  /-- what the path leads to cannot be read -/
  | unreadable
  /-- the setting cannot be converted -/
  | wrongKind (key : String)
  /-- the setting has the wrong shape, or names no known variant -/
  | wrongShape (key : String)
  /-- a key leads to a place in a list that is longer than any list can be -/
  | outOfReach
deriving DecidableEq, Repr

namespace Setting

/-- words for yes and no -/
def ofWord? (s : String) : Option Bool :=
  match s.toLower with
  | "true" | "on" | "yes" => some true
  | "false" | "off" | "no" => some false
  | _ => none

/-- an integer from `low` to `high`; a float is rounded and kept between them -/
def toInt? (low high : Int) : Setting → Option Int
  | .int n => within n
  | .float x => some (x.roundWithin low high)
  | .flag b => some (if b then 1 else 0)
  | .text s =>
    match ofWord? s with
    | some b => some (if b then 1 else 0)
    | none => (numeral s.toList).bind within
  | _ => none
where
  within (n : Int) : Option Int := if low ≤ n ∧ n ≤ high then some n else none
  numeral (s : List Char) : Option Int := if low < 0 then intNumeral? s else (natNumeral? s).map Int.ofNat

def toText? : Setting → Option String
  | .text s => some s
  | .flag b => some (if b then "true" else "false")
  | .int n => some (toString n)
  | .float x => some x.text
  | _ => none

end Setting

namespace Config

/-- a value, or the complaint that the setting under the key is of the wrong kind -/
def orWrongKind {α : Type} (key : String) : Option α → Except LoadError α
  | some a => .ok a
  | none => .error (.wrongKind key)

def word (key : String) (s : Setting) : Except LoadError UInt64 :=
  orWrongKind key ((s.toInt? 0 (UInt64.size - 1 : Nat)).map fun n => n.toNat.toUInt64)

def signedWord (key : String) (s : Setting) : Except LoadError Int64 :=
  orWrongKind key ((s.toInt? Int64.minValue.toInt Int64.maxValue.toInt).map Int64.ofInt)

def text (key : String) (s : Setting) : Except LoadError String := orWrongKind key s.toText?

def optionalText (key : String) : Setting → Except LoadError (Option String)
  | .nothing => .ok none
  | s => (text key s).map some

/-- a variant by name, or by a table with its name as only key -/
def format (key : String) (s : Setting) : Except LoadError LogFormat :=
  let name? : Option String := match s with
    | .text n => some n
    | .table [(n, _)] => some n
    | _ => none
  match name?.bind LogFormat.ofText? with
  | some f => .ok f
  | none => .error (.wrongShape key)

def texts (key : String) : Setting → Except LoadError (List String)
  | .list items => items.zipIdx.mapM fun (s, i) => text (key ++ "[" ++ toString i ++ "]") s
  | _ => .error (.wrongShape key)

/-- the fields of a section with their keys: by name from a table, by place from a list -/
def fields (key : String) (names : List String) : Setting → Except LoadError (List (String × String × Setting))
  | .table es => .ok (es.map fun (n, s) => (n, key ++ "." ++ n, s))
  | .list items => .ok ((names.zip items.zipIdx).map fun (n, s, i) => (n, key ++ "[" ++ toString i ++ "]", s))
  | _ => .error (.wrongShape key)

/-- a field, or its default when it is not given -/
def field {α : Type} (name : String) (otherwise : α) (read : String → Setting → Except LoadError α)
    (given : List (String × String × Setting)) : Except LoadError α :=
  match given.lookup name with
  | some (key, s) => read key s
  | none => .ok otherwise

def deploymentOf (key : String) (s : Setting) : Except LoadError DeploymentConfig := do
  let given ← fields key ["network_timeout_ms"] s
  let d : DeploymentConfig := {}
  pure ⟨← field "network_timeout_ms" d.networkTimeout word given⟩

def membershipOf (key : String) (s : Setting) : Except LoadError MembershipConfig := do
  let given ← fields key ["node_id", "heartbeat_timeout_secs", "check_interval_secs"] s
  let d : MembershipConfig := {}
  pure
    { nodeId := ← field "node_id" d.nodeId text given
      heartbeatTimeout := ← field "heartbeat_timeout_secs" d.heartbeatTimeout signedWord given
      checkInterval := ← field "check_interval_secs" d.checkInterval word given }

def loggingOf (key : String) (s : Setting) : Except LoadError LoggingConfig := do
  let given ← fields key ["level", "format", "directives", "file_path"] s
  let d : LoggingConfig := {}
  pure
    { level := ← field "level" d.level text given
      format := ← field "format" d.format format given
      directives := ← field "directives" d.directives texts given
      filePath := ← field "file_path" d.filePath optionalText given }

/-- the configuration that settings stand for; what they do not give has its default -/
def ofSetting (s : Setting) : Except LoadError Config := do
  let given := s.entries.map fun (n, v) => (n, n, v)
  pure
    { deployment := ← field "deployment" {} deploymentOf given
      membership := ← field "membership" {} membershipOf given
      logging := ← field "logging" {} loggingOf given }

end Config

end Redeploy
