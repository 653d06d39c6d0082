/-
How the values of this library are written as JSON and read back.

A structure is an object with one member per field, or an array of its fields in order. Reading, members in any
order are taken, unknown ones are passed over, and a name given twice is a mistake. What is read is read
strictly: a number is not taken for a text, nor a text for a number.
-/
import Redeploy.Config.Basic
import Redeploy.Deployment.Event
import Redeploy.Json.Value
import Redeploy.Membership.Directory
import Redeploy.Number.Binary64
import Redeploy.Timestamp.Text

namespace Redeploy.Json

/-- why a value is not what was expected -/
inductive Mismatch where
  | wrongType (found expected : String)
  | wrongValue (found expected : String)
  | missing (field : String)
  | duplicate (field : String)
  | length (found : Nat) (expected : String)
  | unknownVariant (found : String) (variants : List String)
deriving DecidableEq, Repr

def backquoted (s : String) : String := "`" ++ s ++ "`"

namespace Mismatch

def message : Mismatch → String
  | wrongType found expected => "invalid type: " ++ found ++ ", expected " ++ expected
  | wrongValue found expected => "invalid value: " ++ found ++ ", expected " ++ expected
  | missing field => "missing field " ++ backquoted field
  | duplicate field => "duplicate field " ++ backquoted field
  | length found expected => "invalid length " ++ toString found ++ ", expected " ++ expected
  | unknownVariant found variants =>
    "unknown variant " ++ backquoted found ++ ", expected " ++
      match variants with
      | [a] => backquoted a
      | [a, b] => backquoted a ++ " or " ++ backquoted b
      | vs => "one of " ++ ", ".intercalate (vs.map backquoted)

end Mismatch

/-- the result of reading a value -/
abbrev Read (α : Type) := Except Mismatch α

/-- what a value is, in a complaint about it -/
def Value.describe : Value → String
  | .null => "null"
  | .bool b => "boolean " ++ backquoted (if b then "true" else "false")
  | .int n => "integer " ++ backquoted (toString n)
  | .float x => "floating point " ++ backquoted x.shortText
  | .string s => "string " ++ Text.quote s
  | .garbled => "string"
  | .array _ => "sequence"
  | .object _ => "map"

def readString : Value → Read String
  | .string s => .ok s
  | v => .error (.wrongType v.describe "a string")

def readUInt64 : Value → Read UInt64
  | .int n => if 0 ≤ n then .ok n.toNat.toUInt64 else .error (.wrongValue (Value.int n).describe "u64")
  | v => .error (.wrongType v.describe "u64")

def readInt64 : Value → Read Int64
  | .int n =>
    if n ≤ Int64.maxValue.toInt then .ok (Int64.ofInt n) else .error (.wrongValue (Value.int n).describe "i64")
  | v => .error (.wrongType v.describe "i64")

/-- `null` stands for nothing -/
def readOption {α : Type} (read : Value → Read α) : Value → Read (Option α)
  | .null => .ok none
  | v => (read v).map some

def readList {α : Type} (read : Value → Read α) : Value → Read (List α)
  | .array items => items.mapM read
  | v => .error (.wrongType v.describe "a sequence")

/-- an object as pairs; of two members of one name the last one counts -/
def readMap : Value → Read (List (String × String))
  | .object members =>
    members.foldlM (fun ms (k, v) => do
      let s ← readString v
      pure (ms.filter (·.1 != k) ++ [(k, s)])) []
  | v => .error (.wrongType v.describe "a map")

/-- a name among several: a string, or an object whose one member has the name and stands for nothing else -/
def readVariant {α : Type} (variants : List String) (ofText? : String → Option α) : Value → Read α
  | .string s => pick s
  | .object [(s, .null)] => pick s
  | .object [(_, v)] => .error (.wrongType v.describe "unit variant")
  | v => .error (.wrongType v.describe "string or map")
where
  pick (s : String) : Read α :=
    match ofText? s with
    | some a => .ok a
    | none => .error (.unknownVariant s variants)

/-- the members of a structure's fields, from an object or from an array -/
def readFields (what : String) (names : List String) : Value → Read (List (String × Value))
  | .object members => do
    let known := members.filter fun (k, _) => names.contains k
    match names.find? fun n => (known.filter fun (k, _) => k == n).length > 1 with
    | some n => .error (.duplicate n)
    | none => .ok known
  | .array items =>
    if items.length ≤ names.length then .ok (names.zip items)
    else .error (.length items.length "fewer elements in array")
  | v => .error (.wrongType v.describe ("struct " ++ what))

def required {α : Type} (name : String) (read : Value → Read α) (fields : List (String × Value)) : Read α :=
  match fields.lookup name with
  | some v => read v
  | none => .error (.missing name)

def optional {α : Type} (name : String) (otherwise : α) (read : Value → Read α) (fields : List (String × Value)) :
    Read α :=
  match fields.lookup name with
  | some v => read v
  | none => .ok otherwise

/-- a name of words with a capital letter each, in small letters with underscores between them -/
def snakeCase (name : String) : String :=
  match name.toList with
  | [] => ""
  | c :: cs => String.ofList (c.toLower :: cs.flatMap fun c => if c.isUpper then ['_', c.toLower] else [c])

def writeOption {α : Type} (write : α → Value) : Option α → Value
  | none => .null
  | some a => write a

end Redeploy.Json

namespace Redeploy

open Json

def MemberId.toJson (m : MemberId) : Value := .string m.text
def MemberId.ofJson (v : Value) : Read MemberId := (readString v).map MemberId.mk

def DeploymentId.toJson (d : DeploymentId) : Value := .string d.text
def DeploymentId.ofJson (v : Value) : Read DeploymentId := (readString v).map DeploymentId.mk

def Mode.toJson (m : Mode) : Value := .string m.text
def Mode.ofJson : Value → Read Mode := readVariant ["private", "isolated"] Mode.ofText?

def Lifecycle.toJson (s : Lifecycle) : Value := .string s.text
def Lifecycle.ofJson : Value → Read Lifecycle :=
  readVariant ["active", "pending_undeploy", "undeployed"] Lifecycle.ofText?

def LogFormat.toJson (f : LogFormat) : Value := .string f.text
def LogFormat.ofJson : Value → Read LogFormat := readVariant ["json", "pretty"] LogFormat.ofText?

def Timestamp.toJson (t : Timestamp) : Value := .string t.text
def Timestamp.ofJson (v : Value) : Read Timestamp := do
  let s ← readString v
  match Timestamp.parse? s with
  | some t => .ok t
  | none => .error (.wrongValue (Value.string s).describe "an RFC 3339 formatted date and time string")

namespace Membership

def FencingToken.toJson (t : FencingToken) : Value :=
  .object [("node_id", t.node.toJson), ("epoch", .int t.epoch.toNat)]

def FencingToken.ofJson (v : Value) : Read FencingToken := do
  let fields ← readFields "FencingToken" ["node_id", "epoch"] v
  pure ⟨← required "node_id" MemberId.ofJson fields, ← required "epoch" readUInt64 fields⟩

def Node.toJson (n : Node) : Value :=
  .object [("node_id", n.id.toJson), ("address", .string n.address), ("last_heartbeat", n.lastHeartbeat.toJson),
    ("metadata", .object (n.metadata.map fun (k, s) => (k, .string s))), ("epoch", .int n.epoch.toNat)]

/-- a node that gives no epoch has epoch 0 -/
def Node.ofJson (v : Value) : Read Node := do
  let fields ← readFields "NodeInfo" ["node_id", "address", "last_heartbeat", "metadata", "epoch"] v
  pure
    { id := ← required "node_id" MemberId.ofJson fields
      address := ← required "address" readString fields
      lastHeartbeat := ← required "last_heartbeat" Timestamp.ofJson fields
      metadata := ← required "metadata" readMap fields
      epoch := ← optional "epoch" 0 readUInt64 fields }

/-- the variant of the event; its name in snake case stands for it in JSON -/
def Event.variant : Event → String
  | .joined _ => "Joined"
  | .left _ => "Left"
  | .failed _ => "Failed"

def Event.toJson (e : Event) : Value :=
  .object [("type", .string (snakeCase e.variant)), ("node_id", e.member.toJson)]

def Event.kinds : List String := ["joined", "left", "failed"]

/-- the kind as an array gives it: by its name only -/
def Event.readName (v : Value) : Read (MemberId → Event) := do
  readVariant kinds ofKind? (.string (← readString v))

/-- an object with the kind and the member, or an array of these two -/
def Event.ofJson (v : Value) : Read Event := do
  let fields ← readFields "MembershipEvent" ["type", "node_id"] v
  let readKind := match v with
    | .array _ => readName
    | _ => readVariant kinds ofKind?
  let make ← required "type" readKind fields
  pure (make (← required "node_id" MemberId.ofJson fields))

end Membership

namespace DeploymentEvent

/-- the variant of the event; its name in snake case stands for it in JSON -/
def variant : DeploymentEvent → String
  | deployed w _ => if w.isTask then "TaskDeployed" else "ClassDeployed"
  | undeployed w .. => if w.isTask then "TaskUndeployed" else "ClassUndeployed"

def toJson (e : DeploymentEvent) : Value :=
  .object <|
    [("type", .string (snakeCase e.variant)), ("deployment_id", e.what.id.toJson), ("sender_id", e.what.sender.toJson),
      ("alias", .string e.what.moduleAlias)] ++
    match e with
    | .deployed _ timestamp => [("timestamp", timestamp.toJson)]
    | .undeployed _ departed deployedAt timestamp =>
      [("departed_node_id", writeOption MemberId.toJson departed), ("deployed_at", deployedAt.toJson),
        ("timestamp", timestamp.toJson)]

def deployedFields : List String := ["deployment_id", "sender_id", "alias", "timestamp"]

def undeployedFields : List String :=
  ["deployment_id", "sender_id", "alias", "departed_node_id", "deployed_at", "timestamp"]

def readWhat (isTask : Bool) (fields : List (String × Value)) : Read Deployed := do
  pure ⟨← required "deployment_id" DeploymentId.ofJson fields, ← required "sender_id" MemberId.ofJson fields,
    ← required "alias" readString fields, isTask⟩

def readDeployed (isTask : Bool) (v : Value) : Read DeploymentEvent := do
  let fields ← readFields "DeploymentEvent" deployedFields v
  pure (.deployed (← readWhat isTask fields) (← required "timestamp" Timestamp.ofJson fields))

/-- an object may leave the departed member out, an array may not -/
def readUndeployed (isTask : Bool) (v : Value) : Read DeploymentEvent := do
  let fields ← readFields "DeploymentEvent" undeployedFields v
  pure (.undeployed (← readWhat isTask fields)
    (← optional "departed_node_id" none (readOption MemberId.ofJson) fields)
    (← required "deployed_at" Timestamp.ofJson fields) (← required "timestamp" Timestamp.ofJson fields))

def kinds : List String := ["class_deployed", "task_deployed", "class_undeployed", "task_undeployed"]

def readKind (kind : Value) (rest : Value) : Read DeploymentEvent := do
  match ← readString kind with
  | "class_deployed" => readDeployed false rest
  | "task_deployed" => readDeployed true rest
  | "class_undeployed" => readUndeployed false rest
  | "task_undeployed" => readUndeployed true rest
  | k => .error (.unknownVariant k kinds)

/-- an object that names its kind, or an array that begins with it -/
def ofJson (v : Value) : Read DeploymentEvent :=
  if !v.isSound then .error (.wrongType "string" "a string")
  else match v with
    | .object members =>
      match members.filter (·.1 == "type") with
      | [] => .error (.missing "type")
      | [(_, kind)] => readKind kind (.object (members.filter (·.1 != "type")))
      | _ => .error (.duplicate "type")
    | .array (kind :: rest) => readKind kind (.array rest)
    | .array [] => .error (.missing "type")
    | v => .error (.wrongType v.describe "internally tagged enum DeploymentEvent")

end DeploymentEvent

def DeploymentConfig.toJson (c : DeploymentConfig) : Value :=
  .object [("network_timeout_ms", .int c.networkTimeout.toNat)]

def DeploymentConfig.ofJson (v : Value) : Read DeploymentConfig := do
  let fields ← readFields "DeploymentConfig" ["network_timeout_ms"] v
  let d : DeploymentConfig := {}
  pure ⟨← optional "network_timeout_ms" d.networkTimeout readUInt64 fields⟩

def MembershipConfig.toJson (c : MembershipConfig) : Value :=
  .object [("node_id", .string c.nodeId), ("heartbeat_timeout_secs", .int c.heartbeatTimeout.toInt),
    ("check_interval_secs", .int c.checkInterval.toNat)]

/-- mistakes in fields are found in the order of an array, or in the order of the names in an object; an array that is
too long is a mistake only when there is no other one -/
def MembershipConfig.ofJson (v : Value) : Read MembershipConfig := do
  let names := ["node_id", "heartbeat_timeout_secs", "check_interval_secs"]
  let d : MembershipConfig := {}
  let nodeId := optional "node_id" d.nodeId readString
  let heartbeatTimeout := optional "heartbeat_timeout_secs" d.heartbeatTimeout readInt64
  let checkInterval := optional "check_interval_secs" d.checkInterval readUInt64
  match v with
  | .array items =>
    let given := names.zip items
    let c : MembershipConfig := ⟨← nodeId given, ← heartbeatTimeout given, ← checkInterval given⟩
    let _ ← readFields "MembershipConfig" names v
    pure c
  | _ =>
    let given ← readFields "MembershipConfig" names v
    let checkInterval ← checkInterval given
    let heartbeatTimeout ← heartbeatTimeout given
    pure ⟨← nodeId given, heartbeatTimeout, checkInterval⟩

def LoggingConfig.toJson (c : LoggingConfig) : Value :=
  .object [("level", .string c.level), ("format", c.format.toJson),
    ("directives", .array (c.directives.map .string)), ("file_path", writeOption .string c.filePath)]

def LoggingConfig.ofJson (v : Value) : Read LoggingConfig := do
  let fields ← readFields "LoggingConfig" ["level", "format", "directives", "file_path"] v
  let d : LoggingConfig := {}
  pure
    { level := ← optional "level" d.level readString fields
      format := ← optional "format" d.format LogFormat.ofJson fields
      directives := ← optional "directives" d.directives (readList readString) fields
      filePath := ← optional "file_path" d.filePath (readOption readString) fields }

def Config.toJson (c : Config) : Value :=
  .object [("deployment", c.deployment.toJson), ("membership", c.membership.toJson), ("logging", c.logging.toJson)]

def Config.ofJson (v : Value) : Read Config := do
  let fields ← readFields "Config" ["deployment", "membership", "logging"] v
  pure
    { deployment := ← optional "deployment" {} DeploymentConfig.ofJson fields
      membership := ← optional "membership" {} MembershipConfig.ofJson fields
      logging := ← optional "logging" {} LoggingConfig.ofJson fields }

end Redeploy
