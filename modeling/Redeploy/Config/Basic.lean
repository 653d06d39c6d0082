/-
The configuration of a node, its defaults, and the check for settings a node cannot run with.
-/
import Redeploy.Logging.Directive
import Redeploy.Text.Piece

namespace Redeploy

structure DeploymentConfig where
  /-- in milliseconds: grace period of superseded deployments, and window for late requests -/
  networkTimeout : UInt64 := 5000
deriving DecidableEq, Repr, Inhabited

structure MembershipConfig where
  /-- the local member; when empty, one is made at the start -/
  nodeId : String := ""
  /-- seconds -/
  heartbeatTimeout : Int64 := 30
  /-- seconds -/
  checkInterval : UInt64 := 10
deriving DecidableEq, Repr, Inhabited

/-- how log lines look -/
inductive LogFormat where
  /-- for programs -/
  | json
  /-- for people -/
  | pretty
deriving DecidableEq, Repr, Inhabited

namespace LogFormat

def text : LogFormat → String
  | json => "json"
  | pretty => "pretty"

/-- the name in quoted descriptions -/
def describe : LogFormat → String
  | json => "Json"
  | pretty => "Pretty"

def ofText? : String → Option LogFormat
  | "json" => some json
  | "pretty" => some pretty
  | _ => none

end LogFormat

structure LoggingConfig where
  /-- default level of every target -/
  level : String := "info"
  format : LogFormat := .pretty
  /-- further filter directives -/
  directives : List String := []
  filePath : Option String := none
deriving DecidableEq, Repr, Inhabited

structure Config where
  deployment : DeploymentConfig := {}
  membership : MembershipConfig := {}
  logging : LoggingConfig := {}
deriving DecidableEq, Repr, Inhabited

namespace LoggingConfig

/-- the complaint about a level that is none -/
def levelError (level : String) : String := "Invalid log level: " ++ level

def parseLevel (level : String) : Except String Logging.Level :=
  match Logging.Level.ofName? level with
  | some l => .ok l
  | none => .error (levelError level)

/-- the complaint about a malformed directive -/
def directiveError (directive : String) (e : Logging.DirectiveError) : String :=
  "Invalid filter directive " ++ Text.quote directive ++ ": " ++ e.message

/-- the directive, the complaint about it, or the place where it cannot be cut -/
def parseDirective (directive : String) : ExceptT String (Except Text.Split) Logging.Directive :=
  ExceptT.adapt (directiveError directive) (Logging.Directive.parse directive)

/-- the complaint in a failed result -/
def complaint {α : Type} (heading : String) : Except String α → List String
  | .ok _ => []
  | .error e => [heading ++ e]

/-- the problems of the section: the level first, then the directives in order; the check itself comes to nothing at a
directive that cannot be cut -/
def problems (c : LoggingConfig) : Except Text.Split (List String) := do
  let directives ← c.directives.mapM fun d => do
    return complaint "logging.directives: " (← (parseDirective d).run)
  return complaint "logging.level: " (parseLevel c.level) ++ directives.flatten

end LoggingConfig

namespace Config

/-- the complaint about a setting that has to be positive and is not -/
def notPositive (key : String) (fails : Bool) : List String :=
  if fails then [key ++ " must be greater than zero"] else []

/-- everything a node cannot run with, in a fixed order -/
def problems (c : Config) : Except Text.Split (List String) := do
  let logging ← c.logging.problems
  return notPositive "deployment.network_timeout_ms" (c.deployment.networkTimeout == 0) ++
    notPositive "membership.heartbeat_timeout_secs" (c.membership.heartbeatTimeout ≤ 0) ++
    notPositive "membership.check_interval_secs" (c.membership.checkInterval == 0) ++ logging

/-- problems on one line -/
def joined (problems : List String) : String := "; ".intercalate problems

end Config

end Redeploy
