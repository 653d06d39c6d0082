/-
Deployment events: what observers of a registry are told, one event for each module of a record. The same facts
go to the log as notices.
-/
import Redeploy.Notice

namespace Redeploy

/-- the module an event is about -/
structure Deployed where
  id : DeploymentId
  sender : MemberId
  moduleAlias : String
  isTask : Bool
deriving DecidableEq, Repr, Inhabited

inductive DeploymentEvent where
  | deployed (what : Deployed) (timestamp : Timestamp)
  /-- `departed`: the member whose departure was the reason, if one was -/
  | undeployed (what : Deployed) (departed : Option MemberId) (deployedAt timestamp : Timestamp)
deriving DecidableEq, Repr, Inhabited

namespace DeploymentEvent

def what : DeploymentEvent → Deployed
  | deployed w _ => w
  | undeployed w .. => w

def departed : DeploymentEvent → Option MemberId
  | deployed .. => none
  | undeployed _ m .. => m

/-- the name of the kind of event -/
def kind : DeploymentEvent → String
  | deployed w _ => if w.isTask then "task_deployed" else "class_deployed"
  | undeployed w .. => if w.isTask then "task_undeployed" else "class_undeployed"

/-- the module of `alias` was materialised on the record -/
def ofDeployed (r : Record) (a : String) (isTask : Bool) (clock : Timestamp) : DeploymentEvent :=
  .deployed ⟨r.id, r.sender, a, isTask⟩ clock

/-- one event for each materialised alias of the record, in order -/
def ofUndeployed (r : Record) (departed : Option MemberId) (clock : Timestamp) : List DeploymentEvent :=
  r.modules.map fun (a, m) => .undeployed ⟨r.id, r.sender, a, m.isTask⟩ departed r.deployedAt clock

end DeploymentEvent

/-- what the log says about the undeployment of a record: one notice for each materialised alias, in order -/
def Notice.ofUndeployed (r : Record) (departed : Option MemberId) : List Notice :=
  r.modules.map fun (a, m) => .moduleUndeployed r a m departed

end Redeploy
