/-
What a simulation reports: the answer of each operation and what the collaborators saw meanwhile.
-/
import Redeploy.Channel
import Redeploy.Deployment.Event
import Redeploy.Membership.Directory

namespace Redeploy.Simulation

/-- a record as an answer shows it; `number` tells records apart -/
structure RecordView where
  number : Nat
  record : Record

/-- a node as an answer shows it -/
structure NodeView where
  node : Membership.Node
  stale : Bool

mutual

inductive Answer where
  | null
  | text (s : String)
  | texts (ss : List String)
  | flag (b : Bool)
  | flags (bs : List Bool)
  | count (n : Nat)
  | size (n : Nat)
  | record (r : RecordView)
  | records (rs : List RecordView)
  | failed (why : Failure)
  | panic (message : String)
  | dropped
  | noHandle
  | unknown
  | unreadable
  /-- a call waits for itself -/
  | stuck
  | module (m : Module) (fresh : Bool)
  | query (hasResolved hasName : Bool) (module : Option Module)
  | token (t : Membership.FencingToken)
  | self (t : Membership.FencingToken)
  | node (n : NodeView)
  | members (readings : List (Reading Membership.Event))
  | events (readings : List (Reading DeploymentEvent))
  | concurrent (ok : Nat) (errors : List String) (same : Bool) (record : Option RecordView)
  | batch (reports : List Report)

/-- one thing that a collaborator saw; `inside` reports the operations it ran -/
inductive Sight where
  | create (id : DeploymentId) (parent : Option String)
  | asked (id : DeploymentId) (a : String) (ok : Bool) (inside : List Report)
  | released (id : DeploymentId) (ok : Bool)
  | deployed (id : DeploymentId) (a : String) (isTask : Bool) (state : Lifecycle) (inside : List Report)
  | undeployed (id : DeploymentId) (departed : Option MemberId) (modules : List (String × Module))
      (state : Lifecycle) (inside : List Report)
  /-- `cached` and `len`: whether the identifier is in the registry, and how many records are, where known -/
  | hook (hook : Nat) (id : DeploymentId) (departed : Option MemberId) (cached : Option Bool) (len : Option Nat)
      (inside : List Report)
  | scheduled (delay : Nat)
  | logged (entry : Logging.Entry)

inductive Report where
  | mk (answer : Answer) (seen : List Sight)

end

instance : Inhabited Answer := ⟨.null⟩

/-- what a sight is sorted by: the identifier it is about, or else the first of certain fields, or nothing -/
def Sight.key : Sight → String
  | .create id _ | .asked id .. | .released id _ | .deployed id .. | .undeployed id .. | .hook _ id .. => id.text
  | .scheduled _ => ""
  | .logged e =>
    let field name := match e.fields.lookup name with
      | some (.rendered s) | some (.text s) => some s
      | _ => none
    (["deployment_id", "current_id", "node_id", "sender_id"].findSome? field).getD ""

/-- sights by key, those of one key in the order in which they happened -/
def Sight.sort (ss : List Sight) : List Sight :=
  ((ss.map fun s => (s.key, s)).mergeSort fun a b => decide (a.1 ≤ b.1)).map Prod.snd

/-- a cached record in the state after a step: identifier, sender, number, life, aliases -/
abbrev CachedView := Record

/-- one top-level operation: its report and the cache afterwards, unless the registry was dropped -/
structure StepReport where
  report : Report
  cache : Option (List CachedView)

/-- a whole run, or the reason why there was none -/
structure RunReport where
  setup : Report
  /-- absent when the set-up failed -/
  steps : Option (List StepReport)

end Redeploy.Simulation
