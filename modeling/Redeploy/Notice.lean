/-
Everything this library tells its log, as data, and the entry each notice becomes.
-/
import Redeploy.Deployment.Record
import Redeploy.Logging.Entry

namespace Redeploy

open Logging (Entry Value)

inductive Notice where
  /-- a request has come in -/
  | resolving (q : Request)
  /-- a rejected request that contradicts an earlier one -/
  | inconsistent (why : Failure) (q : Request)
  | rejected (why : Failure) (q : Request)
  /-- an older record of the sender has the alias of a newer request -/
  | superseding (q : Request) (old : Record)
  /-- the request is older than a record of the sender, and will be served for `delay` ms only -/
  | stale (q : Request) (delay : Nat)
  | created (r : Record)
  | unresolved (why : Failure) (r : Record)
  | expired (r : Record)
  | removedByName (r : Record) (sender : MemberId) (name : String)
  | senderGone (sender : MemberId) (count : Nat)
  | unreachable (r : Record)
  | hookFailed (r : Record) (why : Failure)
  | releaseFailed (r : Record) (why : Failure)
  | registryStarted (timeout : Nat) (evicted : Nat)
  | registryStopped (undeployed : Nat)
  | listenerEnded
  | listenerLagged (skipped : Nat)
  | listenerCutOff
  | moduleDeployed (r : Record) (a : String) (isTask : Bool)
  | moduleUndeployed (r : Record) (a : String) (m : Module) (departed : Option MemberId)
  | noSubscribers (eventType : String)
  | localRegistered (node : MemberId) (epoch : UInt64)
  | staleRegistration (node : MemberId) (known received : UInt64)
  | joined (node : MemberId)
  | left (node : MemberId)
  | failed (node : MemberId)
  | heartbeatExpired (node : MemberId) (last : Timestamp)
  | sweptOut (count : Nat)
  | detectorEnded
  | nodeStarted (node : MemberId) (timeout : UInt64) (heartbeat : Int64)
  | nodeStopped (node : MemberId)
  | loggingReady (format level : String)
deriving DecidableEq, Repr

namespace Notice

/-- class or task, as log entries say it -/
def kindName (isTask : Bool) : String := if isTask then "task" else "class"

/-- the parts of the program that entries name as their target -/
def registryTarget : String := "peerdeploy_cluster::deployment::registry"
def eventsTarget : String := "peerdeploy_cluster::deployment::events"
def nodesTarget : String := "peerdeploy_cluster::discovery::node_registry"
def detectorTarget : String := "peerdeploy_cluster::discovery::failure_detector"
def nodeTarget : String := "peerdeploy_cluster::node"
def loggingTarget : String := "peerdeploy_core::logging"

/-- entry of the notice; `clock` renders points of time -/
def entry (clock : Timestamp → String) : Notice → Entry
  | resolving q => ⟨.debug, registryTarget, "Resolving deployment", [("metadata", .rendered q.describe)]⟩
  | inconsistent why q =>
    ⟨.error, registryTarget, "Inconsistent deployment request",
      [("error", .rendered why.message), ("metadata", .rendered q.describe)]⟩
  | rejected why q =>
    ⟨.warn, registryTarget, "Deployment request rejected",
      [("error", .rendered why.message), ("alias", .rendered q.moduleAlias), ("sender_id", .rendered q.sender.text)]⟩
  | superseding q old =>
    ⟨.debug, registryTarget, "Newer sequence number received, scheduling current deployment for undeploy",
      [("alias", .rendered q.moduleAlias), ("new_seq", .number q.seq.toNat), ("old_seq", .number old.seq.toNat),
        ("sender_id", .rendered q.sender.text), ("current_id", .rendered old.id.text),
        ("new_id", .rendered q.id.text)]⟩
  | stale q delay =>
    ⟨.debug, registryTarget, "Stale deployment request, will deploy and schedule undeploy",
      [("alias", .rendered q.moduleAlias), ("received_seq", .number q.seq.toNat),
        ("sender_id", .rendered q.sender.text), ("undeploy_in_ms", .number delay)]⟩
  | created r =>
    ⟨.debug, registryTarget, "Created deployment",
      [("deployment_id", .rendered r.id.text), ("sender_id", .rendered r.sender.text), ("seq", .number r.seq.toNat),
        ("mode", .rendered r.mode.text)]⟩
  | unresolved why r =>
    ⟨.debug, registryTarget, "Module resolution failed",
      [("error", .rendered why.message), ("deployment_id", .rendered r.id.text)]⟩
  | expired r =>
    ⟨.debug, registryTarget, "Undeployed superseded deployment", [("deployment_id", .rendered r.id.text)]⟩
  | removedByName r sender name =>
    ⟨.info, registryTarget, "Undeployed private or isolated deployment",
      [("deployment_id", .rendered r.id.text), ("sender_id", .rendered sender.text), ("name", .text name)]⟩
  | senderGone sender count =>
    ⟨.info, registryTarget, "Sender left cluster, undeploying its deployments",
      [("sender_id", .rendered sender.text), ("undeployed", .number count)]⟩
  | unreachable r =>
    ⟨.info, registryTarget, "Undeploying deployment of obsolete sender",
      [("deployment_id", .rendered r.id.text), ("sender_id", .rendered r.sender.text)]⟩
  | hookFailed r why =>
    ⟨.warn, registryTarget, "Undeploy hook failed",
      [("deployment_id", .rendered r.id.text), ("error", .rendered why.message)]⟩
  | releaseFailed r why =>
    ⟨.warn, registryTarget, "Failed to release resolution context",
      [("deployment_id", .rendered r.id.text), ("error", .rendered why.message)]⟩
  | registryStarted timeout evicted =>
    ⟨.info, registryTarget, "Deployment registry started",
      [("network_timeout_ms", .number timeout), ("evicted", .number evicted)]⟩
  | registryStopped n => ⟨.info, registryTarget, "Deployment registry stopped", [("undeployed", .number n)]⟩
  | listenerEnded => ⟨.debug, registryTarget, "Deployment membership listener shutting down", []⟩
  | listenerLagged n =>
    ⟨.warn, registryTarget, "Membership listener lagged, reconciling deployments", [("skipped", .number n)]⟩
  | listenerCutOff => ⟨.info, registryTarget, "Membership channel closed, deployment listener exiting", []⟩
  | moduleDeployed r a isTask =>
    ⟨.info, eventsTarget, "Module deployed",
      [("deployment_id", .rendered r.id.text), ("sender_id", .rendered r.sender.text), ("alias", .text a),
        ("kind", .text (kindName isTask)), ("mode", .rendered r.mode.text)]⟩
  | moduleUndeployed r a m departed =>
    ⟨.info, eventsTarget, "Module undeployed",
      [("deployment_id", .rendered r.id.text), ("sender_id", .rendered r.sender.text), ("alias", .rendered a),
        ("module", .text m.name), ("kind", .text (kindName m.isTask)),
        ("departed_node_id", .rendered (match departed with
          | none => "None"
          | some d => "Some(" ++ d.describe ++ ")")),
        ("deployed_at", .rendered (clock r.deployedAt))]⟩
  | noSubscribers eventType =>
    ⟨.trace, eventsTarget, "No deployment event subscribers", [("event_type", .text eventType)]⟩
  | localRegistered node epoch =>
    ⟨.debug, nodesTarget, "Local node registered",
      [("node_id", .rendered node.text), ("epoch", .number epoch.toNat)]⟩
  | staleRegistration node known received =>
    ⟨.warn, nodesTarget, "Ignoring stale node registration",
      [("node_id", .rendered node.text), ("known_epoch", .number known.toNat),
        ("received_epoch", .number received.toNat)]⟩
  | joined node => ⟨.info, nodesTarget, "Node joined cluster", [("node_id", .rendered node.text)]⟩
  | left node => ⟨.info, nodesTarget, "Node left cluster", [("node_id", .rendered node.text)]⟩
  | failed node => ⟨.warn, nodesTarget, "Node failed", [("node_id", .rendered node.text)]⟩
  | heartbeatExpired node last =>
    ⟨.warn, nodesTarget, "Node marked failed: heartbeat expired",
      [("node_id", .rendered node.text), ("last_heartbeat", .rendered (clock last))]⟩
  | sweptOut count =>
    ⟨.debug, detectorTarget, "Failure detector evicted stale nodes", [("count", .number count)]⟩
  | detectorEnded => ⟨.info, detectorTarget, "Failure detector shutting down", []⟩
  | nodeStarted node timeout heartbeat =>
    ⟨.info, nodeTarget, "Deployment node started",
      [("node_id", .rendered node.text), ("network_timeout_ms", .number timeout.toNat),
        ("heartbeat_timeout_secs", .number heartbeat.toInt)]⟩
  | nodeStopped node => ⟨.info, nodeTarget, "Deployment node stopped", [("node_id", .rendered node.text)]⟩
  | loggingReady format level =>
    ⟨.debug, loggingTarget, "Logging initialized", [("format", .rendered format), ("level", .rendered level)]⟩

end Notice

end Redeploy
