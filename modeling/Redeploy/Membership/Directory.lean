/-
The directory of nodes that are part of the cluster. A node is entered when it registers and taken out when it
leaves, fails, or has sent no heartbeat for too long. Each registration carries an epoch, and one with an older
epoch than the directory knows is ignored.

Every operation returns the directory after it and the announcements it makes, in order: notices for the log,
and events for subscribers. Entering or taking out a node is one step; announcing it is another, later one.
-/
import Redeploy.Notice
import Redeploy.Membership.Event

namespace Redeploy.Membership

/-- proof of the registration that a message belongs to -/
structure FencingToken where
  node : MemberId
  epoch : UInt64
deriving DecidableEq, Repr, Inhabited

namespace FencingToken

/-- same node, later registration -/
def isNewerThan (a b : FencingToken) : Bool := a.node == b.node && decide (b.epoch < a.epoch)

def describe (t : FencingToken) : String :=
  "FencingToken \x7b node_id: " ++ t.node.describe ++ ", epoch: " ++ toString t.epoch ++ " \x7d"

end FencingToken

structure Node where
  id : MemberId
  address : String
  lastHeartbeat : Timestamp
  metadata : List (String × String) := []
  epoch : UInt64 := 1
deriving DecidableEq, Repr, Inhabited

namespace Node

def token (n : Node) : FencingToken := ⟨n.id, n.epoch⟩

/-- no heartbeat for more than `timeout` whole seconds -/
def isStale (n : Node) (clock : Timestamp) (timeout : Int64) : Bool :=
  decide (timeout.toInt < clock.secondsSince n.lastHeartbeat)

end Node

/-- what the directory says about a change -/
inductive Announcement where
  | notice (n : Notice)
  | event (e : Event)
deriving DecidableEq, Repr

structure Directory where
  /-- the local node -/
  self : MemberId
  /-- seconds without heartbeat after which a node is stale -/
  heartbeatTimeout : Int64
  /-- at most one entry per node -/
  nodes : List Node := []
  /-- epoch of the local node; it wraps -/
  epoch : UInt64 := 1
deriving DecidableEq, Repr, Inhabited

namespace Directory

def find? (d : Directory) (m : MemberId) : Option Node := d.nodes.find? (·.id == m)

def isLive (d : Directory) (m : MemberId) : Bool := (d.find? m).isSome

/-- members in the directory, in the order of their identifiers -/
def live (d : Directory) : List MemberId := (d.nodes.map Node.id).mergeSort MemberId.le

def token (d : Directory) : FencingToken := ⟨d.self, d.epoch⟩

/-- the nodes with `n` in place of the entry for its identifier, or added -/
def put (d : Directory) (n : Node) : Directory :=
  { d with
    nodes := if d.isLive n.id then d.nodes.map fun o => if o.id == n.id then n else o else d.nodes ++ [n] }

def erase (d : Directory) (m : MemberId) : Directory := { d with nodes := d.nodes.filter (·.id != m) }

/-- register the local node, in a new epoch -/
def registerSelf (d : Directory) (address : String) (clock : Timestamp) : Directory × List Announcement :=
  let epoch := d.epoch + 1
  (({ d with epoch := epoch }).put { id := d.self, address, lastHeartbeat := clock, epoch },
    [.notice (.localRegistered d.self epoch)])

/-- register a node; refused when a later registration of it is known -/
def register (d : Directory) (n : Node) : Directory × Bool × List Announcement :=
  match d.find? n.id with
  | some known =>
    if known.token.isNewerThan n.token then (d, false, [.notice (.staleRegistration n.id known.epoch n.epoch)])
    else (d.put n, true, [])
  | none => (d.put n, true, [.notice (.joined n.id), .event (.joined n.id)])

/-- a heartbeat of the node arrived; `false` for an unknown node -/
def heartbeat (d : Directory) (m : MemberId) (clock : Timestamp) : Directory × Bool :=
  ({ d with nodes := d.nodes.map fun n => if n.id == m then { n with lastHeartbeat := clock } else n }, d.isLive m)

/-- the node left of its own accord -/
def leave (d : Directory) (m : MemberId) : Directory × Option Node × List Announcement :=
  match d.find? m with
  | some n => (d.erase m, some n, [.notice (.left m), .event (.left m)])
  | none => (d, none, [])

/-- the node was declared dead -/
def fail (d : Directory) (m : MemberId) : Directory × Option Node × List Announcement :=
  match d.find? m with
  | some n => (d.erase m, some n, [.notice (.failed m), .event (.failed m)])
  | none => (d, none, [])

/-- nodes to be swept out: all but the local one that are stale -/
def stale (d : Directory) (clock : Timestamp) : List Node :=
  d.nodes.filter fun n => n.id != d.self && n.isStale clock d.heartbeatTimeout

/-- take out every stale node but the local one; they are returned -/
def evictStale (d : Directory) (clock : Timestamp) : Directory × List MemberId × List Announcement :=
  let out := d.stale clock
  ({ d with nodes := d.nodes.filter fun n => !(n.id != d.self && n.isStale clock d.heartbeatTimeout) },
    out.map Node.id,
    out.flatMap fun n => [.notice (.heartbeatExpired n.id n.lastHeartbeat), .event (.failed n.id)])

end Directory

end Redeploy.Membership
