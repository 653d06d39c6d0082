/-
Scripts: what a simulation is set up with and the operations it plays.

Sinks, hooks and resolution contexts are scripted too: a script may give each of them operations to run while it is
called, so that the registry is called back in the middle of its own operations.
-/
import Redeploy.Config.Basic
import Redeploy.Membership.Directory

namespace Redeploy.Simulation

inductive Op where
  -- the deployment registry
  | tryResolve (q : Request) (keepAs : Option String)
  /-- a rejection is only logged -/
  | resolve (q : Request) (keepAs : Option String)
  | get (id : DeploymentId) (keepAs : Option String)
  | list
  | len
  | timeout
  | undeployByName (sender : MemberId) (name : String)
  | reconcile
  | departed (member : MemberId)
  | start
  | stop
  | setDefaultParent (label : Option String)
  /-- a hook that fails or not, with operations for deployments -/
  | addHook (fails : Bool) (onId : List (String × List Op))
  /-- the same request `times` times at once -/
  | concurrent (q : Request) (times : Nat)
  | dropRegistry
  -- records kept under a name
  | handleResolve (handle a : String)
  | handleQuery (handle a : String)
  | handleView (handle : String)
  | handleDescribe (handle : String)
  -- the directory of nodes
  | registerSelf (address : String)
  | token
  /-- `age`: of the last heartbeat, in ms -/
  | join (id : MemberId) (address : String) (epoch : UInt64) (age : Int) (metadata : List (String × String))
  | heartbeat (id : MemberId)
  | leave (id : MemberId) (timeout : Option Int64)
  | fail (id : MemberId) (timeout : Option Int64)
  | getNode (id : MemberId) (timeout : Option Int64)
  | isLive (id : MemberId)
  | live
  | evictStale
  | churn (times : Nat) (id : MemberId)
  /-- the member leaves at the end of the `after`-th check that finds it live; an earlier order of this kind lapses -/
  | armDeparture (id : MemberId) (after : Nat)
  | publish (event : Option Membership.Event)
  | closeChannel
  | watch (name : String)
  | watched (name : String) (max : Option Nat) (sorted : Bool)
  | events (max : Option Nat)
  -- the failure detector
  | startDetector (interval : Nat)
  | stopDetector
  | tasks
  -- time
  | advance (ms : Nat)
  | fire (step : Option Nat)
  | shutdown
  /-- operations between which no background task runs -/
  | batch (ops : List Op)
  | unknown
deriving Inhabited

/-- what a context does when it is asked for an alias -/
structure AliasSpec where
  /-- name of the module; made from the alias when absent -/
  name : Option String := none
  isTask : Bool := false
  /-- so many first attempts of a context fail -/
  failTimes : Nat := 0
  /-- every attempt fails with this text -/
  error : Option String := none
  /-- run during every attempt -/
  during : List Op := []
deriving Inhabited

structure HookSpec where
  fails : Bool := false
  /-- run at the first call for a deployment -/
  onId : List (String × List Op) := []
deriving Inhabited

/-- a sink beside the one that records what it is told -/
inductive SinkSpec where
  | logging
  | silent
  /-- a broadcast that nobody listens to -/
  | deaf
  | broadcast (capacity : Nat)
deriving DecidableEq, Repr, Inhabited

/-- the membership that the registry under test belongs to -/
inductive Host where
  | directory (self : MemberId) (heartbeatTimeout : Int64)
  /-- a directory for the configuration, or the reason why it cannot be read -/
  | configured (config : Except String MembershipConfig)
  /-- a whole node -/
  | node (config : Config) (address : String)

structure Setup where
  host : Host
  timeout : Nat := 1000
  members : List MemberId := []
  /-- evictions run when they are due; otherwise they are kept until fired -/
  timed : Bool := false
  aliases : List (String × AliasSpec) := []
  /-- aliases of the contexts of particular deployments -/
  byId : List (String × List (String × AliasSpec)) := []
  failRelease : Bool := false
  hooks : List HookSpec := []
  /-- operations for the first notification of a kind and deployment -/
  sinkOn : List (String × List Op) := []
  sinks : List SinkSpec := []
  /-- capacity of a membership channel of the registry's own -/
  ownChannel : Option Nat := none
  logs : Option Logging.Level := none

end Redeploy.Simulation
