/-
A cluster member that accepts deployments: its parts, as they are before it starts, and its start.
-/
import Redeploy.Config.Basic
import Redeploy.Deployment.Call
import Redeploy.Membership.Directory

namespace Redeploy

/-- a directory for the configured node, or for a node of the identifier `fresh` when none is configured -/
def Membership.Directory.ofConfig (c : MembershipConfig) (fresh : String) : Membership.Directory :=
  { self := ⟨if c.nodeId.isEmpty then fresh else c.nodeId⟩, heartbeatTimeout := c.heartbeatTimeout }

namespace Node

structure Parts where
  directory : Membership.Directory
  registry : Registry
  /-- interval of the failure detector, ms -/
  checkInterval : Nat

/-- the parts for a configuration that a node can run with, made inside the runtime -/
def parts (c : Config) (fresh : String) (inRuntime : Bool) : ExceptT Failure (Except Text.Split) Parts := do
  match ← c.problems with
  | [] =>
    if inRuntime then
      pure
        { directory := .ofConfig c.membership fresh
          registry := { timeout := c.deployment.networkTimeout.toNat }
          checkInterval := c.membership.checkInterval.toNat * 1000 }
    else throw .noRuntimeForTimers
  | ps => throw (.configuration (Config.joined ps))

/-- where a start breaks off, for good -/
inductive Break where
  /-- at a directive that cannot be cut -/
  | split (s : Text.Split)
  /-- at a failure detector with no time between its sweeps -/
  | noPeriod
  /-- at a registry that waits for what never comes -/
  | stuck
deriving DecidableEq, Repr

/-- a node at work -/
structure Running where
  /-- with the local member in it -/
  directory : Membership.Directory
  /-- started -/
  registry : Registry
  /-- interval of the failure detector, ms -/
  checkInterval : Nat
  /-- what the registration of the local member had announced -/
  announcements : List Membership.Announcement
  /-- what the start of the registry gave orders for -/
  effects : List Effect

/-- register the local member at the address, start the registry, and start the failure detector. Nobody else has hold of
the parts meanwhile -/
def start (c : Config) (address fresh : String) (clock : Timestamp) (inRuntime : Bool) :
    ExceptT Failure (Except Break) Running := do
  let p ← ExceptT.mk ((parts c fresh inRuntime).run.mapError .split)
  let (directory, announcements) := p.directory.registerSelf address clock
  match Call.alone? p.registry (.start false) with
  | none => ExceptT.mk (.error .stuck)
  | some (_, _, .failed why) => throw why
  | some (registry, effects, _) =>
    if p.checkInterval = 0 then ExceptT.mk (.error .noPeriod)
    else pure { directory, registry, checkInterval := p.checkInterval, announcements, effects }

end Node

end Redeploy
