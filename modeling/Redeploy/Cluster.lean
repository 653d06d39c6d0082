/-
A registry of deployments at work in a cluster: a directory of nodes, the channel on which it announces changes, and
the listener through which the registry follows them.

A directory operation changes the directory in one move and announces the change in later ones, which other moves may
precede. The listener takes one reading of the channel at a time and waits for the call that it makes of it. Calls
that ask whether a member is live are answered by the directory.
-/
import Redeploy.Channel
import Redeploy.Deployment.Pool
import Redeploy.Membership.History

open Redeploy.Membership (Directory Announcement)

namespace Redeploy

/-- what follows membership changes for a registry -/
structure Listener where
  cursor : Cursor
  /-- the place of the call that it waits for -/
  handling : Option Nat := none
deriving DecidableEq, Repr

structure Cluster where
  directory : Directory
  pool : Pool
  feed : Channel Membership.Event
  /-- announcements still to be made, for each directory operation in order -/
  unsaid : List (List Announcement) := []
  /-- nothing before the registry has subscribed -/
  listener : Option Listener := none

namespace Cluster

inductive Move where
  | directory (op : Membership.Op)
  /-- the directory operation at the place makes its next announcement -/
  | announce (place : Nat)
  | pool (move : Pool.Move)
  /-- the listener takes its next reading, unless it waits for a call -/
  | listen

/-- a new registry and an empty directory, with a channel that keeps `capacity` events -/
def new (directory : Directory) (timeout capacity : Nat) : Cluster :=
  { directory, pool := Pool.new timeout, feed := Channel.ofCapacity capacity }

/-- the reply with the directory's own answer to the query of the call at the place -/
def answer (c : Cluster) (place : Nat) (reply : Reply) : Reply :=
  match c.pool.call? place with
  | some u =>
    match u.call.query c.pool.registry with
    | .live m => { reply with live := c.directory.isLive m }
    | _ => reply
  | none => reply

/-- the listener of the cluster, which subscribes when the registry first says so -/
def subscribed (c : Cluster) (p : Pool) : Option Listener :=
  match c.listener with
  | some l => some l
  | none => if p.trace.contains (.did .subscribe) then some { cursor := c.feed.subscribe } else none

/-- a move of the pool whose queries about members the directory answers -/
def stepPool (c : Cluster) (m : Pool.Move) : Cluster :=
  let p := c.pool.step <| match m with
    | .step place reply => .step place (c.answer place reply)
    | m => m
  { c with pool := p, listener := c.subscribed p }

/-- the listener makes a call and waits for it -/
def handle (c : Cluster) (cursor : Cursor) (call : Call) : Cluster :=
  { c with
    pool := c.pool.enter call
    listener := some { cursor, handling := some c.pool.calls.length } }

/-- what the call that the listener waits for has come to: it has ended, or there is none -/
def isAttentive (c : Cluster) (l : Listener) : Bool := l.handling.all fun k => (c.pool.call? k).isNone

def step (c : Cluster) : Move → Cluster
  | .directory op =>
    let (d, as) := c.directory.apply op
    { c with directory := d, unsaid := c.unsaid ++ [as] }
  | .announce place =>
    match c.unsaid[place]? with
    | some (a :: as) =>
      { c with
        unsaid := c.unsaid.set place as
        feed := a.event?.elim c.feed c.feed.send }
    | _ => c
  | .pool m => c.stepPool m
  | .listen =>
    match c.listener with
    | some l =>
      if c.isAttentive l && !c.pool.registry.cancelled then
        match c.feed.receive l.cursor with
        | (.message e, cursor) =>
          if e.isDeparture then c.handle cursor (.remove (.departure e.member))
          else { c with listener := some { cursor } }
        | (.lagged skipped, cursor) => c.handle cursor (.remove (.sweep (.lagged skipped)))
        | (.empty, _) => c
      else c
    | none => c

def run (c : Cluster) (ms : List Move) : Cluster := ms.foldl step c

end Cluster

end Redeploy
