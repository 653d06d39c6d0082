/-
The world of a simulation: a registry with its collaborators, a directory of nodes, background tasks, and a
clock that moves only when it is told to.

The world is single-threaded. What happens in it is a computation in `Sim`, which also collects what the
collaborators saw.
-/
import Redeploy.Simulation.Script
import Redeploy.Simulation.Report
import Redeploy.Deployment.Call

namespace Redeploy.Simulation

/-- an eviction that the registry has ordered -/
structure Timer where
  record : RecordId
  /-- when it is due, ms -/
  due : Nat
  /-- place among all timers and ticks, in the order in which they were set -/
  order : Nat
  /-- the top-level operation during which it was set -/
  step : Nat

/-- a background task -/
inductive TaskKind where
  /-- follows membership changes; `own`: on the registry's own channel -/
  | listener (cursor : Cursor) (own : Bool)
  /-- sweeps out stale nodes, next at `next` -/
  | detector (interval next order : Nat) (cancelled : Bool)

structure Task where
  kind : TaskKind
  ended : Bool := false
  /-- started by an operation of the script -/
  listed : Bool := true

/-- a membership channel that only `publish` feeds -/
structure OwnChannel where
  channel : Channel Membership.Event
  isOpen : Bool := true

/-- a sink at work; a broadcast with the position of its one subscriber -/
inductive Sink where
  | logging
  | silent
  | deaf
  | broadcast (channel : Channel DeploymentEvent) (cursor : Cursor)

/-- what the wall clock shows at the beginning -/
def openingTime : Timestamp := ⟨1750000000, 0⟩

structure World where
  registry : Registry
  directory : Membership.Directory
  /-- the script's hold on the registry is gone -/
  dropped : Bool := false
  /-- membership events of the directory -/
  feed : Channel Membership.Event := Channel.ofCapacity 256
  ownFeed : Option OwnChannel := none
  /-- monotonic clock, ms -/
  now : Nat := 0
  clock : Timestamp := openingTime
  /-- number of the top-level operation -/
  step : Nat := 0
  order : Nat := 0
  timed : Bool := false
  timers : List Timer := []
  tasks : List Task := []
  /-- the latest failure detector that the script started, by its place among the tasks -/
  detector : Option Nat := none
  /-- the failure detector of the node -/
  nodeDetector : Option Nat := none
  aliases : List (String × AliasSpec) := []
  byId : List (String × List (String × AliasSpec)) := []
  /-- how often each context was asked for each alias -/
  attempts : List (RecordId × String) := []
  failRelease : Bool := false
  hooks : List HookSpec := []
  sinkOn : List (String × List Op) := []
  /-- hooks and sinks whose operations were run -/
  spent : List (Option Nat × String) := []
  sinks : List Sink := []
  /-- the member that leaves after so many more checks that find it live -/
  armed : Option (MemberId × Nat) := none
  watchers : List (String × Cursor) := []
  handles : List (String × RecordId) := []
  /-- records in the order in which answers first showed them -/
  shown : List RecordId := []
  /-- a whole node is simulated -/
  inNode : Bool := false
  /-- the node is running -/
  nodeUp : Bool := false
  /-- callbacks cannot count the records -/
  unattended : Bool := false
  logs : Option Logging.Level := none
  /-- all log entries, whatever their level -/
  journal : Array Logging.Entry := #[]
  seen : Array Sight := #[]

abbrev Sim := StateM World

def see (s : Sight) : Sim Unit := modify fun w => { w with seen := w.seen.push s }

/-- the wall clock; it never shows the same time twice -/
def readClock : Sim Timestamp := do
  let w ← get
  set { w with clock := w.clock.plusNanos 1 }
  pure w.clock

def log (n : Notice) : Sim Unit := do
  let e := n.entry fun _ => ""
  modify fun w => { w with journal := w.journal.push e }
  if (← get).logs.any fun l => l.admits e.level then see (.logged e)

/-- run an operation on its own and report it with what was seen meanwhile -/
def reporting (m : Sim Answer) : Sim Report := do
  let before := (← get).seen
  modify fun w => { w with seen := #[] }
  let answer ← m
  let during := (← get).seen
  modify fun w => { w with seen := before }
  pure ⟨answer, Sight.sort during.toList⟩

def announce (as : List Membership.Announcement) : Sim Unit :=
  as.forM fun
    | .notice n => log n
    | .event e => modify fun w => { w with feed := w.feed.send e }

/-- the node leaves the directory -/
def leave (m : MemberId) : Sim (Option Membership.Node) := do
  let (d, n, as) := (← get).directory.leave m
  modify fun w => { w with directory := d }
  announce as
  pure n

/-- whether the member is live, as the registry's membership answers; an armed departure follows the answer -/
def checkLive (m : MemberId) : Sim Bool := do
  let w ← get
  if w.directory.isLive m then
    if !w.inNode then
      match w.armed with
      | none => pure ()
      | some (armed, n) =>
        if armed = m then
          if n ≤ 1 then
            set { w with armed := none }
            let _ ← leave m
          else set { w with armed := some (m, n - 1) }
    pure true
  else pure false

/-- a timer or tick takes the next place -/
def nextOrder : Sim Nat := modifyGet fun w => (w.order, { w with order := w.order + 1 })

def perform : Effect → Sim Unit
  | .notice n => log n
  | .create i parent => do see (.create ((← get).registry.record i).id parent)
  | .schedule i delay => do
    let order ← nextOrder
    modify fun w => { w with timers := w.timers ++ [⟨i, w.now + delay, order, w.step⟩] }
    if !(← get).inNode then see (.scheduled delay)
  | .subscribe => modify fun w =>
    let cursor := match w.ownFeed with
      | some own => own.channel.subscribe
      | none => w.feed.subscribe
    { w with tasks := w.tasks ++ [{ kind := .listener cursor w.ownFeed.isSome }] }

/-- tell a sink of events, or of the notices that stand for them; what is returned has been told -/
def Sink.tell (events : List DeploymentEvent) (notices : List Notice) : Sink → Sim Sink
  | .logging => do
    notices.forM log
    pure .logging
  | .silent => pure .silent
  | .deaf => do
    events.forM fun e => log (.noSubscribers e.kind)
    pure .deaf
  | .broadcast channel cursor => pure (.broadcast (events.foldl Channel.send channel) cursor)

/-- tell the sinks beside the recording one -/
def tellSinks (events : List DeploymentEvent) (notices : List Notice) : Sim Unit := do
  let sinks ← (← get).sinks.mapM (Sink.tell events notices)
  modify fun w => { w with sinks }

/-- the operations of a hook or sink for a key, the first time they are asked for -/
def takeOnce (who : Option Nat) (key : String) (script : List (String × List Op)) : Sim (List Op) := do
  let w ← get
  match script.lookup key with
  | none => pure []
  | some ops =>
    if w.spent.contains (who, key) then pure []
    else
      set { w with spent := (who, key) :: w.spent }
      pure ops

/-- the record as answers show it, numbered when it is shown for the first time -/
def view (i : RecordId) : Sim RecordView := do
  let w ← get
  let r := w.registry.record i
  match w.shown.idxOf? i with
  | some k => pure ⟨k, r⟩
  | none =>
    set { w with shown := w.shown ++ [i] }
    pure ⟨w.shown.length, r⟩

/-- someone besides the script still holds the registry -/
def World.registryHeld (w : World) : Bool :=
  !w.dropped || w.nodeUp || w.tasks.any fun t =>
    match t.kind with
    | .listener .. => !t.ended
    | _ => false

end Redeploy.Simulation
