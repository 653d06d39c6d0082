/-
Whole runs: a world is set up, and a script is played in it.
-/
import Redeploy.Simulation.Play
import Redeploy.Node

namespace Redeploy.Simulation

/-- what a node is called that gets its identifier at the start -/
def generatedName : String := "<generated>"

/-- a channel of a capacity, or the complaint about it -/
def channelOf {α : Type} (n : Nat) : Except String (Channel α) :=
  match Channel.refusal? n with
  | some why => .error why
  | none => .ok (Channel.ofCapacity n)

def Sink.ofSpec : SinkSpec → Except String Sink
  | .logging => .ok .logging
  | .silent => .ok .silent
  | .deaf => .ok .deaf
  | .broadcast n => (channelOf n).map (.broadcast · 0)

/-- the world before anything happened in it -/
def World.ofSetup (s : Setup) (registry : Registry) (directory : Membership.Directory) (sinks : List Sink)
    (ownFeed : Option OwnChannel) (inNode : Bool) : World :=
  { registry, directory, sinks, ownFeed, inNode, timed := s.timed || inNode, aliases := s.aliases, byId := s.byId
    failRelease := s.failRelease, sinkOn := s.sinkOn, logs := s.logs }

/-- the background work that the start of a node leads to -/
def startNode (c : Config) (n : Node.Running) : Sim Unit := do
  announce n.announcements
  n.effects.forM perform
  let _ ← startDetector n.checkInterval
  log (.nodeStarted n.directory.self c.deployment.networkTimeout c.membership.heartbeatTimeout)
  modify fun w => { w with
    nodeUp := true
    nodeDetector := w.detector
    detector := none
    tasks := w.tasks.map fun t => { t with listed := false } }

/-- the rest of the set-up, common to all hosts -/
def populate (s : Setup) : Sim Unit := do
  s.members.forM fun m => do
    let _ ← join m (m.text ++ ":47500") 1 0 []
  s.hooks.forM fun h => do
    let _ ← addHook h

/-- set the world up; the report names the local node -/
def setUp (s : Setup) (start : Sim Unit) : Sim Report :=
  reporting do
    start
    populate s
    settle (runOps nestingLimit) workLimit
    pure (.text (← get).directory.self.text)

/-- why a set-up comes to nothing, as its report has it -/
abbrev SetupFault := Answer

/-- the host of the registry under test: directory, registry, what is started with it, and whether it is a whole node -/
def Host.parts (h : Host) (timeout : Nat) :
    Except SetupFault (Membership.Directory × Registry × Sim Unit × Bool) :=
  match h with
  | .directory self heartbeat => .ok ({ self, heartbeatTimeout := heartbeat }, { timeout }, pure (), false)
  | .configured (.ok c) => .ok (.ofConfig c generatedName, { timeout }, pure (), false)
  | .configured (.error why) => .error (.failed (.configuration why))
  | .node c address =>
    match (Node.start c address generatedName openingTime true).run with
    | .ok (.ok n) => .ok (n.directory, n.registry, startNode c n, true)
    | .ok (.error why) => .error (.failed why)
    | .error (.split s) => .error (.panic s.message)
    | .error .noPeriod => .error (.panic noPeriod)
    | .error .stuck => .error .stuck

/-- the world before anything happened in it, and what starts it -/
def ready (s : Setup) : Except SetupFault (World × Sim Unit) := do
  let sinks ← (s.sinks.mapM Sink.ofSpec).mapError .panic
  let (directory, registry, start, inNode) ← s.host.parts s.timeout
  let ownFeed ← match s.ownChannel, inNode with
    | some n, false => ((channelOf n).mapError .panic).map fun channel => some { channel }
    | _, _ => pure none
  pure (.ofSetup s registry directory sinks ownFeed inNode, start)

/-- play a script from a set-up; the world at the end is returned too -/
def run (s : Setup) (ops : List Op) : RunReport × Option World :=
  match ready s with
  | .error fault => (⟨⟨fault, []⟩, none⟩, none)
  | .ok (w, start) =>
    let (setup, w) := (setUp s start).run w
    let (steps, w) := (runSteps 0 ops).run w
    (⟨setup, some steps⟩, some w)

end Redeploy.Simulation
