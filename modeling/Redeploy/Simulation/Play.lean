/-
The interpreter of scripts.

An operation runs to its end before the next one begins; what it calls runs its own operations in between, one level
deeper. After each top-level operation the background tasks run until all of them wait.
-/
import Redeploy.Simulation.World

namespace Redeploy.Simulation

/-- how deep callbacks may nest; a script that goes deeper would not end -/
def nestingLimit : Nat := 200

/-- the reports of operations that a callback runs -/
abbrev Inner := List Op → Sim (List Report)

/-- what the context of a record answers when asked for an alias -/
def askContext (inner : Inner) (i : RecordId) (a : String) : Sim (Except Failure Module) := do
  let w ← get
  let id := (w.registry.record i).id
  let attempt := w.attempts.count (i, a)
  set { w with attempts := (i, a) :: w.attempts }
  let specs := (w.byId.lookup id.text).getD w.aliases
  match specs.lookup a with
  | none =>
    see (.asked id a false [])
    pure (.error (.moduleNotFound a))
  | some spec =>
    let inside ← inner spec.during
    let outcome : Except Failure Module :=
      match spec.error with
      | some text => .error (.configuration text)
      | none =>
        if attempt < spec.failTimes then .error (.moduleNotFound a)
        else .ok ⟨spec.name.getD ("org.example." ++ a), spec.isTask⟩
    see (.asked id a outcome.isOk inside)
    pure outcome

/-- the collaborator that a call waits for does its part -/
def reply (inner : Inner) : Query → Sim Reply
  | .nothing => do
    let clock ← readClock
    pure { now := (← get).now, clock }
  | .live m => do pure { live := ← checkLive m }
  | .context i a => do pure { module := ← askContext inner i a }
  | .deployed i a isTask => do
    let r := (← get).registry.record i
    let inside ← inner (← takeOnce none ("deployed:" ++ r.id.text) (← get).sinkOn)
    see (.deployed r.id a isTask r.state inside)
    let clock ← readClock
    tellSinks [.ofDeployed r a isTask clock] [.moduleDeployed r a isTask]
    pure {}
  | .undeployed i departed => do
    let r := (← get).registry.record i
    let inside ← inner (← takeOnce none ("undeployed:" ++ r.id.text) (← get).sinkOn)
    see (.undeployed r.id departed r.modules r.state inside)
    let r := (← get).registry.record i
    let clock ← readClock
    tellSinks (DeploymentEvent.ofUndeployed r departed clock) (Notice.ofUndeployed r departed)
    pure {}
  | .hook h i departed => do
    let w ← get
    let r := w.registry.record i
    let spec := (w.hooks[h]?).getD {}
    let cached := if w.dropped then none else some (w.registry.lookup? r.id).isSome
    let len := if w.dropped || w.unattended then none else some w.registry.size
    let inside ← inner (← takeOnce (some h) r.id.text spec.onId)
    see (.hook h r.id departed cached len inside)
    pure { failure := if spec.fails then some (.hook "cache cleanup failed") else none }
  | .release i => do
    let w ← get
    see (.released (w.registry.record i).id !w.failRelease)
    pure { failure := if w.failRelease then some (.release "class loader still referenced") else none }

/-- where a call stands that was run for a while -/
inductive Thread where
  | paused (c : Call)
  | ended (outcome : Outcome)

/-- run a call until it is about to put such a query, waits for another call, or ends -/
def runUntil (stops : Query → Bool) (inner : Inner) (c : Call) : Sim Thread := do
  let answer ← reply inner (c.query (← get).registry)
  let step := c.advance (← get).registry answer
  modify fun w => { w with registry := step.registry }
  step.effects.forM perform
  match _h : step.next with
  | .go c' => if stops (c'.query (← get).registry) then pure (.paused c') else runUntil stops inner c'
  | .wait => pure (.paused c)
  | .done outcome => pure (.ended outcome)
termination_by c.weight
decreasing_by exact Call.advance_weight _h

/-- run a call to its end; nothing if it waits for itself -/
def runCall (inner : Inner) (c : Call) : Sim (Option Outcome) := do
  match ← runUntil (fun _ => false) inner c with
  | .paused _ => pure none
  | .ended outcome => pure (some outcome)

/-- run a removal; how many records it removed -/
def remove (inner : Inner) (cause : Cause) : Sim Nat := do
  match ← runCall inner (.remove cause) with
  | some (.removed n) => pure n
  | _ => pure 0

/-- what can run in the background next -/
inductive Work where
  | eviction (timer : Timer)
  | sweep (task : Nat)
  /-- a failure detector was told to end -/
  | endDetector (task : Nat)
  | listen (task : Nat)

/-- the listener at `cursor` has something to do -/
def World.listenerReady (w : World) (cursor : Cursor) (own : Bool) : Bool :=
  w.registry.cancelled || match own, w.ownFeed with
    | true, some f => !f.isOpen || cursor < f.channel.sent.length
    | _, _ => cursor < w.feed.sent.length

/-- tasks that have not ended, with their places -/
def World.running (w : World) : List (Nat × TaskKind) :=
  (w.tasks.zipIdx.filter fun (t, _) => !t.ended).map fun (t, i) => (i, t.kind)

/-- what is due, with the time and place it is due at -/
def World.due (w : World) : List (Nat × Nat × Work) :=
  (if w.timed then (w.timers.filter (·.due ≤ w.now)).map fun t => (t.due, t.order, .eviction t) else []) ++
    w.running.filterMap fun
      | (i, .detector _ next order false) => if next ≤ w.now then some (next, order, .sweep i) else none
      | _ => none

/-- what runs next: detectors that end, then what is due in order of time, then listeners -/
def World.nextWork? (w : World) : Option Work :=
  let ending := w.running.findSome? fun
    | (i, .detector _ _ _ true) => some (Work.endDetector i)
    | _ => none
  let earlier (a b : Nat × Nat × Work) : Bool := a.1 < b.1 || (a.1 == b.1 && decide (a.2.1 ≤ b.2.1))
  let firstDue := match w.due with
    | [] => none
    | d :: ds => some (ds.foldl (fun a b => if earlier a b then a else b) d).2.2
  let listening := w.running.findSome? fun
    | (i, .listener cursor own) => if w.listenerReady cursor own then some (Work.listen i) else none
    | _ => none
  ending <|> firstDue <|> listening

def setTask (i : Nat) (f : Task → Task) : Sim Unit := modify fun w => { w with tasks := w.tasks.modify i f }

/-- take the stale nodes out of the directory -/
def evictStale : Sim (List MemberId) := do
  let clock ← readClock
  let (d, out, as) := (← get).directory.evictStale clock
  modify fun w => { w with directory := d }
  announce as
  pure out

/-- the callback of a timer; nothing once nobody holds the registry -/
def evict (inner : Inner) (t : Timer) : Sim Unit := do
  if (← get).registryHeld then
    let _ ← remove inner (.expiry t.record)

def work (inner : Inner) : Work → Sim Unit
  | .eviction t => do
    modify fun w => { w with timers := w.timers.filter (·.order != t.order) }
    evict inner t
  | .endDetector i => do
    setTask i fun t => { t with ended := true }
    log .detectorEnded
  | .sweep i => do
    -- sweeps that were missed are made up for at once, and find nothing that the first one left
    let now := (← get).now
    let order ← nextOrder
    setTask i fun t => match t.kind with
      | .detector interval next _ c =>
        { t with kind := .detector interval (next + interval * ((now - next) / interval + 1)) order c }
      | _ => t
    let out ← evictStale
    if !out.isEmpty then log (.sweptOut out.length)
  | .listen i => do
    let w ← get
    match w.tasks[i]?.map Task.kind with
    | some (.listener cursor own) =>
      if w.registry.cancelled then
        setTask i fun t => { t with ended := true }
        log .listenerEnded
      else
        let channel := match own, w.ownFeed with
          | true, some f => f.channel
          | _, _ => w.feed
        let (reading, cursor') := channel.receive cursor
        setTask i fun t => { t with kind := .listener cursor' own }
        match reading with
        | .lagged skipped =>
          let _ ← remove inner (.sweep (.lagged skipped))
        | .message e =>
          if e.isDeparture then
            let _ ← remove inner (.departure e.member)
        | .empty =>
          setTask i fun t => { t with ended := true }
          log .listenerCutOff
    | _ => pure ()

/-- let the background tasks run until all of them wait; the fuel bounds the pieces of work -/
def settle (inner : Inner) : Nat → Sim Unit
  | 0 => pure ()
  | fuel + 1 => do
    match (← get).nextWork? with
    | none => pure ()
    | some x =>
      work inner x
      settle inner fuel

/-- more pieces of work than any script gives the background tasks at once -/
def workLimit : Nat := 1000000

/-- an operation on the registry, unless it was dropped -/
def onRegistry (m : Sim Answer) : Sim Answer := do
  if (← get).dropped then pure .dropped else m

/-- keep the record under the name, if one is given -/
def keep (name : Option String) (i : RecordId) : Sim Unit :=
  match name with
  | none => pure ()
  | some n => modify fun w => { w with handles := (n, i) :: w.handles }

/-- an operation on the record kept under a name -/
def onHandle (name : String) (f : RecordId → Sim Answer) : Sim Answer := do
  match (← get).handles.lookup name with
  | some i => f i
  | none => pure .noHandle

def runRequest (inner : Inner) (q : Request) (report : Bool) : Sim (Except Request.Fault (Option Outcome)) :=
  match Call.ofRequest? q report with
  | .error f => pure (.error f)
  | .ok c => do pure (.ok (← runCall inner c))

def nodeView (n : Membership.Node) (timeout : Option Int64) : Sim Answer := do
  let clock ← readClock
  pure (.node ⟨n, n.isStale clock (timeout.getD (← get).directory.heartbeatTimeout)⟩)

def nodeOrNull (n : Option Membership.Node) (timeout : Option Int64) : Sim Answer :=
  match n with
  | none => pure .null
  | some n => nodeView n timeout

def register (n : Membership.Node) : Sim Bool := do
  let (d, ok, as) := (← get).directory.register n
  modify fun w => { w with directory := d }
  announce as
  pure ok

/-- a node joins whose last heartbeat was `age` ms ago -/
def join (id : MemberId) (address : String) (epoch : UInt64) (age : Int) (metadata : List (String × String)) :
    Sim Bool := do
  let clock ← readClock
  register { id, address, lastHeartbeat := clock.minusMillis age, metadata, epoch }

def addHook (h : HookSpec) : Sim Nat := do
  let w ← get
  let k := w.hooks.length
  set { w with hooks := w.hooks ++ [h], registry := { w.registry with hooks := w.registry.hooks ++ [k] } }
  pure k

def registerSelf (address : String) : Sim Unit := do
  let clock ← readClock
  let (d, as) := (← get).directory.registerSelf address clock
  modify fun w => { w with directory := d }
  announce as

/-- the complaint about a failure detector with no time between its sweeps -/
def noPeriod : String := "`period` must be non-zero."

def startDetector (interval : Nat) : Sim Answer := do
  if interval = 0 then pure (.panic noPeriod)
  else
    let order ← nextOrder
    modify fun w => { w with
      detector := some w.tasks.length
      tasks := w.tasks ++ [{ kind := .detector interval w.now order false }] }
    pure .null

/-- tell a detector to end, if there is one -/
def stopDetector (detector : Option Nat) : Sim Bool := do
  match detector with
  | none => pure false
  | some i =>
    setTask i fun t => match t.kind with
      | .detector interval next order _ => { t with kind := .detector interval next order true }
      | _ => t
    pure true

/-- readings of a channel from a cursor on -/
def readings {α : Type} (c : Channel α) (cursor : Cursor) (max : Option Nat) : List (Reading α) × Cursor :=
  c.receiveUpTo (max.getD (c.backlog cursor)) cursor

/-- the first sink that broadcasts to a subscriber -/
def World.broadcast? (w : World) : Option (Channel DeploymentEvent × Cursor) :=
  w.sinks.findSome? fun
    | .broadcast channel cursor => some (channel, cursor)
    | _ => none

/-- that sink's subscriber moved on -/
def moveSubscriber (cursor : Cursor) : List Sink → List Sink
  | [] => []
  | .broadcast channel _ :: rest => .broadcast channel cursor :: rest
  | s :: rest => s :: moveSubscriber cursor rest

/-- a call that returns a failure or something to answer with -/
def answerCall (inner : Inner) (c : Call) (f : Outcome → Sim Answer) : Sim Answer := do
  match ← runCall inner c with
  | none => pure .stuck
  | some (.failed why) => pure (.failed why)
  | some o => f o

def asksContext : Query → Bool
  | .context .. => true
  | _ => false

/-- a thread runs on, until its call is about to ask a context -/
def Thread.run (inner : Inner) : Thread → Sim Thread
  | .paused c => runUntil asksContext inner c
  | t => pure t

def Thread.isAsking (g : Registry) : Thread → Bool
  | .paused c => asksContext (c.query g)
  | .ended _ => false

/-- the context that the first thread asks answers, and the thread runs on -/
def answerFirst (inner : Inner) : List Thread → Sim (List Thread)
  | [] => pure []
  | t :: ts => do
    if t.isAsking (← get).registry then pure ((← t.run inner) :: ts)
    else pure (t :: (← answerFirst inner ts))

/-- threads that run at once. A context takes longer than what threads do otherwise: all run until they ask one or wait
for another thread, and only then the first context answers. No thread asks twice -/
def runThreads (inner : Inner) (ts : List Thread) : Nat → Sim (List Thread)
  | 0 => pure ts
  | rounds + 1 => do
    let ts ← ts.mapM fun t => do if t.isAsking (← get).registry then pure t else t.run inner
    runThreads inner (← answerFirst inner ts) rounds

/-- identical requests, each in a thread of its own -/
def runConcurrent (inner : Inner) (q : Request) (times : Nat) : Sim (List (Except Failure RecordId)) := do
  match Call.ofRequest? q false with
  | .error _ => pure []
  | .ok c =>
    let ts ← runThreads inner (List.replicate times (.paused c)) (times + 1)
    pure <| ts.filterMap fun
      | .ended (.record i) => some (.ok i)
      | .ended (.failed why) => some (.error why)
      | _ => none

def runChurn (id : MemberId) : Nat → Sim Nat
  | 0 => pure 0
  | n + 1 => do
    let joined ← join id "" 1 0 []
    let _ ← leave id
    let rest ← runChurn id n
    pure (rest + if joined then 1 else 0)

/-- one operation; `inner` runs operations one level deeper -/
def runOp (inner : Inner) : Op → Sim Answer
  | .tryResolve q name => onRegistry do
    match ← runRequest inner q false with
    | .error f => pure (.panic (f.message q))
    | .ok none => pure .stuck
    | .ok (some (.record i)) =>
      keep name i
      pure (.record (← view i))
    | .ok (some (.failed why)) => pure (.failed why)
    | .ok (some _) => pure .null
  | .resolve q name => onRegistry do
    match ← runRequest inner q true with
    | .error f => pure (.panic (f.message q))
    | .ok none => pure .stuck
    | .ok (some (.record i)) =>
      keep name i
      pure (.record (← view i))
    | .ok (some _) => pure .null
  | .get id name => onRegistry do
    match (← get).registry.lookup? id with
    | none => pure .null
    | some i =>
      keep name i
      pure (.record (← view i))
  | .list => onRegistry do pure (.records (← (← get).registry.listing.mapM view))
  | .len => onRegistry do pure (.size (← get).registry.size)
  | .timeout => onRegistry do pure (.count (← get).registry.timeout)
  | .undeployByName sender name => onRegistry do
    let _ ← remove inner (.named sender name)
    pure .null
  | .reconcile => onRegistry do pure (.count (← remove inner (.sweep .asked)))
  | .departed m => onRegistry do
    let _ ← remove inner (.departure m)
    pure .null
  | .start => onRegistry do answerCall inner (.start false) fun _ => pure (.text "started")
  | .stop => onRegistry do
    let _ ← remove inner .stop
    pure .null
  | .setDefaultParent label => onRegistry do
    modify fun w => { w with registry := { w.registry with defaultParent := label } }
    pure .null
  | .addHook fails onId => onRegistry do pure (.count (← addHook ⟨fails, onId⟩))
  | .concurrent q times => onRegistry do
    match (if times = 0 then none else q.fault?) with
    | some f => pure (.panic (f.message q))
    | none =>
      let outcomes ← runConcurrent inner q times
      let ok := outcomes.filterMap fun
        | .ok i => some i
        | .error _ => none
      let errors := outcomes.filterMap fun
        | .ok _ => none
        | .error why => some why.message
      let record ← match ok.head? with
        | none => pure none
        | some i => do pure (some (← view i))
      pure (.concurrent ok.length (errors.mergeSort fun a b => decide (a ≤ b))
        (ok.all fun i => some i == ok.head?) record)
  | .dropRegistry => onRegistry do
    modify fun w => { w with
      dropped := true
      registry := { w.registry with cancelled := w.registry.cancelled || !w.nodeUp } }
    pure .null
  | .handleResolve name a => onHandle name fun i =>
    answerCall inner (.resolveAlias i a) fun
      | .module m fresh => pure (.module m fresh)
      | _ => pure .null
  | .handleQuery name a => onHandle name fun i => do
    let r := (← get).registry.record i
    pure (.query (r.hasResolved a) (r.hasName a) (r.module? a))
  | .handleView name => onHandle name fun i => do pure (.record (← view i))
  | .handleDescribe name => onHandle name fun i => do pure (.text (((← get).registry.record i).describe "<T>"))
  | .registerSelf address => do
    registerSelf address
    pure (.token (← get).directory.token)
  | .token => do pure (.self (← get).directory.token)
  | .join id address epoch age metadata => do pure (.flag (← join id address epoch age metadata))
  | .heartbeat id => do
    let clock ← readClock
    let (d, known) := (← get).directory.heartbeat id clock
    modify fun w => { w with directory := d }
    pure (.flag known)
  | .leave id timeout => do nodeOrNull (← leave id) timeout
  | .fail id timeout => do
    let (d, n, as) := (← get).directory.fail id
    modify fun w => { w with directory := d }
    announce as
    nodeOrNull n timeout
  | .getNode id timeout => do nodeOrNull ((← get).directory.find? id) timeout
  | .isLive id => do pure (.flag (← checkLive id))
  | .live => do pure (.texts ((← get).directory.live.map MemberId.text))
  | .evictStale => do pure (.texts (((← evictStale).mergeSort MemberId.le).map MemberId.text))
  | .churn times id => do pure (.count (← runChurn id times))
  | .armDeparture id after => do
    modify fun w => { w with armed := some (id, after) }
    pure .null
  | .publish none => pure .unreadable
  | .publish (some e) => do
    let w ← get
    match w.ownFeed with
    | none => pure .null
    | some f =>
      let receivers := w.running.filter fun
        | (_, .listener _ true) => true
        | _ => false
      if !f.isOpen || receivers.isEmpty then pure .null
      else
        set { w with ownFeed := some { f with channel := f.channel.send e } }
        pure (.count receivers.length)
  | .closeChannel => do
    modify fun w => { w with ownFeed := w.ownFeed.map fun f => { f with isOpen := false } }
    pure .null
  | .watch name => do
    modify fun w => { w with watchers := (name, w.feed.subscribe) :: w.watchers.filter (·.1 != name) }
    pure .null
  | .watched name max sorted => do
    let w ← get
    match w.watchers.lookup name with
    | none => pure .null
    | some cursor =>
      let (rs, cursor') := readings w.feed cursor max
      set { w with watchers := (name, cursor') :: w.watchers.filter (·.1 != name) }
      let key : Reading Membership.Event → String
        | .message e => e.member.text
        | _ => ""
      pure (.members (if sorted then rs.mergeSort fun a b => decide (key a ≤ key b) else rs))
  | .events max => do
    let w ← get
    match w.broadcast? with
    | none => pure .null
    | some (channel, cursor) =>
      let (rs, cursor') := readings channel cursor max
      set { w with sinks := moveSubscriber cursor' w.sinks }
      let key : Reading DeploymentEvent → String
        | .message e => e.what.id.text
        | _ => ""
      pure (.events (rs.mergeSort fun a b => decide (key a ≤ key b)))
  | .startDetector interval => startDetector interval
  | .stopDetector => do pure (.flag (← stopDetector (← get).detector))
  | .tasks => do pure (.flags (((← get).tasks.filter Task.listed).map Task.ended))
  | .advance ms => do
    modify fun w => { w with now := w.now + ms, unattended := true }
    pure .null
  | .fire step => do
    let w ← get
    if w.timed then pure (.count 0)
    else
      let (chosen, kept) := w.timers.partition fun t => step.all (· == t.step)
      set { w with timers := kept, unattended := true }
      chosen.forM (evict inner)
      modify fun w' => { w' with unattended := w.unattended }
      pure (.count chosen.length)
  | .shutdown => do
    if (← get).nodeUp then
      let _ ← stopDetector (← get).nodeDetector
      let _ ← remove inner .stop
      settle inner workLimit
      let self := (← get).directory.self
      log (.nodeStopped self)
      modify fun w => { w with nodeUp := false }
      pure (.text self.text)
    else pure .null
  | .batch ops => do pure (.batch (← inner ops))
  | .unknown => pure .unknown

/-- operations one after the other, each with its own report; `depth` more levels of callbacks are left -/
def runOps : Nat → Inner
  | 0 => fun _ => pure []
  | depth + 1 => fun ops => ops.mapM fun op => reporting (runOp (runOps depth) op)

/-- a top-level operation, and the background work that follows it -/
def runStep (k : Nat) (op : Op) : Sim StepReport := do
  modify fun w => { w with step := k }
  let report ← reporting do
    let answer ← runOp (runOps nestingLimit) op
    settle (runOps nestingLimit) workLimit
    pure answer
  modify fun w => { w with unattended := false }
  let w ← get
  pure ⟨report, if w.dropped then none else some (w.registry.listing.map w.registry.record)⟩

def runSteps : Nat → List Op → Sim (List StepReport)
  | _, [] => pure []
  | k, op :: ops => do
    let one ← runStep k op
    let rest ← runSteps (k + 1) ops
    pure (one :: rest)

end Redeploy.Simulation
