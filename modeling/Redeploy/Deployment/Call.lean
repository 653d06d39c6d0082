/-
Calls on the registry, one atomic step at a time.

A `Call` is an operation between two of its steps. `query` says what it waits for: nothing, an answer about
membership, or the return of something it called (a resolution context, a sink, a hook). `advance` takes the
reply and does the next step. Between two steps of one call any steps of other calls may happen, begun by what
it called or by other threads; only a call that `holdsLock` keeps the critical sections of others out.
-/
import Redeploy.Deployment.Registry

namespace Redeploy

/-- where the resolution of an alias on a record stands -/
inductive LookupPoint where
  /-- about to find or open the alias's slot -/
  | looking
  /-- has the slot, about to look into its cell -/
  | trying (cell : Nat)
  /-- the context is materialising the module -/
  | asking (cell : Nat)
  /-- the context failed; about to close the slot if it is still empty -/
  | clearing (why : Failure)
deriving DecidableEq, Repr

inductive RequestPoint where
  /-- asks whether the sender is live, without the lock -/
  | entering
  /-- about to take the lock and look whether the registry is stopped -/
  | locking
  /-- holds the lock and asks once more whether the sender is live -/
  | rechecking
  /-- holds the lock, about to decide -/
  | deciding
  | resolving (record : RecordId) (point : LookupPoint)
  /-- the sink is told about a module just materialised -/
  | notifying (record : RecordId) (isTask : Bool)
deriving DecidableEq, Repr

/-- why a sweep compares the cache with the membership -/
inductive SweepReason where
  | asked
  | starting
  | lagged (skipped : Nat)
deriving DecidableEq, Repr

/-- why records are removed -/
inductive Cause where
  /-- the scheduled eviction of a record is due -/
  | expiry (record : RecordId)
  /-- a sender withdraws its deployments of a name -/
  | named (sender : MemberId) (name : String)
  | departure (member : MemberId)
  /-- senders that are not live -/
  | sweep (reason : SweepReason)
  | stop
deriving DecidableEq, Repr

/-- the departed member that sinks and hooks are told about -/
def Cause.departed : Cause → Option MemberId
  | .departure m => some m
  | _ => none

inductive RemovalPoint where
  /-- about to take the lock -/
  | starting
  /-- holds the lock and asks about the sender of the first of `left`; senders of `gone` are not live -/
  | checking (left gone : List RecordId)
  /-- the sink is told about the first of `queue` -/
  | telling (queue : List RecordId)
  /-- the first of `hooks` is told about the first of `queue` -/
  | hooking (hooks : List Nat) (queue : List RecordId)
  /-- the context of the first of `queue` releases what it holds -/
  | releasing (queue : List RecordId)
deriving DecidableEq, Repr

inductive Call where
  /-- `report`: a rejection is logged -/
  | request (q : Request) (report : Bool) (point : RequestPoint)
  | lookup (record : RecordId) (a : String) (point : LookupPoint)
  /-- `total` records were taken out of the cache -/
  | removal (cause : Cause) (total : Nat) (point : RemovalPoint)
  /-- about to start; `true` once the registry was seen not to be stopped -/
  | start (checked : Bool)
deriving DecidableEq, Repr

/-- what a finished call returns -/
inductive Outcome where
  | record (i : RecordId)
  | module (m : Module) (fresh : Bool)
  | removed (count : Nat)
  | failed (why : Failure)
deriving DecidableEq, Repr

/-- what a call waits for -/
inductive Query where
  | nothing
  | live (member : MemberId)
  | context (record : RecordId) (a : String)
  | deployed (record : RecordId) (a : String) (isTask : Bool)
  | undeployed (record : RecordId) (departed : Option MemberId)
  | hook (hook : Nat) (record : RecordId) (departed : Option MemberId)
  | release (record : RecordId)
deriving DecidableEq, Repr

/-- the answers that a step may use: each step reads only the one it asked for, and the clocks -/
structure Reply where
  live : Bool := true
  module : Except Failure Module := .error .shuttingDown
  failure : Option Failure := none
  /-- monotonic clock, ms -/
  now : Nat := 0
  clock : Timestamp := default

/-- what comes after a step -/
inductive Next where
  | go (call : Call)
  /-- another call is materialising the same cell: try again later -/
  | wait
  | done (outcome : Outcome)
deriving DecidableEq, Repr

structure Step where
  registry : Registry
  effects : List Effect := []
  next : Next

namespace Call

/-- a call for a well-formed request -/
def ofRequest? (q : Request) (report : Bool) : Except Request.Fault Call :=
  match q.fault? with
  | some f => .error f
  | none => .ok (.request q report .entering)

/-- a call that starts a registry; it must be made inside the runtime -/
def ofStart? (inRuntime : Bool) : Except Failure Call :=
  if inRuntime then .ok (.start false) else .error .noRuntimeForRegistry

def resolveAlias (i : RecordId) (a : String) : Call := .lookup i a .looking

def remove (c : Cause) : Call := .removal c 0 .starting

def lookupQuery (i : RecordId) (a : String) : LookupPoint → Query
  | .asking _ => .context i a
  | _ => .nothing

def query (g : Registry) : Call → Query
  | request q _ .entering => .live q.sender
  | request q _ .rechecking => .live q.sender
  | request q _ (.resolving i p) => lookupQuery i q.moduleAlias p
  | request q _ (.notifying i isTask) => .deployed i q.moduleAlias isTask
  | request _ _ _ => .nothing
  | lookup i a p => lookupQuery i a p
  | removal _ _ (.checking (i :: _) _) => .live (g.record i).sender
  | removal c _ (.telling (i :: _)) => .undeployed i c.departed
  | removal c _ (.hooking (h :: _) (i :: _)) => .hook h i c.departed
  | removal _ _ (.releasing (i :: _)) => .release i
  | removal _ _ _ => .nothing
  | start _ => .nothing

/-- the call keeps the critical sections of others out -/
def holdsLock : Call → Bool
  | request _ _ .rechecking => true
  | request _ _ .deciding => true
  | removal _ _ (.checking _ _) => true
  | _ => false

/-- the next step of the call takes the lock -/
def needsLock : Call → Bool
  | request _ _ .locking => true
  | removal _ _ .starting => true
  | start false => true
  | _ => false

/-- the outcome of a step in the resolution of an alias -/
inductive LookupStep where
  | go (point : LookupPoint)
  | wait
  | found (m : Module) (fresh : Bool)
  | failed (why : Failure)

/-- the failure to resolve on a record that is undeployed -/
def undeployedFailure (a : String) (r : Record) : Failure :=
  .moduleNotFound (a ++ " (deployment " ++ r.id.text ++ " is undeployed)")

/-- one step in the resolution of an alias on a record -/
def advanceLookup (g : Registry) (i : RecordId) (a : String) (reply : Reply) :
    LookupPoint → Registry × LookupStep
  | .looking =>
    let (r, cell) := (g.record i).openSlot a
    (g.modify i fun _ => r, .go (.trying cell))
  | .trying cell =>
    let r := g.record i
    match r.cells[cell]? with
    | none => (g, .wait)
    | some c =>
      match c.module with
      | some m => (g, .found m false)
      | none =>
        if c.busy then (g, .wait)
        else if r.isUndeployed then (g, .go (.clearing (undeployedFailure a r)))
        else (g.modify i (·.setCell cell { c with busy := true }), .go (.asking cell))
  | .asking cell =>
    match reply.module with
    | .ok m => (g.modify i (·.setCell cell { module := some m }), .found m true)
    | .error why => (g.modify i (·.setCell cell {}), .go (.clearing why))
  | .clearing why => (g.modify i (·.closeSlot a), .failed why)

/-- the end of a request that is rejected -/
def rejection (g : Registry) (q : Request) (report : Bool) (why : Failure) (before : List Effect) : Step :=
  let reason : Notice :=
    match why with
    | .sequenceMismatch .. => .inconsistent why q
    | _ => .rejected why q
  ⟨g, before ++ (if report then [.notice reason] else []), .done (.failed why)⟩

def advanceRequest (g : Registry) (q : Request) (report : Bool) (reply : Reply) : RequestPoint → Step
  | .entering =>
    if reply.live then ⟨g, [.notice (.resolving q)], .go (.request q report .locking)⟩
    else rejection g q report (.senderLeft q.sender) [.notice (.resolving q)]
  | .locking =>
    if g.stopped then rejection g q report .shuttingDown []
    else ⟨g, [], .go (.request q report .rechecking)⟩
  | .rechecking =>
    if reply.live then ⟨g, [], .go (.request q report .deciding)⟩
    else rejection g q report (.senderLeft q.sender) []
  | .deciding =>
    match g.decide q reply.now with
    | .error why => rejection g q report why []
    | .ok (.cached i) => ⟨g, [], .go (.request q report (.resolving i .looking))⟩
    | .ok (.fresh v) =>
      let (g', i, effects) := g.install q v reply.now reply.clock
      ⟨g', effects, .go (.request q report (.resolving i .looking))⟩
  | .resolving i p =>
    match advanceLookup g i q.moduleAlias reply p with
    | (g', .go p') => ⟨g', [], .go (.request q report (.resolving i p'))⟩
    | (g', .wait) => ⟨g', [], .wait⟩
    | (g', .found m true) => ⟨g', [], .go (.request q report (.notifying i m.isTask))⟩
    | (g', .found _ false) => ⟨g', [], .done (.record i)⟩
    | (g', .failed why) =>
      let r := g'.record i
      rejection g' q report (.aliasNotFound q.moduleAlias r.id) [.notice (.unresolved why r)]
  | .notifying i _ => ⟨g, [], .done (.record i)⟩

/-- what is logged once all records of a removal are torn down -/
def finalNotices (g : Registry) (total : Nat) : Cause → List Effect
  | .stop => [.notice (.registryStopped total)]
  | .sweep .starting => [.notice (.registryStarted g.timeout total)]
  | _ => []

/-- what is logged before one record is torn down -/
def notices (r : Record) : Cause → List Effect
  | .expiry _ => [.notice (.expired r)]
  | .named sender name => [.notice (.removedByName r sender name)]
  | .sweep _ => [.notice (.unreachable r)]
  | _ => []

/-- go on with the teardown of the records in the queue -/
def tearDown (g : Registry) (c : Cause) (total : Nat) (before : List Effect) : List RecordId → Step
  | [] => ⟨g, before ++ finalNotices g total c, .done (.removed total)⟩
  | i :: rest => ⟨g, before ++ notices (g.record i) c, .go (.removal c total (.telling (i :: rest)))⟩

/-- the hooks were told: the context is released, unless it was before -/
def release (g : Registry) (c : Cause) (total : Nat) (before : List Effect) (i : RecordId)
    (rest : List RecordId) : Step :=
  if (g.record i).released then tearDown g c total before rest
  else
    ⟨g.modify i fun r => { r with released := true }, before, .go (.removal c total (.releasing (i :: rest)))⟩

/-- the records that a removal takes out at once -/
def drainFor (g : Registry) : Cause → Registry × List RecordId
  | .expiry i =>
    let (g', removed) := g.expire i
    (g', if removed then [i] else [])
  | .named sender name => g.drain fun _ r => r.sender == sender && r.hasName name
  | .departure m => g.drain fun _ r => r.sender == m
  | .sweep _ => (g, [])
  | .stop => ({ g with stopped := true, cancelled := true } : Registry).drain fun _ _ => true

/-- what is logged once the records of a removal are out of the cache -/
def drainNotices (count : Nat) : Cause → List Effect
  | .departure m => if count = 0 then [] else [.notice (.senderGone m count)]
  | _ => []

def advanceRemoval (g : Registry) (c : Cause) (total : Nat) (reply : Reply) : RemovalPoint → Step
  | .starting =>
    match c with
    | .sweep reason =>
      let before := match reason with
        | .lagged skipped => [.notice (.listenerLagged skipped)]
        | _ => []
      ⟨g, before, .go (.removal c 0 (.checking (g.cache.map Prod.snd) []))⟩
    | _ =>
      let (g', gone) := drainFor g c
      tearDown g' c gone.length (drainNotices gone.length c) gone
  | .checking [] gone =>
    let (g', gone) := g.drain fun i _ => gone.contains i
    tearDown g' c gone.length [] gone
  | .checking (i :: left) gone =>
    ⟨g, [], .go (.removal c total (.checking left (if reply.live then gone else gone ++ [i])))⟩
  | .telling [] => tearDown g c total [] []
  | .telling (i :: rest) =>
    match g.hooks with
    | [] => release g c total [] i rest
    | hooks => ⟨g, [], .go (.removal c total (.hooking hooks (i :: rest)))⟩
  | .hooking _ [] => tearDown g c total [] []
  | .hooking [] (i :: rest) => release g c total [] i rest
  | .hooking (_ :: hooks) (i :: rest) =>
    let report := match reply.failure with
      | none => []
      | some why => [Effect.notice (.hookFailed (g.record i) why)]
    match hooks with
    | [] => release g c total report i rest
    | _ => ⟨g, report, .go (.removal c total (.hooking hooks (i :: rest)))⟩
  | .releasing [] => tearDown g c total [] []
  | .releasing (i :: rest) =>
    let report := match reply.failure with
      | none => []
      | some why => [Effect.notice (.releaseFailed (g.record i) why)]
    tearDown g c total report rest

/-- the next step of a call -/
def advance (g : Registry) (reply : Reply) : Call → Step
  | request q report p => advanceRequest g q report reply p
  | lookup i a p =>
    match advanceLookup g i a reply p with
    | (g', .go p') => ⟨g', [], .go (.lookup i a p')⟩
    | (g', .wait) => ⟨g', [], .wait⟩
    | (g', .found m fresh) => ⟨g', [], .done (.module m fresh)⟩
    | (g', .failed why) => ⟨g', [], .done (.failed why)⟩
  | removal c total p => advanceRemoval g c total reply p
  | start false =>
    if g.stopped then ⟨g, [], .done (.failed .shuttingDown)⟩ else ⟨g, [], .go (.start true)⟩
  | start true =>
    if g.started then ⟨g, [], .done (.failed .alreadyStarted)⟩
    else ⟨{ g with started := true }, [.subscribe], .go (.removal (.sweep .starting) 0 .starting)⟩

/-! ## Every call ends, as far as it depends on itself -/

def lookupRank : LookupPoint → Nat
  | .looking => 3
  | .trying _ => 2
  | .asking _ => 1
  | .clearing _ => 0

def requestRank : RequestPoint → Nat
  | .entering => 9
  | .locking => 8
  | .rechecking => 7
  | .deciding => 6
  | .resolving _ p => lookupRank p + 1
  | .notifying .. => 0

/-- bound on the steps still to come: phase, records left, stage of the first one, hooks left -/
def weight : Call → Nat × Nat × Nat × Nat
  | start false => (4, 0, 0, 0)
  | start true => (3, 0, 0, 0)
  | removal _ _ .starting => (2, 0, 0, 0)
  | removal _ _ (.checking left _) => (1, left.length, 0, 0)
  | removal _ _ (.telling queue) => (0, queue.length, 2, 0)
  | removal _ _ (.hooking hooks queue) => (0, queue.length, 1, hooks.length)
  | removal _ _ (.releasing queue) => (0, queue.length, 0, 0)
  | request _ _ p => (0, 0, 0, requestRank p)
  | lookup _ _ p => (0, 0, 0, lookupRank p)

/-- the order by weight -/
def Lighter (a b : Call) : Prop :=
  (WellFoundedRelation.rel : Nat × Nat × Nat × Nat → Nat × Nat × Nat × Nat → Prop) a.weight b.weight

theorem lookup_next_weight {g g' : Registry} {i : RecordId} {a : String} {reply : Reply} {p p' : LookupPoint}
    (h : advanceLookup g i a reply p = (g', .go p')) : lookupRank p' < lookupRank p := by
  cases p with
  | looking => grind [advanceLookup, lookupRank]
  | trying cell => grind [advanceLookup, lookupRank]
  | asking cell =>
    simp only [advanceLookup] at h
    split at h
    · cases h
    · cases h
      exact Nat.one_pos
  | clearing why => simp [advanceLookup] at h

theorem tearDown_next {g : Registry} {c : Cause} {total : Nat} {before : List Effect} {queue : List RecordId}
    {c' : Call} (h : (tearDown g c total before queue).next = .go c') : c' = .removal c total (.telling queue) := by
  cases queue with
  | nil => simp [tearDown] at h
  | cons i rest => simpa [tearDown, eq_comm] using h

theorem release_next {g : Registry} {c : Cause} {total : Nat} {before : List Effect} {i : RecordId}
    {rest : List RecordId} {c' : Call} (h : (release g c total before i rest).next = .go c') :
    c' = .removal c total (.telling rest) ∨ c' = .removal c total (.releasing (i :: rest)) := by
  unfold release at h
  split at h
  · exact .inl (tearDown_next h)
  · simp at h; exact .inr h.symm

theorem rejection_next {g : Registry} {q : Request} {report : Bool} {why : Failure} {before : List Effect}
    {c' : Call} : (rejection g q report why before).next ≠ .go c' := by
  simp [rejection]

theorem lighter_iff {a b : Call} :
    Lighter a b ↔ a.weight.1 < b.weight.1 ∨ a.weight.1 = b.weight.1 ∧ (a.weight.2.1 < b.weight.2.1 ∨
      a.weight.2.1 = b.weight.2.1 ∧ (a.weight.2.2.1 < b.weight.2.2.1 ∨
        a.weight.2.2.1 = b.weight.2.2.1 ∧ a.weight.2.2.2 < b.weight.2.2.2)) := by
  simp only [Lighter, WellFoundedRelation.rel, Prod.lex_def]
  rfl

theorem request_weight {g : Registry} {q : Request} {report : Bool} {reply : Reply} {p : RequestPoint} {c' : Call}
    (h : (advanceRequest g q report reply p).next = .go c') : Lighter c' (.request q report p) := by
  cases p with
  | resolving i p =>
    simp only [advanceRequest] at h
    split at h
    · rename_i heq
      have := lookup_next_weight heq
      simp at h
      subst h
      simp [lighter_iff, weight, requestRank]
      exact this
    · simp at h
    · simp at h; subst h; simp [lighter_iff, weight, requestRank]
    · simp at h
    · exact absurd h rejection_next
  | entering =>
    simp only [advanceRequest] at h
    split at h
    · simp at h; subst h; simp [lighter_iff, weight, requestRank]
    · exact absurd h rejection_next
  | locking =>
    simp only [advanceRequest] at h
    split at h
    · exact absurd h rejection_next
    · simp at h; subst h; simp [lighter_iff, weight, requestRank]
  | rechecking =>
    simp only [advanceRequest] at h
    split at h
    · simp at h; subst h; simp [lighter_iff, weight, requestRank]
    · exact absurd h rejection_next
  | deciding =>
    simp only [advanceRequest] at h
    split at h
    · exact absurd h rejection_next
    · simp at h; subst h; simp [lighter_iff, weight, requestRank, lookupRank]
    · simp at h; subst h; simp [lighter_iff, weight, requestRank, lookupRank]
  | notifying i isTask => simp [advanceRequest] at h

theorem removal_weight {g : Registry} {c : Cause} {total : Nat} {reply : Reply} {p : RemovalPoint} {c' : Call}
    (h : (advanceRemoval g c total reply p).next = .go c') : Lighter c' (.removal c total p) := by
  cases p with
  | starting =>
    cases c <;> simp only [advanceRemoval] at h
    case sweep reason => simp at h; subst h; simp [lighter_iff, weight]
    all_goals rw [tearDown_next h]; simp [lighter_iff, weight]
  | checking left gone =>
    cases left with
    | nil => simp only [advanceRemoval] at h; rw [tearDown_next h]; simp [lighter_iff, weight]
    | cons i left => simp [advanceRemoval] at h; subst h; simp [lighter_iff, weight]
  | telling queue =>
    cases queue with
    | nil => simp [advanceRemoval, tearDown] at h
    | cons i rest =>
      simp only [advanceRemoval] at h
      split at h
      · rcases release_next h with h | h <;> subst h <;> simp [lighter_iff, weight]
      · simp at h; subst h; simp [lighter_iff, weight]
  | hooking hooks queue =>
    cases queue with
    | nil => simp [advanceRemoval, tearDown] at h
    | cons i rest =>
      cases hooks with
      | nil =>
        simp only [advanceRemoval] at h
        rcases release_next h with h | h <;> subst h <;> simp [lighter_iff, weight]
      | cons k hooks =>
        simp only [advanceRemoval] at h
        split at h
        · rcases release_next h with h | h <;> subst h <;> simp [lighter_iff, weight]
        · simp at h; subst h; simp [lighter_iff, weight]
  | releasing queue =>
    cases queue with
    | nil => simp [advanceRemoval, tearDown] at h
    | cons i rest =>
      simp only [advanceRemoval] at h
      rw [tearDown_next h]
      simp [lighter_iff, weight]

/-- a step makes the call lighter, so a call that nothing blocks ends -/
theorem advance_weight {g : Registry} {reply : Reply} {c c' : Call} (h : (advance g reply c).next = .go c') :
    Lighter c' c := by
  cases c with
  | request q report p => exact request_weight h
  | lookup i a p =>
    simp only [advance] at h
    split at h
    · rename_i heq
      have := lookup_next_weight heq
      simp at h
      subst h
      simpa [lighter_iff, weight] using this
    all_goals simp at h
  | removal c total p => exact removal_weight h
  | start checked =>
    cases checked <;> simp only [advance] at h <;> split at h <;> simp at h <;> subst h <;>
      simp [lighter_iff, weight]

/-- a call that nothing interferes with, run to its end: the registry after it, what it gave orders for, and its outcome.
Nothing if it comes to need an answer, or to wait for another call -/
def alone? (g : Registry) (c : Call) : Option (Registry × List Effect × Outcome) :=
  if c.query g = .nothing then
    let s := c.advance g {}
    match _h : s.next with
    | .go c' => (alone? s.registry c').map fun (g', effects, outcome) => (g', s.effects ++ effects, outcome)
    | .wait => none
    | .done outcome => some (s.registry, s.effects, outcome)
  else none
termination_by c.weight
decreasing_by exact advance_weight _h

end Call

end Redeploy
