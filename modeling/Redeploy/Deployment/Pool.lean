/-
Calls under way at the same time on one registry.

A pool holds a registry, the calls that have begun, and the evictions that were ordered and have not begun. A move
begins a call, lets a call put its query to the outside, answers a query and does the call's next step, begins an
eviction that is due, changes the order in which the cache is met, or lets time pass. `run` does a list of moves one
after the other, so every interleaving of calls under every order of enumeration is the run of some list. A move that
is not possible changes nothing.
-/
import Redeploy.Deployment.Call

namespace Redeploy

/-- one thing that can be seen of a registry from outside -/
inductive Mark where
  | asked (query : Query)
  | did (effect : Effect)
  /-- the call at that place has ended -/
  | returned (place : Nat) (outcome : Outcome)
deriving DecidableEq, Repr

/-- a call that has begun and not ended -/
structure Underway where
  call : Call
  /-- its query was put and has not been answered -/
  asking : Bool := false
deriving DecidableEq, Repr

structure Pool where
  registry : Registry
  /-- calls in the order in which they began; nothing where one has ended -/
  calls : List (Option Underway) := []
  /-- ordered evictions: the record, and when it may be evicted -/
  evictions : List (RecordId × Nat) := []
  /-- monotonic clock, ms -/
  now : Nat := 0
  /-- what was seen so far -/
  trace : List Mark := []
deriving DecidableEq, Repr

/-- a call as it begins, on a registry that gave the caller all it names -/
def Call.IsNew (g : Registry) : Call → Bool
  | .request q _ .entering => q.fault?.isNone
  | .lookup i _ .looking => decide (i < g.records.length)
  | .removal (.expiry _) _ _ => false
  | .removal (.sweep .starting) _ _ => false
  | .removal _ 0 .starting => true
  | .start false => true
  | _ => false

/-- the eviction that an effect orders at time `now` -/
def Effect.eviction? (now : Nat) : Effect → Option (RecordId × Nat)
  | .schedule i delay => some (i, now + delay)
  | _ => none

/-- the call `c` after a step of it, unless it has ended -/
def Next.underway? (c : Call) : Next → Option Underway
  | .go c' => some { call := c' }
  | .wait => some { call := c }
  | .done _ => none

/-- the mark that the call at the place leaves when it ends -/
def Next.marks (place : Nat) : Next → List Mark
  | .done o => [.returned place o]
  | _ => []

namespace Pool

inductive Move where
  /-- a caller begins a call -/
  | enter (c : Call)
  /-- the call at the place puts its query -/
  | ask (place : Nat)
  /-- the call at the place is answered, if it asked, and does its next step -/
  | step (place : Nat) (reply : Reply)
  /-- the eviction at the place among those ordered begins -/
  | evict (place : Nat)
  /-- the cache is met in another order from now on -/
  | reorder (cache : List (DeploymentId × RecordId))
  | addHook (hook : Nat)
  | setDefaultParent (label : Option String)
  | pass (ms : Nat)

def call? (p : Pool) (place : Nat) : Option Underway := p.calls[place]?.join

/-- calls that have not ended -/
def underway (p : Pool) : List Underway := p.calls.filterMap id

/-- no call is under way -/
def IsIdle (p : Pool) : Prop := p.underway = []

instance (p : Pool) : Decidable p.IsIdle := inferInstanceAs (Decidable (_ = _))

/-- no call but the one at the place holds the lock -/
def isFree (p : Pool) (place : Nat) : Bool :=
  p.calls.zipIdx.all fun (u, k) => k == place || !(u.any fun u => u.call.holdsLock)

def enter (p : Pool) (c : Call) : Pool := { p with calls := p.calls ++ [some { call := c }] }

/-- the call at the place puts its query -/
def pose (p : Pool) (place : Nat) (c : Call) : Pool :=
  { p with
    calls := p.calls.set place (some ⟨c, true⟩)
    trace := p.trace ++ [.asked (c.query p.registry)] }

/-- the step of a call, whatever the others do -/
def advance (p : Pool) (place : Nat) (c : Call) (reply : Reply) : Pool :=
  let s := c.advance p.registry { reply with now := p.now }
  { p with
    registry := s.registry
    calls := p.calls.set place (s.next.underway? c)
    evictions := p.evictions ++ s.effects.filterMap (Effect.eviction? p.now)
    trace := p.trace ++ s.effects.map .did ++ s.next.marks place }

def step (p : Pool) : Move → Pool
  | .enter c => if c.IsNew p.registry then p.enter c else p
  | .ask place =>
    match p.call? place with
    | some ⟨c, false⟩ =>
      if c.query p.registry = .nothing then p else p.pose place c
    | _ => p
  | .step place reply =>
    match p.call? place with
    | some ⟨c, asking⟩ =>
      if (asking || c.query p.registry == .nothing) && (!c.needsLock || p.isFree place) then
        p.advance place c reply
      else p
    | none => p
  | .evict place =>
    match p.evictions[place]? with
    | some (i, due) =>
      if due ≤ p.now then { p with evictions := p.evictions.eraseIdx place }.enter (.remove (.expiry i)) else p
    | none => p
  | .reorder cache =>
    if cache.Perm p.registry.cache then { p with registry := { p.registry with cache } } else p
  | .addHook h => { p with registry := { p.registry with hooks := p.registry.hooks ++ [h] } }
  | .setDefaultParent label => { p with registry := { p.registry with defaultParent := label } }
  | .pass ms => { p with now := p.now + ms }

def run (p : Pool) (ms : List Move) : Pool := ms.foldl step p

/-- a pool with a new registry -/
def new (timeout : Nat) : Pool := { registry := { timeout } }

/-- the pool comes about from a new registry by some moves -/
def Reachable (p : Pool) : Prop := ∃ timeout ms, p = (new timeout).run ms

end Pool

end Redeploy
