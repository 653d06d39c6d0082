/-
The record of one deployment from one sender: who sent it, where it is in its life, and which modules have been
materialised from it.

A life only moves forward: active, pending undeploy (an eviction is scheduled), undeployed. Modules are kept in
cells. A cell is filled at most once and never emptied; `slots` says which cell an alias uses at present, so
that a caller who took hold of a cell keeps it even if the alias gets another one later.
-/
import Redeploy.Failure
import Redeploy.Timestamp

namespace Redeploy

/-- a materialised unit of code -/
structure Module where
  /-- fully qualified name -/
  name : String
  /-- task-like units are reported as tasks, all others as classes -/
  isTask : Bool := false
deriving DecidableEq, Repr, Inhabited

inductive Lifecycle where
  | active
  | pendingUndeploy
  | undeployed
deriving DecidableEq, Repr, Inhabited

namespace Lifecycle

def rank : Lifecycle → Nat
  | active => 0
  | pendingUndeploy => 1
  | undeployed => 2

/-- the name on the wire -/
def text : Lifecycle → String
  | active => "active"
  | pendingUndeploy => "pending_undeploy"
  | undeployed => "undeployed"

/-- the name in quoted descriptions -/
def describe : Lifecycle → String
  | active => "Active"
  | pendingUndeploy => "PendingUndeploy"
  | undeployed => "Undeployed"

def ofText? : String → Option Lifecycle
  | "active" => some active
  | "pending_undeploy" => some pendingUndeploy
  | "undeployed" => some undeployed
  | _ => none

end Lifecycle

/-- a place for one module -/
structure Cell where
  module : Option Module := none
  /-- a caller is materialising the module now; others wait -/
  busy : Bool := false
deriving DecidableEq, Repr, Inhabited

structure Record where
  id : DeploymentId
  sender : MemberId
  seq : UInt64
  version : String
  mode : Mode
  /-- when it was created, in milliseconds of the monotonic clock -/
  createdAt : Nat
  /-- when it was created, by the wall clock -/
  deployedAt : Timestamp
  state : Lifecycle := .active
  /-- the context was told to release what it holds -/
  released : Bool := false
  cells : List Cell := []
  /-- the cell that an alias uses -/
  slots : List (String × Nat) := []
deriving DecidableEq, Repr, Inhabited

namespace Record

/-- the record made for a request -/
def ofRequest (q : Request) (now : Nat) (clock : Timestamp) : Record :=
  { id := q.id, sender := q.sender, seq := q.seq, version := q.version, mode := q.mode, createdAt := now,
    deployedAt := clock }

def isActive (r : Record) : Bool := r.state == .active
def isPendingUndeploy (r : Record) : Bool := r.state == .pendingUndeploy
def isUndeployed (r : Record) : Bool := r.state == .undeployed

/-- the record in state `s`, unless it is there or past it already -/
def advanceTo? (r : Record) (s : Lifecycle) : Option Record :=
  if r.state.rank < s.rank then some { r with state := s } else none

/-- the record in state `s`, or where it was if that is further on -/
def advanceTo (r : Record) (s : Lifecycle) : Record := (r.advanceTo? s).getD r

/-- the module in a cell -/
def content? (r : Record) (cell : Nat) : Option Module := r.cells[cell]? >>= Cell.module

/-- the module materialised for the alias, if one has been -/
def module? (r : Record) (a : String) : Option Module := r.slots.lookup a >>= r.content?

def hasResolved (r : Record) (a : String) : Bool := (r.module? a).isSome

/-- materialised modules by alias, in the order of the aliases -/
def modules (r : Record) : List (String × Module) :=
  (r.slots.filterMap fun (a, cell) => (r.content? cell).map (a, ·)).mergeSort (fun a b => decide (a.1 ≤ b.1))

/-- the aliases with a module, in order -/
def aliases (r : Record) : List String := r.modules.map Prod.fst

/-- whether a materialised module answers to the name, by alias or by its own name -/
def hasName (r : Record) (name : String) : Bool :=
  r.slots.any fun (a, cell) => (r.content? cell).any fun m => a == name || m.name == name

/-- the alias's cell, made if there is none -/
def openSlot (r : Record) (a : String) : Record × Nat :=
  match r.slots.lookup a with
  | some cell => (r, cell)
  | none =>
    ({ r with cells := r.cells ++ [{}], slots := r.slots ++ [(a, r.cells.length)] }, r.cells.length)

/-- the record with the alias's slot removed if its present cell holds no module -/
def closeSlot (r : Record) (a : String) : Record :=
  if r.hasResolved a then r else { r with slots := r.slots.filter (·.1 != a) }

/-- the record with one cell changed -/
def setCell (r : Record) (cell : Nat) (c : Cell) : Record := { r with cells := r.cells.set cell c }

/-- the record as one line of text, `deployed` being the text for its time of deployment -/
def describe (r : Record) (deployed : String) : String :=
  "DeploymentRecord \x7b id: " ++ r.id.describe ++ ", sender_id: " ++ r.sender.describe ++
    ", sequence_number: " ++ toString r.seq ++ ", user_version: " ++ Text.quote r.version ++
    ", mode: " ++ r.mode.describe ++ ", state: " ++ r.state.describe ++ ", deployed_at: " ++ deployed ++
    ", aliases: [" ++ ", ".intercalate (r.aliases.map Text.quote) ++ "], .. \x7d"

end Record

end Redeploy
