/-
The registry of deployments and its critical sections: what happens to it in one piece, while its lock is held.

Every record ever made stays in `records`; its place there is its identity. `cache` holds the records that answer
requests, in the order in which an enumeration meets them. The critical sections are the decision about a request
(`decide`), the entry of a new record (`install`), and the removals (`drain`, `expire`).
-/
import Redeploy.Notice

namespace Redeploy

/-- identity of a record: its place among all records ever made -/
abbrev RecordId := Nat

structure Registry where
  /-- in milliseconds: how long superseded records stay and how long late requests are served -/
  timeout : Nat
  records : List Record := []
  cache : List (DeploymentId × RecordId) := []
  /-- no further deployments -/
  stopped : Bool := false
  /-- a listener was started -/
  started : Bool := false
  /-- listeners are told to end -/
  cancelled : Bool := false
  /-- undeploy hooks in order of registration -/
  hooks : List Nat := []
  /-- parent of contexts whose request names none -/
  defaultParent : Option String := none
deriving DecidableEq, Repr, Inhabited

/-- an order to something outside the registry that it need not wait for -/
inductive Effect where
  | notice (n : Notice)
  /-- a context was made for the record -/
  | create (record : RecordId) (parent : Option String)
  /-- evict the record after `delay` ms -/
  | schedule (record : RecordId) (delay : Nat)
  /-- a listener follows membership changes from now on -/
  | subscribe
deriving DecidableEq, Repr

/-- what the decision about an unknown deployment found -/
structure Verdict where
  /-- active records that the request supersedes -/
  superseded : List RecordId := []
  /-- how long the late request is still served, in ms; 0 when it is not late -/
  grace : Nat := 0
deriving DecidableEq, Repr

/-- the outcome of the decision about a request -/
inductive Admission where
  | cached (record : RecordId)
  | fresh (verdict : Verdict)
deriving DecidableEq, Repr

namespace Registry

def record? (g : Registry) (i : RecordId) : Option Record := g.records[i]?

/-- the record with that identity; of no interest where there is none -/
def record (g : Registry) (i : RecordId) : Record := (g.record? i).getD default

def modify (g : Registry) (i : RecordId) (f : Record → Record) : Registry :=
  { g with records := g.records.modify i f }

/-- cached records with their identities, in the order of enumeration -/
def entries (g : Registry) : List (RecordId × Record) :=
  g.cache.filterMap fun (_, i) => (g.record? i).map (i, ·)

def lookup? (g : Registry) (d : DeploymentId) : Option RecordId := g.cache.lookup d

/-- cached records in the order of their identifiers -/
def listing (g : Registry) : List RecordId :=
  (g.cache.mergeSort fun a b => a.1.le b.1).map Prod.snd

def size (g : Registry) : Nat := g.cache.length

/-- what one cached record says about a request for a deployment that is not cached -/
def weigh (g : Registry) (q : Request) (now : Nat) (v : Verdict) (e : RecordId × Record) :
    Except Failure Verdict :=
  let (i, r) := e
  if r.sender = q.sender ∧ r.isActive then
    if r.seq < q.seq then
      if r.hasResolved q.moduleAlias then .ok { v with superseded := v.superseded ++ [i] } else .ok v
    else if q.seq < r.seq then
      if r.hasResolved q.moduleAlias then
        let age := now - r.createdAt
        if g.timeout ≤ age then .error (.obsolete q.moduleAlias)
        else .ok { v with grace := max v.grace (g.timeout - age) }
      else .ok v
    else .error (.sequenceMismatch q.seq r.id)
  else .ok v

/-- the decision about a request of a live sender, on a registry that is not stopped -/
def decide (g : Registry) (q : Request) (now : Nat) : Except Failure Admission :=
  match g.lookup? q.id with
  | some i =>
    let r := g.record i
    if r.seq = q.seq then .ok (.cached i) else .error (.sequenceMismatch q.seq r.id)
  | none => (g.entries.foldlM (g.weigh q now) {}).map .fresh

/-- mark the record pending and order its eviction; nothing unless the record is active -/
def supersede (g : Registry) (i : RecordId) (delay : Nat) : Registry × List Effect :=
  match (g.record i).advanceTo? .pendingUndeploy with
  | some r => (g.modify i fun _ => r, [.schedule i delay])
  | none => (g, [])

/-- supersede each of the records in turn on behalf of a request -/
def supersedeAll (g : Registry) (q : Request) : List RecordId → Registry × List Effect
  | [] => (g, [])
  | i :: rest =>
    let (g₁, e₁) := g.supersede i g.timeout
    let (g₂, e₂) := g₁.supersedeAll q rest
    (g₂, .notice (.superseding q (g.record i)) :: e₁ ++ e₂)

/-- enter a new record for the request, as the verdict says -/
def install (g : Registry) (q : Request) (v : Verdict) (now : Nat) (clock : Timestamp) :
    Registry × RecordId × List Effect :=
  let (g₁, superseding) := g.supersedeAll q v.superseded
  let late := if v.grace = 0 then [] else [Effect.notice (.stale q v.grace)]
  let i := g₁.records.length
  let r := Record.ofRequest q now clock
  let g₂ := { g₁ with records := g₁.records ++ [r], cache := g₁.cache ++ [(q.id, i)] }
  let (g₃, scheduling) := if v.grace = 0 then (g₂, []) else g₂.supersede i v.grace
  (g₃, i,
    superseding ++ late ++ [.create i (q.parent <|> g.defaultParent)] ++ scheduling ++ [.notice (.created r)])

/-- take the records that satisfy `p` out of the cache and mark them undeployed; they are returned in order -/
def drain (g : Registry) (p : RecordId → Record → Bool) : Registry × List RecordId :=
  let gone := (g.entries.filter fun (i, r) => p i r).map Prod.fst
  ({ g with
      cache := g.cache.filter fun (_, i) => !gone.contains i
      records := gone.foldl (fun rs i => rs.modify i (·.advanceTo .undeployed)) g.records }, gone)

/-- take one record out for good; `false` if it was undeployed already -/
def expire (g : Registry) (i : RecordId) : Registry × Bool :=
  match (g.record i).advanceTo? .undeployed with
  | some r =>
    let g₁ := g.modify i fun _ => r
    ({ g₁ with cache := if g.lookup? r.id = some i then g.cache.filter (·.1 != r.id) else g.cache }, true)
  | none => (g, false)

end Registry

end Redeploy
