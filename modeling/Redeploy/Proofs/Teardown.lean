/-
Exactly-once teardown of the records that are taken out of the cache.

A removal takes records out in one step and tears them down one after the other in many, between which any other calls
happen. `owing` is what the removals under way still have to do. Three laws hold of every record at every moment, and
each says that it was taken out of the cache as often as (0 or 1):
- it was told about, or some removal has still to tell about it;
- the release of its context was asked for, or some removal has still to ask for it;
- the release was claimed, or some removal has still to claim it.
When no call is under way nothing is owed, so what is left of the laws is the count.

Results:
- `Accounts`, `accounts_step`: the laws, and that every move keeps them;
- `Reachable.made`: the contexts made are those of the records, each made once;
- `undeployed_run`: a record that was torn down stays so;
- **`teardown_exactly_once`**: at rest every record ever made either serves, and nobody was told that it is gone, or is
  torn down, and was told about once and released once.
-/
import Redeploy.Proofs.Pool

namespace Redeploy

open Registry

/-! ## What a removal owes -/

namespace RemovalPoint

/-- records that the sink was not told about; it was told about the first of `telling` once the query is put -/
def untold (asking : Bool) : RemovalPoint → List RecordId
  | .telling queue => if asking then queue.tail else queue
  | .hooking _ queue => queue.tail
  | .releasing queue => queue.tail
  | _ => []

/-- records whose context was not told to release what it holds -/
def unfreed (asking : Bool) : RemovalPoint → List RecordId
  | .telling queue => queue
  | .hooking _ queue => queue
  | .releasing queue => if asking then queue.tail else queue
  | _ => []

/-- records whose release is not claimed -/
def unclaimed (_ : Bool) : RemovalPoint → List RecordId
  | .telling queue => queue
  | .hooking _ queue => queue
  | .releasing queue => queue.tail
  | _ => []

/-- a point at which nothing is torn down owes nothing -/
theorem owes_nil {p : RemovalPoint} (hp : p.queue = []) (asking : Bool) :
    p.untold asking = [] ∧ p.unfreed asking = [] ∧ p.unclaimed asking = [] := by
  cases p <;> simp_all [queue, untold, unfreed, unclaimed]

end RemovalPoint

namespace Underway

/-- what the call owes, if `due` is what a removal owes -/
def owes (due : Bool → RemovalPoint → List RecordId) (u : Underway) : List RecordId :=
  match u.call with
  | .removal _ _ p => due u.asking p
  | _ => []

/-- a call that is about no record owes nothing -/
theorem owes_of_names {u : Underway} (h : u.call.names = []) :
    u.owes RemovalPoint.untold = [] ∧ u.owes RemovalPoint.unfreed = [] ∧ u.owes RemovalPoint.unclaimed = [] := by
  obtain ⟨c, asking⟩ := u
  cases c with
  | removal cause total p =>
    have hq : p.queue = [] := List.eq_nil_iff_forall_not_mem.2 fun i hi => by
      simpa [h] using Call.queue_subset_names cause total p i hi
    exact RemovalPoint.owes_nil hq asking
  | _ => exact ⟨rfl, rfl, rfl⟩

end Underway

/-- what the call owes after the step, if it has not ended -/
def Next.owes (due : Bool → RemovalPoint → List RecordId) (c : Call) (n : Next) : List RecordId :=
  (n.underway? c).elim [] (Underway.owes due)

namespace Call.Removes

variable {g : Registry} {c : Cause} {total : Nat} {p : RemovalPoint} {gone claimed : List RecordId} {s : Step}

/-- a removal that goes on to tear down a queue owes everything to all that are in it -/
theorem owes_tearDown (g : Registry) (c : Cause) (total : Nat) (before : List Effect) (queue : List RecordId)
    (c' : Call) :
    (tearDown g c total before queue).next.owes RemovalPoint.untold c' = queue ∧
      (tearDown g c total before queue).next.owes RemovalPoint.unfreed c' = queue ∧
      (tearDown g c total before queue).next.owes RemovalPoint.unclaimed c' = queue := by
  cases queue with
  | nil => exact ⟨rfl, rfl, rfl⟩
  | cons i rest => exact ⟨rfl, rfl, rfl⟩

/-- before its next step a removal has told about the first record, and has still to free it -/
theorem owes_isFor {i : RecordId} {rest : List RecordId} (hp : p.IsFor i rest) {asking : Bool}
    (hready : asking = true ∨ (removal c total p).query g = .nothing) :
    p.untold asking = rest ∧ p.unfreed asking = i :: rest ∧ p.unclaimed asking = i :: rest := by
  rcases hp with rfl | ⟨hooks, rfl⟩
  · rcases hready with rfl | h
    · exact ⟨rfl, rfl, rfl⟩
    · cases h
  · exact ⟨rfl, rfl, rfl⟩

/-- what a removal owes after a step: what it owed before and what it owes to the records just taken out; it has
claimed a part of it -/
theorem owes (h : Removes g c total p gone claimed s) {asking : Bool}
    (hready : asking = true ∨ (removal c total p).query g = .nothing)
    (hun : ∀ i ∈ p.unclaimed asking, (g.record i).released = false) :
    s.next.owes RemovalPoint.untold (removal c total p) = p.untold asking ++ gone ∧
      s.next.owes RemovalPoint.unfreed (removal c total p) = p.unfreed asking ++ gone ∧
      claimed ++ s.next.owes RemovalPoint.unclaimed (removal c total p) = p.unclaimed asking ++ gone := by
  cases h with
  | check hp hb =>
    have hq : p.queue = [] := by rcases hp with ⟨rfl, -⟩ | ⟨left, gone, rfl⟩ <;> rfl
    obtain ⟨h₁, h₂, h₃⟩ := RemovalPoint.owes_nil hq asking
    rw [h₁, h₂, h₃]
    exact ⟨rfl, rfl, rfl⟩
  | drain hp hb =>
    obtain ⟨h₁, h₂, h₃⟩ := RemovalPoint.owes_nil hp asking
    rw [h₁, h₂, h₃]
    exact owes_tearDown ..
  | hook hp hb =>
    obtain ⟨h₁, h₂, h₃⟩ := owes_isFor hp hready
    rw [h₁, h₂, h₃]
    simp [Next.owes, Next.underway?, Underway.owes, RemovalPoint.untold, RemovalPoint.unfreed, RemovalPoint.unclaimed]
  | claim hp hr hb =>
    obtain ⟨h₁, h₂, h₃⟩ := owes_isFor hp hready
    rw [h₁, h₂, h₃]
    simp [Next.owes, Next.underway?, Underway.owes, RemovalPoint.untold, RemovalPoint.unfreed, RemovalPoint.unclaimed]
  | @skip _ i rest before hp hr hb =>
    -- only this removal could have claimed the release of the record, and it has not
    obtain ⟨-, -, h₃⟩ := owes_isFor hp hready
    have hun := hun i (by simp [h₃])
    rw [hr] at hun
    cases hun
  | @next i rest before hb =>
    rcases hready with rfl | h
    · simpa [RemovalPoint.untold, RemovalPoint.unfreed, RemovalPoint.unclaimed]
        using owes_tearDown g c total before rest _
    · cases h

end Call.Removes

/-! ## What was seen -/

/-- the record that a sink is told about -/
def Mark.told? : Mark → Option RecordId
  | .asked (.undeployed i _) => some i
  | _ => none

/-- the record that a hook is told about -/
def Mark.hooked? : Mark → Option RecordId
  | .asked (.hook _ i _) => some i
  | _ => none

/-- the record whose context is told to release what it holds -/
def Mark.freed? : Mark → Option RecordId
  | .asked (.release i) => some i
  | _ => none

/-- the record for which a context was made -/
def Mark.made? : Mark → Option RecordId
  | .did (.create i _) => some i
  | _ => none

/-- a query to a sink or a context pays what it is about, and no other query pays anything -/
theorem Call.query_pays (g : Registry) (c : Call) :
    Underway.owes RemovalPoint.untold ⟨c, false⟩ =
        (Mark.told? (.asked (c.query g))).toList ++ Underway.owes RemovalPoint.untold ⟨c, true⟩ ∧
      Underway.owes RemovalPoint.unfreed ⟨c, false⟩ =
        (Mark.freed? (.asked (c.query g))).toList ++ Underway.owes RemovalPoint.unfreed ⟨c, true⟩ ∧
      ∀ i, Mark.hooked? (.asked (c.query g)) = some i → i ∈ Underway.owes RemovalPoint.unclaimed ⟨c, true⟩ := by
  have hnone (q : Query) (ht : Mark.told? (.asked q) = none) (hf : Mark.freed? (.asked q) = none)
      (hh : Mark.hooked? (.asked q) = none) (l m : List RecordId) :
      l = (Mark.told? (.asked q)).toList ++ l ∧ m = (Mark.freed? (.asked q)).toList ++ m ∧
        ∀ i, Mark.hooked? (.asked q) = some i → i ∈ ([] : List RecordId) := by
    simp [ht, hf, hh]
  cases c with
  | request q report p =>
    cases p with
    | resolving i p => cases p <;> exact hnone _ rfl rfl rfl [] []
    | _ => exact hnone _ rfl rfl rfl [] []
  | lookup i a p => cases p <;> exact hnone _ rfl rfl rfl [] []
  | start checked => exact hnone _ rfl rfl rfl [] []
  | removal cause total p =>
    cases p with
    | starting => exact hnone _ rfl rfl rfl [] []
    | checking left gone => cases left <;> exact hnone _ rfl rfl rfl [] []
    | telling queue =>
      cases queue with
      | nil => exact hnone _ rfl rfl rfl [] []
      | cons i rest => exact ⟨rfl, rfl, fun j hj => by cases hj⟩
    | hooking hooks queue =>
      cases queue with
      | nil => cases hooks <;> exact hnone _ rfl rfl rfl [] []
      | cons i rest =>
        cases hooks with
        | nil => exact ⟨rfl, rfl, fun j hj => by cases hj⟩
        | cons hook hooks =>
          refine ⟨rfl, rfl, ?_⟩
          intro j hj
          cases hj
          exact List.mem_cons_self
    | releasing queue =>
      cases queue with
      | nil => exact hnone _ rfl rfl rfl [] []
      | cons i rest => exact ⟨rfl, rfl, fun j hj => by cases hj⟩

namespace Pool

/-- records that the sink was told are undeployed, as often as it was -/
def told (p : Pool) : List RecordId := p.trace.filterMap Mark.told?

def hooked (p : Pool) : List RecordId := p.trace.filterMap Mark.hooked?

def freed (p : Pool) : List RecordId := p.trace.filterMap Mark.freed?

/-- records in the order in which they were made -/
def made (p : Pool) : List RecordId := p.trace.filterMap Mark.made?

/-- what all calls under way owe -/
def owing (due : Bool → RemovalPoint → List RecordId) (p : Pool) : List RecordId :=
  p.calls.flatMap fun u => u.elim [] (Underway.owes due)

theorem owing_enter {due : Bool → RemovalPoint → List RecordId} {p : Pool} {c : Call}
    (hc : Underway.owes due { call := c } = []) : (p.enter c).owing due = p.owing due := by
  simp [owing, Pool.enter, hc]

/-- what is counted over all calls after the call at a place was replaced -/
theorem count_flatMap_set {f : Underway → List RecordId} {calls : List (Option Underway)} {k : Nat} {u : Underway}
    (hk : calls[k]? = some (some u)) (x : Option Underway) (i : RecordId) :
    ((calls.set k x).flatMap fun u => u.elim [] f).count i + (f u).count i =
      (calls.flatMap fun u => u.elim [] f).count i + (x.elim [] f).count i := by
  induction calls generalizing k with
  | nil => cases hk
  | cons y calls ih =>
    cases k with
    | zero =>
      obtain rfl : y = some u := by simpa using hk
      simp only [List.set_cons_zero, List.flatMap_cons, List.count_append, Option.elim_some]
      omega
    | succ k =>
      have ih := ih (k := k) (by simpa using hk)
      simp only [List.set_cons_succ, List.flatMap_cons, List.count_append] at ih ⊢
      omega

theorem count_owing_advance {p : Pool} {k : Nat} {u : Underway} (hc : p.call? k = some u) (reply : Reply)
    (due : Bool → RemovalPoint → List RecordId) (i : RecordId) :
    ((p.advance k u.call reply).owing due).count i + (u.owes due).count i = (p.owing due).count i +
      ((u.call.advance p.registry { reply with now := p.now }).next.owes due u.call).count i :=
  count_flatMap_set (call?_eq_some.1 hc) _ i

theorem count_owing_pose {p : Pool} {k : Nat} {c : Call} (hc : p.call? k = some ⟨c, false⟩)
    (due : Bool → RemovalPoint → List RecordId) (i : RecordId) :
    ((p.pose k c).owing due).count i + (Underway.owes due ⟨c, false⟩).count i =
      (p.owing due).count i + (Underway.owes due ⟨c, true⟩).count i :=
  count_flatMap_set (call?_eq_some.1 hc) _ i

/-! ## The laws -/

/-- for each record: what was seen of it and what is still owed to it add up to one if it was taken out, and to nothing
if not -/
def Law (p : Pool) (view : Mark → Option RecordId) (due : Bool → RemovalPoint → List RecordId) : Prop :=
  ∀ i, (p.trace.filterMap view).count i + (p.owing due).count i = (p.registry.record i).isUndeployed.toNat

structure Accounts (p : Pool) : Prop where
  told : p.Law Mark.told? RemovalPoint.untold
  freed : p.Law Mark.freed? RemovalPoint.unfreed
  claimed : ∀ i, (p.registry.record i).released.toNat + (p.owing RemovalPoint.unclaimed).count i =
    (p.registry.record i).isUndeployed.toNat
  hooked : ∀ i ∈ p.hooked, (p.registry.record i).isUndeployed = true

/-- a step of a call leaves no mark of a teardown -/
theorem marks_advance {β : Type} (p : Pool) (k : Nat) (c : Call) (reply : Reply) {view : Mark → Option β}
    (hdid : ∀ e, view (.did e) = none) (hret : ∀ j o, view (.returned j o) = none) :
    (p.advance k c reply).trace.filterMap view = p.trace.filterMap view := by
  have hmarks : ∀ n : Next, (n.marks k).filterMap view = [] := by
    intro n
    cases n <;> simp [Next.marks, hret]
  simp [Pool.advance, List.filterMap_append, hmarks, List.filterMap_map, hdid]

theorem marks_pose {β : Type} (p : Pool) (k : Nat) (c : Call) (view : Mark → Option β) :
    (p.pose k c).trace.filterMap view =
      p.trace.filterMap view ++ (view (.asked (c.query p.registry))).toList := by
  cases hv : view (.asked (c.query p.registry)) <;> simp [Pool.pose, List.filterMap_append, hv]

/-- a step that takes records out and owes as much more keeps the law -/
theorem Law.advance {p : Pool} {view : Mark → Option RecordId} {due : Bool → RemovalPoint → List RecordId}
    (h : p.Law view due) (hdid : ∀ e, view (.did e) = none) (hret : ∀ j o, view (.returned j o) = none) {k : Nat}
    {u : Underway} (hc : p.call? k = some u) {reply : Reply} {gone : List RecordId}
    (hgone : ∀ i, ((p.advance k u.call reply).registry.record i).isUndeployed.toNat =
      (p.registry.record i).isUndeployed.toNat + gone.count i)
    (howes : (u.call.advance p.registry { reply with now := p.now }).next.owes due u.call = u.owes due ++ gone) :
    (p.advance k u.call reply).Law view due := by
  intro i
  have hlaw := h i
  have hset := count_owing_advance hc reply due i
  rw [howes, List.count_append] at hset
  rw [marks_advance p k u.call reply hdid hret, hgone]
  omega

/-- a query that pays what it is about keeps the law -/
theorem Law.pose {p : Pool} {view : Mark → Option RecordId} {due : Bool → RemovalPoint → List RecordId}
    (h : p.Law view due) {k : Nat} {c : Call} (hc : p.call? k = some ⟨c, false⟩)
    (hpays : Underway.owes due ⟨c, false⟩ =
      (view (.asked (c.query p.registry))).toList ++ Underway.owes due ⟨c, true⟩) : (p.pose k c).Law view due := by
  intro i
  have hlaw := h i
  have hset := count_owing_pose hc due i
  rw [hpays, List.count_append] at hset
  rw [marks_pose, List.count_append]
  show _ = (p.registry.record i).isUndeployed.toNat
  omega

theorem Law.enter {p : Pool} {view : Mark → Option RecordId} {due : Bool → RemovalPoint → List RecordId}
    (h : p.Law view due) {c : Call} (hc : Underway.owes due { call := c } = []) : (p.enter c).Law view due := by
  intro i
  rw [owing_enter hc]
  exact h i

/-- what a call has still to claim was taken out -/
theorem Accounts.undeployed {p : Pool} (h : p.Accounts) {k : Nat} {u : Underway} (hc : p.call? k = some u)
    {i : RecordId} (hi : i ∈ u.owes RemovalPoint.unclaimed) :
    (p.registry.record i).isUndeployed = true ∧ (p.registry.record i).released = false := by
  have hmem : i ∈ p.owing RemovalPoint.unclaimed :=
    List.mem_flatMap.2 ⟨some u, List.mem_of_getElem? (call?_eq_some.1 hc), hi⟩
  have hpos := List.count_pos_iff.2 hmem
  have hlaw := h.claimed i
  cases hu : (p.registry.record i).isUndeployed <;> cases hr : (p.registry.record i).released <;>
    simp only [hu, hr, Bool.toNat_true, Bool.toNat_false] at hlaw <;> first | omega | exact ⟨rfl, rfl⟩

/-- what a call owes after a step of it, beside what was taken out and claimed -/
theorem Accounts.owes {p : Pool} (h : p.Accounts) {k : Nat} {u : Underway} (hc : p.call? k = some u)
    (hready : u.asking = true ∨ u.call.query p.registry = .nothing) {reply : Reply} {born : Nat}
    {gone claimed : List RecordId} {s : Step} (hd : Call.Does p.registry reply u.call born gone claimed s)  :
    s.next.owes RemovalPoint.untold u.call = u.owes RemovalPoint.untold ++ gone ∧
      s.next.owes RemovalPoint.unfreed u.call = u.owes RemovalPoint.unfreed ++ gone ∧
      claimed ++ s.next.owes RemovalPoint.unclaimed u.call = u.owes RemovalPoint.unclaimed ++ gone := by
  obtain ⟨c, asking⟩ := u
  cases hd with
  | found ha => exact ⟨rfl, rfl, rfl⟩
  | @remove cause total pt gone claimed s hr =>
    -- what the removal has still to claim is not released, by the third law
    exact hr.owes hready fun i hi => (h.undeployed hc hi).2
  | other hc he hb hn =>
    have hnames : c.names = [] := by
      cases c with
      | removal cause total p => exact absurd rfl (hc cause total p)
      | _ => rfl
    have hnow : ∀ b, _ := fun b => Underway.owes_of_names (u := ⟨c, b⟩) hnames
    obtain ⟨h₁, h₂, h₃⟩ := hnow asking
    rw [h₁, h₂, h₃]
    cases hnext : s.next with
    | go c' => exact Underway.owes_of_names (u := ⟨c', false⟩) (hn c' hnext)
    | wait => exact hnow false
    | done o => exact ⟨rfl, rfl, rfl⟩

theorem accounts_advance {p : Pool} (h : p.Accounts) (hs : p.Sound) {k : Nat} {u : Underway}
    (hc : p.call? k = some u) (hready : u.asking = true ∨ u.call.query p.registry = .nothing) (reply : Reply) :
    (p.advance k u.call reply).Accounts := by
  obtain ⟨born, gone, claimed, hd⟩ := hs.does hc reply
  have he := hd.evolves hs.coherent (hs.named k u hc)
  obtain ⟨h₁, h₂, h₃⟩ := h.owes hc hready hd
  have hgone := he.count_gone hs.coherent
  refine ⟨h.told.advance (fun _ => rfl) (fun _ _ => rfl) hc hgone h₁,
    h.freed.advance (fun _ => rfl) (fun _ _ => rfl) hc hgone h₂, ?_, ?_⟩
  · intro i
    have hlaw := h.claimed i
    have hset := count_owing_advance hc reply RemovalPoint.unclaimed i
    have h₃ := congrArg (List.count i) h₃
    rw [List.count_append, List.count_append] at h₃
    show ((u.call.advance p.registry _).registry.record i).released.toNat + _ =
      ((u.call.advance p.registry _).registry.record i).isUndeployed.toNat
    rw [he.count_claimed, hgone]
    omega
  · intro i hi
    rw [Pool.hooked, marks_advance p k u.call reply (fun _ => rfl) (fun _ _ => rfl)] at hi
    exact (he.undeployed i).2 (.inl (h.hooked i hi))

theorem accounts_pose {p : Pool} (h : p.Accounts) {k : Nat} {c : Call} (hc : p.call? k = some ⟨c, false⟩) :
    (p.pose k c).Accounts := by
  obtain ⟨h₁, h₂, h₃⟩ := Call.query_pays p.registry c
  refine ⟨h.told.pose hc h₁, h.freed.pose hc h₂, ?_, ?_⟩
  · intro i
    have hlaw := h.claimed i
    have hset := count_owing_pose hc RemovalPoint.unclaimed i
    rw [show Underway.owes RemovalPoint.unclaimed ⟨c, false⟩ = Underway.owes RemovalPoint.unclaimed ⟨c, true⟩ by
      cases c <;> rfl] at hset
    show (p.registry.record i).released.toNat + _ = (p.registry.record i).isUndeployed.toNat
    omega
  · intro i hi
    rw [Pool.hooked, marks_pose, List.mem_append, Option.mem_toList] at hi
    rcases hi with hi | hi
    · exact h.hooked i hi
    · have hdue := h₃ i hi
      refine (h.undeployed hc (i := i) ?_).1
      cases c <;> exact hdue

theorem accounts_enter {p : Pool} (h : p.Accounts) {c : Call}
    (hc : Underway.owes RemovalPoint.untold { call := c } = [] ∧ Underway.owes RemovalPoint.unfreed { call := c } = [] ∧
      Underway.owes RemovalPoint.unclaimed { call := c } = []) : (p.enter c).Accounts := by
  obtain ⟨h₁, h₂, h₃⟩ := hc
  refine ⟨h.told.enter h₁, h.freed.enter h₂, ?_, h.hooked⟩
  intro i
  rw [owing_enter h₃]
  exact h.claimed i

theorem accounts_step {p : Pool} (h : p.Accounts) (hs : p.Sound) (m : Move) : (p.step m).Accounts := by
  have hm := step_moved p m
  generalize p.step m = p' at hm
  cases hm with
  | enter hc => exact accounts_enter h (Underway.owes_of_names (u := { call := _ }) (names_of_isNew hc))
  | ask hc hq => exact accounts_pose h hc
  | step hc hready hlock => exact accounts_advance h hs hc hready _
  | @evict k i due he hdue =>
    have hp : Accounts { p with evictions := p.evictions.eraseIdx k } := ⟨h.told, h.freed, h.claimed, h.hooked⟩
    exact accounts_enter hp ⟨rfl, rfl, rfl⟩
  | aside hm ha =>
    obtain ⟨h₁, h₂, h₃, h₄⟩ := h
    constructor <;> simp only [Law, Pool.hooked, owing, ha.trace, ha.calls, ha.record]
    · exact h₁
    · exact h₂
    · exact h₃
    · exact h₄
  | idle => exact h

theorem accounts_new (timeout : Nat) : (new timeout).Accounts := by
  have hrec : ∀ i, (new timeout).registry.record i = default := fun i => record_eq_default (Nat.zero_le i)
  refine ⟨?_, ?_, ?_, ?_⟩
  · intro i
    rw [hrec]
    rfl
  · intro i
    rw [hrec]
    rfl
  · intro i
    rw [hrec]
    rfl
  · intro i hi
    cases hi

theorem Reachable.accounts {p : Pool} (hp : p.Reachable) : p.Accounts :=
  hp.induct accounts_new fun _ m hr h => accounts_step h hr.sound m

/-! ## The records made -/

theorem made_step {p : Pool} (hs : p.Sound) (h : p.made = List.range p.registry.records.length) (m : Move) :
    (p.step m).made = List.range (p.step m).registry.records.length := by
  have hm := step_moved p m
  generalize p.step m = p' at hm
  cases hm with
  | ask hc hq =>
    simp only [made, Pool.pose, List.filterMap_append] at h ⊢
    simp [h, Mark.made?]
  | @step k u reply hc hready hlock =>
    obtain ⟨born, gone, claimed, hd⟩ := hs.does hc reply
    have he := hd.evolves hs.coherent (hs.named k u hc)
    have hcreated := hd.created hs.coherent
    have hmarks : ∀ n : Next, (n.marks k).filterMap Mark.made? = [] := by
      intro n
      cases n <;> rfl
    have hdid : ∀ es : List Effect, (es.map Mark.did).filterMap Mark.made? = es.filterMap Effect.created? := by
      intro es
      rw [List.filterMap_map]
      congr 1
      funext e
      cases e <;> rfl
    simp only [made] at h
    simp only [made, Pool.advance, List.filterMap_append, hmarks, hdid, hcreated, he.length, h, List.append_nil]
    simpa [List.range_eq_range'] using @List.range'_append_1 0 p.registry.records.length born
  | aside hm ha => simp only [made, ha.trace, ha.records]; exact h
  | _ => exact h

theorem Reachable.made {p : Pool} (hp : p.Reachable) : p.made = List.range p.registry.records.length :=
  hp.induct (fun _ => rfl) fun _ m hr h => made_step hr.sound h m

/-! ## What does not come back -/

theorem undeployed_step {p : Pool} (hs : p.Sound) {i : RecordId} (h : (p.registry.record i).isUndeployed = true)
    (m : Move) : ((p.step m).registry.record i).isUndeployed = true := by
  have hm := step_moved p m
  generalize p.step m = p' at hm
  cases hm with
  | @step k u reply hc hready hlock =>
    obtain ⟨born, gone, claimed, hd⟩ := hs.does hc reply
    exact ((hd.evolves hs.coherent (hs.named k u hc)).undeployed i).2 (.inl h)
  | aside hm ha => rw [ha.record]; exact h
  | _ => exact h

theorem undeployed_run {p : Pool} (hp : p.Reachable) {i : RecordId} (h : (p.registry.record i).isUndeployed = true)
    (ms : List Move) : ((p.run ms).registry.record i).isUndeployed = true := by
  induction ms using List.reverseRecOn with
  | nil => exact h
  | append_singleton ms m ih =>
    rw [run_append]
    exact undeployed_step (hp.run ms).sound ih m

/-! ## At rest -/

/-- the record answers requests, under its own identifier alone, and nobody was told that it is gone -/
structure Serves (p : Pool) (i : RecordId) : Prop where
  cached : ∀ d, (d, i) ∈ p.registry.cache ↔ d = (p.registry.record i).id
  state : (p.registry.record i).state = .active ∨ (p.registry.record i).state = .pendingUndeploy
  untold : i ∉ p.told
  unhooked : i ∉ p.hooked
  unfreed : i ∉ p.freed

/-- the record answers nothing, and everything was done once that is done when it goes -/
structure TornDown (p : Pool) (i : RecordId) : Prop where
  uncached : ∀ d, (d, i) ∉ p.registry.cache
  state : (p.registry.record i).state = .undeployed
  told : p.told.count i = 1
  freed : p.freed.count i = 1

theorem owing_of_isIdle {p : Pool} (h : p.IsIdle) (due : Bool → RemovalPoint → List RecordId) : p.owing due = [] := by
  refine List.flatMap_eq_nil_iff.2 ?_
  intro u hu
  cases u with
  | none => rfl
  | some u =>
    have hmem : u ∈ p.underway := List.mem_filterMap.2 ⟨some u, hu, rfl⟩
    rw [h] at hmem
    cases hmem

theorem serves_of_isIdle {p : Pool} (hs : p.Sound) (h : p.Accounts) (hidle : p.IsIdle) {i : RecordId}
    (hi : i < p.registry.records.length) (hu : (p.registry.record i).isUndeployed = false) : p.Serves i := by
  have htold := h.told i
  have hfreed := h.freed i
  simp only [owing_of_isIdle hidle, hu, List.count_nil, Bool.toNat_false, Nat.add_zero] at htold hfreed
  refine ⟨?_, ?_, List.count_eq_zero.1 htold, ?_, List.count_eq_zero.1 hfreed⟩
  · intro d
    rw [hs.coherent.mem_iff, ← hs.coherent.alive i hi]
    exact ⟨fun h => h.2.symm, fun h => ⟨hu, h.symm⟩⟩
  · unfold Record.isUndeployed at hu
    cases hst : (p.registry.record i).state with
    | active => exact .inl rfl
    | pendingUndeploy => exact .inr rfl
    | undeployed => simp [hst] at hu
  · intro hh
    rw [h.hooked i hh] at hu
    cases hu

theorem tornDown_of_isIdle {p : Pool} (hs : p.Sound) (h : p.Accounts) (hidle : p.IsIdle) {i : RecordId}
    (hu : (p.registry.record i).isUndeployed = true) : p.TornDown i := by
  have htold := h.told i
  have hfreed := h.freed i
  simp only [owing_of_isIdle hidle, hu, List.count_nil, Bool.toNat_true, Nat.add_zero] at htold hfreed
  refine ⟨?_, by simpa [Record.isUndeployed] using hu, htold, hfreed⟩
  intro d hd
  have hnot := hs.coherent.not_undeployed ⟨d, hd⟩
  rw [hu] at hnot
  cases hnot

/-- **exactly-once teardown**: whenever no call is under way, every record ever made either serves or is torn down, and
not both; the cache holds no others. Each was made once, and one that is torn down answers nothing ever after. -/
theorem teardown_exactly_once {p : Pool} (hp : p.Reachable) (hidle : p.IsIdle) :
    (∀ i ∈ p.made, Xor (p.Serves i) (p.TornDown i)) ∧ p.made.Nodup ∧ (∀ e ∈ p.registry.cache, e.2 ∈ p.made) ∧
      ∀ i, p.TornDown i → ∀ ms, ((p.run ms).registry.record i).state = .undeployed ∧
        (∀ d, (d, i) ∉ (p.run ms).registry.cache) ∧ ((p.run ms).IsIdle → (p.run ms).TornDown i) := by
  have hs := hp.sound
  have hmade := hp.made
  refine ⟨?_, ?_, ?_, ?_⟩
  · intro i hi
    rw [hmade, List.mem_range] at hi
    cases hu : (p.registry.record i).isUndeployed with
    | false =>
      have hserves := serves_of_isIdle hs hp.accounts hidle hi hu
      refine .inl ⟨hserves, fun h => h.uncached _ ((hserves.cached _).2 rfl)⟩
    | true =>
      have htorn := tornDown_of_isIdle hs hp.accounts hidle hu
      refine .inr ⟨htorn, fun h => htorn.uncached _ ((h.cached _).2 rfl)⟩
  · rw [hmade]
    exact List.nodup_range
  · intro e he
    rw [hmade, List.mem_range]
    exact hs.coherent.bound e he
  · intro i hi ms
    have hu : (p.registry.record i).isUndeployed = true := by simp [Record.isUndeployed, hi.state]
    have hlater := undeployed_run hp hu ms
    have hs' := (hp.run ms).sound
    refine ⟨by simpa [Record.isUndeployed] using hlater, ?_, ?_⟩
    · intro d hd
      have hnot := hs'.coherent.not_undeployed ⟨d, hd⟩
      rw [hlater] at hnot
      cases hnot
    · intro hidle'
      exact tornDown_of_isIdle hs' (hp.run ms).accounts hidle' hlater

/-- one sender departs after its request, a hook being registered, and another sender's request follows -/
theorem teardown_of_departed :
    let x : Request := { id := ⟨"x"⟩, sender := ⟨"s"⟩, seq := 1, moduleAlias := "a" }
    let y : Request := { id := ⟨"y"⟩, sender := ⟨"t"⟩, seq := 1, moduleAlias := "a" }
    let p := (new 100).run
      (.addHook 7 :: .enter (.request x true .entering) :: turns 0 { module := .ok ⟨"m", false⟩ } 8 ++
        .enter (.remove (.departure ⟨"s"⟩)) :: turns 1 {} 4 ++
        .enter (.request y true .entering) :: turns 2 { module := .ok ⟨"m", false⟩ } 8)
    p.Reachable ∧ p.IsIdle ∧ p.TornDown 0 ∧ p.Serves 1 := by
  intro x y p
  have hp : p.Reachable := ⟨100, _, rfl⟩
  have hidle : p.IsIdle := by decide +kernel
  have h := (teardown_exactly_once hp hidle).1
  refine ⟨hp, hidle, ?_, ?_⟩
  · rcases h 0 (by decide +kernel) with ⟨hs, -⟩ | ⟨ht, -⟩
    · exact absurd hs.untold (by decide +kernel)
    · exact ht
  · rcases h 1 (by decide +kernel) with ⟨hs, -⟩ | ⟨ht, -⟩
    · exact hs
    · exact absurd ht.told (by decide +kernel)

end Pool

end Redeploy
