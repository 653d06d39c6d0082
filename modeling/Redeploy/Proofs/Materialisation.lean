/-
How often a module is materialised, and who shares it.

Callers that resolve an alias share a cell. The first of them to succeed fills it, and is answered with a module that is
fresh; all who find the cell filled share that module. This is a law of cells, and it holds however calls interleave.

It is a law of aliases only as long as no slot is severed: a caller that fails removes the alias's slot if the cell there
is empty, also while another caller is having that very cell filled. What the other one makes is then in no slot, and who
comes next gets a fresh cell.

Results:
- `resolution_step`: what a move answers, and what it does to the record;
- `Looks.content?_next`, `Looks.module?_next`: a module comes to a cell, or to an alias, by a fresh answer only;
- `once_cell_run`, `once_alias_run`: the two laws, along a run;
- `severed_materialised_twice`: two callers have one alias materialised on one record;
- **`materialised_once`**: one fresh answer for a cell; one for an alias whose slot is not severed, and its module stays.
-/
import Redeploy.Proofs.Launch
import Redeploy.Proofs.Sink

namespace Redeploy

open Registry

/-- the answer to a call that resolves an alias: a module, in that cell, which the call has had made if it is fresh -/
structure Answer where
  record : RecordId
  moduleAlias : String
  cell : Nat
  module : Module
  fresh : Bool
deriving DecidableEq, Repr

/-- the answers that are asked for: their modules, with whether they were fresh -/
def given (asked : Answer → Bool) (l : List Answer) : List (Module × Bool) :=
  (l.filter asked).map fun e => (e.module, e.fresh)

theorem given_append (asked : Answer → Bool) (l l' : List Answer) :
    given asked (l ++ l') = given asked l ++ given asked l' := by
  simp [given]

namespace Answer

/-- the answer is what a cell of the record holds -/
def isFrom (i : RecordId) (cell : Nat) (e : Answer) : Bool := e.record == i && e.cell == cell

/-- the answer is what the alias was resolved to on the record -/
def isFor (i : RecordId) (a : String) (e : Answer) : Bool := e.record == i && e.moduleAlias == a

end Answer

/-- `Once content l`: a place that holds `content` may have given `l`. An empty place has given nothing; else the first
caller had the module made, and all others share it -/
def Once (content : Option Module) (l : List (Module × Bool)) : Prop :=
  match content with
  | none => l = []
  | some x => ∃ n, l = (x, true) :: List.replicate n (x, false)

namespace Once

variable {content content' : Option Module} {l : List (Module × Bool)}

/-- a place is filled by a fresh answer, and gives what it holds from then on -/
theorem snoc (h : Once content l) {x : Module} {fresh : Bool} (hx : content' = some x)
    (hold : content = if fresh then none else some x) : Once content' (l ++ [(x, fresh)]) := by
  subst hx
  cases fresh with
  | true =>
    obtain rfl : l = [] := by simpa [Once, hold] using h
    exact ⟨0, rfl⟩
  | false =>
    obtain ⟨n, rfl⟩ : ∃ n, l = (x, true) :: List.replicate n (x, false) := by simpa [Once, hold] using h
    refine ⟨n + 1, ?_⟩
    simp [List.replicate_succ']

/-- what a step does to a place that its answer may be from -/
theorem next (h : Once content l) {asked : Answer → Bool} {answer : Option Answer}
    (hyes : ∀ e, answer = some e → asked e = true →
      content' = some e.module ∧ content = if e.fresh then none else some e.module)
    (hno : (∀ e, answer = some e → asked e = false) → content' = content) :
    Once content' (l ++ given asked answer.toList) := by
  cases answer with
  | none =>
    rw [hno fun e he => by cases he]
    simpa [given] using h
  | some e =>
    by_cases he : asked e = true
    · obtain ⟨hafter, hbefore⟩ := hyes e rfl he
      simpa [given, he] using h.snoc hafter hbefore
    · rw [hno fun e' heq => by cases heq; simpa using he]
      simpa [given, he] using h

/-- all who were given something share what the place holds -/
theorem eq_of_mem (h : Once content l) {e : Module × Bool} (he : e ∈ l) : content = some e.1 := by
  cases content with
  | none =>
    obtain rfl : l = [] := h
    cases he
  | some x =>
    obtain ⟨n, rfl⟩ := h
    rcases List.mem_cons.1 he with rfl | he
    · rfl
    · rw [List.eq_of_mem_replicate he]

theorem countP_fresh (h : Once content l) : l.countP Prod.snd ≤ 1 := by
  cases content with
  | none =>
    obtain rfl : l = [] := h
    exact Nat.zero_le 1
  | some x =>
    obtain ⟨n, rfl⟩ := h
    simp [List.countP_replicate]

end Once

namespace Call

/-- the answer in the outcome of a step of a resolution -/
def LookupStep.answer? (i : RecordId) (a : String) (p : LookupPoint) : LookupStep → Option Answer
  | .found x fresh => p.cell?.map fun cell => ⟨i, a, cell, x, fresh⟩
  | _ => none

theorem LookupStep.answer?_eq_some {i : RecordId} {a : String} {p : LookupPoint} {n : LookupStep} {e : Answer}
    (h : n.answer? i a p = some e) :
    n = .found e.module e.fresh ∧ p.cell? = some e.cell ∧ e.record = i ∧ e.moduleAlias = a := by
  cases n with
  | found x fresh =>
    obtain ⟨cell, hcell, rfl⟩ := Option.map_eq_some_iff.1 h
    exact ⟨rfl, hcell, rfl, rfl⟩
  | _ => cases h

/-- the answer that the call gets from its next step, if that is one of a resolution -/
def answer? (g : Registry) (reply : Reply) (c : Call) : Option Answer :=
  c.lookup?.bind fun (i, a, p) => (advanceLookup g i a reply p).2.answer? i a p

theorem needsLock_of_lookup? {c : Call} {i : RecordId} {a : String} {p : LookupPoint}
    (h : c.lookup? = some (i, a, p)) : c.needsLock = false := by
  unfold lookup? at h
  split at h
  · rfl
  · rfl
  · cases h

/-- a call that returns a module is a lookup, and returns its answer -/
theorem answer?_of_done {g : Registry} {reply : Reply} {c : Call} {x : Module} {fresh : Bool}
    (h : (c.advance g reply).next = .done (.module x fresh)) :
    ∃ e, c.answer? g reply = some e ∧ e.module = x ∧ e.fresh = fresh := by
  cases c with
  | request q report p =>
    have hr := advanceRequest_requests g q report reply p
    simp only [advance] at h
    generalize advanceRequest g q report reply p = s at h hr
    cases hr <;> cases h
  | lookup i a p =>
    have hcell (hfound : (advanceLookup g i a reply p).2 = .found x fresh) : ∃ cell, p.cell? = some cell := by
      cases p with
      | trying cell => exact ⟨cell, rfl⟩
      | asking cell => exact ⟨cell, rfl⟩
      | _ => cases hfound
    simp only [advance] at h
    split at h
    · cases h
    · cases h
    · rename_i heq
      cases h
      obtain ⟨cell, hcell⟩ := hcell (by rw [heq])
      exact ⟨⟨i, a, cell, x, fresh⟩, by simp [answer?, lookup?, heq, LookupStep.answer?, hcell], rfl, rfl⟩
    · cases h
  | removal cause total p =>
    obtain ⟨count, ho⟩ := removal_done h
    cases ho
  | start checked =>
    cases checked <;> simp only [advance] at h <;> split at h <;> cases h

namespace Looks

variable {r r' : Record} {a : String} {reply : Reply} {p : LookupPoint} {n : LookupStep}

/-- what is found is in the cell that the call has -/
theorem found_cell (h : Looks r a reply p r' n) {x : Module} {fresh : Bool} (hn : n = .found x fresh) :
    ∃ cell, p.cell? = some cell := by
  cases h with
  | full h => exact ⟨_, rfl⟩
  | made h => exact ⟨_, rfl⟩
  | _ => cases hn

/-- a cell keeps its content, unless the call is answered with what is in it afterwards; it was empty before if the answer
is fresh -/
theorem content?_next (h : Looks r a reply p r' n)
    (hp : ∀ cell, p = .asking cell → r.cells[cell]? = some ⟨none, true⟩) (cell : Nat) :
    (∃ x fresh, n = .found x fresh ∧ p.cell? = some cell ∧ r'.content? cell = some x ∧
        r.content? cell = if fresh then none else some x) ∨
      ((∀ x fresh, n = .found x fresh → p.cell? ≠ some cell) ∧ r'.content? cell = r.content? cell) := by
  have hset {k : Nat} {c : Cell} (hk : k ≠ cell) : (r.setCell k c).content? cell = r.content? cell := by
    simp [Record.content?, Record.setCell, hk]
  have hempty {k : Nat} {c : Cell} {busy : Bool} (hk : r.cells[k]? = some ⟨none, busy⟩) (hc : c.module = none) :
      (r.setCell k c).content? cell = r.content? cell := by
    by_cases heq : k = cell
    · subst heq
      have hlt := (List.getElem?_eq_some_iff.1 hk).1
      have hold : r.content? k = none := by rw [Record.content?, hk]; rfl
      rw [hold]
      simp [Record.content?, Record.setCell, hlt, hc]
    · exact hset heq
  cases h with
  | opened h =>
    refine .inr ⟨fun x fresh hn => (by cases hn), ?_⟩
    rcases Nat.lt_trichotomy cell r.cells.length with hlt | rfl | hlt
    · simp [Record.content?, List.getElem?_append_left hlt]
    · simp [Record.content?]
    · have hlong : (r.cells ++ [({} : Cell)]).length ≤ cell := by
        rw [List.length_append, List.length_singleton]
        exact hlt
      simp [Record.content?, List.getElem?_eq_none hlong, List.getElem?_eq_none hlt.le]
  | @full k x h =>
    by_cases hk : k = cell
    · subst hk
      exact .inl ⟨x, false, rfl, rfl, h, h⟩
    · refine .inr ⟨?_, rfl⟩
      intro x fresh _ heq
      exact hk (Option.some.inj heq)
  | ask h hu => exact .inr ⟨fun x fresh hn => (by cases hn), hempty h rfl⟩
  | @made k x h =>
    have hbusy := hp k rfl
    by_cases hk : k = cell
    · subst hk
      have hlt := (List.getElem?_eq_some_iff.1 hbusy).1
      refine .inl ⟨x, true, rfl, rfl, ?_, ?_⟩
      · simp [Record.content?, Record.setCell, hlt]
      · simp [Record.content?, hbusy]
    · refine .inr ⟨?_, hset hk⟩
      intro x fresh _ heq
      exact hk (Option.some.inj heq)
  | @refused k why h => exact .inr ⟨fun x fresh hn => (by cases hn), hempty (hp k rfl) rfl⟩
  | cleared =>
    rw [Record.closeSlot_eq]
    exact .inr ⟨fun x fresh hn => (by cases hn), rfl⟩
  | _ => exact .inr ⟨fun x fresh hn => (by cases hn), rfl⟩

/-- so does the alias, if the call holds the cell in its slot -/
theorem module?_next (h : Looks r a reply p r' n)
    (hp : ∀ cell, p = .asking cell → r.cells[cell]? = some ⟨none, true⟩)
    (hslot : ∀ cell, p.cell? = some cell → r.slots.lookup a = some cell) :
    (∃ x fresh, n = .found x fresh ∧ r'.module? a = some x ∧ r.module? a = if fresh then none else some x) ∨
      ((∀ x fresh, n ≠ .found x fresh) ∧ r'.module? a = r.module? a) := by
  have hcontent := h.content?_next hp
  have hkeeps (hs : r'.slots.lookup a = r.slots.lookup a)
      (hn : ∀ x fresh, n ≠ .found x fresh) : r'.module? a = r.module? a := by
    have hsame : r'.content? = r.content? := by
      funext cell
      rcases hcontent cell with ⟨x, fresh, heq, -⟩ | ⟨-, heq⟩
      · exact absurd heq (hn x fresh)
      · exact heq
    simp only [Record.module?, hs, hsame]
  have hfinds {x : Module} {fresh : Bool} (hn : n = .found x fresh) (hs : r'.slots = r.slots) :
      r'.module? a = some x ∧ r.module? a = if fresh then none else some x := by
    obtain ⟨cell, hcell⟩ := h.found_cell hn
    rcases hcontent cell with ⟨x', fresh', heq, -, hafter, hbefore⟩ | ⟨hno, -⟩
    · rw [hn] at heq
      cases heq
      simp [Record.module?, hs, hslot cell hcell, hafter, hbefore]
    · exact absurd hcell (hno x fresh hn)
  cases h with
  | full h => exact .inl ⟨_, _, rfl, hfinds rfl rfl⟩
  | made h => exact .inl ⟨_, _, rfl, hfinds rfl rfl⟩
  | opened h =>
    refine .inr ⟨fun x fresh hn => (by cases hn), ?_⟩
    simp [Record.module?, h, List.lookup_append, Record.content?]
  | cleared => exact .inr ⟨fun x fresh hn => (by cases hn), Record.module?_closeSlot⟩
  | _ => exact .inr ⟨fun x fresh hn => (by cases hn), hkeeps rfl fun x fresh hn => (by cases hn)⟩

end Looks

end Call

namespace Pool

/-! ## Answers -/

/-- the answer that a move brings to the call that it is about -/
def answer? (p : Pool) : Move → Option Answer
  | .step k reply => (p.call? k).bind fun u =>
    if u.asking || u.call.query p.registry == .nothing then u.call.answer? p.registry { reply with now := p.now }
    else none
  | _ => none

/-- the answers that a run brings, in order -/
def answers (p : Pool) : List Move → List Answer
  | [] => []
  | m :: ms => (p.answer? m).toList ++ (p.step m).answers ms

/-- a move answers no call and leaves cells and slots as they are, or it is a step of a resolution -/
theorem resolution_step {p : Pool} (hp : p.Reachable) (m : Move) :
    (p.answer? m = none ∧ ∀ i, ((p.step m).registry.record i).store = (p.registry.record i).store) ∨
      ∃ k i a pt reply n, p.Resolves k i a pt ∧
        Call.Looks (p.registry.record i) a reply pt ((p.step m).registry.record i) n ∧
        (∀ j, j ≠ i → (p.step m).registry.record j = p.registry.record j) ∧ p.answer? m = n.answer? i a pt := by
  obtain ⟨owner, hkept⟩ := hp.kept
  have hother (hnone : ∀ k reply, m = .step k reply → ∀ i a pt, ¬ p.Resolves k i a pt) (i : RecordId) :
      ((p.step m).registry.record i).store = (p.registry.record i).store := by
    rcases record_step hp.sound hkept m i with hstore | ⟨k, reply, a, pt, n, hm, hres, -⟩
    · exact hstore
    · exact absurd hres (hnone k reply hm i a pt)
  cases m with
  | step k reply =>
    cases hc : p.call? k with
    | none =>
      rw [step_of_ended rfl hc]
      exact .inl ⟨by simp [answer?, hc], fun i => rfl⟩
    | some u =>
      cases hl : u.call.lookup? with
      | none =>
        refine .inl ⟨by simp [answer?, hc, Call.answer?, hl], hother ?_⟩
        rintro k' reply' heq i a pt ⟨v, hv, hl'⟩
        cases heq
        rw [hc] at hv
        cases hv
        rw [hl] at hl'
        cases hl'
      | some x =>
        obtain ⟨i, a, pt⟩ := x
        by_cases hready : (u.asking || u.call.query p.registry == .nothing) = true
        · have hready' : u.asking = true ∨ u.call.query p.registry = .nothing := by simpa using hready
          have hlock := Call.needsLock_of_lookup? hl
          rw [step_eq_advance hc hready' (by simp [hlock]) reply]
          have hreg : (p.advance k u.call reply).registry =
              (Call.advanceLookup p.registry i a { reply with now := p.now } pt).1 :=
            Call.advance_registry_of_lookup? hl
          refine .inr ⟨k, i, a, pt, { reply with now := p.now },
            (Call.advanceLookup p.registry i a { reply with now := p.now } pt).2, ⟨u, hc, hl⟩, ?_, ?_, ?_⟩
          · rw [hreg]
            exact Call.advanceLookup_looks _ (hkept.placed k i a pt ⟨u, hc, hl⟩) ..
          · intro j hj
            rw [hreg]
            exact Call.record_lookup_of_ne rfl (Ne.symm hj)
          · simp only [answer?, hc, Option.bind_some, if_pos hready, Call.answer?, hl]
        · have hidle : p.step (.step k reply) = p := by
            obtain ⟨c, asking⟩ := u
            simp only [Bool.not_eq_true] at hready
            simp [Pool.step, hc, hready]
          rw [hidle]
          exact .inl ⟨by simp only [answer?, hc, Option.bind_some, if_neg hready], fun i => rfl⟩
  | _ => exact .inl ⟨rfl, hother fun k reply hm => by cases hm⟩

theorem answered_step {p : Pool} {m : Move} {k : Nat} {x : Module} {fresh : Bool}
    (h : (p.step m).Returned k (.module x fresh)) :
    p.Returned k (.module x fresh) ∨ ∃ e, p.answer? m = some e ∧ e.module = x ∧ e.fresh = fresh := by
  have hm := step_moved p m
  generalize p.step m = p' at hm h
  cases hm with
  | @step j u reply hc hready hlock =>
    refine (returned_advance.1 h).imp_right ?_
    rintro ⟨rfl, hdone⟩
    have hready' : (u.asking || u.call.query p.registry == .nothing) = true := by simpa using hready
    simpa only [answer?, hc, Option.bind_some, if_pos hready'] using Call.answer?_of_done hdone
  | enter hc => exact .inl (by simpa [Returned, Pool.enter] using h)
  | evict he hdue => exact .inl (by simpa [Returned, Pool.enter] using h)
  | ask hc hq => exact .inl (by simpa [Returned, Pool.pose] using h)
  | aside hm ha => exact .inl (by simpa [Returned, ha.trace] using h)
  | idle => exact .inl h

/-- a lookup that returns a module returns its answer -/
theorem answered_of_returned {p : Pool} {k : Nat} {x : Module} {fresh : Bool} (ms : List Move)
    (h : (p.run ms).Returned k (.module x fresh)) :
    p.Returned k (.module x fresh) ∨ ∃ e ∈ p.answers ms, e.module = x ∧ e.fresh = fresh := by
  induction ms generalizing p with
  | nil => exact .inl h
  | cons m ms ih =>
    rcases ih h with h | ⟨e, he, hmod⟩
    · refine (answered_step h).imp_right ?_
      rintro ⟨e, he, hmod⟩
      exact ⟨e, List.mem_append_left _ (Option.mem_toList.2 he), hmod⟩
    · exact .inr ⟨e, List.mem_append_right _ he, hmod⟩

/-! ## The laws -/

theorem once_cell_step {p : Pool} (hp : p.Reachable) (m : Move) {i : RecordId} {cell : Nat}
    {l : List (Module × Bool)} (h : Once ((p.registry.record i).content? cell) l) :
    Once (((p.step m).registry.record i).content? cell) (l ++ given (Answer.isFrom i cell) (p.answer? m).toList) := by
  rcases resolution_step hp m with ⟨hnone, hstore⟩ | ⟨k, j, a, pt, reply, n, hres, hlooks, hothers, hans⟩
  · have hcells : ((p.step m).registry.record i).cells = (p.registry.record i).cells := congrArg Prod.fst (hstore i)
    refine h.next ?_ fun _ => by simp only [Record.content?, hcells]
    intro e he
    rw [hnone] at he
    cases he
  have hcontent := hlooks.content?_next fun _ => hp.busy_cell hres
  refine h.next ?_ ?_
  · intro e he hasked
    rw [hans] at he
    obtain ⟨rfl, hcell, rfl, rfl⟩ := Call.LookupStep.answer?_eq_some he
    obtain ⟨rfl, rfl⟩ : e.record = i ∧ e.cell = cell := by simpa [Answer.isFrom] using hasked
    rcases hcontent e.cell with ⟨x, fresh, heq, -, hafter, hbefore⟩ | ⟨hno, -⟩
    · cases heq
      exact ⟨hafter, hbefore⟩
    · exact absurd hcell (hno _ _ rfl)
  · intro hno
    by_cases hj : i = j
    · subst hj
      rcases hcontent cell with ⟨x, fresh, rfl, hcell, -⟩ | ⟨-, hsame⟩
      · have hyes : p.answer? m = some ⟨i, a, cell, x, fresh⟩ := by rw [hans, Call.LookupStep.answer?, hcell]; rfl
        simpa [Answer.isFrom] using hno _ hyes
      · exact hsame
    · rw [hothers i hj]

/-- so it is for an alias, as long as calls hold the cell in its slot -/
theorem once_alias_step {p : Pool} (hp : p.Reachable) (m : Move) {i : RecordId} {a : String} (hmatched : p.Matched i a)
    {l : List (Module × Bool)} (h : Once ((p.registry.record i).module? a) l) :
    Once (((p.step m).registry.record i).module? a) (l ++ given (Answer.isFor i a) (p.answer? m).toList) := by
  rcases resolution_step hp m with ⟨hnone, hstore⟩ | ⟨k, j, b, pt, reply, n, hres, hlooks, hothers, hans⟩
  · refine h.next ?_ fun _ => module?_congr (hstore i) a
    intro e he
    rw [hnone] at he
    cases he
  have hmodule (hj : i = j) (hb : a = b) := by
    subst hj hb
    exact hlooks.module?_next (fun _ => hp.busy_cell hres) fun cell hcell => hmatched.held k cell ⟨pt, hres, hcell⟩
  refine h.next ?_ ?_
  · intro e he hasked
    rw [hans] at he
    obtain ⟨rfl, hcell, rfl, rfl⟩ := Call.LookupStep.answer?_eq_some he
    obtain ⟨rfl, rfl⟩ : e.record = i ∧ e.moduleAlias = a := by simpa [Answer.isFor] using hasked
    rcases hmodule rfl rfl with ⟨x, fresh, heq, hafter, hbefore⟩ | ⟨hno, -⟩
    · cases heq
      exact ⟨hafter, hbefore⟩
    · exact absurd rfl (hno _ _)
  · intro hno
    by_cases hj : i = j
    · by_cases hb : a = b
      · rcases hmodule hj hb with ⟨x, fresh, rfl, -⟩ | ⟨-, hsame⟩
        · obtain ⟨cell, hcell⟩ := hlooks.found_cell rfl
          have hyes : p.answer? m = some ⟨j, b, cell, x, fresh⟩ := by rw [hans, Call.LookupStep.answer?, hcell]; rfl
          simpa [Answer.isFor, hj, hb] using hno _ hyes
        · exact hsame
      · subst hj
        obtain ⟨owner, hk⟩ := hp.kept
        exact (hlooks.frame hb fun cell => hk.apart hres hb).2
    · rw [hothers i hj]

theorem once_cell_run {p : Pool} (hp : p.Reachable) (ms : List Move) {i : RecordId} {cell : Nat}
    {l : List (Module × Bool)} (h : Once ((p.registry.record i).content? cell) l) :
    Once (((p.run ms).registry.record i).content? cell) (l ++ given (Answer.isFrom i cell) (p.answers ms)) := by
  induction ms generalizing p l with
  | nil => simpa [answers, given, run] using h
  | cons m ms ih =>
    rw [answers, given_append, ← List.append_assoc]
    exact ih (hp.step m) (once_cell_step hp m h)

/-- slots that are not severed are those of the calls that hold cells -/
theorem once_alias_run {p : Pool} (hp : p.Reachable) {ms : List Move} {i : RecordId} {a : String}
    (hmatched : p.Matched i a) (hms : ¬ p.SeveredDuring i a ms) {l : List (Module × Bool)}
    (h : Once ((p.registry.record i).module? a) l) :
    Once (((p.run ms).registry.record i).module? a) (l ++ given (Answer.isFor i a) (p.answers ms)) := by
  induction ms generalizing p l with
  | nil => simpa [answers, given, run] using h
  | cons m ms ih =>
    obtain ⟨hm, hms⟩ := not_or.1 hms
    rw [answers, given_append, ← List.append_assoc]
    exact ih (hp.step m) (matched_step hp hmatched hm) hms (once_alias_step hp m hmatched h)

/-- callers 1, 2 and 3 resolve an alias. The context fails 1, which removes the slot while the context works for 2 in the
same cell: 2 has a module made, and the alias is not resolved; then 3 has another made -/
theorem severed_materialised_twice :
    let x : Request := { id := ⟨"x"⟩, sender := ⟨"s"⟩, seq := 1, moduleAlias := "z" }
    let lookup : Move := .enter (Call.resolveAlias 0 "a")
    let p := (new 100).run (.enter (.request x true .entering) :: turns 0 { module := .ok ⟨"z", false⟩ } 8 ++
      lookup :: turns 1 {} 2 ++ [.ask 1, lookup, .step 2 {}, .step 1 { module := .error .shuttingDown }, .step 2 {},
        .ask 2, .step 1 {}, .step 2 { module := .ok ⟨"m", false⟩ }])
    let later := p.run (lookup :: turns 3 { module := .ok ⟨"n", false⟩ } 4)
    p.Reachable ∧ p.Returned 2 (.module ⟨"m", false⟩ true) ∧ (p.registry.record 0).hasResolved "a" = false ∧
      later.Returned 2 (.module ⟨"m", false⟩ true) ∧ later.Returned 3 (.module ⟨"n", false⟩ true) := by
  intro x lookup p later
  exact ⟨⟨100, _, rfl⟩, by decide +kernel, by decide +kernel, by decide +kernel, by decide +kernel⟩

/-- **a module is made once**: what a lookup returns is an answer. All answers from a cell of a record are one module, made
for the first of them, and the cell holds it. So are all answers for an alias on a record, as long as no slot of the alias
was severed; and once there is one, the alias is resolved to that module and stays so. -/
theorem materialised_once (timeout : Nat) (ms : List Move) :
    let p := (new timeout).run ms
    let answers := (new timeout).answers ms
    (∀ k x fresh, p.Returned k (.module x fresh) → ∃ e ∈ answers, e.module = x ∧ e.fresh = fresh) ∧
      (∀ i cell, Once ((p.registry.record i).content? cell) (given (Answer.isFrom i cell) answers)) ∧
      ∀ i a, ¬ (new timeout).SeveredDuring i a ms →
        (given (Answer.isFor i a) answers).countP Prod.snd ≤ 1 ∧
          ∀ e ∈ given (Answer.isFor i a) answers, ∀ later,
            ((p.run later).registry.record i).hasResolved a = true ∧
              ((p.run later).registry.record i).module? a = some e.1 := by
  intro p answers
  have hnew : (new timeout).Reachable := ⟨timeout, [], rfl⟩
  have hp : p.Reachable := ⟨timeout, ms, rfl⟩
  refine ⟨?_, ?_, ?_⟩
  · intro k x fresh h
    refine (answered_of_returned ms h).resolve_left ?_
    exact List.not_mem_nil
  · intro i cell
    have hempty : Once (((new timeout).registry.record i).content? cell) [] := rfl
    simpa using once_cell_run hnew ms hempty
  · intro i a hms
    have honce : Once ((p.registry.record i).module? a) (given (Answer.isFor i a) answers) := by
      have hempty : Once (((new timeout).registry.record i).module? a) [] := rfl
      simpa using once_alias_run hnew (matched_new timeout i a) hms hempty
    refine ⟨honce.countP_fresh, fun e he later => ?_⟩
    have hmodule := module?_run hp (honce.eq_of_mem he) later
    exact ⟨Record.hasResolved_iff.2 ⟨e.1, hmodule⟩, hmodule⟩

/-- caller 1 fails and removes the slot; then 2 has the module made, and 3 waits for it and shares it -/
theorem materialised_after_failure :
    let x : Request := { id := ⟨"x"⟩, sender := ⟨"s"⟩, seq := 1, moduleAlias := "z" }
    let lookup : Move := .enter (Call.resolveAlias 0 "a")
    let ms := .enter (.request x true .entering) :: turns 0 { module := .ok ⟨"z", false⟩ } 8 ++
      lookup :: turns 1 {} 4 ++ lookup :: turns 2 {} 2 ++ [.ask 2, lookup, .step 3 {}, .step 3 {},
        .step 2 { module := .ok ⟨"m", false⟩ }, .step 3 {}]
    let p := (new 100).run ms
    p.Returned 1 (.failed .shuttingDown) ∧
      given (Answer.isFor 0 "a") ((new 100).answers ms) = [(⟨"m", false⟩, true), (⟨"m", false⟩, false)] ∧
      (given (Answer.isFor 0 "a") ((new 100).answers ms)).countP Prod.snd ≤ 1 ∧
      ∀ later, ((p.run later).registry.record 0).module? "a" = some ⟨"m", false⟩ := by
  intro x lookup ms p
  have hfailed : p.Returned 1 (.failed .shuttingDown) := by decide +kernel
  have hgiven : given (Answer.isFor 0 "a") ((new 100).answers ms) = [(⟨"m", false⟩, true), (⟨"m", false⟩, false)] := by
    decide +kernel
  have hms : ¬ (new 100).SeveredDuring 0 "a" ms := by decide +kernel
  obtain ⟨-, -, halias⟩ := materialised_once 100 ms
  obtain ⟨hfresh, hshared⟩ := halias 0 "a" hms
  have hmem : ((⟨"m", false⟩ : Module), true) ∈ given (Answer.isFor 0 "a") ((new 100).answers ms) := by simp [hgiven]
  exact ⟨hfailed, hgiven, hfresh, fun later => (hshared _ hmem later).2⟩

end Pool

end Redeploy
