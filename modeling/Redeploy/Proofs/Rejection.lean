/-
The course of a request up to the decision, and what is left of it when it is turned away.

A request is open while it asks whether its sender is live, takes the lock, asks again and is decided about. An open
request changes nothing: only the step that accepts it does. So one that is turned away has changed nothing, whatever
calls come between its moves and in whatever order the cache is met.

Results:
- `step_open`: what a move does to an open request;
- `Stage.run`: every request is open, turned away, or accepted, and an accepted one is never turned away;
- **`rejected_changes_nothing`**: no move of a request that is turned away changes records, cache, evictions or what was
  done.
-/
import Redeploy.Proofs.Course

namespace Redeploy

open Registry

/-- the request was not decided about yet -/
def RequestPoint.isOpen : RequestPoint → Bool
  | .entering => true
  | .locking => true
  | .rechecking => true
  | .deciding => true
  | _ => false

/-- why a request can be turned away -/
inductive Request.Rejection (q : Request) : Failure → Prop
  | senderLeft : Rejection q (.senderLeft q.sender)
  | shuttingDown : Rejection q .shuttingDown
  | sequenceMismatch (d : DeploymentId) : Rejection q (.sequenceMismatch q.seq d)
  | obsolete : Rejection q (.obsolete q.moduleAlias)

/-- the failure turns a request away: any rejection but that the alias was not found -/
def Failure.turnsAway : Failure → Bool
  | .senderLeft _ => true
  | .shuttingDown => true
  | .sequenceMismatch .. => true
  | .obsolete _ => true
  | _ => false

/-- something was made, ordered, resolved, released, or reported to a sink or a hook -/
def Mark.isWork : Mark → Bool
  | .asked (.live _) => false
  | .asked .nothing => false
  | .asked _ => true
  | .did e => e.isWork
  | .returned .. => false

namespace Call

variable {g : Registry} {q : Request} {report : Bool} {reply : Reply}

/-- a step of an open request leads to another open point, to a rejection, or to a record under the request's
identifier; the first two change nothing -/
theorem advance_open (hg : g.Coherent) {pt : RequestPoint} (hpt : pt.isOpen = true) :
    ((advance g reply (.request q report pt)).registry = g ∧
        AtRest (advance g reply (.request q report pt)).effects ∧
        ((∃ pt', (advance g reply (.request q report pt)).next = .go (.request q report pt') ∧ pt'.isOpen = true) ∨
          ∃ why, (advance g reply (.request q report pt)).next = .done (.failed why) ∧ q.Rejection why)) ∨
      ∃ i, (advance g reply (.request q report pt)).next = .go (.request q report (.resolving i .looking)) ∧
        ((advance g reply (.request q report pt)).registry.record i).id = q.id := by
  have hnil : AtRest [] := by simp [AtRest]
  have hone : AtRest [.notice (.resolving q)] := by simp [AtRest, Effect.isWork]
  have hreject {why : Failure} {before : List Effect} (hb : AtRest before) (hw : q.Rejection why) :
      (rejection g q report why before).registry = g ∧ AtRest (rejection g q report why before).effects ∧
        ((∃ pt', (rejection g q report why before).next = .go (.request q report pt') ∧ pt'.isOpen = true) ∨
          ∃ why', (rejection g q report why before).next = .done (.failed why') ∧ q.Rejection why') := by
    exact ⟨rfl, rejection_rest g q report why hb, .inr ⟨why, rfl, hw⟩⟩
  have hr := advanceRequest_requests g q report reply pt
  simp only [advance]
  generalize advanceRequest g q report reply pt = s at hr ⊢
  cases hr with
  | enter hl => exact .inl ⟨rfl, hone, .inl ⟨_, rfl, rfl⟩⟩
  | left hl => exact .inl (hreject hone .senderLeft)
  | lock hs => exact .inl ⟨rfl, hnil, .inl ⟨_, rfl, rfl⟩⟩
  | stopped hs => exact .inl (hreject hnil .shuttingDown)
  | recheck hl => exact .inl ⟨rfl, hnil, .inl ⟨_, rfl, rfl⟩⟩
  | departed hl => exact .inl (hreject hnil .senderLeft)
  | refused hd =>
    rcases decide_error hd with ⟨d, rfl⟩ | rfl
    · exact .inl (hreject hnil (.sequenceMismatch d))
    · exact .inl (hreject hnil .obsolete)
  | cached hd => exact .inr ⟨_, rfl, ((decide_eq_cached_iff hg).1 hd).2.1⟩
  | fresh hd =>
    refine .inr ⟨_, rfl, ?_⟩
    rw [record_install_new]
    rfl
  | _ => cases hpt

end Call

namespace Pool

/-- records and cache, the evictions ordered, and all that was done are the same -/
structure Untouched (p p' : Pool) : Prop where
  registry : p'.registry = p.registry
  evictions : p'.evictions = p.evictions
  done : p'.trace.filter Mark.isWork = p.trace.filter Mark.isWork

theorem Untouched.refl (p : Pool) : p.Untouched p := ⟨rfl, rfl, rfl⟩

theorem Untouched.trans {p p' p'' : Pool} (h : p.Untouched p') (h' : p'.Untouched p'') : p.Untouched p'' :=
  ⟨h'.registry.trans h.registry, h'.evictions.trans h.evictions, h'.done.trans h.done⟩

/-- a step at rest on an unchanged registry -/
theorem untouched_advance {p : Pool} {k : Nat} {c : Call} {reply : Reply}
    (hg : (c.advance p.registry { reply with now := p.now }).registry = p.registry)
    (he : AtRest (c.advance p.registry { reply with now := p.now }).effects) :
    p.Untouched (p.advance k c reply) := by
  refine ⟨hg, ?_, ?_⟩
  · simp only [Pool.advance, evictions_rest he, List.append_nil]
  · have hdid : ((c.advance p.registry { reply with now := p.now }).effects.map Mark.did).filter Mark.isWork = [] := by
      rw [List.filter_eq_nil_iff]
      intro m hmem
      obtain ⟨e, he', rfl⟩ := List.mem_map.1 hmem
      simp [Mark.isWork, he e he']
    have hmarks : ∀ n : Next, (n.marks k).filter Mark.isWork = [] := by
      intro n
      cases n <;> simp [Next.marks, Mark.isWork]
    simp only [Pool.advance, List.filter_append, hdid, hmarks, List.append_nil]

/-- a move leaves an open request open, turns it away, or accepts it; its own moves change nothing unless the request is
accepted -/
theorem step_open {p : Pool} (hp : p.Reachable) {k : Nat} {q : Request} {report b : Bool} {pt : RequestPoint}
    (hc : p.call? k = some ⟨.request q report pt, b⟩) (hpt : pt.isOpen = true) (m : Move) :
    ((∃ pt' b', (p.step m).call? k = some ⟨.request q report pt', b'⟩ ∧ pt'.isOpen = true) ∨
          ∃ why, q.Rejection why ∧ (p.step m).Returned k (.failed why)) ∧
        (m.place? = some k → p.Untouched (p.step m)) ∨
      ∃ i, (p.step m).AcceptedFor k q report i ∧ ((p.step m).registry.record i).id = q.id := by
  by_cases hm : m.place? = some k
  · rcases step_self hm hc with h | h | ⟨reply, rfl, h, -⟩
    · rw [h]
      exact .inl ⟨.inl ⟨pt, b, hc, hpt⟩, fun _ => .refl p⟩
    · rw [h]
      refine .inl ⟨.inl ⟨pt, true, by rw [call?_pose hc, if_pos rfl], hpt⟩, fun _ => ⟨rfl, rfl, ?_⟩⟩
      have hquery : Mark.isWork (.asked ((Call.request q report pt).query p.registry)) = false := by
        cases pt <;> first | rfl | cases hpt
      simp [Pool.pose, List.filter_append, hquery]
    · rw [h]
      have hcall := call?_advance hc reply k
      rw [if_pos rfl] at hcall
      rcases Call.advance_open hp.sound.coherent hpt with ⟨hreg, hrest, hnext⟩ | ⟨i, hnext, hid⟩
      · refine .inl ⟨?_, fun _ => untouched_advance hreg hrest⟩
        rcases hnext with ⟨pt', hn, hopen⟩ | ⟨why, hn, hr⟩
        · exact .inl ⟨pt', false, by rw [hcall, hn]; rfl, hopen⟩
        · exact .inr ⟨why, hr, returned_advance.2 (.inr ⟨rfl, hn⟩)⟩
      · exact .inr ⟨i, by rw [AcceptedFor, hcall, hnext]; rfl, hid⟩
  · rw [call?_step_of_ne hm (lt_of_call? hc)]
    exact .inl ⟨.inl ⟨pt, b, hc, hpt⟩, fun h => absurd h hm⟩

/-- how far a request has come -/
inductive Stage (p : Pool) (k : Nat) (q : Request) (report : Bool) : Prop
  | undecided {pt : RequestPoint} {b : Bool} (hc : p.call? k = some ⟨.request q report pt, b⟩) (hpt : pt.isOpen = true)
  | rejected {why : Failure} (hr : q.Rejection why) (ho : p.Returned k (.failed why))
  | accepted {i : RecordId} (h : p.Course k q report i)

theorem Stage.step {p : Pool} (hp : p.Reachable) {k : Nat} {q : Request} {report : Bool} (h : p.Stage k q report)
    (m : Move) : (p.step m).Stage k q report := by
  cases h with
  | undecided hc hpt =>
    rcases step_open hp hc hpt m with ⟨⟨pt', b', hc', hpt'⟩ | ⟨why, hr, ho⟩, -⟩ | ⟨i, ha, hid⟩
    · exact .undecided hc' hpt'
    · exact .rejected hr ho
    · exact .accepted (.resolving ha hid)
  | rejected hr ho => exact .rejected hr (returned_step ho m)
  | accepted h => exact .accepted (h.step hp m)

theorem Stage.run {p : Pool} (hp : p.Reachable) {k : Nat} {q : Request} {report : Bool} (h : p.Stage k q report)
    (ms : List Move) : (p.run ms).Stage k q report := by
  induction ms using List.reverseRecOn with
  | nil => exact h
  | append_singleton ms m ih =>
    rw [run_append]
    exact ih.step (hp.run ms) m

/-! ## Turned away -/

theorem call?_begin {p : Pool} {q : Request} (hq : q.WellFormed) (report : Bool) :
    (p.step (.enter (.request q report .entering))).call? p.calls.length =
      some ⟨.request q report .entering, false⟩ := by
  have hnew : (Call.request q report .entering).IsNew p.registry = true := by
    simp only [Call.IsNew, Option.isNone_iff_eq_none]
    exact hq
  simp only [Pool.step, hnew, if_true]
  rw [call?_enter, if_pos rfl]

/-- an accepted request is not turned away -/
theorem Course.not_turnsAway {p : Pool} (hp : p.Reachable) {k : Nat} {q : Request} {report : Bool} {i : RecordId}
    (h : p.Course k q report i) {why : Failure} (hw : why.turnsAway = true) : ¬ p.Returned k (.failed why) := by
  intro ho
  have hend := hp.settled.returned k _ ho
  cases h with
  | resolving hc hid => exact not_ended hc hend
  | notifying hc => exact not_ended hc hend
  | served ho' => cases hp.settled.unique k _ _ ho ho'
  | unresolved ho' =>
    cases hp.settled.unique k _ _ ho ho'
    cases hw

/-- **a request that is turned away changes nothing**: neither its beginning nor any of its moves, whatever other calls
do between them; so where no others do anything all is in the end as it was before -/
theorem rejected_changes_nothing {p : Pool} (hp : p.Reachable) {q : Request} (hq : q.WellFormed) (report : Bool)
    {ms : List Move} {why : Failure} (hw : why.turnsAway = true)
    (ho : (p.run (.enter (.request q report .entering) :: ms)).Returned p.calls.length (.failed why)) :
    (∀ before m after, ms = before ++ m :: after → m.place? = some p.calls.length →
        (p.run (.enter (.request q report .entering) :: before)).Untouched
          (p.run (.enter (.request q report .entering) :: (before ++ [m])))) ∧
      ((∀ m ∈ ms, m.place? = some p.calls.length) →
        p.Untouched (p.run (.enter (.request q report .entering) :: ms))) := by
  have hp₀ : (p.step (.enter (.request q report .entering))).Reachable := hp.step _
  have hc := call?_begin (p := p) hq report
  have hbegin : p.Untouched (p.step (.enter (.request q report .entering))) := by
    simp only [Pool.step]
    split <;> exact ⟨rfl, rfl, rfl⟩
  simp only [run_cons] at ho ⊢
  generalize p.step (.enter (.request q report .entering)) = p₀ at hp₀ hc hbegin ho ⊢
  have hmove : ∀ before m after, ms = before ++ m :: after → m.place? = some p.calls.length →
      (p₀.run before).Untouched (p₀.run (before ++ [m])) := by
    rintro before m after rfl hm
    rw [run_append]
    have hr := hp₀.run before
    have hafter : ¬ ∃ i, ((p₀.run before).step m).Course p.calls.length q report i := by
      rintro ⟨i, h⟩
      rw [run_append] at ho
      exact (h.run (hr.step m) after).not_turnsAway ((hr.step m).run after) hw ho
    have hstage : (p₀.run before).Stage p.calls.length q report := (Stage.undecided hc rfl).run hp₀ before
    cases hstage with
    | undecided hc' hpt =>
      rcases step_open hr hc' hpt m with ⟨-, h⟩ | ⟨i, ha, hid⟩
      · exact h hm
      · exact absurd ⟨i, .resolving ha hid⟩ hafter
    | rejected hr' ho' =>
      show (p₀.run before).Untouched ((p₀.run before).step m)
      rw [step_of_ended hm (hr.settled.returned _ _ ho').2]
      exact .refl _
    | accepted h => exact absurd ⟨_, h.step hr m⟩ hafter
  refine ⟨hmove, fun hown => hbegin.trans ?_⟩
  -- move by move, from the first
  have hprefix : ∀ before, before <+: ms → p₀.Untouched (p₀.run before) := by
    intro before
    induction before using List.reverseRecOn with
    | nil => exact fun _ => .refl p₀
    | append_singleton before m ih =>
      rintro ⟨after, heq⟩
      have hsplit : ms = before ++ m :: after := by rw [← heq]; simp
      have hm : m ∈ ms := by rw [hsplit]; simp
      exact (ih ⟨m :: after, hsplit.symm⟩).trans (hmove before m after hsplit (hown m hm))
  exact hprefix ms (List.prefix_refl ms)

/-- a request is turned away for a record of its own number after one that it would have superseded was met -/
theorem rejected_after_older :
    let x : Request := { id := ⟨"x"⟩, sender := ⟨"s"⟩, seq := 1, moduleAlias := "a" }
    let y : Request := { id := ⟨"y"⟩, sender := ⟨"s"⟩, seq := 2, moduleAlias := "b" }
    let z : Request := { id := ⟨"z"⟩, sender := ⟨"s"⟩, seq := 2, moduleAlias := "a" }
    let p := (new 100).run
      (.enter (.request x true .entering) :: turns 0 { module := .ok ⟨"m", false⟩ } 8 ++
        .enter (.request y true .entering) :: turns 1 { module := .ok ⟨"n", true⟩ } 8)
    (p.registry.record 0).IsBehind z ∧
      (p.run (.enter (.request z true .entering) :: turns 2 {} 4)).Returned 2 (.failed (.sequenceMismatch 2 ⟨"y"⟩)) ∧
      p.Untouched (p.run (.enter (.request z true .entering) :: turns 2 {} 4)) := by
  intro x y z p
  have hp : p.Reachable := ⟨100, _, rfl⟩
  have hplace : p.calls.length = 2 := by decide +kernel
  have hbehind : (p.registry.record 0).IsBehind z := by decide +kernel
  have ho : (p.run (.enter (.request z true .entering) :: turns 2 {} 4)).Returned 2
      (.failed (.sequenceMismatch 2 ⟨"y"⟩)) := by decide +kernel
  clear_value p
  refine ⟨hbehind, ho, ?_⟩
  have ho' : (p.run (.enter (.request z true .entering) :: turns 2 {} 4)).Returned p.calls.length
      (.failed (.sequenceMismatch 2 ⟨"y"⟩)) := by
    rw [hplace]
    exact ho
  refine (rejected_changes_nothing hp (by decide +kernel) true rfl ho').2 ?_
  intro m hm
  rw [hplace]
  revert m
  simp [turns, Move.place?]

end Pool

end Redeploy
