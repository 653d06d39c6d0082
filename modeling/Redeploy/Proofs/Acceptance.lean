/-
When a request is accepted, and what it returns then.

A request that has the lock asks once more whether its sender is live and is decided about; lookups, teardowns and the
beginnings of calls may come between these moves, but nobody else's critical section. The decision is a scan in the
order of an enumeration, but what it comes to is said without it (`Registry.Known`, `Registry.Admits`).

Results:
- `locking_step`, `rechecking_step`, `deciding_step`: the three steps under the lock;
- `decided_under_lock`: from the lock to the decision, with any moves of others between;
- **`accepted_iff_admitted`**: a request is accepted exactly if the registry is not stopped, its sender is live, and it
  is known with its number or nothing cached speaks against it; accepted, it returns its record exactly if the alias is
  or becomes resolved, and that the alias was not found otherwise; every failure is one of the five rejections.
-/
import Redeploy.Proofs.Rejection

namespace Redeploy

open Registry

namespace Pool

variable {p : Pool} {k : Nat} {q : Request} {report : Bool}

/-! ## Under the lock -/

theorem locking_step (hc : p.call? k = some ⟨.request q report .locking, false⟩) (hfree : p.isFree k = true)
    (reply : Reply) :
    p.registry.stopped = true ∧ (p.step (.step k reply)).Returned k (.failed .shuttingDown) ∨
      p.registry.stopped = false ∧ (p.step (.step k reply)).call? k = some ⟨.request q report .rechecking, false⟩ := by
  rw [step_eq_advance hc (.inr rfl) (fun _ => hfree)]
  cases hs : p.registry.stopped with
  | true =>
    refine .inl ⟨rfl, returned_advance.2 (.inr ⟨rfl, ?_⟩)⟩
    simp [Call.advance, Call.advanceRequest, hs, Call.rejection]
  | false =>
    refine .inr ⟨rfl, ?_⟩
    rw [call?_advance hc, if_pos rfl]
    simp [Call.advance, Call.advanceRequest, hs, Next.underway?]

theorem rechecking_step (hc : p.call? k = some ⟨.request q report .rechecking, true⟩) (reply : Reply) :
    reply.live = false ∧ (p.step (.step k reply)).Returned k (.failed (.senderLeft q.sender)) ∨
      reply.live = true ∧ (p.step (.step k reply)).call? k = some ⟨.request q report .deciding, false⟩ := by
  rw [step_eq_advance hc (.inl rfl) (fun h => by cases h)]
  cases hl : reply.live with
  | false =>
    refine .inl ⟨rfl, returned_advance.2 (.inr ⟨rfl, ?_⟩)⟩
    simp [Call.advance, Call.advanceRequest, hl, Call.rejection]
  | true =>
    refine .inr ⟨rfl, ?_⟩
    rw [call?_advance hc, if_pos rfl]
    simp [Call.advance, Call.advanceRequest, hl, Next.underway?]

theorem not_acceptedFor_of_returned (hp : p.Reachable) {o : Outcome} (h : p.Returned k o) (i : RecordId) :
    ¬ p.AcceptedFor k q report i := by
  intro ha
  exact not_ended ha (hp.settled.returned k o h)

/-- the decision: acceptance for a record under the request's identifier, or a rejection -/
theorem deciding_step (hp : p.Reachable) (hc : p.call? k = some ⟨.request q report .deciding, false⟩) (reply : Reply) :
    ((∃ i, (p.step (.step k reply)).AcceptedFor k q report i) ↔
        (∃ i, p.registry.Known q i) ∨ p.registry.Admits q p.now) ∧
      ((∃ i, (p.step (.step k reply)).AcceptedFor k q report i) ∨
        ∃ why, q.Rejection why ∧ (p.step (.step k reply)).Returned k (.failed why)) := by
  have hg := hp.sound.coherent
  have hp' := hp.step (.step k reply)
  rw [← decide_isOk_iff hg]
  have hstep := step_eq_advance hc (.inr rfl) (fun h => by cases h) reply
  have hcall := call?_advance hc reply k
  rw [if_pos rfl] at hcall
  cases hd : p.registry.decide q ({ reply with now := p.now } : Reply).now with
  | error why =>
    have hret : (p.step (.step k reply)).Returned k (.failed why) := by
      rw [hstep]
      refine returned_advance.2 (.inr ⟨rfl, ?_⟩)
      rw [Call.advance_refused hd]
      rfl
    have hrej : q.Rejection why := by
      rcases decide_error hd with ⟨d, rfl⟩ | rfl
      · exact .sequenceMismatch d
      · exact .obsolete
    refine ⟨iff_of_false ?_ ?_, .inr ⟨why, hrej, hret⟩⟩
    · rintro ⟨i, ha⟩
      exact not_acceptedFor_of_returned hp' hret i ha
    · rintro ⟨v, hv⟩
      cases hv
  | ok v =>
    have hacc : ∃ i, (p.step (.step k reply)).AcceptedFor k q report i := by
      cases v with
      | cached i =>
        refine ⟨i, ?_⟩
        rw [AcceptedFor, hstep, hcall, Call.advance_cached hd]
        rfl
      | fresh v =>
        refine ⟨p.registry.records.length, ?_⟩
        rw [AcceptedFor, hstep, hcall, Call.advance_fresh hd]
        rfl
    exact ⟨iff_of_true hacc ⟨v, rfl⟩, .inl hacc⟩

theorem stopped_run {ms : List Move} (h : p.registry.stopped = true) : (p.run ms).registry.stopped = true := by
  induction ms generalizing p with
  | nil => exact h
  | cons m ms ih =>
    refine ih ?_
    have hm := step_moved p m
    generalize p.step m = p' at hm
    cases hm with
    | @step j u reply hc hready hlock =>
      show (u.call.advance p.registry _).registry.stopped = true
      rw [Call.advance_stopped, h]
      rfl
    | aside hm ha => rw [ha.stopped]; exact h
    | _ => exact h

/-- the moves of a request from the lock up to its decision, with those of others between -/
def toDecision (k : Nat) (r₀ r₁ : Reply) (o₁ o₂ o₃ : List Move) : List Move :=
  .step k r₀ :: (o₁ ++ .ask k :: (o₂ ++ .step k r₁ :: o₃))

theorem decided_under_lock (hp : p.Reachable) (hc : p.call? k = some ⟨.request q report .locking, false⟩)
    (hfree : p.isFree k = true) {o₁ o₂ o₃ : List Move} (h₁ : Elsewhere k o₁) (h₂ : Elsewhere k o₂)
    (h₃ : Elsewhere k o₃) (r₀ r₁ : Reply) :
    ((p.run (toDecision k r₀ r₁ o₁ o₂ o₃)).registry.stopped = true ∨ r₁.live = false) ∧
        (∃ why, q.Rejection why ∧ (p.run (toDecision k r₀ r₁ o₁ o₂ o₃)).Returned k (.failed why)) ∨
      (p.run (toDecision k r₀ r₁ o₁ o₂ o₃)).registry.stopped = false ∧ r₁.live = true ∧
        (p.run (toDecision k r₀ r₁ o₁ o₂ o₃)).call? k = some ⟨.request q report .deciding, false⟩ := by
  unfold toDecision
  rcases locking_step hc hfree r₀ with ⟨hs, hret⟩ | ⟨-, hc₁⟩
  · exact .inl ⟨.inl (stopped_run hs), _, .shuttingDown, returned_run hret _⟩
  · have hlt₁ := lt_of_call? hc₁
    rw [run_cons, run_append, run_cons, run_append, run_cons]
    have hr := ((hp.step (.step k r₀)).run o₁).step (.ask k)
    generalize p.step (.step k r₀) = p₁ at hc₁ hlt₁ hr ⊢
    have hc₁' : (p₁.run o₁).call? k = some ⟨.request q report .rechecking, false⟩ := by
      rw [call?_run_of_elsewhere h₁ hlt₁, hc₁]
    have hc₂ : ((p₁.run o₁).step (.ask k)).call? k = some ⟨.request q report .rechecking, true⟩ := by
      rw [step_eq_pose hc₁' (by simp [Call.query]), call?_pose hc₁', if_pos rfl]
    generalize (p₁.run o₁).step (.ask k) = p₂ at hc₂ hr ⊢
    have hc₂' : (p₂.run o₂).call? k = some ⟨.request q report .rechecking, true⟩ := by
      rw [call?_run_of_elsewhere h₂ (lt_of_call? hc₂), hc₂]
    have hr' := ((hr.run o₂).step (.step k r₁)).run o₃
    rcases rechecking_step hc₂' r₁ with ⟨hl, hret⟩ | ⟨hl, hc₃⟩
    · exact .inl ⟨.inr hl, _, .senderLeft, returned_run hret _⟩
    · have hc₃' : (((p₂.run o₂).step (.step k r₁)).run o₃).call? k = some ⟨.request q report .deciding, false⟩ := by
        rw [call?_run_of_elsewhere h₃ (lt_of_call? hc₃), hc₃]
      exact .inr ⟨hr'.locked.unstopped k _ hc₃' rfl, hl, hc₃'⟩

/-! ## What an accepted request returns -/

theorem course_of_deciding (hp : p.Reachable) (hc : p.call? k = some ⟨.request q report .deciding, false⟩)
    {m : Move} {i : RecordId} (ha : (p.step m).AcceptedFor k q report i) : (p.step m).Course k q report i := by
  rcases step_open hp hc rfl m with ⟨⟨pt', b', hc', hpt'⟩ | ⟨why, -, hret⟩, -⟩ | ⟨j, ha', hid⟩
  · rw [ha] at hc'
    cases hc'
    cases hpt'
  · exact absurd ha (not_acceptedFor_of_returned (hp.step m) hret i)
  · rw [AcceptedFor, ha] at ha'
    cases ha'
    exact .resolving ha hid

/-- an accepted request that has ended returned its record or that the alias was not found -/
theorem Course.returned {i : RecordId} (h : p.Course k q report i) (he : p.Ended k) :
    p.Returned k (.record i) ∨ p.Returned k (.failed (.aliasNotFound q.moduleAlias q.id)) := by
  cases h with
  | resolving hc hid => exact absurd he (not_ended hc)
  | notifying hc => exact absurd he (not_ended hc)
  | served ho => exact .inl ho
  | unresolved ho => exact .inr ho

/-- a request fails only with one of the five rejections -/
theorem Stage.failed (hp : p.Reachable) (h : p.Stage k q report) {why : Failure} (ho : p.Returned k (.failed why)) :
    q.Rejection why ∨ why = .aliasNotFound q.moduleAlias q.id := by
  have hend := hp.settled.returned k _ ho
  cases h with
  | undecided hc hpt => exact absurd hend (not_ended hc)
  | rejected hr ho' =>
    cases hp.settled.unique k _ _ ho ho'
    exact .inl hr
  | accepted h =>
    rcases h.returned hend with ho' | ho'
    · cases hp.settled.unique k _ _ ho ho'
    · cases hp.settled.unique k _ _ ho ho'
      exact .inr rfl

/-- **acceptance**: whatever calls come between its moves and in whatever order the cache is met, a request that takes
the lock is accepted exactly if the registry is not stopped, its sender is live, and the deployment is cached with its
number or nothing cached speaks against it; otherwise it is turned away. An accepted request returns its record exactly
if the alias is or becomes resolved, and that the alias was not found otherwise: this is said of the cell that it took
for the alias, and of the alias itself where it was resolved before or nobody else resolves it at the same time. Left
alone it returns. A request fails only with one of the five rejections. -/
theorem accepted_iff_admitted (hp : p.Reachable) (hc : p.call? k = some ⟨.request q report .locking, false⟩)
    (hfree : p.isFree k = true) {o₁ o₂ o₃ : List Move} (h₁ : Elsewhere k o₁) (h₂ : Elsewhere k o₂)
    (h₃ : Elsewhere k o₃) (r₀ r₁ r₂ : Reply) :
    let d := p.run (toDecision k r₀ r₁ o₁ o₂ o₃)
    let p' := d.step (.step k r₂)
    ((∃ i, p'.AcceptedFor k q report i) ↔
        d.registry.stopped = false ∧ r₁.live = true ∧
          ((∃ i, d.registry.Known q i) ∨ d.registry.Admits q d.now)) ∧
      ((∃ i, p'.AcceptedFor k q report i) ∨ ∃ why, q.Rejection why ∧ p'.Returned k (.failed why)) ∧
      (∀ i, p'.AcceptedFor k q report i →
        (∀ ms, (p'.run ms).Ended k →
          ((p'.run ms).Returned k (.record i) ∨
              (p'.run ms).Returned k (.failed (.aliasNotFound q.moduleAlias q.id))) ∧
            ((p'.run ms).Returned k (.record i) ↔ p'.ResolvedDuring k i q.moduleAlias ms) ∧
            ((p'.registry.record i).hasResolved q.moduleAlias = true → (p'.run ms).Returned k (.record i)) ∧
            (p'.Undisturbed k i q.moduleAlias ms →
              ((p'.run ms).Returned k (.record i) ↔ p'.ResolvedMeanwhile k i q.moduleAlias ms))) ∧
          (p'.Unblocked k i q.moduleAlias → ∀ reply, (p'.run (turns k reply 4)).Ended k)) ∧
      ∀ (p₀ : Pool) (ms : List Move) (why : Failure), p₀.Reachable → q.WellFormed →
        (p₀.run (.enter (.request q report .entering) :: ms)).Returned p₀.calls.length (.failed why) →
          q.Rejection why ∨ why = .aliasNotFound q.moduleAlias q.id := by
  intro d p'
  have hd : d.Reachable := hp.run _
  have hp' : p'.Reachable := hd.step _
  have hpath := decided_under_lock hp hc hfree h₁ h₂ h₃ r₀ r₁
  refine ⟨?_, ?_, fun i ha => ⟨?_, ?_⟩, ?_⟩
  · rcases hpath with ⟨hno, why, -, hret⟩ | ⟨hs, hl, hc'⟩
    · refine iff_of_false ?_ ?_
      · rintro ⟨i, ha⟩
        exact not_acceptedFor_of_returned hp' (returned_step hret _) i ha
      · rintro ⟨hs, hl, -⟩
        rcases hno with h | h
        · rw [hs] at h
          cases h
        · rw [hl] at h
          cases h
    · rw [(deciding_step hd hc' r₂).1]
      exact ⟨fun h => ⟨hs, hl, h⟩, fun h => h.2.2⟩
  · rcases hpath with ⟨-, why, hr, hret⟩ | ⟨-, -, hc'⟩
    · exact .inr ⟨why, hr, returned_step hret _⟩
    · exact (deciding_step hd hc' r₂).2
  · intro ms he
    have hcourse : p'.Course k q report i := by
      rcases hpath with ⟨-, why, -, hret⟩ | ⟨-, -, hc'⟩
      · exact absurd ha (not_acceptedFor_of_returned hp' (returned_step hret _) i)
      · exact course_of_deciding hd hc' ha
    exact ⟨(hcourse.run hp' ms).returned he, served_iff hp' ha he,
      fun hr => served_of_hasResolved hp' ha hr he, fun hal => served_iff_resolvedMeanwhile hp' ha trivial hal he⟩
  · intro hu reply
    exact ended_turns hp' ha hu reply (by decide)
  · intro p₀ ms why hp₀ hq ho
    have hstage : (p₀.step (.enter (.request q report .entering))).Stage p₀.calls.length q report :=
      .undecided (call?_begin hq report) rfl
    exact (hstage.run (hp₀.step _) ms).failed ((hp₀.step _).run ms) ho

/-- a request that is late within the network timeout, the clock moving while it holds the lock -/
theorem accepted_within_timeout :
    let y : Request := { id := ⟨"y"⟩, sender := ⟨"s"⟩, seq := 2, moduleAlias := "a" }
    let x : Request := { id := ⟨"x"⟩, sender := ⟨"s"⟩, seq := 1, moduleAlias := "a" }
    let p := (new 100).run
      (.enter (.request y true .entering) :: turns 0 { module := .ok ⟨"m", false⟩ } 8 ++
        .pass 50 :: .enter (.request x true .entering) :: turns 1 {} 1)
    let d := p.run (toDecision 1 {} {} [.pass 20] [.addHook 7] [.pass 20])
    let p' := d.step (.step 1 {})
    (d.registry.record 0).IsAhead x ∧ p'.AcceptedFor 1 x true 1 ∧
      ((∃ i, d.registry.Known x i) ∨ d.registry.Admits x d.now) ∧
      (p'.run (turns 1 { module := .ok ⟨"n", true⟩ } 4)).Returned 1 (.record 1) := by
  intro y x p d p'
  have hp : p.Reachable := ⟨100, _, rfl⟩
  have hc : p.call? 1 = some ⟨.request x true .locking, false⟩ := by decide +kernel
  have hfree : p.isFree 1 = true := by decide +kernel
  have ha : p'.AcceptedFor 1 x true 1 := by
    show p'.call? 1 = some _
    decide +kernel
  have hend : (p'.run (turns 1 { module := .ok ⟨"n", true⟩ } 4)).Ended 1 :=
    ⟨by decide +kernel, by decide +kernel⟩
  have hnot : ¬ (p'.run (turns 1 { module := .ok ⟨"n", true⟩ } 4)).Returned 1 (.failed (.aliasNotFound "a" ⟨"x"⟩)) := by
    decide +kernel
  have helse : Elsewhere 1 [.pass 20] ∧ Elsewhere 1 [.addHook 7] := by simp [Elsewhere, Move.place?]
  have hahead : (d.registry.record 0).IsAhead x := by decide +kernel
  obtain ⟨hiff, -, hret, -⟩ := accepted_iff_admitted hp hc hfree helse.1 helse.2 helse.1 {} {} {}
  refine ⟨hahead, ha, (hiff.1 ⟨1, ha⟩).2.2, ?_⟩
  exact ((hret 1 ha).1 _ hend).1.resolve_right hnot

end Pool

end Redeploy
