/-
The course of an accepted request among the moves of all other calls.

The request resolves its alias on the record it was accepted for, and tells the sink if it made the module. What its
own moves do depends on the point where it stands; moves elsewhere leave it there (`call?_step_of_ne`).

Results:
- `step_resolving`, `step_notifying`: what a move does to the request, by where it stands;
- `Course.run`: it returns its record, or that the alias was not found, and nothing else;
- **`served_iff`**: it returns the record exactly if the cell that it took for the alias comes to hold a module;
- `served_of_hasResolved`: so it does where the alias was resolved when it was accepted;
- **`served_iff_resolvedMeanwhile`**: with nobody else on the alias, exactly if the alias is resolved before it ends;
- **`ended_turns`**: where no other call fills the cell it returns, left alone.
-/
import Redeploy.Proofs.Cells

namespace Redeploy

open Registry

namespace Pool

/-! ## Moves of one call -/

theorem step_eq_advance {p : Pool} {k : Nat} {u : Underway} (hc : p.call? k = some u)
    (hready : u.asking = true ∨ u.call.query p.registry = .nothing)
    (hlock : u.call.needsLock = true → p.isFree k = true) (reply : Reply) :
    p.step (.step k reply) = p.advance k u.call reply := by
  obtain ⟨c, asking⟩ := u
  have hgate : ((asking || c.query p.registry == .nothing) && (!c.needsLock || p.isFree k)) = true := by
    cases hn : c.needsLock with
    | false => simpa using hready
    | true => simpa [hlock hn] using hready
  simp only [Pool.step, hc, hgate, if_true]

theorem step_eq_pose {p : Pool} {k : Nat} {c : Call} (hc : p.call? k = some ⟨c, false⟩)
    (hq : c.query p.registry ≠ .nothing) : p.step (.ask k) = p.pose k c := by
  simp [Pool.step, hc, hq]

/-- a move of a call does nothing, puts its query, or does its next step -/
theorem step_self {p : Pool} {m : Move} {k : Nat} (hm : m.place? = some k) {u : Underway} (hc : p.call? k = some u) :
    p.step m = p ∨ p.step m = p.pose k u.call ∨
      ∃ reply, m = .step k reply ∧ p.step m = p.advance k u.call reply ∧
        (u.asking = true ∨ u.call.query p.registry = .nothing) := by
  have h := step_moved p m
  generalize hp' : p.step m = p' at h
  cases h with
  | idle => exact .inl rfl
  | @ask j c hc' hq =>
    obtain rfl : j = k := Option.some.inj hm
    rw [hc] at hc'
    cases hc'
    exact .inr (.inl rfl)
  | @step j u' reply hc' hready hlock =>
    obtain rfl : j = k := Option.some.inj hm
    rw [hc] at hc'
    cases hc'
    exact .inr (.inr ⟨reply, rfl, rfl, hready⟩)
  | enter hc' => cases hm
  | evict he hdue => cases hm
  | aside hnone ha => rw [hnone] at hm; cases hm

/-- a move leaves a call where it is, or does the call's next step, with the lock if that needs it -/
theorem step_call {p : Pool} {k : Nat} {u : Underway} (hc : p.call? k = some u) (m : Move) :
    (∃ b, (p.step m).call? k = some ⟨u.call, b⟩) ∨
      ∃ reply, m = .step k reply ∧ p.step m = p.advance k u.call reply ∧
        (u.call.needsLock = true → p.isFree k = true) := by
  by_cases hm : m.place? = some k
  · have h := step_moved p m
    generalize hp' : p.step m = p' at h
    cases h with
    | idle => exact .inl ⟨u.asking, hc⟩
    | @ask j c hc' hq =>
      obtain rfl : j = k := Option.some.inj hm
      rw [hc] at hc'
      cases hc'
      exact .inl ⟨true, by rw [call?_pose hc, if_pos rfl]⟩
    | @step j u' reply hc' hready hlock =>
      obtain rfl : j = k := Option.some.inj hm
      rw [hc] at hc'
      cases hc'
      exact .inr ⟨reply, rfl, rfl, hlock⟩
    | enter hc' => cases hm
    | evict he hdue => cases hm
    | aside hnone ha => rw [hnone] at hm; cases hm
  · exact .inl ⟨u.asking, by rw [call?_step_of_ne hm (lt_of_call? hc)]; exact hc⟩

/-- a call after a move was there before, has just begun, or has done its next step -/
theorem call_step {p : Pool} {m : Move} {k : Nat} {v : Underway} (hv : (p.step m).call? k = some v) :
    (∃ b, p.call? k = some ⟨v.call, b⟩) ∨ (v.call.IsNew p.registry = true ∨ ∃ i, v.call = .remove (.expiry i)) ∨
      ∃ reply u, m = .step k reply ∧ p.call? k = some u ∧ p.step m = p.advance k u.call reply := by
  have hm := step_moved p m
  generalize hp' : p.step m = p' at hm hv
  cases hm with
  | enter hc =>
    rw [call?_enter] at hv
    split at hv
    · cases hv
      exact .inr (.inl (.inl hc))
    · exact .inl ⟨v.asking, hv⟩
  | evict he hdue =>
    rw [call?_enter] at hv
    split at hv
    · cases hv
      exact .inr (.inl (.inr ⟨_, rfl⟩))
    · exact .inl ⟨v.asking, hv⟩
  | @ask j c hc hq =>
    rw [call?_pose hc] at hv
    split at hv
    · rename_i hk
      cases hv
      exact .inl ⟨false, hk ▸ hc⟩
    · exact .inl ⟨v.asking, hv⟩
  | @step j u reply hc hready hlock =>
    by_cases hk : k = j
    · subst hk
      exact .inr (.inr ⟨reply, u, rfl, hc, rfl⟩)
    · rw [call?_advance hc, if_neg hk] at hv
      exact .inl ⟨v.asking, hv⟩
  | aside hm ha => exact .inl ⟨v.asking, ha.call? k ▸ hv⟩
  | idle => exact .inl ⟨v.asking, hv⟩

theorem returned_step {p : Pool} {k : Nat} {o : Outcome} (h : p.Returned k o) (m : Move) :
    (p.step m).Returned k o := trace_step h

theorem returned_run {p : Pool} {k : Nat} {o : Outcome} (h : p.Returned k o) (ms : List Move) :
    (p.run ms).Returned k o := by
  induction ms generalizing p with
  | nil => exact h
  | cons m ms ih => exact ih (returned_step h m)

/-! ## A request that resolves its alias -/

/-- what has become of the request at the place after a step of its resolution on the record -/
def Follows (p : Pool) (k : Nat) (q : Request) (report : Bool) (i : RecordId) (pt : LookupPoint) :
    Call.LookupStep → Prop
  | .go pt' => p.call? k = some ⟨.request q report (.resolving i pt'), false⟩
  | .wait => p.call? k = some ⟨.request q report (.resolving i pt), false⟩
  | .found m true => p.call? k = some ⟨.request q report (.notifying i m.isTask), false⟩
  | .found _ false => p.Returned k (.record i)
  | .failed _ => p.Returned k (.failed (.aliasNotFound q.moduleAlias (p.registry.record i).id))

theorem follows_advance {p : Pool} {k : Nat} {q : Request} {report b : Bool} {i : RecordId} {pt : LookupPoint}
    (hc : p.call? k = some ⟨.request q report (.resolving i pt), b⟩) (reply : Reply) :
    (p.advance k (.request q report (.resolving i pt)) reply).Follows k q report i pt
      (Call.advanceLookup p.registry i q.moduleAlias { reply with now := p.now } pt).2 := by
  have hcall := call?_advance hc reply k
  rw [if_pos rfl] at hcall
  have hret : ∀ o, (Call.advance p.registry { reply with now := p.now } (.request q report (.resolving i pt))).next =
      .done o → (p.advance k (.request q report (.resolving i pt)) reply).Returned k o :=
    fun o h => returned_advance.2 (.inr ⟨rfl, h⟩)
  have hreg : (p.advance k (.request q report (.resolving i pt)) reply).registry =
      (Call.advanceLookup p.registry i q.moduleAlias { reply with now := p.now } pt).1 :=
    Call.advance_registry_of_lookup? rfl
  simp only [Call.advance, Call.advanceRequest] at hcall hret
  generalize hs : Call.advanceLookup p.registry i q.moduleAlias { reply with now := p.now } pt = s at hcall hret hreg
  obtain ⟨g', n⟩ := s
  cases n with
  | go pt' => exact hcall
  | wait => exact hcall
  | found m fresh =>
    cases fresh with
    | true => exact hcall
    | false => exact hret _ rfl
  | failed why =>
    refine hret _ ?_
    rw [hreg]
    rfl

/-- a move of another call leaves a request where it is; one of its own puts its query or is a step of `Looks` -/
theorem step_resolving {p : Pool} (hp : p.Reachable) {k : Nat} {q : Request} {report b : Bool} {i : RecordId}
    {pt : LookupPoint} (hc : p.call? k = some ⟨.request q report (.resolving i pt), b⟩) (m : Move) :
    (∃ b', (p.step m).call? k = some ⟨.request q report (.resolving i pt), b'⟩) ∧
        (m.place? = some k → (p.step m).registry = p.registry) ∨
      ∃ reply n, m = .step k reply ∧
        Call.Looks (p.registry.record i) q.moduleAlias { reply with now := p.now } pt ((p.step m).registry.record i) n ∧
        (p.step m).Follows k q report i pt n := by
  by_cases hm : m.place? = some k
  · rcases step_self hm hc with h | h | ⟨reply, rfl, h, -⟩
    · rw [h]
      exact .inl ⟨⟨b, hc⟩, fun _ => rfl⟩
    · rw [h]
      refine .inl ⟨⟨true, ?_⟩, fun _ => rfl⟩
      rw [call?_pose hc, if_pos rfl]
    · obtain ⟨owner, hk⟩ := hp.kept
      rw [h]
      refine .inr ⟨reply, _, rfl, ?_, follows_advance hc reply⟩
      have hreg : (p.advance k (.request q report (.resolving i pt)) reply).registry =
          (Call.advanceLookup p.registry i q.moduleAlias { reply with now := p.now } pt).1 :=
        Call.advance_registry_of_lookup? rfl
      rw [hreg]
      exact Call.advanceLookup_looks _ (hk.placed k i q.moduleAlias pt ⟨_, hc, rfl⟩) ..
  · rw [call?_step_of_ne hm (lt_of_call? hc)]
    exact .inl ⟨⟨b, hc⟩, fun h => absurd h hm⟩

/-- a request that tells the sink goes on to return its record -/
theorem step_notifying {p : Pool} {k : Nat} {q : Request} {report b t : Bool} {i : RecordId}
    (hc : p.call? k = some ⟨.request q report (.notifying i t), b⟩) (m : Move) :
    (∃ b', (p.step m).call? k = some ⟨.request q report (.notifying i t), b'⟩) ∨ (p.step m).Returned k (.record i) := by
  by_cases hm : m.place? = some k
  · rcases step_self hm hc with h | h | ⟨reply, rfl, h, -⟩
    · rw [h]
      exact .inl ⟨b, hc⟩
    · rw [h]
      refine .inl ⟨true, ?_⟩
      rw [call?_pose hc, if_pos rfl]
    · rw [h]
      exact .inr (returned_advance.2 (.inr ⟨rfl, rfl⟩))
  · rw [call?_step_of_ne hm (lt_of_call? hc)]
    exact .inl ⟨b, hc⟩

/-! ## An accepted request -/

/-- the request at the place was accepted for the record and has not looked for its alias yet -/
def AcceptedFor (p : Pool) (k : Nat) (q : Request) (report : Bool) (i : RecordId) : Prop :=
  p.call? k = some ⟨.request q report (.resolving i .looking), false⟩

/-- the request resolves its alias on the record, tells the sink about it, or has returned -/
inductive Course (p : Pool) (k : Nat) (q : Request) (report : Bool) (i : RecordId) : Prop
  | resolving {pt : LookupPoint} {b : Bool} (hc : p.call? k = some ⟨.request q report (.resolving i pt), b⟩)
    (hid : (p.registry.record i).id = q.id)
  | notifying {t b : Bool} (hc : p.call? k = some ⟨.request q report (.notifying i t), b⟩)
  | served (ho : p.Returned k (.record i))
  | unresolved (ho : p.Returned k (.failed (.aliasNotFound q.moduleAlias q.id)))

theorem origin_step {p : Pool} (hs : p.Sound) (m : Move) {i : RecordId} (hi : i < p.registry.records.length) :
    ((p.step m).registry.record i).origin = (p.registry.record i).origin := by
  have hm := step_moved p m
  generalize p.step m = p' at hm
  cases hm with
  | @step k u reply hc hready hlock =>
    obtain ⟨born, gone, claimed, hd⟩ := hs.does hc reply
    exact (hd.evolves hs.coherent (hs.named k u hc)).origin i hi
  | aside hm ha => rw [ha.record]
  | _ => rfl

theorem Course.step {p : Pool} (hp : p.Reachable) {k : Nat} {q : Request} {report : Bool} {i : RecordId}
    (h : p.Course k q report i) (m : Move) : (p.step m).Course k q report i := by
  cases h with
  | @resolving pt b hc hid =>
    obtain ⟨owner, hk⟩ := hp.kept
    have hi := hk.placed k i q.moduleAlias pt ⟨_, hc, rfl⟩
    have hid' : ((p.step m).registry.record i).id = q.id := by
      have ho := congrArg Record.id (origin_step hp.sound m hi)
      simp only [Record.origin] at ho
      rw [ho, hid]
    rcases step_resolving hp hc m with ⟨⟨b', hc'⟩, -⟩ | ⟨reply, n, rfl, hlooks, hf⟩
    · exact .resolving hc' hid'
    · cases n with
      | go pt' => exact .resolving hf hid'
      | wait => exact .resolving hf hid'
      | found m fresh =>
        cases fresh with
        | true => exact .notifying hf
        | false => exact .served hf
      | failed why => exact .unresolved (hid' ▸ hf)
  | notifying hc =>
    rcases step_notifying hc m with ⟨b', hc'⟩ | ho
    · exact .notifying hc'
    · exact .served ho
  | served ho => exact .served (returned_step ho m)
  | unresolved ho => exact .unresolved (returned_step ho m)

theorem Course.run {p : Pool} (hp : p.Reachable) {k : Nat} {q : Request} {report : Bool} {i : RecordId}
    (h : p.Course k q report i) (ms : List Move) : (p.run ms).Course k q report i := by
  induction ms using List.reverseRecOn with
  | nil => exact h
  | append_singleton ms m ih =>
    rw [run_append]
    exact ih.step (hp.run ms) m

/-- the call at the place resolves the alias on the record and has taken the cell -/
def Holds (p : Pool) (k : Nat) (i : RecordId) (a : String) (cell : Nat) : Prop :=
  ∃ pt, p.Resolves k i a pt ∧ pt.cell? = some cell

/-- at some moment of the run the cell that the call has taken for the alias holds a module -/
def ResolvedDuring (p : Pool) (k : Nat) (i : RecordId) (a : String) (ms : List Move) : Prop :=
  ∃ before m after cell, ms = before ++ m :: after ∧ (p.run before).Holds k i a cell ∧
    (((p.run before).step m).registry.record i).content? cell ≠ none

theorem resolvedDuring_cons {p : Pool} {k : Nat} {i : RecordId} {a : String} {m : Move} {ms : List Move} :
    p.ResolvedDuring k i a (m :: ms) ↔
      (∃ cell, p.Holds k i a cell ∧ ((p.step m).registry.record i).content? cell ≠ none) ∨
        (p.step m).ResolvedDuring k i a ms := by
  constructor
  · rintro ⟨before, m', after, cell, heq, hh, hf⟩
    cases before with
    | nil =>
      cases heq
      exact .inl ⟨cell, hh, hf⟩
    | cons m'' before =>
      cases heq
      exact .inr ⟨before, m', after, cell, rfl, hh, hf⟩
  · rintro (⟨cell, hh, hf⟩ | ⟨before, m', after, cell, rfl, hh, hf⟩)
    · exact ⟨[], m, ms, cell, rfl, hh, hf⟩
    · exact ⟨m :: before, m', after, cell, rfl, hh, hf⟩

/-- a request that has found its module returns the record -/
theorem served_of_notifying {p : Pool} {k : Nat} {q : Request} {report b t : Bool} {i : RecordId} {ms : List Move}
    (hc : p.call? k = some ⟨.request q report (.notifying i t), b⟩) (he : (p.run ms).Ended k) :
    (p.run ms).Returned k (.record i) := by
  induction ms generalizing p b with
  | nil => exact absurd he (not_ended hc)
  | cons m ms ih =>
    rcases step_notifying hc m with ⟨b', hc'⟩ | ho
    · exact ih hc' he
    · exact returned_run ho ms

theorem content?_step {p : Pool} (hp : p.Reachable) (m : Move) {i : RecordId} {cell : Nat}
    (h : (p.registry.record i).content? cell ≠ none) : ((p.step m).registry.record i).content? cell ≠ none := by
  obtain ⟨owner, hk⟩ := hp.kept
  rcases record_step hp.sound hk m i with hstore | ⟨j, reply, a, pt, n, rfl, hres, hlooks⟩
  · have hcells : ((p.step m).registry.record i).cells = (p.registry.record i).cells := congrArg Prod.fst hstore
    simpa [Record.content?, hcells] using h
  · obtain ⟨c, hc⟩ := Option.ne_none_iff_exists'.1 h
    exact Option.ne_none_iff_exists'.2 ⟨c, hlooks.content?_eq_some (fun _ => hp.busy_cell hres) hc⟩

/-- a request whose cell holds a module returns the record -/
theorem served_of_content {p : Pool} (hp : p.Reachable) {k : Nat} {q : Request} {report b : Bool} {i : RecordId}
    {cell : Nat} {ms : List Move} (hc : p.call? k = some ⟨.request q report (.resolving i (.trying cell)), b⟩)
    (hm : (p.registry.record i).content? cell ≠ none) (he : (p.run ms).Ended k) :
    (p.run ms).Returned k (.record i) := by
  induction ms generalizing p b with
  | nil => exact absurd he (not_ended hc)
  | cons m ms ih =>
    rcases step_resolving hp hc m with ⟨⟨b', hc'⟩, -⟩ | ⟨reply, n, rfl, hlooks, hf⟩
    · exact ih (hp.step m) hc' (content?_step hp m hm) he
    · -- a cell with a module is neither empty nor busy
      generalize hr : p.registry.record i = r at hlooks hm
      generalize hr' : (p.step (.step k reply)).registry.record i = r' at hlooks
      cases hlooks with
      | full h => exact returned_run hf ms
      | missing h => simp [Record.content?, h] at hm
      | busy h => simp [Record.content?, h] at hm
      | gone h hu => simp [Record.content?, h] at hm
      | ask h hu => simp [Record.content?, h] at hm

theorem holds_iff {p : Pool} {k : Nat} {q : Request} {report b : Bool} {i : RecordId} {pt : LookupPoint} {cell : Nat}
    (hc : p.call? k = some ⟨.request q report (.resolving i pt), b⟩) :
    p.Holds k i q.moduleAlias cell ↔ pt.cell? = some cell := by
  constructor
  · rintro ⟨pt', ⟨u, hu, hl⟩, hcell⟩
    rw [hc] at hu
    cases hu
    cases hl
    exact hcell
  · intro h
    exact ⟨pt, ⟨_, hc, rfl⟩, h⟩

theorem not_resolvedDuring_of_ended {p : Pool} {k : Nat} {i : RecordId} {a : String} {ms : List Move}
    (he : p.Ended k) : ¬ p.ResolvedDuring k i a ms := by
  rintro ⟨before, m, after, cell, -, ⟨pt, ⟨u, hu, -⟩, -⟩, -⟩
  exact not_ended hu (he.run before)

/-- a call that is about to be answered has an empty cell -/
theorem content?_of_asking {p : Pool} (hp : p.Reachable) {k : Nat} {i : RecordId} {a : String} {cell : Nat}
    (h : p.Resolves k i a (.asking cell)) : (p.registry.record i).content? cell = none := by
  simp [Record.content?, hp.busy_cell h rfl]

/-- **an accepted request returns its record exactly if the alias is or becomes resolved for it** -/
theorem served_iff {p : Pool} (hp : p.Reachable) {k : Nat} {q : Request} {report b : Bool} {i : RecordId}
    {pt : LookupPoint} {ms : List Move} (hc : p.call? k = some ⟨.request q report (.resolving i pt), b⟩)
    (he : (p.run ms).Ended k) :
    (p.run ms).Returned k (.record i) ↔ p.ResolvedDuring k i q.moduleAlias ms := by
  induction ms generalizing p b pt with
  | nil => exact absurd he (not_ended hc)
  | cons m ms ih =>
    have hp' : (p.step m).Reachable := hp.step m
    rw [resolvedDuring_cons, run_cons]
    -- where the move leaves the request without a module, the rest of the run decides
    have hrest {pt' : LookupPoint} {b' : Bool}
        (hc' : (p.step m).call? k = some ⟨.request q report (.resolving i pt'), b'⟩)
        (hnone : ∀ cell, pt.cell? = some cell → ((p.step m).registry.record i).content? cell = none) :
        ((p.step m).run ms).Returned k (.record i) ↔
          (∃ cell, p.Holds k i q.moduleAlias cell ∧ ((p.step m).registry.record i).content? cell ≠ none) ∨
            (p.step m).ResolvedDuring k i q.moduleAlias ms := by
      rw [or_iff_right]
      · exact ih hp' hc' he
      · rintro ⟨cell, hh, hf⟩
        exact hf (hnone cell ((holds_iff hc).1 hh))
    rcases step_resolving hp hc m with ⟨⟨b', hc'⟩, -⟩ | ⟨reply, n, rfl, hlooks, hf⟩
    · by_cases hnone : ∀ cell, pt.cell? = some cell → ((p.step m).registry.record i).content? cell = none
      · exact hrest hc' hnone
      · push Not at hnone
        obtain ⟨cell, hcell, hm⟩ := hnone
        refine iff_of_true ?_ (.inl ⟨cell, (holds_iff hc).2 hcell, hm⟩)
        cases pt with
        | trying cell' =>
          cases hcell
          exact served_of_content hp' hc' hm he
        | asking cell' =>
          cases hcell
          exact absurd (content?_of_asking hp' ⟨_, hc', rfl⟩) hm
        | _ => cases hcell
    · have hbusy : ∀ cell, pt = .asking cell → (p.registry.record i).cells[cell]? = some ⟨none, true⟩ :=
        fun _ => hp.busy_cell ⟨_, hc, rfl⟩
      generalize p.registry.record i = r at hlooks hbusy
      generalize hr' : (p.step (.step k reply)).registry.record i = r' at hlooks hrest ⊢
      cases hlooks with
      | found h => exact hrest hf (by simp [LookupPoint.cell?])
      | opened h => exact hrest hf (by simp [LookupPoint.cell?])
      | missing h => exact hrest hf (by simp [LookupPoint.cell?, Record.content?, h])
      | busy h => exact hrest hf (by simp [LookupPoint.cell?, Record.content?, h])
      | gone h hu => exact hrest hf (by simp [LookupPoint.cell?, Record.content?, h])
      | ask h hu =>
        have hlt := (List.getElem?_eq_some_iff.1 h).1
        exact hrest hf (by simp [LookupPoint.cell?, Record.content?, Record.setCell, hlt])
      | refused h =>
        have hlt := (List.getElem?_eq_some_iff.1 (hbusy _ rfl)).1
        exact hrest hf (by simp [LookupPoint.cell?, Record.content?, Record.setCell, hlt])
      | full h =>
        refine iff_of_true (returned_run hf ms) (.inl ⟨_, (holds_iff hc).2 rfl, ?_⟩)
        rw [h]
        exact Option.some_ne_none _
      | made h =>
        have hlt := (List.getElem?_eq_some_iff.1 (hbusy _ rfl)).1
        refine iff_of_true (served_of_notifying hf he) (.inl ⟨_, (holds_iff hc).2 rfl, ?_⟩)
        simp [Record.content?, Record.setCell, hlt]
      | cleared =>
        have hend := hp'.settled.returned k _ hf
        refine iff_of_false ?_ ?_
        · intro h
          cases (hp'.run ms).settled.unique k _ _ h (returned_run hf ms)
        · rintro (⟨cell, hh, -⟩ | h)
          · cases (holds_iff hc).1 hh
          · exact not_resolvedDuring_of_ended hend h

/-- a request for an alias that is resolved returns the record -/
theorem served_of_hasResolved {p : Pool} (hp : p.Reachable) {k : Nat} {q : Request} {report b : Bool} {i : RecordId}
    {ms : List Move} (hc : p.call? k = some ⟨.request q report (.resolving i .looking), b⟩)
    (hr : (p.registry.record i).hasResolved q.moduleAlias = true) (he : (p.run ms).Ended k) :
    (p.run ms).Returned k (.record i) := by
  induction ms generalizing p b with
  | nil => exact absurd he (not_ended hc)
  | cons m ms ih =>
    have hp' : (p.step m).Reachable := hp.step m
    rcases step_resolving hp hc m with ⟨⟨b', hc'⟩, -⟩ | ⟨reply, n, rfl, hlooks, hf⟩
    · exact ih hp' hc' (hasResolved_run hp hr [m]) he
    · obtain ⟨module, hmod⟩ := Record.hasResolved_iff.1 hr
      obtain ⟨cell, hslot, hcell⟩ := Record.module?_eq_some.1 hmod
      have hcell' := @content?_step p hp (.step k reply) i cell (by simp [hcell])
      generalize p.registry.record i = r at hlooks hslot
      generalize (p.step (.step k reply)).registry.record i = r' at hlooks
      cases hlooks with
      | found h =>
        rw [hslot] at h
        cases h
        exact served_of_content hp' hf hcell' he
      | opened h =>
        rw [hslot] at h
        cases h

/-! ## With nobody else on the alias -/

/-- while the call at the place resolves the alias on the record, no other does -/
def Undisturbed (p : Pool) (k : Nat) (i : RecordId) (a : String) (ms : List Move) : Prop :=
  ∀ before, before <+: ms → (∃ pt, (p.run before).Resolves k i a pt) → (p.run before).Alone k i a

/-- at some moment of the run at which the call has not ended, the alias is resolved on the record -/
def ResolvedMeanwhile (p : Pool) (k : Nat) (i : RecordId) (a : String) (ms : List Move) : Prop :=
  ∃ before, before <+: ms ∧ ¬ (p.run before).Ended k ∧ ((p.run before).registry.record i).hasResolved a = true

theorem resolvedMeanwhile_cons {p : Pool} {k : Nat} {i : RecordId} {a : String} {m : Move} {ms : List Move} :
    p.ResolvedMeanwhile k i a (m :: ms) ↔
      ¬ p.Ended k ∧ (p.registry.record i).hasResolved a = true ∨ (p.step m).ResolvedMeanwhile k i a ms := by
  constructor
  · rintro ⟨before, hpre, he, hr⟩
    cases before with
    | nil => exact .inl ⟨he, hr⟩
    | cons m' before =>
      obtain ⟨rfl, hpre'⟩ := List.cons_prefix_cons.1 hpre
      exact .inr ⟨before, hpre', he, hr⟩
  · rintro (⟨he, hr⟩ | ⟨before, hpre, he, hr⟩)
    · exact ⟨[], List.nil_prefix, he, hr⟩
    · exact ⟨m :: before, List.cons_prefix_cons.2 ⟨rfl, hpre⟩, he, hr⟩

/-- what holds of the slot of a request that nobody disturbs -/
def Tied (r : Record) (a : String) : LookupPoint → Prop
  | .looking => True
  | .trying cell => r.slots.lookup a = some cell
  | .asking cell => r.slots.lookup a = some cell
  | .clearing _ => r.module? a = none

theorem tied_congr {r r' : Record} {a : String} (hs : r'.slots.lookup a = r.slots.lookup a)
    (hm : r'.module? a = r.module? a) {pt : LookupPoint} (h : Tied r a pt) : Tied r' a pt := by
  cases pt with
  | looking => exact trivial
  | trying cell => exact hs.trans h
  | asking cell => exact hs.trans h
  | clearing why => exact hm.trans h

/-- a request returns the record if its slot is the alias's and the alias is resolved -/
theorem served_of_tied {p : Pool} (hp : p.Reachable) {k : Nat} {q : Request} {report b : Bool} {i : RecordId}
    {pt : LookupPoint} {ms : List Move} (hc : p.call? k = some ⟨.request q report (.resolving i pt), b⟩)
    (ht : Tied (p.registry.record i) q.moduleAlias pt)
    (hr : (p.registry.record i).hasResolved q.moduleAlias = true) (he : (p.run ms).Ended k) :
    (p.run ms).Returned k (.record i) := by
  obtain ⟨module, hmod⟩ := Record.hasResolved_iff.1 hr
  obtain ⟨cell, hslot, hcell⟩ := Record.module?_eq_some.1 hmod
  cases pt with
  | looking => exact served_of_hasResolved hp hc hr he
  | trying cell' =>
    obtain rfl : cell' = cell := Option.some.inj (ht.symm.trans hslot)
    exact served_of_content hp hc (by simp [hcell]) he
  | asking cell' =>
    obtain rfl : cell' = cell := Option.some.inj (ht.symm.trans hslot)
    rw [content?_of_asking hp ⟨_, hc, rfl⟩] at hcell
    cases hcell
  | clearing why =>
    have hnone : (p.registry.record i).module? q.moduleAlias = none := ht
    rw [hnone] at hmod
    cases hmod

/-- **where nobody else resolves the alias on the record while the request does, it returns the record exactly if the
alias is resolved at some moment before it ends** -/
theorem served_iff_resolvedMeanwhile {p : Pool} (hp : p.Reachable) {k : Nat} {q : Request} {report b : Bool}
    {i : RecordId} {pt : LookupPoint} {ms : List Move}
    (hc : p.call? k = some ⟨.request q report (.resolving i pt), b⟩)
    (ht : Tied (p.registry.record i) q.moduleAlias pt) (ha : p.Undisturbed k i q.moduleAlias ms)
    (he : (p.run ms).Ended k) :
    (p.run ms).Returned k (.record i) ↔ p.ResolvedMeanwhile k i q.moduleAlias ms := by
  induction ms generalizing p b pt with
  | nil => exact absurd he (not_ended hc)
  | cons m ms ih =>
    have hp' : (p.step m).Reachable := hp.step m
    have htail : (p.step m).Undisturbed k i q.moduleAlias ms :=
      fun before h => ha (m :: before) (List.cons_prefix_cons.2 ⟨rfl, h⟩)
    rw [resolvedMeanwhile_cons]
    by_cases hr : (p.registry.record i).hasResolved q.moduleAlias = true
    · exact iff_of_true (served_of_tied hp hc ht hr he) (.inl ⟨not_ended hc, hr⟩)
    rw [or_iff_right fun h => hr h.2, run_cons]
    rcases step_resolving hp hc m with ⟨⟨b', hc'⟩, hown⟩ | ⟨reply, n, rfl, hlooks, hf⟩
    · refine ih hp' hc' ?_ htail he
      by_cases hm : m.place? = some k
      · rw [hown hm]
        exact ht
      · obtain ⟨hs, hmod⟩ := frame_step hp (ha [] List.nil_prefix ⟨pt, _, hc, rfl⟩) hm
        exact tied_congr hs hmod ht
    · have hbusy : ∀ cell, pt = .asking cell → (p.registry.record i).cells[cell]? = some ⟨none, true⟩ :=
        fun _ => hp.busy_cell ⟨_, hc, rfl⟩
      have hgo {pt' : LookupPoint} {b' : Bool}
          (hc' : (p.step (.step k reply)).call? k = some ⟨.request q report (.resolving i pt'), b'⟩)
          (ht' : Tied ((p.step (.step k reply)).registry.record i) q.moduleAlias pt') := ih hp' hc' ht' htail he
      have hnow : ((p.step (.step k reply)).registry.record i).hasResolved q.moduleAlias = true →
          ¬ (p.step (.step k reply)).Ended k → (p.step (.step k reply)).ResolvedMeanwhile k i q.moduleAlias ms :=
        fun h hlive => ⟨[], List.nil_prefix, hlive, h⟩
      generalize p.registry.record i = r at hlooks hbusy ht hr
      generalize (p.step (.step k reply)).registry.record i = r' at hlooks hgo hnow
      cases hlooks with
      | found h => exact hgo hf h
      | opened h => exact hgo hf (by simp [Tied, List.lookup_append, h])
      | missing h => exact hgo hf ht
      | busy h => exact hgo hf ht
      | gone h hu =>
        have hslot : r.slots.lookup q.moduleAlias = some _ := ht
        exact hgo hf (by simp [Tied, Record.module?, hslot, Record.content?, h])
      | ask h hu => exact hgo hf ht
      | refused h =>
        have hslot : r.slots.lookup q.moduleAlias = some _ := ht
        have hlt := (List.getElem?_eq_some_iff.1 (hbusy _ rfl)).1
        exact hgo hf (by simp [Tied, Record.module?, Record.setCell, hslot, Record.content?, hlt])
      | @full cell module h =>
        exact absurd (Record.hasResolved_iff.2 ⟨module, Record.module?_eq_some.2 ⟨cell, ht, h⟩⟩) hr
      | @made cell module h =>
        have hlt := (List.getElem?_eq_some_iff.1 (hbusy cell rfl)).1
        have hcell : (r.setCell cell ⟨some module, false⟩).content? cell = some module := by
          simp [Record.content?, Record.setCell, hlt]
        have hres : (r.setCell cell ⟨some module, false⟩).hasResolved q.moduleAlias = true :=
          Record.hasResolved_iff.2 ⟨module, Record.module?_eq_some.2 ⟨cell, ht, hcell⟩⟩
        exact iff_of_true (served_of_notifying hf he) (hnow hres (not_ended hf))
      | cleared =>
        have hend := hp'.settled.returned k _ hf
        refine iff_of_false ?_ ?_
        · intro h
          cases (hp'.run ms).settled.unique k _ _ h (returned_run hf ms)
        · rintro ⟨before, -, hlive, -⟩
          exact hlive (hend.run before)

/-! ## It returns -/

/-- no other call has the context materialise the alias on the record -/
def Unblocked (p : Pool) (k : Nat) (i : RecordId) (a : String) : Prop :=
  ∀ j cell, j ≠ k → ¬ p.Resolves j i a (.asking cell)

/-- a call that has put its query, if it has one, is ready -/
theorem ask_ready {p : Pool} {k : Nat} {u : Underway} (hc : p.call? k = some u) :
    ∃ b, (p.step (.ask k)).call? k = some ⟨u.call, b⟩ ∧ (p.step (.ask k)).registry = p.registry ∧
      (b = true ∨ u.call.query p.registry = .nothing) ∧ ∀ j, j ≠ k → (p.step (.ask k)).call? j = p.call? j := by
  obtain ⟨c, asking⟩ := u
  cases asking with
  | true =>
    have hsame : p.step (.ask k) = p := by simp [Pool.step, hc]
    rw [hsame]
    exact ⟨true, hc, rfl, .inl rfl, fun _ _ => rfl⟩
  | false =>
    by_cases hq : c.query p.registry = .nothing
    · have hsame : p.step (.ask k) = p := by simp [Pool.step, hc, hq]
      rw [hsame]
      exact ⟨false, hc, rfl, .inr hq, fun _ _ => rfl⟩
    · rw [step_eq_pose hc hq]
      exact ⟨true, by rw [call?_pose hc, if_pos rfl], rfl, .inl rfl, fun j hj => by rw [call?_pose hc, if_neg hj]⟩

/-- a resolution that nobody blocks does not wait -/
theorem not_wait {p : Pool} (hp : p.Reachable) {k : Nat} {i : RecordId} {a : String} {pt : LookupPoint}
    (hr : p.Resolves k i a pt) (hu : p.Unblocked k i a) (reply : Reply) :
    (Call.advanceLookup p.registry i a reply pt).2 ≠ .wait := by
  intro hn
  obtain ⟨owner, hk⟩ := hp.kept
  have hlooks := Call.advanceLookup_looks p.registry (hk.placed k i a pt hr) a reply pt
  rw [hn] at hlooks
  have hheld := hk.held k i a pt
  have hfilled := hk.filled i
  generalize p.registry.record i = r at hlooks hheld hfilled
  generalize (Call.advanceLookup p.registry i a reply pt).1.record i = r' at hlooks
  cases hlooks with
  | missing h =>
    obtain ⟨-, hlt⟩ := hheld _ hr rfl
    rw [List.getElem?_eq_getElem hlt] at h
    cases h
  | @busy cell h =>
    -- whoever fills the cell resolves its owner's alias, and so would be the one that blocks
    obtain ⟨j, b, hj⟩ := hfilled cell h
    have hb : b = a := (hk.held j i b _ cell hj rfl).1.symm.trans (hheld cell hr rfl).1
    subst hb
    by_cases hjk : j = k
    · subst hjk
      obtain ⟨u, hu₁, hl₁⟩ := hr
      obtain ⟨v, hv, hl⟩ := hj
      rw [hu₁] at hv
      cases hv
      rw [hl₁] at hl
      cases hl
    · exact hu j cell hjk hj

theorem ended_turns_notifying {p : Pool} (hp : p.Reachable) {k : Nat} {q : Request} {report b t : Bool} {i : RecordId}
    (hc : p.call? k = some ⟨.request q report (.notifying i t), b⟩) (reply : Reply) (n : Nat) :
    (p.run (turns k reply (n + 1))).Ended k := by
  have hp₂ : ((p.step (.ask k)).step (.step k reply)).Reachable := (hp.step _).step _
  obtain ⟨b₁, hc₁, hreg, hready, -⟩ := ask_ready hc
  rw [← hreg] at hready
  have hstep := step_eq_advance hc₁ hready (fun h => by cases h) reply
  have hret : ((p.step (.ask k)).step (.step k reply)).Returned k (.record i) := by
    rw [hstep]
    exact returned_advance.2 (.inr ⟨rfl, rfl⟩)
  exact (hp₂.settled.returned k _ hret).run (turns k reply n)

/-- a module is made for a call that has asked for it -/
theorem asking_of_fresh {g : Registry} {i : RecordId} {a : String} {reply : Reply} {pt : LookupPoint} {m : Module}
    (h : (Call.advanceLookup g i a reply pt).2 = .found m true) : ∃ cell, pt = .asking cell := by
  cases pt with
  | looking => cases h
  | trying cell =>
    simp only [Call.advanceLookup] at h
    split at h
    · cases h
    · split at h
      · cases h
      · split_ifs at h
  | asking cell => exact ⟨cell, rfl⟩
  | clearing why => cases h

/-- a request that nobody blocks returns, left alone: its turns are as many as the steps that may remain -/
theorem ended_turns {p : Pool} (hp : p.Reachable) {k : Nat} {q : Request} {report b : Bool} {i : RecordId}
    {pt : LookupPoint} (hc : p.call? k = some ⟨.request q report (.resolving i pt), b⟩)
    (hu : p.Unblocked k i q.moduleAlias) (reply : Reply) {n : Nat} (hn : Call.lookupRank pt < n) :
    (p.run (turns k reply n)).Ended k := by
  induction n generalizing p b pt with
  | zero => exact absurd hn (Nat.not_lt_zero _)
  | succ n ih =>
    have hp₁ : (p.step (.ask k)).Reachable := hp.step _
    have hp₂ : ((p.step (.ask k)).step (.step k reply)).Reachable := hp₁.step _
    obtain ⟨b₁, hc₁, hreg, hready, hothers⟩ := ask_ready hc
    rw [← hreg] at hready
    have hstep := step_eq_advance hc₁ hready (fun h => by cases h) reply
    have hf := follows_advance hc₁ reply
    rw [← hstep] at hf
    have hu₁ : (p.step (.ask k)).Unblocked k i q.moduleAlias := by
      intro j cell hj hr
      obtain ⟨u, hu', hl⟩ := hr
      rw [hothers j hj] at hu'
      exact hu j cell hj ⟨u, hu', hl⟩
    have hu₂ : ((p.step (.ask k)).step (.step k reply)).Unblocked k i q.moduleAlias := by
      intro j cell hj hr
      rw [hstep, resolves_advance_of_ne hj hc₁] at hr
      exact hu₁ j cell hj hr
    have hnowait := not_wait hp₁ ⟨_, hc₁, rfl⟩ hu₁ { reply with now := (p.step (.ask k)).now }
    show (((p.step (.ask k)).step (.step k reply)).run (turns k reply n)).Ended k
    generalize hs : Call.advanceLookup (p.step (.ask k)).registry i q.moduleAlias
      { reply with now := (p.step (.ask k)).now } pt = s at hf hnowait
    obtain ⟨g', next⟩ := s
    cases next with
    | go pt' =>
      have hlt := Call.lookup_next_weight hs
      exact ih hp₂ hf hu₂ (by omega)
    | wait => exact absurd rfl hnowait
    | found m fresh =>
      cases fresh with
      | false => exact (hp₂.settled.returned k _ hf).run _
      | true =>
        obtain ⟨cell, rfl⟩ := asking_of_fresh (by rw [hs])
        obtain ⟨n, rfl⟩ : ∃ n', n = n' + 1 :=
          Nat.exists_eq_succ_of_ne_zero (by simp only [Call.lookupRank] at hn; omega)
        exact ended_turns_notifying hp₂ hf reply n
    | failed why => exact (hp₂.settled.returned k _ hf).run _

end Pool

end Redeploy
