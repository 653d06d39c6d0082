/-
Identical requests at the same time come to an end, and to the same one.

A caller waits for the lock while another holds it, and for a cell while another has its module made; nothing else can
hold it up. Whoever it waits for is one of the callers, if no call that was there before has the lock or the alias's
cell, so some caller can always take a step. `left` bounds the moves still to come: a move of a caller that does
anything lowers it, and in a round in which every caller has its turn one of them does.

Results:
- `left_step`: a move of a caller does nothing, or there is less to do;
- `exists_able`: as long as a caller has not returned, one of them can take a step;
- `ended_of_rounds`: after as many rounds as there are steps all callers have returned;
- **`identical_requests_share`**: all are turned away and nothing changes, or all get one record, for which at most one
  context is made; it is asked for the alias once, and the sink told once, if the alias was not resolved; all return.
-/
import Redeploy.Proofs.Sharing

namespace Redeploy

open Registry

/-! ## What a request waits for -/

namespace Call

variable {g g' : Registry} {c : Call} {q : Request} {report : Bool} {pt : RequestPoint} {reply : Reply}

/-- whether a call asks anything does not depend on the records -/
theorem query_ne_nothing (h : c.query g ≠ .nothing) (g' : Registry) : c.query g' ≠ .nothing := by
  cases c with
  | request q report pt => cases pt <;> exact h
  | lookup i a p => exact h
  | removal cause total p =>
    cases p with
    | starting => exact h
    | checking left gone =>
      cases left with
      | nil => exact h
      | cons i left => simp [query]
    | telling queue => cases queue <;> exact h
    | hooking hooks queue => cases hooks <;> cases queue <;> exact h
    | releasing queue => cases queue <;> exact h
  | start checked => exact h

/-- a step of a resolution has to wait exactly if the cell is missing or another call fills it -/
theorem advanceLookup_wait_iff {i : RecordId} {a : String} {p : LookupPoint} :
    (advanceLookup g i a reply p).2 = .wait ↔
      ∃ cell, p = .trying cell ∧
        ((g.record i).cells[cell]? = none ∨ (g.record i).cells[cell]? = some ⟨none, true⟩) := by
  constructor
  · intro h
    cases p with
    | trying cell =>
      refine ⟨cell, rfl, ?_⟩
      simp only [advanceLookup] at h
      split at h
      · rename_i hcell
        exact .inl hcell
      · rename_i c hcell
        obtain ⟨m, busy⟩ := c
        cases m with
        | some m => cases h
        | none =>
          cases busy with
          | true => exact .inr hcell
          | false => simp only [Bool.false_eq_true, if_false] at h; split at h <;> cases h
    | looking => cases h
    | asking cell => simp only [advanceLookup] at h; split at h <;> cases h
    | clearing why => cases h
  · rintro ⟨cell, rfl, h | h⟩ <;> simp [advanceLookup, h]

end Call

/-- the next step of the request has to wait for another call -/
def RequestPoint.Waits (g : Registry) (pt : RequestPoint) : Prop :=
  ∃ i cell, pt = .resolving i (.trying cell) ∧
    ((g.record i).cells[cell]? = none ∨ (g.record i).cells[cell]? = some ⟨none, true⟩)

namespace Call

variable {g : Registry} {q : Request} {report : Bool} {pt : RequestPoint} {reply : Reply}

/-- a request that has to wait does nothing, and is then where it was; it has asked nothing -/
theorem advance_wait (h : (advance g reply (.request q report pt)).next = .wait) :
    pt.Waits g ∧ advance g reply (.request q report pt) = ⟨g, [], .wait⟩ := by
  have hr := advanceRequest_requests g q report reply pt
  simp only [advance] at h ⊢
  generalize advanceRequest g q report reply pt = s at h hr
  cases hr with
  | @wait g' i p heq =>
    have hwait : (advanceLookup g i q.moduleAlias reply p).2 = .wait := by rw [heq]
    obtain ⟨cell, rfl, hcell⟩ := advanceLookup_wait_iff.1 hwait
    refine ⟨⟨i, cell, rfl, hcell⟩, ?_⟩
    have hsame : g' = g := by
      have h₁ : (advanceLookup g i q.moduleAlias reply (.trying cell)).1 = g := by
        rcases hcell with hcell | hcell <;> simp [advanceLookup, hcell]
      rw [heq] at h₁
      exact h₁
    rw [hsame]
  | _ => cases h

theorem requestRank_le (pt : RequestPoint) : requestRank pt ≤ 9 := by
  cases pt with
  | resolving i p => cases p <;> simp [requestRank, lookupRank]
  | _ => simp [requestRank]

/-- a request that goes on has fewer steps to come -/
theorem requestRank_lt {pt' : RequestPoint}
    (h : (advance g reply (.request q report pt)).next = .go (.request q report pt')) :
    requestRank pt' < requestRank pt := by
  have hlt := advance_weight h
  simpa [lighter_iff, weight] using hlt

end Call

/-- bound on the moves that a request still has to make: it puts a query and does a step, so often -/
def Underway.left (u : Underway) : Nat :=
  match u.call with
  | .request _ _ pt => 2 * Call.requestRank pt + if u.asking then 1 else 2
  | _ => 0

theorem Underway.left_le (u : Underway) : u.left ≤ 20 := by
  unfold Underway.left
  split
  · rename_i pt _
    have := Call.requestRank_le pt
    split <;> omega
  · omega

namespace Pool

variable {p₀ p p' : Pool} {k j n : Nat} {q : Request} {report live b : Bool} {i : RecordId} {m : Move}
  {u : Underway} {reply : Reply} {pt : RequestPoint}

/-! ## Steps still to come -/

/-- bound on the moves that the calls from the place `n` on still have to make -/
def left (p : Pool) (n : Nat) : Nat := ∑ k ∈ Finset.Ico n p.calls.length, ((p.call? k).elim 0 Underway.left)

theorem left_le (p : Pool) (n : Nat) : p.left n ≤ 20 * (p.calls.length - n) := by
  have hle : p.left n ≤ ∑ _k ∈ Finset.Ico n p.calls.length, 20 := by
    apply Finset.sum_le_sum
    intro k _
    cases p.call? k with
    | none => simp
    | some u => exact u.left_le
  simpa [Nat.mul_comm] using hle

/-- a call that makes a move has fewer to come -/
theorem left_lt (hk : n ≤ k) (hc : p.call? k = some u) (hlength : p'.calls.length = p.calls.length)
    (hothers : ∀ j, j ≠ k → p'.call? j = p.call? j) (hlt : (p'.call? k).elim 0 Underway.left < u.left) :
    p'.left n < p.left n := by
  unfold left
  rw [hlength]
  apply Finset.sum_lt_sum
  · intro j _
    by_cases hj : j = k
    · subst hj
      rw [hc]
      exact hlt.le
    · rw [hothers j hj]
  · exact ⟨k, Finset.mem_Ico.2 ⟨hk, lt_of_call? hc⟩, by rw [hc]; exact hlt⟩

theorem Aside.left (h : p.Aside p') (n : Nat) : p'.left n = p.left n := by
  simp only [Pool.left, h.calls, h.call?]

/-- a call that has put its query has one -/
theorem Reachable.asks (hp : p.Reachable) : ∀ k u, p.call? k = some u → u.asking = true →
    u.call.query p.registry ≠ .nothing := by
  refine hp.induct (P := fun p => ∀ k u, p.call? k = some u → u.asking = true →
    u.call.query p.registry ≠ .nothing) ?_ ?_
  · intro timeout k u hu
    cases hu
  · intro p m _ h k u hu hasking
    have hm := step_moved p m
    generalize p.step m = p' at hm hu ⊢
    cases hm with
    | idle => exact h k u hu hasking
    | enter hc =>
      rw [call?_enter] at hu
      split at hu
      · cases hu
        cases hasking
      · exact h k u hu hasking
    | evict he hdue =>
      rw [call?_enter] at hu
      split at hu
      · cases hu
        cases hasking
      · exact h k u hu hasking
    | ask hc hq =>
      rw [call?_pose hc] at hu
      split at hu
      · cases hu
        exact hq
      · exact h k u hu hasking
    | step hc hready hlock =>
      rw [call?_advance hc] at hu
      split at hu
      · rw [(underway?_eq_some.1 hu).1] at hasking
        cases hasking
      · exact Call.query_ne_nothing (h k u hu hasking) _
    | aside hm ha =>
      rw [ha.call?] at hu
      exact Call.query_ne_nothing (h k u hu hasking) _

theorem left_pose (hk : n ≤ k) (hc : p.call? k = some ⟨.request q report pt, false⟩) :
    (p.pose k (.request q report pt)).left n < p.left n := by
  have hcall := call?_pose hc (.request q report pt)
  apply left_lt hk hc
  · simp [Pool.pose]
  · intro j hj
    rw [hcall, if_neg hj]
  · rw [hcall, if_pos rfl]
    simp [Underway.left]

theorem left_advance (hk : n ≤ k) (hc : p.call? k = some ⟨.request q report pt, b⟩)
    (hw : (Call.advance p.registry { reply with now := p.now } (.request q report pt)).next ≠ .wait) :
    (p.advance k (.request q report pt) reply).left n < p.left n := by
  have hcall := call?_advance hc reply
  apply left_lt hk hc
  · simp [Pool.advance]
  · intro j hj
    rw [hcall, if_neg hj]
  · rw [hcall, if_pos rfl]
    cases hn : (Call.advance p.registry { reply with now := p.now } (.request q report pt)).next with
    | go c' =>
      obtain ⟨pt', rfl⟩ := (Call.advanceRequest_requests p.registry q report { reply with now := p.now } pt).stays hn
      have hlt := Call.requestRank_lt hn
      simp only [Next.underway?, Option.elim_some, Underway.left]
      cases b <;> simp <;> omega
    | wait => exact absurd hn hw
    | done o =>
      cases b <;> simp [Next.underway?, Underway.left]

theorem Aside.trans {p'' : Pool} (h : p.Aside p') (h' : p'.Aside p'') : p.Aside p'' :=
  ⟨h'.records.trans h.records, h'.cache.trans h.cache, h'.stopped.trans h.stopped, h'.timeout.trans h.timeout,
    h'.started.trans h.started, h'.calls.trans h.calls, h'.evictions.trans h.evictions, h'.trace.trans h.trace,
    h.now.trans h'.now⟩

/-- a request that has to wait is left where it is -/
theorem advance_eq_self (hp : p.Reachable) (hc : p.call? k = some ⟨.request q report pt, b⟩)
    (hn : (Call.advance p.registry { reply with now := p.now } (.request q report pt)).next = .wait) :
    p.advance k (.request q report pt) reply = p := by
  obtain ⟨⟨i, cell, rfl, -⟩, hs⟩ := Call.advance_wait hn
  have hasked : b = false := by
    cases b with
    | false => rfl
    | true => exact absurd rfl (hp.asks k _ hc rfl)
  have hset : p.calls.set k (some ⟨.request q report (.resolving i (.trying cell)), false⟩) = p.calls := by
    rw [hasked, call?_eq_some] at hc
    obtain ⟨hlt, hget⟩ := List.getElem?_eq_some_iff.1 hc
    rw [← hget, List.set_getElem_self]
  simp [Pool.advance, hs, Next.underway?, Next.marks, hset]

/-- the move begins a call -/
def Move.begins : Move → Bool
  | .enter _ => true
  | _ => false

/-- a move of a caller does nothing but let time pass, or there is less to do -/
theorem left_step (hp : p.Reachable) (h : p₀.Together p q live) (hm : m.Joins q live p₀.calls.length)
    (hnew : m.begins = false) :
    p.Aside (p.step m) ∨ (p.step m).left p₀.calls.length < p.left p₀.calls.length := by
  have hj := joined_step p hm
  generalize p.step m = p' at hj
  cases hj with
  | aside ha hi => exact .inl ha
  | enter report => cases hnew
  | @ask k c hk hc hq =>
    obtain ⟨report, pt, b, heq⟩ := h.calls hk hc
    cases heq
    exact .inr (left_pose hk hc)
  | @step k u reply hk hl hx hc hready hlock =>
    obtain ⟨report, pt, b, rfl⟩ := h.calls hk hc
    by_cases hn : (Call.advance p.registry { reply with now := p.now } (.request q report pt)).next = .wait
    · left
      rw [advance_eq_self hp hc hn]
      exact .refl p
    · exact .inr (left_advance hk hc hn)

/-- moves of callers none of which begins -/
def Plays (q : Request) (live : Bool) (n : Nat) (ms : List Move) : Prop :=
  ∀ m ∈ ms, m.Joins q live n ∧ m.begins = false

theorem left_run_le (hp₀ : p₀.Reachable) (hp : p.Reachable) (h : p₀.Together p q live) {ms : List Move}
    (hms : Plays q live p₀.calls.length ms) : (p.run ms).left p₀.calls.length ≤ p.left p₀.calls.length := by
  induction ms generalizing p with
  | nil => exact le_rfl
  | cons m ms ih =>
    obtain ⟨hm, hnew⟩ := hms m List.mem_cons_self
    have hrest := ih (hp.step m) (h.step hp₀ hp hm) fun m' hm' => hms m' (List.mem_cons_of_mem _ hm')
    rw [run_cons]
    rcases left_step hp h hm hnew with ha | hlt
    · rw [← ha.left]
      exact hrest
    · omega

/-- a move that would leave less to do, whenever it comes, does so or comes after one that did -/
theorem left_run_lt (hp₀ : p₀.Reachable) (hp : p.Reachable) (h : p₀.Together p q live) {ms : List Move}
    (hms : Plays q live p₀.calls.length ms) (hmem : m ∈ ms)
    (hdue : ∀ p', p.Aside p' → (p'.step m).left p₀.calls.length < p.left p₀.calls.length) :
    (p.run ms).left p₀.calls.length < p.left p₀.calls.length := by
  induction ms generalizing p with
  | nil => cases hmem
  | cons m' ms ih =>
    obtain ⟨hm', hnew⟩ := hms m' List.mem_cons_self
    have hms' : Plays q live p₀.calls.length ms := fun m hm => hms m (List.mem_cons_of_mem _ hm)
    have hrest := left_run_le hp₀ (hp.step m') (h.step hp₀ hp hm') hms'
    rw [run_cons]
    rcases left_step hp h hm' hnew with ha | hlt
    · rcases List.mem_cons.1 hmem with rfl | hmem
      · have hlt := hdue p (.refl p)
        omega
      · rw [← ha.left]
        apply ih (hp.step m') (h.step hp₀ hp hm') hms' hmem
        intro p' hp'
        rw [ha.left]
        exact hdue p' (ha.trans hp')
    · omega

/-! ## Somebody can always take a step -/

/-- the request at the place can put its query or do its next step -/
def Able (p : Pool) (k : Nat) : Prop :=
  ∃ q report pt b, p.call? k = some ⟨.request q report pt, b⟩ ∧ (pt = .locking → p.isFree k = true) ∧
    ¬ pt.Waits p.registry

theorem Able.aside (h : p.Able k) (ha : p.Aside p') : p'.Able k := by
  obtain ⟨q, report, pt, b, hc, hlock, hw⟩ := h
  refine ⟨q, report, pt, b, (ha.call? k).trans hc, ?_, ?_⟩
  · intro hpt
    simp only [isFree, ha.calls]
    exact hlock hpt
  · simp only [RequestPoint.Waits, ha.record]
    exact hw

theorem needsLock_iff : (Call.request q report pt).needsLock = true ↔ pt = .locking := by
  cases pt <;> simp [Call.needsLock]

/-- its next move leaves less to do, also after time has passed -/
theorem Able.due (h : p.Able k) (hk : n ≤ k) (reply : Reply) :
    ∃ m, (m = .ask k ∨ m = .step k reply) ∧ ∀ p', p.Aside p' → (p'.step m).left n < p.left n := by
  obtain ⟨q, report, pt, b, hc, hlock, hw⟩ := id h
  by_cases hready : b = true ∨ (Call.request q report pt).query p.registry = .nothing
  · refine ⟨.step k reply, .inr rfl, fun p' ha => ?_⟩
    obtain ⟨q', report', pt', b', hc', hlock', hw'⟩ := h.aside ha
    rw [ha.call?, hc] at hc'
    cases hc'
    have hready' : b = true ∨ (Call.request q report pt).query p'.registry = .nothing := by
      refine hready.imp_right fun hq => ?_
      by_contra hne
      exact Call.query_ne_nothing hne p.registry hq
    have hcall : p'.call? k = some ⟨.request q report pt, b⟩ := (ha.call? k).trans hc
    rw [step_eq_advance hcall hready' (fun hneed => hlock' (needsLock_iff.1 hneed)), ← ha.left]
    exact left_advance hk hcall fun hn => hw' (Call.advance_wait hn).1
  · obtain ⟨hb, hq⟩ := not_or.1 hready
    obtain rfl : b = false := by simpa using hb
    refine ⟨.ask k, .inl rfl, fun p' ha => ?_⟩
    have hcall : p'.call? k = some ⟨.request q report pt, false⟩ := (ha.call? k).trans hc
    rw [step_eq_pose hcall (Call.query_ne_nothing hq p'.registry), ← ha.left]
    exact left_pose hk hcall

/-- no call has the lock, or has the request's alias made on a record that the request would be served from -/
structure Clear (p : Pool) (q : Request) : Prop where
  lock : ∀ k u, p.call? k = some u → u.call.holdsLock = false
  cell : ∀ i, p.registry.Known q i → ∀ k cell, ¬ p.Resolves k i q.moduleAlias (.asking cell)

theorem clear_of_isIdle (h : p.IsIdle) (q : Request) : p.Clear q := by
  have hnone : ∀ k u, p.call? k ≠ some u := by
    intro k u hc
    have hmem : u ∈ p.underway := List.mem_filterMap.2 ⟨some u, List.mem_of_getElem? (call?_eq_some.1 hc), rfl⟩
    rw [h] at hmem
    cases hmem
  refine ⟨?_, ?_⟩
  · intro k u hc
    exact absurd hc (hnone k u)
  · rintro i - k cell ⟨u, hc, -⟩
    exact hnone k u hc

theorem Move.Joins.elsewhere (hm : m.Joins q live n) (hk : k < n) : m.place? ≠ some k := by
  cases m with
  | ask j =>
    rintro h
    cases h
    exact absurd hk (Nat.not_lt.2 hm)
  | step j reply =>
    rintro h
    cases h
    exact absurd hk (Nat.not_lt.2 hm.1)
  | _ => intro h; cases h

/-- a request that has to wait for a cell waits for the call that fills it -/
theorem Reachable.filling (hp : p.Reachable) {cell : Nat}
    (hc : p.call? k = some ⟨.request q report (.resolving i (.trying cell)), b⟩)
    (hcell : (p.registry.record i).cells[cell]? = none ∨ (p.registry.record i).cells[cell]? = some ⟨none, true⟩) :
    ∃ j, p.Resolves j i q.moduleAlias (.asking cell) := by
  obtain ⟨owner, hkept⟩ := hp.kept
  have hres : p.Resolves k i q.moduleAlias (.trying cell) := ⟨_, hc, rfl⟩
  obtain ⟨howner, hlt⟩ := hkept.held k i _ _ cell hres rfl
  have hbusy : (p.registry.record i).cells[cell]? = some ⟨none, true⟩ := by
    refine hcell.resolve_left ?_
    rw [List.getElem?_eq_getElem hlt]
    exact Option.some_ne_none _
  obtain ⟨j, a, hasks⟩ := hkept.filled i cell hbusy
  obtain rfl : a = q.moduleAlias := (hkept.held j i a _ cell hasks rfl).1.symm.trans howner
  exact ⟨j, hasks⟩

/-- no call that was there before has the module made that the callers wait for -/
theorem Clear.record (hclear : p₀.Clear q) (hp₀ : p₀.Reachable) (h : p₀.Together p q live) (hk : p₀.calls.length ≤ k)
    {at? : LookupPoint} (hc : p.call? k = some ⟨.request q report (.resolving i at?), b⟩) (j cell : Nat) :
    ¬ p₀.Resolves j i q.moduleAlias (.asking cell) := by
  rcases h with h | ⟨i', h⟩
  · obtain ⟨report', pt, b', heq, hopen, -⟩ := h.calls k _ hk hc
    cases heq
    cases hopen
  · obtain ⟨report', pt, b', heq, hon⟩ := h.calls k _ hk hc
    cases heq
    obtain rfl : i = i' := hon.1
    rcases h.born with ⟨hknown, -⟩ | ⟨-, hnew, -⟩
    · exact hclear.cell i hknown j cell
    · intro hold
      obtain ⟨owner, hkept⟩ := hp₀.kept
      exact absurd (hkept.placed j i _ _ hold) (Nat.not_lt.2 hnew.ge)

/-- whoever has the lock can go on -/
theorem able_of_holdsLock (hc : p.call? k = some ⟨.request q report pt, b⟩)
    (hl : (Call.request q report pt).holdsLock = true) : p.Able k := by
  refine ⟨q, report, pt, b, hc, ?_, ?_⟩
  · rintro rfl
    cases hl
  · rintro ⟨i, cell, rfl, -⟩
    cases hl

/-- as long as a caller has not returned, one of the callers can take a step: the one that has the lock, the caller
itself, or the one that fills the cell for which it waits -/
theorem exists_able (hp : p.Reachable) (hclear : p.Clear q) {ms : List Move}
    (hms : ∀ m ∈ ms, m.Joins q live p.calls.length) (hk : p.calls.length ≤ k) (hc : (p.run ms).call? k = some u) :
    ∃ j, p.calls.length ≤ j ∧ (p.run ms).Able j := by
  have hbefore : ∀ j < p.calls.length, (p.run ms).call? j = p.call? j :=
    fun j hj => call?_run_of_elsewhere (fun m hm => (hms m hm).elsewhere hj) hj
  have htogether := together_run hp hms
  have hr := hp.run ms
  generalize p.run ms = p' at *
  obtain ⟨report, pt, b, rfl⟩ := htogether.calls hk hc
  by_cases hheld : ∃ j v, p'.call? j = some v ∧ v.call.holdsLock = true
  · obtain ⟨j, v, hv, hl⟩ := hheld
    have hj : p.calls.length ≤ j := by
      by_contra hj
      rw [hbefore j (Nat.not_le.1 hj)] at hv
      rw [hclear.lock j v hv] at hl
      cases hl
    obtain ⟨report', pt', b', rfl⟩ := htogether.calls hj hv
    exact ⟨j, hj, able_of_holdsLock hv hl⟩
  · have hfree : ∀ j, p'.isFree j = true := by
      intro j
      rw [isFree_iff]
      intro l v hv hl
      exact absurd ⟨l, v, hv, hl⟩ hheld
    by_cases hw : pt.Waits p'.registry
    · obtain ⟨i, cell, rfl, hcell⟩ := hw
      obtain ⟨j, v, hv, hl⟩ := hr.filling hc hcell
      have hj : p.calls.length ≤ j := by
        by_contra hj
        exact hclear.record hp htogether hk hc j cell ⟨v, hbefore j (Nat.not_le.1 hj) ▸ hv, hl⟩
      obtain ⟨report', pt', b', rfl⟩ := htogether.calls hj hv
      refine ⟨j, hj, q, report', pt', b', hv, fun _ => hfree j, ?_⟩
      rintro ⟨i', cell', rfl, -⟩
      cases hl
    · exact ⟨k, hk, q, report, pt, b, hc, fun _ => hfree k, hw⟩

/-! ## Rounds -/

theorem length_step_joined (hq : q.WellFormed) (hm : m.Joins q live n) :
    (p.step m).calls.length = p.calls.length + if m.begins then 1 else 0 := by
  have hj := joined_step p hm
  cases m with
  | enter c =>
    obtain ⟨report, rfl⟩ := hm
    have hnew : (Call.request q report .entering).IsNew p.registry = true := by
      simp only [Call.IsNew, Option.isNone_iff_eq_none]
      exact hq
    simp [Pool.step, hnew, Pool.enter, Move.begins]
  | ask k =>
    generalize p.step (.ask k) = p' at hj
    cases hj with
    | aside ha hi => simp [ha.calls, Move.begins]
    | ask hk hc hq => simp [Pool.pose, Move.begins]
  | step k reply =>
    generalize p.step (.step k reply) = p' at hj
    cases hj with
    | aside ha hi => simp [ha.calls, Move.begins]
    | step hk hl hx hc hready hlock => simp [Pool.advance, Move.begins]
  | reorder cache =>
    simp only [Pool.step]
    split <;> rfl
  | pass ms => rfl
  | _ => cases hm

/-- there are as many callers as have begun -/
theorem length_run_joined (hq : q.WellFormed) {ms : List Move} (hms : ∀ m ∈ ms, m.Joins q live n) :
    (p.run ms).calls.length = p.calls.length + ms.countP Move.begins := by
  induction ms generalizing p with
  | nil => rfl
  | cons m ms ih =>
    have hrest := ih (p := p.step m) fun m' hm' => hms m' (List.mem_cons_of_mem _ hm')
    rw [run_cons, hrest, length_step_joined hq (hms m List.mem_cons_self), List.countP_cons]
    omega

theorem Plays.length (hq : q.WellFormed) {ms : List Move} (h : Plays q live n ms) :
    (p.run ms).calls.length = p.calls.length := by
  have hnone : ms.countP Move.begins = 0 := by
    rw [List.countP_eq_zero]
    intro m hm
    simp [(h m hm).2]
  rw [length_run_joined hq fun m hm => (h m hm).1, hnone, Nat.add_zero]

/-- moves of the callers at the places from `n` up to `N`, in which each has its turn: it puts its query, if it has one,
and does a step, if it can, in whatever order and with whatever moves between -/
structure Round (q : Request) (live : Bool) (n N : Nat) (ms : List Move) : Prop where
  plays : Plays q live n ms
  asks : ∀ k, n ≤ k → k < N → .ask k ∈ ms
  steps : ∀ k, n ≤ k → k < N → ∃ reply, .step k reply ∈ ms

/-- in a round somebody does something, as long as there is something to do -/
theorem left_round (hp : p.Reachable) (hclear : p.Clear q) {ms r : List Move}
    (hms : ∀ m ∈ ms, m.Joins q live p.calls.length) (hr : Round q live p.calls.length (p.run ms).calls.length r)
    (hleft : (p.run ms).left p.calls.length ≠ 0) :
    ((p.run ms).run r).left p.calls.length < (p.run ms).left p.calls.length := by
  obtain ⟨k, hk, hne⟩ := Finset.exists_ne_zero_of_sum_ne_zero hleft
  obtain ⟨u, hc⟩ : ∃ u, (p.run ms).call? k = some u := by
    cases hc : (p.run ms).call? k with
    | none => simp [hc] at hne
    | some u => exact ⟨u, rfl⟩
  obtain ⟨j, hj, hable⟩ := exists_able hp hclear hms (Finset.mem_Ico.1 hk).1 hc
  have hlt : j < (p.run ms).calls.length := by
    obtain ⟨q', report, pt, b, hcj, -⟩ := hable
    exact lt_of_call? hcj
  obtain ⟨reply, hstep⟩ := hr.steps j hj hlt
  obtain ⟨m, hm, hdue⟩ := hable.due hj reply
  have hmem : m ∈ r := by
    rcases hm with rfl | rfl
    · exact hr.asks j hj hlt
    · exact hstep
  exact left_run_lt hp (hp.run ms) (together_run hp hms) hr.plays hmem hdue

theorem left_rounds (hp : p.Reachable) (hq : q.WellFormed) (hclear : p.Clear q) {ms : List Move}
    (hms : ∀ m ∈ ms, m.Joins q live p.calls.length) {rounds : List (List Move)}
    (hrounds : ∀ r ∈ rounds, Round q live p.calls.length (p.run ms).calls.length r) :
    (p.run (ms ++ rounds.flatten)).left p.calls.length ≤ (p.run ms).left p.calls.length - rounds.length := by
  induction rounds generalizing ms with
  | nil => simp
  | cons r rounds ih =>
    have hr := hrounds r List.mem_cons_self
    have hms' : ∀ m ∈ ms ++ r, m.Joins q live p.calls.length := by
      intro m hm
      rcases List.mem_append.1 hm with hm | hm
      · exact hms m hm
      · exact (hr.plays m hm).1
    have hlength : (p.run (ms ++ r)).calls.length = (p.run ms).calls.length := by
      rw [run_append, hr.plays.length hq]
    have hrest := ih hms' fun r' hr' => hlength ▸ hrounds r' (List.mem_cons_of_mem _ hr')
    have hround : (p.run (ms ++ r)).left p.calls.length ≤ (p.run ms).left p.calls.length - 1 := by
      rw [run_append]
      by_cases hleft : (p.run ms).left p.calls.length = 0
      · have hle := left_run_le hp (hp.run ms) (together_run hp hms) hr.plays
        omega
      · have hlt := left_round hp hclear hms hr hleft
        omega
    rw [List.flatten_cons, ← List.append_assoc, List.length_cons]
    omega

/-- after as many rounds as a caller can have steps, for each of them, all have returned -/
theorem ended_of_rounds (hp : p.Reachable) (hq : q.WellFormed) (hclear : p.Clear q) {ms : List Move}
    (hms : ∀ m ∈ ms, m.Joins q live p.calls.length) {rounds : List (List Move)}
    (hrounds : ∀ r ∈ rounds, Round q live p.calls.length (p.run ms).calls.length r)
    (hlength : 20 * ms.countP Move.begins ≤ rounds.length) (hk : p.calls.length ≤ k)
    (hlt : k < (p.run ms).calls.length) : (p.run (ms ++ rounds.flatten)).Ended k := by
  have hall : ∀ m ∈ ms ++ rounds.flatten, m.Joins q live p.calls.length := by
    intro m hm
    rcases List.mem_append.1 hm with hm | hm
    · exact hms m hm
    · obtain ⟨r, hr, hm⟩ := List.mem_flatten.1 hm
      exact ((hrounds r hr).plays m hm).1
  have hleft : (p.run (ms ++ rounds.flatten)).left p.calls.length = 0 := by
    have hle := left_le (p.run ms) p.calls.length
    have hrest := left_rounds hp hq hclear hms hrounds
    have hbegun := length_run_joined (p := p) hq hms
    omega
  have hlt' : k < (p.run (ms ++ rounds.flatten)).calls.length := by
    rw [run_append]
    exact lt_of_lt_of_le hlt (length_run _ _)
  refine ⟨hlt', ?_⟩
  cases hc : (p.run (ms ++ rounds.flatten)).call? k with
  | none => rfl
  | some u =>
    have hzero := Finset.sum_eq_zero_iff.1 hleft k (Finset.mem_Ico.2 ⟨hk, hlt'⟩)
    obtain ⟨report, pt, b, rfl⟩ := (together_run hp hall).calls hk hc
    simp only [hc, Option.elim_some, Underway.left] at hzero
    split at hzero <;> omega

/-! ## All of them -/

/-- the callers that have returned were all turned away, and nothing has changed -/
structure AllTurnedAway (p p' : Pool) (q : Request) : Prop where
  outcomes : ∀ k, p.calls.length ≤ k → p'.Ended k → ∃ why, q.Rejection why ∧ p'.Returned k (.failed why)
  intact : p.Intact p'

/-- what contexts and sink are asked and told for an alias that comes to be resolved -/
def materialisation (q : Request) (i : RecordId) (isTask : Bool) : List Query :=
  [.context i q.moduleAlias, .deployed i q.moduleAlias isTask]

/-- the callers that have returned all got the record. It was made for them if the deployment was not cached, and no
other was. Of all contexts the record's was asked, for the request's alias, once at most, and then the sink told: not
if the alias was resolved, and both if it was not and all have returned -/
structure AllServed (p p' : Pool) (q : Request) (i : RecordId) : Prop where
  outcomes : ∀ k, p.calls.length ≤ k → p'.Ended k → p'.Returned k (.record i)
  known : p'.registry.Known q i
  made : p.registry.Known q i ∧ p'.made = p.made ∨
    (∀ j, p.registry.Caches j → (p.registry.record j).id ≠ q.id) ∧ p'.made = p.made ++ [i]
  told : ∃ isTask told, p'.consulted = p.consulted ++ told ∧ told <+: materialisation q i isTask ∧
    ((p.registry.record i).hasResolved q.moduleAlias = true → told = []) ∧
    ((p.registry.record i).hasResolved q.moduleAlias = false → p.calls.length < p'.calls.length →
      (∀ k, p.calls.length ≤ k → k < p'.calls.length → p'.Ended k) → told = materialisation q i isTask)

theorem Undecided.allTurnedAway (hp : p.Reachable) (h : p₀.Undecided p q live) : p₀.AllTurnedAway p q := by
  refine ⟨?_, h.intact⟩
  intro k hk hend
  obtain ⟨o, ho⟩ := hp.settled.ended k hend
  obtain ⟨⟨why, rfl, hwhy⟩, -⟩ := h.returned k o hk ho
  exact ⟨why, hwhy, ho⟩

/-- what the caller that has the module made has asked and told so far -/
theorem shown?_prefix {r : Record} {told : List Query} (hon : pt.On r i q.moduleAlias)
    (h : (⟨.request q report pt, b⟩ : Underway).shown? = some told) :
    ∃ isTask, told <+: materialisation q i isTask := by
  cases pt with
  | resolving j pt =>
    cases pt with
    | asking cell =>
      obtain rfl : j = i := hon.1
      cases h
      refine ⟨true, ?_⟩
      cases b <;> simp [materialisation]
    | _ => cases h
  | notifying j t =>
    obtain rfl : j = i := hon
    cases h
    refine ⟨t, ?_⟩
    cases b <;> simp [materialisation]
  | _ => cases h

theorem Sharing.allServed (hp : p.Reachable) (h : p₀.Sharing p q live i) : p₀.AllServed p q i := by
  have hreturned : ∀ k, p₀.calls.length ≤ k → p.Ended k →
      p.Returned k (.record i) ∧ (p.registry.record i).hasResolved q.moduleAlias = true := by
    intro k hk hend
    obtain ⟨o, ho⟩ := hp.settled.ended k hend
    obtain ⟨rfl, hres⟩ := h.returned k o hk ho
    exact ⟨ho, hres⟩
  refine ⟨fun k hk hend => (hreturned k hk hend).1, h.known, ?_, ?_⟩
  · rcases h.born with hborn | ⟨hunknown, -, hmade⟩
    · exact .inl hborn
    · exact .inr ⟨hunknown, hmade⟩
  · cases h.stands with
    | resting hnone hsame hres =>
      refine ⟨true, [], by simp [hsame], List.nil_prefix, fun _ => rfl, ?_⟩
      intro hnew hlt hall
      have hresolved := (hreturned _ le_rfl (hall _ le_rfl hlt)).2
      rw [hres, hnew] at hresolved
      cases hresolved
    | @working k u told hnew hk hc hu hsole happ hres =>
      obtain ⟨report, pt, b, rfl, hon⟩ := h.calls k u hk hc
      obtain ⟨isTask, hprefix⟩ := shown?_prefix hon hu
      refine ⟨isTask, told, happ, hprefix, ?_, ?_⟩
      · intro hold
        rw [hnew] at hold
        cases hold
      · intro _ _ hall
        exact absurd (hall k hk (lt_of_call? hc)) (not_ended hc)
    | @done t hnew hnone happ hres =>
      refine ⟨t, _, happ, List.prefix_refl _, ?_, fun _ _ _ => rfl⟩
      intro hold
      rw [hnew] at hold
      cases hold

/-- **identical requests at the same time share one record**: any number of callers hand in the same request, in a state
that some run leads to; their steps come in any order, and time passes. At every moment either those that have returned
were turned away and nothing has changed, or they all got one record, with one context made if the deployment was not
cached, and with the alias resolved and reported once if it was not resolved. If no call that was there before has the
lock or the alias's cell, all of them return, once each has had its turn often enough. -/
theorem identical_requests_share (hp : p.Reachable) (hq : q.WellFormed) {ms : List Move}
    (hms : ∀ m ∈ ms, m.Joins q live p.calls.length) :
    (p.run ms).calls.length = p.calls.length + ms.countP Move.begins ∧
      (p.AllTurnedAway (p.run ms) q ∨ ∃ i, p.AllServed (p.run ms) q i) ∧
      (p.Clear q → ∀ rounds : List (List Move), (∀ r ∈ rounds, Round q live p.calls.length (p.run ms).calls.length r) →
        20 * ms.countP Move.begins ≤ rounds.length →
          ∀ k, p.calls.length ≤ k → k < (p.run ms).calls.length → (p.run (ms ++ rounds.flatten)).Ended k) := by
  refine ⟨length_run_joined hq hms, ?_, ?_⟩
  · rcases together_run hp hms with h | ⟨i, h⟩
    · exact .inl (h.allTurnedAway (hp.run ms))
    · exact .inr ⟨i, h.allServed (hp.run ms)⟩
  · intro hclear rounds hrounds hlength k hk hlt
    exact ended_of_rounds hp hq hclear hms hrounds hlength hk hlt

/-- two callers with a request that supersedes an older one: the second has the module made on the record that the first
made, and the first waits for it -/
theorem two_callers_share :
    let w : Request := { id := ⟨"w"⟩, sender := ⟨"s"⟩, seq := 1, moduleAlias := "a" }
    let x : Request := { id := ⟨"x"⟩, sender := ⟨"s"⟩, seq := 2, moduleAlias := "a" }
    let r : Reply := { module := .ok ⟨"n", true⟩ }
    let p := (new 100).run (.enter (.request w true .entering) :: turns 0 { module := .ok ⟨"m", false⟩ } 8)
    let begun : List Move := [.enter (.request x true .entering), .enter (.request x false .entering)]
    let ms : List Move := begun ++ [Move.ask 1, .step 1 r, .ask 2, .step 2 r, .step 1 r, .step 2 r, .ask 1, .step 1 r,
      .pass 5, .step 1 r, .step 2 r, .ask 2, .step 2 r, .step 2 r, .step 2 r, .step 1 r, .step 2 r, .step 1 r, .ask 2,
      .step 1 r, .step 2 r, .step 1 r, .ask 2, .step 2 r]
    let rounds : List (List Move) := List.replicate 40 [.step 2 r, .ask 2, .step 1 r, .pass 1, .ask 1]
    (p.registry.record 0).IsBehind x ∧ p.AllServed (p.run ms) x 1 ∧ (p.run ms).Returned 1 (.record 1) ∧
      (p.run ms).Returned 2 (.record 1) ∧ (p.run ms).consulted = p.consulted ++ materialisation x 1 true ∧
      (p.run (begun ++ rounds.flatten)).Ended 1 ∧ (p.run (begun ++ rounds.flatten)).Ended 2 := by
  intro w x r p begun ms rounds
  have hp : p.Reachable := ⟨100, _, rfl⟩
  have hplace : p.calls.length = 1 := by decide +kernel
  have hbehind : (p.registry.record 0).IsBehind x := by decide +kernel
  have hclear : p.Clear x := clear_of_isIdle (by decide +kernel) x
  have hlength : (p.run begun).calls.length = 3 := by decide +kernel
  have hfirst : (p.run ms).Returned 1 (.record 1) := by decide +kernel
  have hsecond : (p.run ms).Returned 2 (.record 1) := by decide +kernel
  have htold : (p.run ms).consulted = p.consulted ++ materialisation x 1 true := by decide +kernel
  clear_value p
  have hbegun : ∀ m ∈ begun, m.Joins x true p.calls.length := by
    simp [begun, Move.Joins, hplace]
  have hms : ∀ m ∈ ms, m.Joins x true p.calls.length := by
    simp [ms, begun, r, Move.Joins, hplace]
  have hround : Round x true p.calls.length (p.run begun).calls.length
      [.step 2 r, .ask 2, .step 1 r, .pass 1, .ask 1] := by
    rw [hplace, hlength]
    refine ⟨by simp [Plays, r, Move.Joins, Move.begins], ?_, ?_⟩
    · intro k hk hlt
      interval_cases k <;> simp
    · intro k hk hlt
      refine ⟨r, ?_⟩
      interval_cases k <;> simp
  have hq : x.WellFormed := by decide
  obtain ⟨-, hserved, -⟩ := identical_requests_share hp hq hms
  obtain ⟨-, -, hended⟩ := identical_requests_share hp hq hbegun
  have hall := hended hclear rounds (fun l hl => List.eq_of_mem_replicate hl ▸ hround) (by decide)
  have hserved : p.AllServed (p.run ms) x 1 := by
    have hend := (hp.run ms).settled.returned 1 _ hfirst
    rcases hserved with h | ⟨i, h⟩
    · obtain ⟨why, -, ho⟩ := h.outcomes 1 hplace.le hend
      cases (hp.run ms).settled.unique 1 _ _ hfirst ho
    · cases (hp.run ms).settled.unique 1 _ _ hfirst (h.outcomes 1 hplace.le hend)
      exact h
  refine ⟨hbehind, hserved, hfirst, hsecond, htold, hall 1 hplace.le ?_, hall 2 ?_ ?_⟩
  · simp [hlength]
  · simp [hplace]
  · simp [hlength]

end Pool

end Redeploy
