/-
Attempts to resolve an alias on a record.

An attempt begins when a call looks for the alias's slot, and it ends with a result: the module, with whether it was made
for this call, or why there is none. Meanwhile other calls go on: the context that is asked may resolve other aliases, and
the record may be taken out of the cache. `Stride` is the one case analysis of what a move does to an attempt. From it
come two invariants: `Knows` for an alias that has a module, `Striving` for one that has none and that nobody else
resolves.

Results:
- `stride`: what a move does to an attempt;
- `adds_of_new`: an alias gets a module only at the end of an attempt, and that one's result says so;
- `Attempts.of_known`: an alias with a module is answered from the record, and no context is asked;
- **`tried_of_fresh`**: how an attempt goes on an alias without a module;
- `exists_ends`: left alone an attempt ends;
- **`alias_cache`**: the modules of a record along every run.
-/
import Redeploy.Proofs.Drain
import Redeploy.Proofs.Materialisation

namespace Redeploy

open Registry

/-- where no alias has two slots, the modules listed are those of the aliases -/
theorem Record.mem_modules {r : Record} (hn : (r.slots.map Prod.fst).Nodup) {a : String} {x : Module} :
    (a, x) ∈ r.modules ↔ r.module? a = some x := by
  simp only [modules, List.mem_mergeSort, List.mem_filterMap, Option.map_eq_some_iff, Prod.exists, Prod.mk.injEq,
    module?_eq_some]
  constructor
  · rintro ⟨b, cell, hmem, y, hy, rfl, rfl⟩
    exact ⟨cell, (lookup_eq_some_iff hn).2 hmem, hy⟩
  · rintro ⟨cell, hslot, hx⟩
    exact ⟨a, cell, (lookup_eq_some_iff hn).1 hslot, x, hx, rfl, rfl⟩

/-- how a resolution ends: with a module, and whether it was made for this call, or with a failure -/
abbrev Resolution := Except Failure (Module × Bool)

/-- the module that the resolution ends with -/
def Resolution.module? : Resolution → Option Module
  | .ok (x, _) => some x
  | .error _ => none

/-- what a call returns that only resolves an alias -/
def Resolution.outcome : Resolution → Outcome
  | .ok (x, fresh) => .module x fresh
  | .error why => .failed why

/-- what passes between a call and the contexts of records -/
inductive Word where
  | asks (i : RecordId) (a : String)
  | hears (answer : Except Failure Module)
deriving DecidableEq

/-- the record and the alias that a context is asked for -/
def Query.wanted? : Query → Option (RecordId × String)
  | .context i a => some (i, a)
  | _ => none

namespace Call

/-- the end of the resolution, if it ends with the step -/
def LookupStep.resolution? : LookupStep → Option Resolution
  | .found x fresh => some (.ok (x, fresh))
  | .failed why => some (.error why)
  | _ => none

theorem query_of_lookup? {c : Call} {i : RecordId} {a : String} {pt : LookupPoint} (h : c.lookup? = some (i, a, pt))
    (g : Registry) : c.query g = lookupQuery i a pt := by
  unfold lookup? at h
  split at h
  · cases h
    rfl
  · cases h
    rfl
  · cases h

theorem wanted?_lookupQuery {i j : RecordId} {a b : String} {pt : LookupPoint}
    (h : (lookupQuery i a pt).wanted? = some (j, b)) : j = i ∧ b = a ∧ ∃ cell, pt = .asking cell := by
  cases pt with
  | asking cell =>
    cases h
    exact ⟨rfl, rfl, cell, rfl⟩
  | _ => cases h

/-- a call that asks a context resolves that alias on its record -/
theorem lookup?_of_wanted {g : Registry} {c : Call} {i : RecordId} {a : String}
    (h : (c.query g).wanted? = some (i, a)) : ∃ cell, c.lookup? = some (i, a, .asking cell) := by
  cases c with
  | request q report pt =>
    cases pt with
    | resolving j pt =>
      obtain ⟨rfl, rfl, cell, rfl⟩ := wanted?_lookupQuery h
      exact ⟨cell, rfl⟩
    | _ => cases h
  | lookup j b pt =>
    obtain ⟨rfl, rfl, cell, rfl⟩ := wanted?_lookupQuery h
    exact ⟨cell, rfl⟩
  | removal cause total pt =>
    cases pt with
    | checking left gone => cases left <;> cases h
    | telling queue => cases queue <;> cases h
    | hooking hooks queue => cases hooks <;> cases queue <;> cases h
    | releasing queue => cases queue <;> cases h
    | starting => cases h
  | start checked => cases h

theorem advance_of_wait {g : Registry} {reply : Reply} {c : Call} {i : RecordId} {a : String} {pt : LookupPoint}
    (h : c.lookup? = some (i, a, pt)) (hn : (advanceLookup g i a reply pt).2 = .wait) :
    (c.advance g reply).next = .wait := by
  unfold lookup? at h
  split at h
  · cases h
    simp only [advance, advanceRequest]
    split <;> rename_i heq <;> rw [heq] at hn <;> cases hn
  · cases h
    simp only [advance]
    split <;> rename_i heq <;> rw [heq] at hn <;> cases hn
  · cases h

/-- a bare lookup returns what its resolution ends with -/
theorem done_of_resolution? {g : Registry} {reply : Reply} {i : RecordId} {a : String} {pt : LookupPoint}
    {o : Resolution} (h : (advanceLookup g i a reply pt).2.resolution? = some o) :
    ((Call.lookup i a pt).advance g reply).next = .done o.outcome := by
  simp only [advance]
  generalize advanceLookup g i a reply pt = s at h ⊢
  obtain ⟨g', n⟩ := s
  cases n <;> cases h <;> rfl

namespace Looks

variable {r r' : Record} {a : String} {reply : Reply} {pt : LookupPoint} {n : LookupStep}

/-- a cell with a module that is in the alias's slot was there before -/
theorem slot_of_content? (h : Looks r a reply pt r' n) {cell : Nat} {x : Module}
    (hslot : r'.slots.lookup a = some cell) (hx : r'.content? cell = some x) : r.slots.lookup a = some cell := by
  cases h with
  | opened h =>
    simp only [List.lookup_append, h, List.lookup_cons, beq_self_eq_true, Option.none_or, Option.some.injEq] at hslot
    subst hslot
    simp [Record.content?] at hx
  | cleared =>
    unfold Record.closeSlot at hslot
    split at hslot
    · exact hslot
    · rw [Record.lookup_filter_self] at hslot
      cases hslot
  | _ => exact hslot

/-- an alias without a module gets one by a fresh result only -/
theorem fresh_of_new (h : Looks r a reply pt r' n)
    (hp : ∀ cell, pt = .asking cell → r.cells[cell]? = some ⟨none, true⟩) {x : Module} (hnone : r.module? a = none)
    (hsome : r'.module? a = some x) : n = .found x true := by
  obtain ⟨cell, hslot', hx⟩ := Record.module?_eq_some.1 hsome
  have hslot := h.slot_of_content? hslot' hx
  have hempty : r.content? cell = none := by simpa [Record.module?, hslot] using hnone
  rcases h.content?_next hp cell with ⟨y, fresh, hn, -, hafter, hbefore⟩ | ⟨-, hsame⟩
  · rw [hafter] at hx
    cases hx
    cases fresh with
    | true => exact hn
    | false =>
      rw [hempty] at hbefore
      cases hbefore
  · rw [hsame, hempty] at hx
    cases hx

/-- a call whose cell is in the alias's slot goes on so; an alias without a module gets the one that is made -/
theorem tied_next (h : Looks r a reply pt r' n) (hp : ∀ cell, pt = .asking cell → r.cells[cell]? = some ⟨none, true⟩)
    (ht : Pool.Tied r a pt) (hnone : r.module? a = none) :
    (∀ pt', n = .go pt' ∨ n = .wait ∧ pt' = pt → Pool.Tied r' a pt') ∧
      (∀ x fresh, n = .found x fresh → fresh = true) ∧ r'.module? a = n.resolution?.bind Resolution.module? := by
  have hslot : ∀ cell, pt.cell? = some cell → r.slots.lookup a = some cell := by
    intro cell hcell
    cases pt with
    | trying cell' => cases hcell; exact ht
    | asking cell' => cases hcell; exact ht
    | _ => cases hcell
  have hmodule := h.module?_next hp hslot
  refine ⟨?_, ?_, ?_⟩
  · rintro pt' (rfl | ⟨rfl, rfl⟩)
    · have hnone' : r'.module? a = none := by
        rcases hmodule with ⟨x, fresh, hn, -⟩ | ⟨-, hsame⟩
        · cases hn
        · exact hsame.trans hnone
      cases h with
      | found h => exact h
      | opened h => simp [Pool.Tied, List.lookup_append, h]
      | gone h hu => exact hnone'
      | ask h hu => exact ht
      | refused h => exact hnone'
    · cases h <;> exact ht
  · rintro x fresh rfl
    rcases hmodule with ⟨x', fresh', hn, -, hbefore⟩ | ⟨hno, -⟩
    · cases hn
      cases fresh with
      | true => rfl
      | false =>
        rw [hnone] at hbefore
        cases hbefore
    · exact absurd rfl (hno x fresh)
  · rcases hmodule with ⟨x, fresh, rfl, hafter, -⟩ | ⟨hno, hsame⟩
    · exact hafter
    · rw [hsame, hnone]
      cases n with
      | found x fresh => exact absurd rfl (hno x fresh)
      | _ => rfl

end Looks

end Call

namespace Pool

variable {p : Pool} {k : Nat} {i : RecordId} {a : String} {pt : LookupPoint} {b : Bool} {m : Move} {ms : List Move}

/-! ## A move in an attempt -/

/-- what the move passes between the call at the place and a context -/
def word? (k : Nat) (p : Pool) (m : Move) : Option Word :=
  match m, p.call? k with
  | .ask j, some ⟨c, false⟩ => if j = k then (c.query p.registry).wanted?.map fun (i, a) => .asks i a else none
  | .step j reply, some ⟨c, true⟩ =>
    if j = k then (c.query p.registry).wanted?.map fun _ => .hears reply.module else none
  | _, _ => none

/-- what passes between the call at the place and the contexts in a run -/
def words (p : Pool) (k : Nat) (ms : List Move) : List Word := p.seen (word? k) ms

theorem words_concat (p : Pool) (k : Nat) (ms : List Move) (m : Move) :
    p.words k (ms ++ [m]) = p.words k ms ++ (word? k (p.run ms) m).toList := seen_concat _ p ms m

/-- how the resolution of the call at the place ends, if it does with the move -/
def resolution? (p : Pool) (k : Nat) (m : Move) : Option Resolution :=
  match m, p.call? k with
  | .step j reply, some ⟨c, asking⟩ =>
    if j = k ∧ (asking = true ∨ c.query p.registry = .nothing) then
      c.lookup?.bind fun (i, a, pt) => (Call.advanceLookup p.registry i a { reply with now := p.now } pt).2.resolution?
    else none
  | _, _ => none

theorem word?_of_ne (hm : m.place? ≠ some k) : word? k p m = none := by
  unfold word?
  split
  · exact if_neg fun h => hm (by rw [h]; rfl)
  · exact if_neg fun h => hm (by rw [h]; rfl)
  · rfl

/-- a move ends a resolution of the call that it is about -/
theorem place?_of_resolution? {o : Resolution} (h : p.resolution? k m = some o) : m.place? = some k := by
  unfold resolution? at h
  split at h
  · split_ifs at h with hj
    exact congrArg some hj.1
  · cases h

theorem resolution?_of_ne (hm : m.place? ≠ some k) : p.resolution? k m = none :=
  Option.eq_none_iff_forall_ne_some.2 fun _ h => hm (place?_of_resolution? h)

/-- the call at the place resolves the alias on the record, is at that point, and has put its query or not -/
def Resolving (p : Pool) (k : Nat) (i : RecordId) (a : String) (pt : LookupPoint) (asking : Bool) : Prop :=
  ∃ c, p.call? k = some ⟨c, asking⟩ ∧ c.lookup? = some (i, a, pt)

theorem Resolving.resolves (h : p.Resolving k i a pt b) : p.Resolves k i a pt := by
  obtain ⟨c, hc, hl⟩ := h
  exact ⟨_, hc, hl⟩

theorem Resolves.resolving (h : p.Resolves k i a pt) : ∃ b, p.Resolving k i a pt b := by
  obtain ⟨⟨c, b⟩, hc, hl⟩ := h
  exact ⟨b, c, hc, hl⟩

/-- a call resolves one alias at a time -/
theorem Resolves.unique {j : RecordId} {a' : String} {pt' : LookupPoint} (h : p.Resolves k i a pt)
    (h' : p.Resolves k j a' pt') : j = i ∧ a' = a ∧ pt' = pt := by
  obtain ⟨u, hu, hl⟩ := h
  obtain ⟨v, hv, hl'⟩ := h'
  rw [hu] at hv
  cases hv
  rw [hl] at hl'
  cases hl'
  exact ⟨rfl, rfl, rfl⟩

theorem Resolving.asking_eq {j : RecordId} {a' : String} {pt' : LookupPoint} {b' : Bool} (h : p.Resolving k i a pt b)
    (h' : p.Resolving k j a' pt' b') : b' = b := by
  obtain ⟨c, hc, -⟩ := h
  obtain ⟨c', hc', -⟩ := h'
  rw [hc] at hc'
  cases hc'
  rfl

/-- what a move does to the attempt of the call at the place -/
inductive Stride (p : Pool) (k : Nat) (i : RecordId) (a : String) (pt : LookupPoint) (asking : Bool) (m : Move) : Prop
  /-- the move is another call's, or is not possible -/
  | rests (hat : (p.step m).Resolving k i a pt asking) (hend : p.resolution? k m = none) (hword : word? k p m = none)
    (hown : m.place? = some k → (p.step m).registry = p.registry)
  | asks {cell : Nat} (hpt : pt = .asking cell) (hfirst : asking = false) (hat : (p.step m).Resolving k i a pt true)
    (hend : p.resolution? k m = none) (hword : word? k p m = some (.asks i a))
    (hreg : (p.step m).registry = p.registry)
  | looks {reply : Reply} {n : Call.LookupStep} (hready : asking = true ∨ Call.lookupQuery i a pt = .nothing)
    (hlooks : Call.Looks (p.registry.record i) a { reply with now := p.now } pt ((p.step m).registry.record i) n)
    (hend : p.resolution? k m = n.resolution?)
    (hword : word? k p m = (Call.lookupQuery i a pt).wanted?.map fun _ => .hears reply.module)
    (hgoes : ∀ pt', n = .go pt' → (p.step m).Resolving k i a pt' false)
    (hwaits : n = .wait → (p.step m).Resolving k i a pt false)
    (hstays : ∀ pt', (p.step m).Resolves k i a pt' → n = .go pt' ∨ n = .wait)

theorem stride_ask (h : p.Resolving k i a pt b) : p.Stride k i a pt b (.ask k) := by
  obtain ⟨c, hc, hl⟩ := h
  have hq := Call.query_of_lookup? hl p.registry
  cases b with
  | true =>
    have hidle : p.step (.ask k) = p := by simp [Pool.step, hc]
    exact .rests (by rw [hidle]; exact ⟨c, hc, hl⟩) rfl (by simp [word?, hc]) fun _ => by rw [hidle]
  | false =>
    by_cases hpt : ∃ cell, pt = .asking cell
    · obtain ⟨cell, rfl⟩ := hpt
      have hask : c.query p.registry = .context i a := hq
      have hstep := step_eq_pose hc (by rw [hask]; exact Query.noConfusion)
      refine .asks rfl rfl ⟨c, ?_, hl⟩ rfl (by simp [word?, hc, hask, Query.wanted?]) (by rw [hstep]; rfl)
      rw [hstep, call?_pose hc, if_pos rfl]
    · have hnothing : c.query p.registry = .nothing := by
        rw [hq]
        cases pt with
        | asking cell => exact absurd ⟨cell, rfl⟩ hpt
        | _ => rfl
      have hidle : p.step (.ask k) = p := by simp [Pool.step, hc, hnothing]
      refine .rests (by rw [hidle]; exact ⟨c, hc, hl⟩) rfl ?_ fun _ => by rw [hidle]
      simp [word?, hc, hnothing, Query.wanted?]

/-- a call that is ready does the next step of its resolution -/
theorem resolution?_of_ready {c : Call} (hc : p.call? k = some ⟨c, b⟩) (hl : c.lookup? = some (i, a, pt))
    (hready : b = true ∨ c.query p.registry = .nothing) (reply : Reply) : p.resolution? k (.step k reply) =
      (Call.advanceLookup p.registry i a { reply with now := p.now } pt).2.resolution? := by
  simp [resolution?, hc, hready, hl]

theorem resolving_of_go {c : Call} (hc : p.call? k = some ⟨c, b⟩) (hl : c.lookup? = some (i, a, pt))
    (hready : b = true ∨ c.query p.registry = .nothing) {reply : Reply} {pt' : LookupPoint}
    (hn : (Call.advanceLookup p.registry i a { reply with now := p.now } pt).2 = .go pt') :
    (p.step (.step k reply)).Resolving k i a pt' false := by
  obtain ⟨c', hgo, hl'⟩ := Call.advance_of_go hl hn
  refine ⟨c', ?_, hl'⟩
  rw [step_eq_advance hc hready (by simp [Call.needsLock_of_lookup? hl]), call?_advance hc, if_pos rfl, hgo]
  rfl

theorem stride_step (hp : p.Reachable) (h : p.Resolving k i a pt b) (reply : Reply) :
    p.Stride k i a pt b (.step k reply) := by
  obtain ⟨c, hc, hl⟩ := h
  have hq := Call.query_of_lookup? hl p.registry
  by_cases hready : b = true ∨ c.query p.registry = .nothing
  · obtain ⟨owner, hk⟩ := hp.kept
    have hstep := step_eq_advance hc hready (by simp [Call.needsLock_of_lookup? hl]) reply
    have hlooks := Call.advanceLookup_looks p.registry (hk.placed k i a pt ⟨_, hc, hl⟩) a { reply with now := p.now } pt
    rw [← Call.advance_registry_of_lookup? hl] at hlooks
    have hcall := call?_advance hc reply k
    rw [if_pos rfl, ← hstep] at hcall
    rw [show (Call.advance p.registry { reply with now := p.now } c).registry = (p.step (.step k reply)).registry by
      rw [hstep]; rfl] at hlooks
    refine .looks (hq ▸ hready) hlooks (resolution?_of_ready hc hl hready reply) ?_ (fun _ => resolving_of_go hc hl hready)
      ?_ ?_
    · cases b with
      | true => simp [word?, hc, hq]
      | false =>
        have hnothing : c.query p.registry = .nothing := by simpa using hready
        rw [← hq, hnothing]
        simp [word?, hc, Query.wanted?]
    · intro hn
      exact ⟨c, by rw [hcall, Call.advance_of_wait hl hn]; rfl, hl⟩
    · intro pt' hr
      rw [hstep] at hr
      rcases resolves_advance_self hp.sound hc hr with ⟨hnone, -⟩ | ⟨pt₀, hsome, hgo | ⟨hwait, -⟩⟩
      · rw [hl] at hnone
        cases hnone
      · rw [hl] at hsome
        cases hsome
        exact .inl hgo
      · rw [hl] at hsome
        cases hsome
        exact .inr hwait
  · have hidle : p.step (.step k reply) = p := by
      obtain ⟨hb, hquery⟩ := not_or.1 hready
      simp [Pool.step, hc, hb, hquery]
    refine .rests (by rw [hidle]; exact ⟨c, hc, hl⟩) ?_ ?_ fun _ => by rw [hidle]
    · simp [resolution?, hc, hready]
    · cases b with
      | true => exact absurd (.inl rfl) hready
      | false => simp [word?, hc]

/-- **what a move does to an attempt**: nothing, or the call asks its context, or it is a step of the resolution -/
theorem stride (hp : p.Reachable) (h : p.Resolving k i a pt b) (m : Move) : p.Stride k i a pt b m := by
  by_cases hm : m.place? = some k
  · cases m with
    | ask j =>
      cases hm
      exact stride_ask h
    | step j reply =>
      cases hm
      exact stride_step hp h reply
    | _ => cases hm
  · obtain ⟨c, hc, hl⟩ := h
    refine .rests ⟨c, ?_, hl⟩ (resolution?_of_ne hm) (word?_of_ne hm) fun h => absurd h hm
    rw [call?_step_of_ne hm (lt_of_call? hc)]
    exact hc

/-- an attempt with a result is over -/
theorem over_of_resolution? (hp : p.Reachable) (h : p.Resolves k i a pt) {o : Resolution}
    (ho : p.resolution? k m = some o) (pt' : LookupPoint) : ¬ (p.step m).Resolves k i a pt' := by
  obtain ⟨b, hat⟩ := h.resolving
  intro hr
  cases stride hp hat m with
  | rests _ hend => simp [hend] at ho
  | asks _ _ _ hend => simp [hend] at ho
  | looks _ _ hend _ _ _ hstays =>
    rw [hend] at ho
    rcases hstays pt' hr with rfl | rfl <;> cases ho

/-- an attempt without a result goes on -/
theorem resolves_of_resolution? (hp : p.Reachable) (h : p.Resolves k i a pt) (ho : p.resolution? k m = none) :
    ∃ pt', (p.step m).Resolves k i a pt' := by
  obtain ⟨b, hat⟩ := h.resolving
  cases stride hp hat m with
  | rests hat => exact ⟨pt, hat.resolves⟩
  | asks _ _ hat => exact ⟨pt, hat.resolves⟩
  | @looks reply n _ _ hend _ hgoes hwaits _ =>
    rw [hend] at ho
    cases n with
    | go pt' => exact ⟨pt', (hgoes pt' rfl).resolves⟩
    | wait => exact ⟨pt, (hwaits rfl).resolves⟩
    | found x fresh => cases ho
    | failed why => cases ho

/-! ## What is added -/

/-- the move ends a resolution of the alias with a module that was made for it -/
structure Adds (p : Pool) (k : Nat) (m : Move) (i : RecordId) (a : String) (x : Module) : Prop where
  resolves : ∃ pt, p.Resolves k i a pt
  ends : p.resolution? k m = some (.ok (x, true))

/-- **an alias gets a module only from a resolution that has had it made** -/
theorem adds_of_new (hp : p.Reachable) {x : Module} (hnone : (p.registry.record i).module? a = none)
    (hsome : ((p.step m).registry.record i).module? a = some x) : ∃ k, p.Adds k m i a x := by
  obtain ⟨owner, hk⟩ := hp.kept
  have hsame (h : ((p.step m).registry.record i).module? a = (p.registry.record i).module? a) : False := by
    rw [h, hnone] at hsome
    cases hsome
  rcases record_step hp.sound hk m i with hstore | ⟨k, reply, a', pt, n', hm, hres, hlooks'⟩
  · exact (hsame (module?_congr hstore a)).elim
  · by_cases ha : a = a'
    · subst ha
      obtain ⟨b, hat⟩ := hres.resolving
      cases stride hp hat m with
      | rests _ _ _ hown => exact (hsame (by rw [hown (by rw [hm]; rfl)])).elim
      | asks _ _ _ _ _ hreg => exact (hsame (by rw [hreg])).elim
      | looks _ hlooks hend =>
        rw [hlooks.fresh_of_new (fun _ => hp.busy_cell hres) hnone hsome] at hend
        exact ⟨k, ⟨pt, hres⟩, hend⟩
    · exact (hsame (hlooks'.frame ha fun cell => hk.apart hres ha).2).elim

/-! ## An attempt -/

/-- the call at the place resolves the alias through the moves, and the next one brings the result -/
structure Attempts (p : Pool) (k : Nat) (i : RecordId) (a : String) (before : List Move) (m : Move) (o : Resolution) :
    Prop where
  goes : ∀ l, l <+: before → ∃ pt, (p.run l).Resolves k i a pt
  ends : (p.run before).resolution? k m = some o

section

variable {before : List Move} {o : Resolution}

theorem attempts_nil (hr : p.Resolves k i a pt) (ho : p.resolution? k m = some o) : p.Attempts k i a [] m o := by
  refine ⟨fun l hl => ?_, ho⟩
  rw [List.prefix_nil.1 hl]
  exact ⟨pt, hr⟩

theorem Attempts.cons {m' : Move} (h : (p.step m').Attempts k i a before m o) (hr : p.Resolves k i a pt) :
    p.Attempts k i a (m' :: before) m o := by
  refine ⟨fun l hl => ?_, h.ends⟩
  cases l with
  | nil => exact ⟨pt, hr⟩
  | cons m'' l =>
    obtain ⟨rfl, htail⟩ := List.cons_prefix_cons.1 hl
    exact h.goes l htail

instance (p : Pool) (k : Nat) (i : RecordId) (a : String) : Decidable (∃ pt, p.Resolves k i a pt) :=
  decidable_of_iff (p.ResolvesAt k i a fun _ => true) (by simp [ResolvesAt])

instance (p : Pool) (k : Nat) (i : RecordId) (a : String) (before : List Move) (m : Move) (o : Resolution) :
    Decidable (p.Attempts k i a before m o) :=
  decidable_of_iff ((∀ l ∈ before.inits, ∃ pt, (p.run l).Resolves k i a pt) ∧ (p.run before).resolution? k m = some o)
    ⟨fun h => ⟨fun l hl => h.1 l ((List.mem_inits l before).2 hl), h.2⟩,
      fun h => ⟨fun l hl => h.goes l ((List.mem_inits l before).1 hl), h.ends⟩⟩

/-- there is no result before the end -/
theorem Attempts.goes_on (hp : p.Reachable) (h : p.Attempts k i a before m o) {l : List Move} {m' : Move}
    (hl : l ++ [m'] <+: before) : (p.run l).resolution? k m' = none := by
  by_contra hno
  obtain ⟨o', ho'⟩ := Option.ne_none_iff_exists'.1 hno
  obtain ⟨pt, hr⟩ := h.goes l ((List.prefix_append l [m']).trans hl)
  obtain ⟨pt', hr'⟩ := h.goes (l ++ [m']) hl
  rw [run_append] at hr'
  exact over_of_resolution? (hp.run l) hr ho' pt' hr'

/-- what holds at the beginning of an attempt, and through each move of it, holds up to its last one -/
theorem Attempts.induct (hp : p.Reachable) (h : p.Attempts k i a before m o) {P : List Move → Prop} (hnil : P [])
    (hstep : ∀ l m', l ++ [m'] <+: before → P l → (p.run l).resolution? k m' = none → P (l ++ [m'])) :
    ∀ l, l <+: before → P l := by
  intro l
  induction l using List.reverseRecOn with
  | nil => exact fun _ => hnil
  | append_singleton l m' ih =>
    exact fun hl => hstep l m' hl (ih ((List.prefix_append l [m']).trans hl)) (h.goes_on hp hl)

/-- **an attempt that is over had a result** -/
theorem exists_attempt (hp : p.Reachable) (h : p.Resolves k i a pt) (hno : ∀ pt', ¬ (p.run ms).Resolves k i a pt') :
    ∃ before m after o, ms = before ++ m :: after ∧ p.Attempts k i a before m o := by
  induction ms generalizing p pt with
  | nil => exact absurd h (hno pt)
  | cons m ms ih =>
    cases ho : p.resolution? k m with
    | none =>
      obtain ⟨pt', h'⟩ := resolves_of_resolution? hp h ho
      obtain ⟨before, m', after, o, rfl, hatt⟩ := ih (hp.step m) h' hno
      exact ⟨m :: before, m', after, o, rfl, hatt.cons h⟩
    | some o => exact ⟨[], m, ms, o, rfl, attempts_nil h ho⟩

/-- a bare lookup returns its result -/
theorem returned_of_resolution? {b : Bool} (hc : p.call? k = some ⟨.lookup i a pt, b⟩)
    (ho : p.resolution? k m = some o) : (p.step m).Returned k o.outcome := by
  cases m with
  | step j reply =>
    simp only [resolution?] at ho
    split at ho
    · rename_i j' reply' c asking hm hc'
      cases hm
      split_ifs at ho with hready
      obtain ⟨rfl, hready⟩ := hready
      rw [hc] at hc'
      cases hc'
      rw [step_eq_advance hc hready (fun h => by cases h) reply]
      exact returned_advance.2 (.inr ⟨rfl, Call.done_of_resolution? ho⟩)
    · cases ho
  | _ => cases ho

/-! ## An alias that has a module -/

/-- the call at the place will find the module -/
inductive Knows (p : Pool) (k : Nat) (i : RecordId) (a : String) (x : Module) : Prop
  | looking (hres : p.Resolves k i a .looking) (hx : (p.registry.record i).module? a = some x)
  | trying {cell : Nat} (hres : p.Resolves k i a (.trying cell)) (hx : (p.registry.record i).content? cell = some x)

theorem content?_step_eq_some (hp : p.Reachable) (m : Move) {cell : Nat} {x : Module}
    (h : (p.registry.record i).content? cell = some x) : ((p.step m).registry.record i).content? cell = some x := by
  obtain ⟨owner, hk⟩ := hp.kept
  rcases record_step hp.sound hk m i with hstore | ⟨j, reply, a', pt, n, -, hres, hlooks⟩
  · have hcells : ((p.step m).registry.record i).cells = (p.registry.record i).cells := congrArg Prod.fst hstore
    rwa [Record.content?, hcells]
  · exact hlooks.content?_eq_some (fun _ => hp.busy_cell hres) h

/-- who will find the module says nothing, and goes on so or is answered with it -/
theorem Knows.step {x : Module} (hp : p.Reachable) (h : p.Knows k i a x) (m : Move) :
    word? k p m = none ∧ ((p.step m).Knows k i a x ∧ p.resolution? k m = none ∨
      p.resolution? k m = some (.ok (x, false))) := by
  cases h with
  | looking hres hx =>
    obtain ⟨b, hat⟩ := hres.resolving
    have hx' : ((p.step m).registry.record i).module? a = some x := module?_run hp hx [m]
    cases stride hp hat m with
    | rests hat hend hword => exact ⟨hword, .inl ⟨.looking hat.resolves hx', hend⟩⟩
    | asks hpt => cases hpt
    | looks _ hlooks hend hword hgoes =>
      obtain ⟨cell, hslot, hcell⟩ := Record.module?_eq_some.1 hx
      have hcell' := content?_step_eq_some hp m hcell
      refine ⟨hword, .inl ?_⟩
      generalize p.registry.record i = r at hlooks hslot
      generalize hr' : (p.step m).registry.record i = r' at hlooks
      cases hlooks with
      | found h =>
        rw [hslot] at h
        cases h
        exact ⟨.trying (hgoes _ rfl).resolves hcell', hend⟩
      | opened h =>
        rw [hslot] at h
        cases h
  | @trying cell hres hx =>
    obtain ⟨b, hat⟩ := hres.resolving
    cases stride hp hat m with
    | rests hat hend hword =>
      exact ⟨hword, .inl ⟨.trying hat.resolves (content?_step_eq_some hp m hx), hend⟩⟩
    | asks hpt => cases hpt
    | looks _ hlooks hend hword =>
      refine ⟨hword, .inr ?_⟩
      generalize p.registry.record i = r at hlooks hx
      generalize (p.step m).registry.record i = r' at hlooks
      cases hlooks with
      | full h =>
        rw [hx] at h
        cases h
        exact hend
      | missing h => simp [Record.content?, h] at hx
      | busy h => simp [Record.content?, h] at hx
      | gone h hu => simp [Record.content?, h] at hx
      | ask h hu => simp [Record.content?, h] at hx

/-- **an alias with a module is answered with it**, and no context is asked -/
theorem Attempts.of_known {x : Module} (hp : p.Reachable) (h : p.Attempts k i a before m o) (hx : p.Knows k i a x) :
    o = .ok (x, false) ∧ p.words k (before ++ [m]) = [] := by
  obtain ⟨hknows, hwords⟩ : (p.run before).Knows k i a x ∧ p.words k before = [] := by
    refine h.induct hp (P := fun l => (p.run l).Knows k i a x ∧ p.words k l = []) ⟨hx, rfl⟩ ?_ before List.prefix_rfl
    rintro l m' - ⟨hknows, hwords⟩ hnone
    obtain ⟨hword, ⟨hnext, -⟩ | hend⟩ := hknows.step (hp.run l) m'
    · rw [run_append, words_concat, hwords, hword]
      exact ⟨hnext, rfl⟩
    · rw [hnone] at hend
      cases hend
  obtain ⟨hword, ⟨-, hend⟩ | hend⟩ := hknows.step (hp.run before) m
  · rw [h.ends] at hend
    cases hend
  · rw [h.ends] at hend
    rw [words_concat, hwords, hword]
    exact ⟨Option.some.inj hend, rfl⟩

/-! ## An alias that has none -/

/-- before it asked a context, the call was about to, and the record was not undeployed -/
def FoundLive (p : Pool) (ms : List Move) (k : Nat) (i : RecordId) (a : String) : Prop :=
  ∃ l cell, l <+: ms ∧ (p.run l).Resolves k i a (.asking cell) ∧ p.words k l = [] ∧
    ((p.run l).registry.record i).isUndeployed = false

/-- how an attempt can go on an alias that has no module and that nobody else resolves -/
inductive Tried (p : Pool) (ms : List Move) (k : Nat) (i : RecordId) (a : String) : Resolution → Prop
  /-- the call finds the record undeployed and asks nothing -/
  | late {l : List Move} (hl : l <+: ms) (hu : ((p.run l).registry.record i).isUndeployed = true)
    (hwords : p.words k ms = []) : Tried p ms k i a (.error (Call.undeployedFailure a ((p.run l).registry.record i)))
  | refused {why : Failure} (hlive : p.FoundLive ms k i a)
    (hwords : p.words k ms = [.asks i a, .hears (.error why)]) : Tried p ms k i a (.error why)
  | made {x : Module} (hlive : p.FoundLive ms k i a) (hwords : p.words k ms = [.asks i a, .hears (.ok x)]) :
    Tried p ms k i a (.ok (x, true))

/-- what such an attempt has said and heard when it is at the point -/
inductive Said (p : Pool) (ms : List Move) (k : Nat) (i : RecordId) (a : String) : LookupPoint → Bool → Prop
  | looking {b : Bool} (hwords : p.words k ms = []) : Said p ms k i a .looking b
  | trying {cell : Nat} {b : Bool} (hwords : p.words k ms = []) : Said p ms k i a (.trying cell) b
  | unasked {cell : Nat} (hlive : p.FoundLive ms k i a) (hwords : p.words k ms = []) :
    Said p ms k i a (.asking cell) false
  | asked {cell : Nat} (hlive : p.FoundLive ms k i a) (hwords : p.words k ms = [.asks i a]) :
    Said p ms k i a (.asking cell) true
  | clearing {why : Failure} {b : Bool} (h : p.Tried ms k i a (.error why)) : Said p ms k i a (.clearing why) b

theorem words_of_silent (hword : word? k (p.run ms) m = none) : p.words k (ms ++ [m]) = p.words k ms := by
  rw [words_concat, hword, Option.toList_none, List.append_nil]

theorem FoundLive.snoc (h : p.FoundLive ms k i a) (m : Move) : p.FoundLive (ms ++ [m]) k i a := by
  obtain ⟨l, cell, hl, hrest⟩ := h
  exact ⟨l, cell, hl.trans (List.prefix_append ms [m]), hrest⟩

theorem Tried.snoc (h : p.Tried ms k i a o) (hword : word? k (p.run ms) m = none) : p.Tried (ms ++ [m]) k i a o := by
  have hsame := words_of_silent hword
  cases h with
  | late hl hu hwords => exact .late (hl.trans (List.prefix_append ms [m])) hu (hsame.trans hwords)
  | refused hlive hwords => exact .refused (hlive.snoc m) (hsame.trans hwords)
  | made hlive hwords => exact .made (hlive.snoc m) (hsame.trans hwords)

theorem Said.snoc (h : p.Said ms k i a pt b) (hword : word? k (p.run ms) m = none) : p.Said (ms ++ [m]) k i a pt b := by
  have hsame := words_of_silent hword
  cases h with
  | looking hwords => exact .looking (hsame.trans hwords)
  | trying hwords => exact .trying (hsame.trans hwords)
  | unasked hlive hwords => exact .unasked (hlive.snoc m) (hsame.trans hwords)
  | asked hlive hwords => exact .asked (hlive.snoc m) (hsame.trans hwords)
  | clearing h => exact .clearing (h.snoc hword)

/-- what the call has said and heard after a step of its resolution -/
def SaidAfter (p : Pool) (ms : List Move) (k : Nat) (i : RecordId) (a : String) (pt : LookupPoint) :
    Call.LookupStep → Prop
  | .go pt' => p.Said ms k i a pt' false
  | .wait => p.Said ms k i a pt false
  | .found x true => p.Tried ms k i a (.ok (x, true))
  | .found _ false => True
  | .failed why => p.Tried ms k i a (.error why)

theorem Said.next (h : p.Said ms k i a pt b) {reply : Reply} {n : Call.LookupStep}
    (hready : b = true ∨ Call.lookupQuery i a pt = .nothing)
    (hlooks : Call.Looks ((p.run ms).registry.record i) a { reply with now := (p.run ms).now } pt
      (((p.run ms).step m).registry.record i) n)
    (hword : word? k (p.run ms) m = (Call.lookupQuery i a pt).wanted?.map fun _ => .hears reply.module)
    (hgoes : ∀ pt', n = .go pt' → (p.run (ms ++ [m])).Resolves k i a pt') : p.SaidAfter (ms ++ [m]) k i a pt n := by
  have hrun : p.run (ms ++ [m]) = (p.run ms).step m := run_append p ms [m]
  -- at a point where it asks nothing the call hears nothing
  have hquiet (hpt : Call.lookupQuery i a pt = .nothing) : word? k (p.run ms) m = none := by rw [hword, hpt]; rfl
  generalize hrec : (p.run ms).registry.record i = r at hlooks
  generalize hrec' : ((p.run ms).step m).registry.record i = r' at hlooks
  cases h with
  | looking hwords =>
    have hsaid {cell : Nat} : p.Said (ms ++ [m]) k i a (.trying cell) false :=
      .trying ((words_of_silent (hquiet rfl)).trans hwords)
    cases hlooks with
    | found h => exact hsaid
    | opened h => exact hsaid
  | @trying cell b hwords =>
    have hsame := (words_of_silent (hquiet rfl)).trans hwords
    cases hlooks with
    | missing h => exact .trying hsame
    | busy h => exact .trying hsame
    | full h => exact trivial
    | gone h hu =>
      subst hrec
      exact .clearing (.late (List.prefix_append ms [m]) hu hsame)
    | ask h hu =>
      refine .unasked ⟨ms ++ [m], cell, List.prefix_rfl, hgoes _ rfl, hsame, ?_⟩ hsame
      rw [hrun, hrec']
      exact hu
  | unasked hlive hwords => simp [Call.lookupQuery] at hready
  | asked hlive hwords =>
    have hheard : p.words k (ms ++ [m]) = [.asks i a, .hears reply.module] := by
      rw [words_concat, hwords, hword]
      rfl
    cases hlooks with
    | made h => exact .made (hlive.snoc m) (h ▸ hheard)
    | refused h => exact .clearing (.refused (hlive.snoc m) (h ▸ hheard))
  | clearing h =>
    cases hlooks with
    | cleared => exact h.snoc (hquiet rfl)

/-- an attempt under way on an alias that has no module: its cell is in the alias's slot -/
structure Striving (p : Pool) (ms : List Move) (k : Nat) (i : RecordId) (a : String) (pt : LookupPoint) (b : Bool) :
    Prop where
  resolving : (p.run ms).Resolving k i a pt b
  tied : Tied ((p.run ms).registry.record i) a pt
  empty : ((p.run ms).registry.record i).module? a = none
  said : p.Said ms k i a pt b

/-- what became of such an attempt: if it made a module, that is the alias's, and else the alias has none -/
structure Over (p : Pool) (ms : List Move) (k : Nat) (i : RecordId) (a : String) (o : Resolution) : Prop where
  tried : p.Tried ms k i a o
  leaves : ((p.run ms).registry.record i).module? a = o.module?

theorem Striving.step (hp : p.Reachable) (h : p.Striving ms k i a pt b) (halone : (p.run ms).Alone k i a) (m : Move) :
    ((p.run ms).resolution? k m = none ∧ ∃ pt' b', p.Striving (ms ++ [m]) k i a pt' b') ∨
      ∃ o, (p.run ms).resolution? k m = some o ∧ p.Over (ms ++ [m]) k i a o := by
  have hr := hp.run ms
  have hrun : p.run (ms ++ [m]) = (p.run ms).step m := run_append p ms [m]
  obtain ⟨hat, htied, hempty, hsaid⟩ := h
  cases stride hr hat m with
  | rests hat' hend hword hown =>
    refine .inl ⟨hend, pt, b, hrun ▸ hat', ?_, ?_, hsaid.snoc hword⟩ <;> rw [hrun]
    · by_cases hm : m.place? = some k
      · rw [hown hm]
        exact htied
      · obtain ⟨hslot, hmod⟩ := frame_step hr halone hm
        exact tied_congr hslot hmod htied
    · by_cases hm : m.place? = some k
      · rw [hown hm]
        exact hempty
      · rw [(frame_step hr halone hm).2]
        exact hempty
  | asks hpt hfirst hat' hend hword hreg =>
    subst hpt hfirst
    refine .inl ⟨hend, _, true, hrun ▸ hat', ?_, ?_, ?_⟩
    · rw [hrun, hreg]
      exact htied
    · rw [hrun, hreg]
      exact hempty
    · cases hsaid with
      | unasked hlive hwords =>
        refine .asked (hlive.snoc m) ?_
        rw [words_concat, hwords, hword]
        rfl
  | @looks reply n hready hlooks hend hword hgoes hwaits =>
    obtain ⟨hties, hfresh, hmodule⟩ := hlooks.tied_next (fun _ => hr.busy_cell hat.resolves) htied hempty
    have hsays := hsaid.next hready hlooks hword fun pt' hn => hrun ▸ (hgoes pt' hn).resolves
    rw [← hrun] at hmodule hties
    cases n with
    | go pt' => exact .inl ⟨hend, pt', false, hrun ▸ hgoes pt' rfl, hties pt' (.inl rfl), hmodule, hsays⟩
    | wait => exact .inl ⟨hend, pt, false, hrun ▸ hwaits rfl, hties pt (.inr ⟨rfl, rfl⟩), hmodule, hsays⟩
    | found x fresh =>
      obtain rfl := hfresh x fresh rfl
      exact .inr ⟨_, hend, hsays, hmodule⟩
    | failed why => exact .inr ⟨_, hend, hsays, hmodule⟩

/-- **how an attempt goes on an alias that has no module**, where nobody else resolves it -/
theorem tried_of_fresh (hp : p.Reachable) (hr : p.Resolves k i a .looking)
    (hnone : (p.registry.record i).module? a = none) (h : p.Attempts k i a before m o)
    (hund : p.Undisturbed k i a before) :
    (∀ l, l <+: before → ((p.run l).registry.record i).module? a = none) ∧ p.Over (before ++ [m]) k i a o := by
  obtain ⟨b, hat⟩ := hr.resolving
  have hstep {l : List Move} {pt : LookupPoint} {b : Bool} (hl : l <+: before) (hs : p.Striving l k i a pt b) :=
    hs.step hp (hund l hl (h.goes l hl))
  have hstrives : ∀ l, l <+: before → ∃ pt b, p.Striving l k i a pt b := by
    refine h.induct hp ⟨.looking, b, hat, trivial, hnone, .looking rfl⟩ ?_
    rintro l m' hl ⟨pt, b, hs⟩ hgoes
    rcases hstep ((List.prefix_append l [m']).trans hl) hs m' with ⟨-, hnext⟩ | ⟨o', ho', -⟩
    · exact hnext
    · rw [hgoes] at ho'
      cases ho'
  refine ⟨fun l hl => ?_, ?_⟩
  · obtain ⟨pt, b, hs⟩ := hstrives l hl
    exact hs.empty
  · obtain ⟨pt, b, hs⟩ := hstrives before List.prefix_rfl
    rcases hstep List.prefix_rfl hs m with ⟨hno, -⟩ | ⟨o', ho', hover⟩
    · rw [h.ends] at hno
      cases hno
    · rw [h.ends] at ho'
      cases ho'
      exact hover

/-- **a failure adds nothing**: the modules after the attempt were there before, or others had them made -/
theorem Attempts.of_failed {why : Failure} (hp : p.Reachable) (h : p.Attempts k i a before m (.error why)) {j : RecordId}
    {a' : String} {x : Module} (hx : ((p.run (before ++ [m])).registry.record j).module? a' = some x) :
    (p.registry.record j).module? a' = some x ∨
      ∃ l m' after k', before = l ++ m' :: after ∧ k' ≠ k ∧ (p.run l).Adds k' m' j a' x := by
  by_cases hold : (p.registry.record j).module? a' = some x
  · exact .inl hold
  obtain ⟨l, m', after, hsplit, hbefore, hafter⟩ :=
    exists_change (P := fun q => (q.registry.record j).module? a' ≠ some x) hold (not_not.2 hx)
  have hnew : (p.run l).Reachable := hp.run l
  rw [not_not] at hafter
  have hnone : ((p.run l).registry.record j).module? a' = none := by
    by_contra hno
    obtain ⟨y, hy⟩ := Option.ne_none_iff_exists'.1 hno
    have hkept : (((p.run l).step m').registry.record j).module? a' = some y := module?_run hnew hy [m']
    rw [hafter] at hkept
    rw [Option.some.inj hkept] at hbefore
    exact hbefore hy
  obtain ⟨k', hadds⟩ := adds_of_new hnew hnone hafter
  -- the move that ends the attempt brings a failure, and those before it bring no result of the call
  rcases List.eq_nil_or_concat after with rfl | ⟨after, m'', rfl⟩
  · obtain ⟨rfl, hm⟩ := List.append_inj' hsplit rfl
    cases hm
    have hk : some k' = some k := (place?_of_resolution? hadds.ends).symm.trans (place?_of_resolution? h.ends)
    have hends := hadds.ends
    rw [Option.some.inj hk, h.ends] at hends
    cases hends
  · rw [List.concat_eq_append, ← List.cons_append, ← List.append_assoc] at hsplit
    obtain ⟨rfl, -⟩ := List.append_inj' hsplit rfl
    refine .inr ⟨l, m', after, k', rfl, ?_, hadds⟩
    rintro rfl
    have hgoes := h.goes_on hp (show l ++ [m'] <+: _ from ⟨after, by simp⟩)
    rw [hadds.ends] at hgoes
    cases hgoes

/-! ## A record that is undeployed -/

/-- who is about to ask the context of an undeployed record was so when it was undeployed -/
theorem asking_run (hp : p.Reachable) (hu : (p.registry.record i).isUndeployed = true) {cell : Nat}
    (h : (p.run ms).Resolving k i a (.asking cell) false) : p.Resolving k i a (.asking cell) false := by
  induction ms using List.reverseRecOn with
  | nil => exact h
  | append_singleton ms m ih =>
    rw [run_append] at h
    have hlast : ((p.run ms).step m).Resolving k i a (.asking cell) false := h
    obtain ⟨c, hc, hl⟩ := hlast
    obtain ⟨b, hc'⟩ := asking_step (hp.run ms) (undeployed_run hp hu ms) hc hl
    cases b with
    | false => exact ih ⟨c, hc', hl⟩
    | true =>
      -- a call that has asked waits for its answer, and then it asks no more
      cases stride (hp.run ms) ⟨c, hc', hl⟩ m with
      | rests hat => cases hat.asking_eq ⟨c, hc, hl⟩
      | asks _ _ hat => cases hat.asking_eq ⟨c, hc, hl⟩
      | looks _ hlooks _ _ _ _ hstays =>
        generalize (p.run ms).registry.record i = r at hlooks
        generalize ((p.run ms).step m).registry.record i = r' at hlooks
        rcases hstays _ ⟨_, hc, hl⟩ with rfl | rfl <;> cases hlooks

theorem asking_of_asks (hp : p.Reachable) (hu : (p.registry.record i).isUndeployed = true)
    (h : .asks i a ∈ p.words k ms) : ∃ cell, p.Resolving k i a (.asking cell) false := by
  obtain ⟨l, m, after, -, hword⟩ := mem_seen h
  unfold word? at hword
  split at hword
  · rename_i j c hc
    split_ifs at hword with hj
    subst hj
    obtain ⟨⟨i', a'⟩, hwanted, heq⟩ := Option.map_eq_some_iff.1 hword
    cases heq
    obtain ⟨cell, hl⟩ := Call.lookup?_of_wanted hwanted
    exact ⟨cell, asking_run hp hu ⟨c, hc, hl⟩⟩
  · split_ifs at hword with hj
    obtain ⟨x, -, heq⟩ := Option.map_eq_some_iff.1 hword
    cases heq
  · cases hword

/-! ## An attempt ends -/

/-- nothing keeps the call at the place from resolving the alias: no other call has it materialised, or it has a module -/
def Unhindered (p : Pool) (k : Nat) (i : RecordId) (a : String) : Prop :=
  p.Unblocked k i a ∨ ∃ x, p.Knows k i a x

theorem Unhindered.not_wait (hp : p.Reachable) (h : p.Unhindered k i a) (hr : p.Resolves k i a pt) (reply : Reply) :
    (Call.advanceLookup p.registry i a reply pt).2 ≠ .wait := by
  rcases h with hfree | ⟨x, hx⟩
  · exact Pool.not_wait hp hr hfree reply
  · intro hn
    obtain ⟨owner, hk⟩ := hp.kept
    have hlooks := Call.advanceLookup_looks p.registry (hk.placed k i a pt hr) a reply pt
    rw [hn] at hlooks
    cases hx with
    | looking hres =>
      obtain ⟨-, -, rfl⟩ := hr.unique hres
      obtain ⟨cell, hcell⟩ := hlooks.of_wait rfl
      cases hcell
    | trying hres hx =>
      obtain ⟨-, -, rfl⟩ := hr.unique hres
      generalize p.registry.record i = r at hlooks hx
      generalize (Call.advanceLookup p.registry i a reply _).1.record i = r' at hlooks
      cases hlooks with
      | missing h => simp [Record.content?, h] at hx
      | busy h => simp [Record.content?, h] at hx

/-- its own moves do not hinder a call -/
theorem Unhindered.step (hp : p.Reachable) (h : p.Unhindered k i a) (hm : m.place? = some k)
    (hnone : p.resolution? k m = none) : (p.step m).Unhindered k i a := by
  rcases h with hfree | ⟨x, hx⟩
  · left
    rintro j cell hj ⟨v, hv, hl⟩
    rcases call_step hv with ⟨b, hc⟩ | hnew | ⟨reply, u, rfl, -⟩
    · exact hfree j cell hj ⟨_, hc, hl⟩
    · rcases hnew with hnew | ⟨j', hnew⟩
      · cases (lookup?_of_isNew hnew hl).1
      · rw [hnew] at hl
        cases hl
    · exact hj (Option.some.inj hm)
  · obtain ⟨-, ⟨hnext, -⟩ | hend⟩ := hx.step hp m
    · exact .inr ⟨x, hnext⟩
    · rw [hnone] at hend
      cases hend

/-- **left alone an attempt ends** that nothing hinders: each of its turns brings it closer to its result -/
theorem exists_ends (hp : p.Reachable) (hr : p.Resolves k i a pt) (hfree : p.Unhindered k i a)
    (replies : Nat → Reply) {n : Nat} (hn : Call.lookupRank pt < n) :
    ∃ before m o, before ++ [m] <+: answeredTurns k replies n ∧ p.Attempts k i a before m o := by
  induction n generalizing p pt replies with
  | zero => exact absurd hn (Nat.not_lt_zero _)
  | succ n ih =>
    obtain ⟨⟨c, b⟩, hc, hl⟩ := hr
    obtain ⟨b₁, hc₁, hreg, hready, -⟩ := ask_ready hc
    rw [← hreg] at hready
    have hp₁ : (p.step (.ask k)).Reachable := hp.step _
    have hr₁ : (p.step (.ask k)).Resolves k i a pt := ⟨_, hc₁, hl⟩
    have hfree₁ : (p.step (.ask k)).Unhindered k i a := hfree.step hp rfl rfl
    have hnext := resolution?_of_ready hc₁ hl hready (replies 0)
    cases ho : (p.step (.ask k)).resolution? k (.step k (replies 0)) with
    | some o =>
      refine ⟨[.ask k], .step k (replies 0), o, ?_, (attempts_nil hr₁ ho).cons ⟨_, hc, hl⟩⟩
      exact List.prefix_append [Move.ask k, Move.step k (replies 0)] _
    | none =>
      rw [ho] at hnext
      cases hs : (Call.advanceLookup (p.step (.ask k)).registry i a
        { replies 0 with now := (p.step (.ask k)).now } pt).2 with
      | go pt' =>
        have hlt : Call.lookupRank pt' < Call.lookupRank pt := Call.lookup_next_weight (Prod.ext rfl hs)
        have hr₂ := (resolving_of_go hc₁ hl hready hs).resolves
        obtain ⟨before, m, o, hpre, hatt⟩ := ih (hp₁.step _) hr₂ (hfree₁.step hp₁ rfl ho) (fun j => replies (j + 1))
          (by omega)
        refine ⟨.ask k :: .step k (replies 0) :: before, m, o, ?_, (hatt.cons hr₁).cons ⟨_, hc, hl⟩⟩
        exact List.cons_prefix_cons.2 ⟨rfl, List.cons_prefix_cons.2 ⟨rfl, hpre⟩⟩
      | wait => exact absurd hs (hfree₁.not_wait hp₁ hr₁ _)
      | found x fresh =>
        rw [hs] at hnext
        cases hnext
      | failed why =>
        rw [hs] at hnext
        cases hnext

/-! ## The modules of a record -/

/-- an attempt on an alias without a module asks its context, unless the record is undeployed -/
theorem Tried.asks (hp : p.Reachable) (h : p.Tried ms k i a o)
    (hlive : ((p.run ms).registry.record i).isUndeployed = false) : .asks i a ∈ p.words k ms := by
  cases h with
  | @late l hl hu hwords =>
    obtain ⟨rest, rfl⟩ := hl
    rw [run_append, undeployed_run (hp.run l) hu rest] at hlive
    cases hlive
  | refused _ hwords => rw [hwords]; exact List.mem_cons_self
  | made _ hwords => rw [hwords]; exact List.mem_cons_self

/-- an attempt on an undeployed record asks nothing, and fails if the alias has no module -/
theorem Tried.of_undeployed (hp : p.Reachable) (hr : p.Resolves k i a pt) (h : p.Tried ms k i a o)
    (hu : (p.registry.record i).isUndeployed = true) :
    o = .error (Call.undeployedFailure a (p.registry.record i)) ∧ p.words k ms = [] := by
  have hlate : ¬ p.FoundLive ms k i a := by
    rintro ⟨l, cell, -, -, -, hlive⟩
    rw [undeployed_run hp hu l] at hlive
    cases hlive
  cases h with
  | @late l _ _ hwords =>
    obtain ⟨owner, hk⟩ := hp.kept
    have hid : ((p.run l).registry.record i).id = (p.registry.record i).id :=
      (identity_run hp (hk.placed k i a pt hr) l).2.1
    exact ⟨by rw [Call.undeployedFailure, hid]; rfl, hwords⟩
  | refused hlive => exact absurd hlive hlate
  | made hlive => exact absurd hlive hlate

end

/-- **the modules of a record**. They are those of its aliases. An alias with a module keeps it for ever, and one without
gets one only from an attempt whose result says that the module was made for it. An attempt on an alias with a module is
answered with that module and asks nothing. Where nobody else resolves the alias, an attempt on one without a module goes
in one of three ways (`Tried`), and the alias has the module of its result afterwards, or none; it asks the context unless
the record is undeployed, and if the record was undeployed at its beginning it fails and asks nothing; and the result says
that the module is fresh exactly if the alias had none until the attempt ended. After a failure every alias of every record
has the module that it had, or one that another call had made meanwhile. Once the record is undeployed its context is asked
only by a call that was about to. And attempts that are over had a result; left alone and not hindered they end. -/
theorem alias_cache (hp : p.Reachable) (i : RecordId) (a : String) :
    (∀ x, (a, x) ∈ (p.registry.record i).modules ↔ (p.registry.record i).module? a = some x) ∧
      (∀ x, (p.registry.record i).module? a = some x → ∀ ms, ((p.run ms).registry.record i).module? a = some x) ∧
      (∀ m x, (p.registry.record i).module? a = none → ((p.step m).registry.record i).module? a = some x →
        ∃ k, p.Adds k m i a x) ∧
      (∀ k before m o, p.Resolves k i a .looking → p.Attempts k i a before m o →
        (∀ x, (p.registry.record i).module? a = some x → o = .ok (x, false) ∧ p.words k (before ++ [m]) = []) ∧
        ((p.registry.record i).module? a = none → p.Undisturbed k i a before →
          p.Tried (before ++ [m]) k i a o ∧
          (∀ l, l <+: before → ((p.run l).registry.record i).module? a = none) ∧
          ((p.run (before ++ [m])).registry.record i).module? a = o.module? ∧
          (((p.run (before ++ [m])).registry.record i).isUndeployed = false →
            .asks i a ∈ p.words k (before ++ [m])) ∧
          ((p.registry.record i).isUndeployed = true →
            o = .error (Call.undeployedFailure a (p.registry.record i)) ∧ p.words k (before ++ [m]) = [])) ∧
        (p.Undisturbed k i a before → ∀ x fresh, o = .ok (x, fresh) →
          ((p.run (before ++ [m])).registry.record i).module? a = some x ∧
          (fresh = true ↔ ((p.run before).registry.record i).module? a = none)) ∧
        (∀ why, o = .error why → ∀ j a' x, ((p.run (before ++ [m])).registry.record j).module? a' = some x →
          (p.registry.record j).module? a' = some x ∨
            ∃ l m' after k', before = l ++ m' :: after ∧ k' ≠ k ∧ (p.run l).Adds k' m' j a' x) ∧
        ∀ pt b, (p.run before).call? k = some ⟨.lookup i a pt, b⟩ → (p.run (before ++ [m])).Returned k o.outcome) ∧
      ((p.registry.record i).isUndeployed = true → ∀ k ms, .asks i a ∈ p.words k ms →
        ∃ cell, p.Resolving k i a (.asking cell) false) ∧
      (∀ k pt ms, p.Resolves k i a pt → (∀ pt', ¬ (p.run ms).Resolves k i a pt') →
        ∃ before m after o, ms = before ++ m :: after ∧ p.Attempts k i a before m o) ∧
      ∀ k pt replies, p.Resolves k i a pt →
        p.Unblocked k i a ∨ pt = .looking ∧ (p.registry.record i).hasResolved a = true →
          ∃ before m o, before ++ [m] <+: answeredTurns k replies 4 ∧ p.Attempts k i a before m o := by
  refine ⟨fun x => Record.mem_modules (hp.slots_nodup i), fun x hx ms => module?_run hp hx ms,
    fun m x => adds_of_new hp, fun k before m o hr h => ⟨?_, ?_, ?_, ?_, ?_⟩, fun hu k ms => asking_of_asks hp hu,
    fun k pt ms => exists_attempt hp, fun k pt replies hr hfree => ?_⟩
  · intro x hx
    exact h.of_known hp (.looking hr hx)
  · intro hnone hund
    obtain ⟨hempty, htried, hafter⟩ := tried_of_fresh hp hr hnone h hund
    exact ⟨htried, hempty, hafter, htried.asks hp, htried.of_undeployed hp hr⟩
  · rintro hund x fresh rfl
    cases hmod : (p.registry.record i).module? a with
    | some y =>
      obtain ⟨heq, -⟩ := h.of_known hp (.looking hr hmod)
      cases heq
      exact ⟨module?_run hp hmod _, by simp [module?_run hp hmod before]⟩
    | none =>
      obtain ⟨hempty, htried, hafter⟩ := tried_of_fresh hp hr hmod h hund
      cases htried
      exact ⟨hafter, by simp [hempty before List.prefix_rfl]⟩
  · rintro why rfl j a' x hx
    exact h.of_failed hp hx
  · intro pt b hc
    rw [run_append]
    exact returned_of_resolution? hc h.ends
  · have hunhindered : p.Unhindered k i a := by
      rcases hfree with hfree | ⟨rfl, hres⟩
      · exact .inl hfree
      · obtain ⟨x, hx⟩ := Record.hasResolved_iff.1 hres
        exact .inr ⟨x, .looking hr hx⟩
    refine exists_ends hp hr hunhindered replies ?_
    cases pt <;> simp [Call.lookupRank]

instance (p : Pool) (k : Nat) (i : RecordId) (a : String) : Decidable (p.Alone k i a) :=
  decidable_of_iff (∀ j < p.calls.length, j ≠ k → ¬ ∃ pt, p.Resolves j i a pt) <| by
    constructor
    · rintro h j pt hj ⟨u, hu, hl⟩
      exact h j (lt_of_call? hu) hj ⟨pt, u, hu, hl⟩
    · rintro h j - hj ⟨pt, hr⟩
      exact h j pt hj hr

instance (p : Pool) (k : Nat) (i : RecordId) (a : String) (ms : List Move) : Decidable (p.Undisturbed k i a ms) :=
  decidable_of_iff (∀ l ∈ ms.inits, (∃ pt, (p.run l).Resolves k i a pt) → (p.run l).Alone k i a) <| by
    simp only [List.mem_inits, Undisturbed]

/-- while the context works on the alias `a` for caller 1, caller 2 has `b` resolved; the context fails 1, and caller 3 has
it asked again. When the record is undeployed, caller 5 finds `a`, and 6 is refused `c` -/
theorem asked_again_after_failure :
    let x : Request := { id := ⟨"x"⟩, sender := ⟨"s"⟩, seq := 1, moduleAlias := "z" }
    let lookup (a : String) : Move := .enter (Call.resolveAlias 0 a)
    let made (name : String) : Reply := { module := .ok ⟨name, false⟩ }
    let p := (new 100).run (.enter (.request x true .entering) :: turns 0 (made "z") 8 ++ [lookup "a"])
    let first := turns 1 {} 2 ++ .ask 1 :: lookup "b" :: turns 2 (made "n") 3 ++ ([.step 1 {}] : List Move)
    let refused : Move := .step 1 {}
    let q := p.run (first ++ [refused, lookup "a"])
    let second := turns 3 {} 2 ++ ([.ask 3] : List Move)
    let granted : Move := .step 3 (made "m")
    let departure : List Move := [.enter (.remove (.departure ⟨"s"⟩)), .step 4 {}]
    let r := q.run (second ++ granted :: departure ++ [lookup "a", lookup "c"])
    let third := turns 5 {} 1 ++ ([.step 5 {}] : List Move)
    let fourth := turns 6 {} 2 ++ ([.step 6 {}] : List Move)
    (p.run (first ++ [refused])).Returned 1 (.failed .shuttingDown) ∧
      p.words 1 (first ++ [refused]) = [.asks 0 "a", .hears (.error .shuttingDown)] ∧
      ((p.run (first ++ [refused])).registry.record 0).module? "a" = none ∧
      (∃ l m after k, first = l ++ m :: after ∧ k ≠ 1 ∧ (p.run l).Adds k m 0 "b" ⟨"n", false⟩) ∧
      q.words 3 (second ++ [granted]) = [.asks 0 "a", .hears (.ok ⟨"m", false⟩)] ∧
      (∀ later, (((q.run (second ++ [granted])).run later).registry.record 0).module? "a" =
        some ⟨"m", false⟩) ∧
      (r.registry.record 0).isUndeployed = true ∧ r.words 5 third = [] ∧
      r.words 6 fourth = [] ∧
      (r.run fourth).Returned 6 (.failed (Call.undeployedFailure "c" (r.registry.record 0))) := by
  intro x lookup made p first refused q second granted departure r third fourth
  have hp : p.Reachable := ⟨100, _, rfl⟩
  have hq : q.Reachable := hp.run _
  have hr : r.Reachable := hq.run _
  let refusal : Failure := Call.undeployedFailure "c" (r.registry.record 0)
  have hfirst : p.Attempts 1 0 "a" first refused (.error .shuttingDown) := by decide +kernel
  have hsecond : q.Attempts 3 0 "a" second granted (.ok (⟨"m", false⟩, true)) := by decide +kernel
  have hfifth : r.Attempts 5 0 "a" (turns 5 {} 1) (.step 5 {}) (.ok (⟨"m", false⟩, false)) := by decide +kernel
  have hsixth : r.Attempts 6 0 "c" (turns 6 {} 2) (.step 6 {}) (.error refusal) := by decide +kernel
  have halone : p.Undisturbed 1 0 "a" first ∧ q.Undisturbed 3 0 "a" second ∧ r.Undisturbed 6 0 "c" (turns 6 {} 2) := by
    decide +kernel
  have hempty : (p.registry.record 0).module? "a" = none ∧ (q.registry.record 0).module? "a" = none ∧
      (r.registry.record 0).module? "c" = none := by decide +kernel
  have hfull : (r.registry.record 0).module? "a" = some ⟨"m", false⟩ := by decide +kernel
  have hundeployed : (r.registry.record 0).isUndeployed = true := by decide +kernel
  have hbegin : p.call? 1 = some ⟨.resolveAlias 0 "a", false⟩ ∧ q.call? 3 = some ⟨.resolveAlias 0 "a", false⟩ ∧
      r.call? 5 = some ⟨.resolveAlias 0 "a", false⟩ ∧ r.call? 6 = some ⟨.resolveAlias 0 "c", false⟩ := by decide +kernel
  have hend : (p.run first).call? 1 = some ⟨.lookup 0 "a" (.clearing .shuttingDown), false⟩ ∧
      (r.run (turns 6 {} 2)).call? 6 = some ⟨.lookup 0 "c" (.clearing refusal), false⟩ := by decide +kernel
  have hother : (p.registry.record 0).module? "b" ≠ some ⟨"n", false⟩ ∧
      ((p.run (first ++ [refused])).registry.record 0).module? "b" = some ⟨"n", false⟩ := by decide +kernel
  clear_value p first refused q second granted r refusal
  obtain ⟨hbegin₁, hbegin₃, hbegin₅, hbegin₆⟩ := hbegin
  -- the failed attempt
  obtain ⟨-, -, -, hattempts, -⟩ := alias_cache hp 0 "a"
  obtain ⟨-, hfresh, -, hfailed, hreturned⟩ := hattempts 1 first _ _ ⟨_, hbegin₁, rfl⟩ hfirst
  obtain ⟨htried, -, hnone, -, -⟩ := hfresh hempty.1 halone.1
  have hwords : p.words 1 (first ++ [refused]) = [.asks 0 "a", .hears (.error .shuttingDown)] := by
    cases htried with
    | refused _ hwords => exact hwords
  have hnested := (hfailed _ rfl 0 "b" _ hother.2).resolve_left hother.1
  -- the one that has the module made
  obtain ⟨-, -, -, hattempts, -⟩ := alias_cache hq 0 "a"
  obtain ⟨-, hfresh, -, -, -⟩ := hattempts 3 second _ _ ⟨_, hbegin₃, rfl⟩ hsecond
  obtain ⟨htried, -, hmade, -, -⟩ := hfresh hempty.2.1 halone.2.1
  have hwords' : q.words 3 (second ++ [granted]) = [.asks 0 "a", .hears (.ok ⟨"m", false⟩)] := by
    cases htried with
    | made _ hwords => exact hwords
  obtain ⟨-, hkeeps, -⟩ := alias_cache (hq.run (second ++ [granted])) 0 "a"
  -- those on the undeployed record
  obtain ⟨-, -, -, hattempts, -⟩ := alias_cache hr 0 "a"
  obtain ⟨hknown, -⟩ := hattempts 5 _ _ _ ⟨_, hbegin₅, rfl⟩ hfifth
  obtain ⟨-, -, -, hattempts, -⟩ := alias_cache hr 0 "c"
  obtain ⟨-, hfresh, -, -, hreturned'⟩ := hattempts 6 _ _ _ ⟨_, hbegin₆, rfl⟩ hsixth
  obtain ⟨-, -, -, -, hlate⟩ := hfresh hempty.2.2 halone.2.2
  obtain ⟨hrefusal, hsilent⟩ := hlate hundeployed
  cases hrefusal
  exact ⟨hreturned _ _ hend.1, hwords, hnone, hnested, hwords', hkeeps _ hmade, hundeployed, (hknown _ hfull).2, hsilent,
    hreturned' _ _ hend.2⟩

end Pool

end Redeploy
