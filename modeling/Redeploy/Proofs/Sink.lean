/-
What the sink is told about the modules of a record, and when.

A request tells the sink about a module that its context has just materialised. It looks at the record's life before it
asks the context, holds no lock while it waits, and does not look again. So a record may be taken out, and the sink told
that it is undeployed, while a request still waits; what that request tells the sink comes late. Nothing else does.

What the sink was told before is in the record's slots, unless a slot was taken away under a call that had its cell:
`Matched` is the invariant, and `Severs` the move that it does not survive.

Results:
- `Reachable.undeployed_of_told`: the sink is told that a record is undeployed only when it was taken out;
- `waits_run`: a request that comes to its context after the record was taken out is turned back;
- `matched_run`: as long as no slot is severed, what was reported is resolved;
- `deployed_after_undeployed`: a departure while a context is materialising;
- **`reported_or_awaited`**: what is reported late, and what is not among the modules of an undeployed record.
-/
import Redeploy.Proofs.Course
import Redeploy.Proofs.Teardown

namespace Redeploy

open Registry

/-- the record and the alias that a sink is told are deployed -/
def Mark.reported? : Mark → Option (RecordId × String)
  | .asked (.deployed i a _) => some (i, a)
  | _ => none

/-- the resolution has failed, and the slot is about to be removed -/
def LookupPoint.isClearing : LookupPoint → Bool
  | .clearing _ => true
  | _ => false

/-- a resolved alias is among the aliases of the record -/
theorem Record.mem_aliases {r : Record} {a : String} (h : r.hasResolved a = true) : a ∈ r.aliases := by
  obtain ⟨m, hm⟩ := hasResolved_iff.1 h
  obtain ⟨cell, hslot, hcell⟩ := module?_eq_some.1 hm
  refine List.mem_map.2 ⟨(a, m), List.mem_mergeSort.2 (List.mem_filterMap.2 ⟨(a, cell), mem_of_lookup hslot, ?_⟩), rfl⟩
  simp [hcell]

namespace Call

/-- a sink is told that a module is deployed by the request that had it materialised -/
theorem query_deployed {g : Registry} {c : Call} {i : RecordId} {a : String} {t : Bool}
    (h : c.query g = .deployed i a t) : ∃ q report, c = .request q report (.notifying i t) ∧ q.moduleAlias = a := by
  have hlook {j : RecordId} {b : String} {p : LookupPoint} (h : lookupQuery j b p = .deployed i a t) : False := by
    cases p <;> cases h
  cases c with
  | request q report p =>
    cases p with
    | resolving j p => exact (hlook h).elim
    | notifying j t' =>
      cases h
      exact ⟨q, report, rfl, rfl⟩
    | _ => cases h
  | lookup j b p => exact (hlook h).elim
  | removal cause total p =>
    cases p with
    | starting => cases h
    | checking left gone => cases left <;> cases h
    | telling queue => cases queue <;> cases h
    | hooking hooks queue => cases hooks <;> cases queue <;> cases h
    | releasing queue => cases queue <;> cases h
  | start checked => cases h

/-- a request comes to tell the sink from the resolution in which the module was made -/
theorem notifying_next {g : Registry} {reply : Reply} {c : Call} {q : Request} {report t : Bool} {i : RecordId}
    (hn : (advance g reply c).next = .go (.request q report (.notifying i t))) :
    ∃ p m, c = .request q report (.resolving i p) ∧ (advanceLookup g i q.moduleAlias reply p).2 = .found m true := by
  cases c with
  | request q' report' p =>
    have hr := advanceRequest_requests g q' report' reply p
    simp only [advance] at hn
    generalize advanceRequest g q' report' reply p = s at hn hr
    cases hr with
    | made heq =>
      cases hn
      exact ⟨_, _, rfl, by rw [heq]⟩
    | _ => cases hn
  | lookup j b p =>
    obtain ⟨p', hp⟩ := lookup_stays hn
    cases hp
  | removal cause total p =>
    obtain ⟨gone, claimed, hr⟩ := advanceRemoval_removes g cause total reply p
    obtain ⟨total', p', hp, -⟩ := hr.stays hn
    cases hp
  | start checked => cases checked <;> simp only [advance] at hn <;> split at hn <;> cases hn

end Call

namespace Pool

/-! ## What is told -/

/-- records and aliases that the sink was told are deployed, as often as it was -/
def reported (p : Pool) : List (RecordId × String) := p.trace.filterMap Mark.reported?

/-- the move tells the sink that the alias is deployed on the record -/
def Deploys (p : Pool) (m : Move) (i : RecordId) (a : String) : Prop :=
  (p.step m).reported = p.reported ++ [(i, a)]

/-- the move tells the sink that the record is undeployed -/
def Undeploys (p : Pool) (m : Move) (i : RecordId) : Prop := (p.step m).told = p.told ++ [i]

instance (p : Pool) (m : Move) (i : RecordId) (a : String) : Decidable (p.Deploys m i a) :=
  inferInstanceAs (Decidable (_ = _))
instance (p : Pool) (m : Move) (i : RecordId) : Decidable (p.Undeploys m i) := inferInstanceAs (Decidable (_ = _))

/-- the request at the place waits for the record's context to materialise the alias -/
def Awaits (p : Pool) (k : Nat) (i : RecordId) (a : String) : Prop :=
  ∃ q report cell b, p.call? k = some ⟨.request q report (.resolving i (.asking cell)), b⟩ ∧ q.moduleAlias = a

/-- the request at the place had the alias materialised on the record, and tells the sink -/
def Announces (p : Pool) (k : Nat) (i : RecordId) (a : String) : Prop :=
  ∃ q report t b, p.call? k = some ⟨.request q report (.notifying i t), b⟩ ∧ q.moduleAlias = a

/-- a move leaves what was seen in a view of queries as it is, or puts one of them -/
theorem view_step {β : Type} (p : Pool) (m : Move) (view : Mark → Option β) (hdid : ∀ e, view (.did e) = none)
    (hret : ∀ j o, view (.returned j o) = none) :
    (p.step m).trace.filterMap view = p.trace.filterMap view ∨
      ∃ k c x, m = .ask k ∧ p.call? k = some ⟨c, false⟩ ∧ p.step m = p.pose k c ∧
        view (.asked (c.query p.registry)) = some x ∧ (p.step m).trace.filterMap view = p.trace.filterMap view ++ [x] := by
  have hm := step_moved p m
  generalize hp' : p.step m = p' at hm
  cases hm with
  | @ask k c hc hq =>
    rw [marks_pose]
    cases hv : view (.asked (c.query p.registry)) with
    | none => exact .inl (by simp)
    | some x => exact .inr ⟨k, c, x, rfl, hc, rfl, hv, rfl⟩
  | @step k u reply hc hready hlock => exact .inl (marks_advance p k u.call reply hdid hret)
  | aside hm ha => exact .inl (by rw [ha.trace])
  | _ => exact .inl rfl

/-- the sink is told of a deployment by the request that announces it -/
theorem reported_step (p : Pool) (m : Move) : (p.step m).reported = p.reported ∨
    ∃ k i a, m.place? = some k ∧ p.Announces k i a ∧ p.Deploys m i a := by
  rcases view_step p m Mark.reported? (fun _ => rfl) (fun _ _ => rfl) with h |
    ⟨k, c, ⟨i, a⟩, rfl, hc, -, hv, happ⟩
  · exact .inl h
  · refine .inr ⟨k, i, a, rfl, ?_, happ⟩
    cases hq : c.query p.registry with
    | deployed j b t =>
      rw [hq] at hv
      cases hv
      obtain ⟨q, report, rfl, ha⟩ := Call.query_deployed hq
      exact ⟨q, report, t, false, hc, ha⟩
    | _ => rw [hq] at hv; cases hv

/-- so whoever has the move told the sink about it announces just that -/
theorem Deploys.announces {p : Pool} {m : Move} {i : RecordId} {a : String} (h : p.Deploys m i a) :
    ∃ k, m.place? = some k ∧ p.Announces k i a := by
  have happ : (p.step m).reported = p.reported ++ [(i, a)] := h
  rcases reported_step p m with hsame | ⟨k, j, b, hm, hann, hd⟩
  · rw [hsame] at happ
    simp at happ
  · have heq : p.reported ++ [(i, a)] = p.reported ++ [(j, b)] := happ.symm.trans hd
    cases List.append_cancel_left heq
    exact ⟨k, hm, hann⟩

theorem reported_run {p : Pool} {i : RecordId} {a : String} (later : List Move) (h : (i, a) ∈ (p.run later).reported) :
    (i, a) ∈ p.reported ∨ ∃ before m after, later = before ++ m :: after ∧ (p.run before).Deploys m i a := by
  induction later using List.reverseRecOn with
  | nil => exact .inl h
  | append_singleton later m ih =>
    rw [run_append] at h
    by_cases hold : (i, a) ∈ (p.run later).reported
    · refine (ih hold).imp_right ?_
      rintro ⟨before, m', after, rfl, hd⟩
      exact ⟨before, m', after ++ [m], by simp, hd⟩
    · rcases reported_step (p.run later) m with hsame | ⟨k, j, b, -, -, hd⟩
      · exact absurd (hsame ▸ h) hold
      · have happ : ((p.run later).step m).reported = (p.run later).reported ++ [(j, b)] := hd
        have h : (i, a) ∈ ((p.run later).step m).reported := h
        rw [happ, List.mem_append] at h
        cases List.mem_singleton.1 (h.resolve_left hold)
        exact .inr ⟨later, m, [], rfl, hd⟩

/-- the sink is told that a record is undeployed when it was taken out -/
theorem Undeploys.isUndeployed {p : Pool} (hp : p.Reachable) {m : Move} {i : RecordId} (h : p.Undeploys m i) :
    (p.registry.record i).isUndeployed = true := by
  have happ : (p.step m).told = p.told ++ [i] := h
  rcases view_step p m Mark.told? (fun _ => rfl) (fun _ _ => rfl) with hsame | ⟨k, c, x, rfl, hc, hstep, -⟩
  · rw [show (p.step m).told = p.told from hsame] at happ
    simp at happ
  · have hlaw := (hp.step (.ask k)).accounts.told i
    have hpos : 0 < ((p.step (.ask k)).trace.filterMap Mark.told?).count i :=
      List.count_pos_iff.2 (by rw [show (p.step (.ask k)).trace.filterMap Mark.told? = _ from happ]; simp)
    rw [hstep] at hlaw hpos
    have hrec : ((p.pose k c).registry.record i).isUndeployed = (p.registry.record i).isUndeployed := rfl
    rw [hrec] at hlaw
    cases hu : (p.registry.record i).isUndeployed with
    | true => rfl
    | false =>
      rw [hu, Bool.toNat_false] at hlaw
      omega

/-! ## What comes late -/

/-- a call that asks a context has looked at the record's life; it does not begin to once the record is undeployed -/
theorem asking_step {p : Pool} (hp : p.Reachable) {i : RecordId} (hu : (p.registry.record i).isUndeployed = true)
    {m : Move} {k : Nat} {v : Underway} (hv : (p.step m).call? k = some v) {a : String} {cell : Nat}
    (hl : v.call.lookup? = some (i, a, .asking cell)) : ∃ b, p.call? k = some ⟨v.call, b⟩ := by
  rcases call_step hv with hold | hnew | ⟨reply, u, rfl, hc, hstep⟩
  · exact hold
  · rcases hnew with hnew | ⟨j, hnew⟩
    · cases (lookup?_of_isNew hnew hl).1
    · rw [hnew] at hl
      cases hl
  · rw [hstep] at hv
    obtain ⟨owner, hk⟩ := hp.kept
    rcases resolves_advance_self hp.sound hc ⟨_, hv, hl⟩ with ⟨-, hpt, -⟩ | ⟨pt₀, hl₀, hn⟩
    · cases hpt
    · have hi := hk.placed k i a pt₀ ⟨u, hc, hl₀⟩
      have hlooks := Call.advanceLookup_looks p.registry hi a { reply with now := p.now } pt₀
      rcases hn with hn | ⟨hn, hpt⟩
      · rw [hn] at hlooks
        generalize p.registry.record i = r at hlooks hu
        generalize (Call.advanceLookup p.registry i a _ pt₀).1.record i = r' at hlooks
        cases hlooks with
        | ask h hlive =>
          rw [hu] at hlive
          cases hlive
      · obtain ⟨cell', hcell'⟩ := hlooks.of_wait hn
        rw [hcell'] at hpt
        cases hpt

theorem awaits_step {p : Pool} (hp : p.Reachable) {i : RecordId} (hu : (p.registry.record i).isUndeployed = true)
    {m : Move} {k : Nat} {a : String} (h : (p.step m).Awaits k i a) : p.Awaits k i a := by
  obtain ⟨q, report, cell, b, hv, rfl⟩ := h
  obtain ⟨b', hc⟩ := asking_step hp hu hv rfl
  exact ⟨q, report, cell, b', hc, rfl⟩

/-- a request that announces a module has waited for it, and its cell holds the module -/
theorem announces_step {p : Pool} (hp : p.Reachable) {m : Move} {k : Nat} {i : RecordId} {a : String}
    (h : (p.step m).Announces k i a) :
    p.Announces k i a ∨
      p.Awaits k i a ∧ ∃ cell, p.Holds k i a cell ∧ ((p.step m).registry.record i).content? cell ≠ none := by
  obtain ⟨q, report, t, b, hv, rfl⟩ := h
  rcases call_step hv with ⟨b', hc⟩ | hnew | ⟨reply, u, rfl, hc, hstep⟩
  · exact .inl ⟨q, report, t, b', hc, rfl⟩
  · rcases hnew with hnew | ⟨j, hnew⟩ <;> cases hnew
  · rw [hstep, call?_advance hc, if_pos rfl] at hv
    obtain ⟨-, hn | ⟨hn, hu⟩⟩ := underway?_eq_some.1 hv
    · obtain ⟨pt, module, hu, hfound⟩ := Call.notifying_next hn
      obtain ⟨cell, rfl⟩ := asking_of_fresh hfound
      have hl : u.call.lookup? = some (i, q.moduleAlias, .asking cell) := by rw [hu]; rfl
      have hres : p.Resolves k i q.moduleAlias (.asking cell) := ⟨u, hc, hl⟩
      refine .inr ⟨⟨q, report, cell, u.asking, by rw [hc, ← hu], rfl⟩, cell, ⟨_, hres, rfl⟩, ?_⟩
      obtain ⟨owner, hk⟩ := hp.kept
      have hlt := (hk.held k i q.moduleAlias _ cell hres rfl).2
      have hlooks := Call.advanceLookup_looks p.registry (hk.placed k i q.moduleAlias _ hres) q.moduleAlias
        { reply with now := p.now } (.asking cell)
      rw [hfound, ← Call.advance_registry_of_lookup? hl] at hlooks
      rw [hstep]
      show ((u.call.advance p.registry { reply with now := p.now }).registry.record i).content? cell ≠ none
      generalize p.registry.record i = r at hlooks hlt
      generalize (u.call.advance p.registry { reply with now := p.now }).registry.record i = r' at hlooks
      cases hlooks with
      | made hmod => simp [Record.content?, Record.setCell, hlt]
    · obtain ⟨j, c, pt, hl, -⟩ := Call.lookup?_wait hn
      rw [← hu] at hl
      cases hl

/-- who waits for a module of a record that was taken out, or announces one, did so when it was taken out -/
theorem waits_run {p : Pool} (hp : p.Reachable) {i : RecordId} (hu : (p.registry.record i).isUndeployed = true)
    {later : List Move} {k : Nat} {a : String} (h : (p.run later).Awaits k i a ∨ (p.run later).Announces k i a) :
    p.Awaits k i a ∨ p.Announces k i a := by
  induction later using List.reverseRecOn with
  | nil => exact h
  | append_singleton later m ih =>
    rw [run_append] at h
    rcases h with h | h
    · exact ih (.inl (awaits_step (hp.run later) (undeployed_run hp hu later) h))
    · exact ih ((announces_step (hp.run later) h).symm.imp_left And.left)

/-! ## What is among the modules -/

/-- the call at the place resolves the alias on the record, at such a point -/
def ResolvesAt (p : Pool) (k : Nat) (i : RecordId) (a : String) (at? : LookupPoint → Bool) : Prop :=
  ∃ pt, p.Resolves k i a pt ∧ at? pt = true

instance (p : Pool) (k : Nat) (i : RecordId) (a : String) (at? : LookupPoint → Bool) :
    Decidable (p.ResolvesAt k i a at?) :=
  decidable_of_iff (((p.call? k).bind fun u => u.call.lookup?).any fun (j, b, pt) => j == i && b == a && at? pt) <| by
    simp only [ResolvesAt, Resolves, Option.any_eq_true, Option.bind_eq_some_iff, Prod.exists, Bool.and_eq_true, beq_iff_eq]
    constructor
    · rintro ⟨j, b, pt, ⟨u, hu, hl⟩, ⟨rfl, rfl⟩, hat⟩
      exact ⟨pt, ⟨u, hu, hl⟩, hat⟩
    · rintro ⟨pt, ⟨u, hu, hl⟩, hat⟩
      exact ⟨i, a, pt, ⟨u, hu, hl⟩, ⟨rfl, rfl⟩, hat⟩

/-- the move removes the slot of an alias after a failure while another resolution has hold of its cell -/
def Severs (p : Pool) (m : Move) (i : RecordId) (a : String) : Prop :=
  (p.registry.record i).hasResolved a = false ∧
    ∃ k < p.calls.length, m.place? = some k ∧ p.ResolvesAt k i a LookupPoint.isClearing ∧
      ∃ j < p.calls.length, j ≠ k ∧ p.ResolvesAt j i a fun pt => pt.cell?.isSome

instance (p : Pool) (m : Move) (i : RecordId) (a : String) : Decidable (p.Severs m i a) :=
  inferInstanceAs (Decidable (_ ∧ _))

/-- some move of the run severs the slot of the alias on the record -/
def SeveredDuring (p : Pool) (i : RecordId) (a : String) : List Move → Prop
  | [] => False
  | m :: ms => p.Severs m i a ∨ (p.step m).SeveredDuring i a ms

instance decidableSeveredDuring (p : Pool) (i : RecordId) (a : String) : (ms : List Move) →
    Decidable (p.SeveredDuring i a ms)
  | [] => isFalse id
  | m :: ms =>
    have := decidableSeveredDuring (p.step m) i a ms
    inferInstanceAs (Decidable (_ ∨ _))

/-- calls that hold cells hold the one in the slot; what is announced and what was reported is resolved -/
structure Matched (p : Pool) (i : RecordId) (a : String) : Prop where
  held : ∀ k cell, p.Holds k i a cell → (p.registry.record i).slots.lookup a = some cell
  announced : ∀ k, p.Announces k i a → (p.registry.record i).hasResolved a = true
  reported : (i, a) ∈ p.reported → (p.registry.record i).hasResolved a = true

/-- the slot whose cell a call has hold of stays, unless it is severed -/
theorem slot_step {p : Pool} (hp : p.Reachable) {m : Move} {k : Nat} {i : RecordId} {a : String} {cell : Nat}
    (hk : p.Holds k i a cell) (hslot : (p.registry.record i).slots.lookup a = some cell) (hm : ¬ p.Severs m i a) :
    ((p.step m).registry.record i).slots.lookup a = some cell := by
  obtain ⟨owner, hkept⟩ := hp.kept
  rcases record_step hp.sound hkept m i with hstore | ⟨j, reply, b, pt, n, rfl, hres, hlooks⟩
  · rw [show ((p.step m).registry.record i).slots = (p.registry.record i).slots from congrArg Prod.snd hstore]
    exact hslot
  · by_cases hb : a = b
    · subst hb
      refine hlooks.lookup_self hslot ?_
      rintro why rfl
      by_contra hno
      obtain ⟨pt', ⟨u, hu, hl⟩, hcell⟩ := hk
      obtain ⟨v, hv, hl'⟩ := hres
      refine hm ⟨by simpa using hno, j, lt_of_call? hv, rfl, ⟨_, ⟨v, hv, hl'⟩, rfl⟩, k, lt_of_call? hu, ?_,
        pt', ⟨u, hu, hl⟩, by simp [hcell]⟩
      rintro rfl
      rw [hu] at hv
      cases hv
      rw [hl] at hl'
      cases hl'
      cases hcell
    · rw [hlooks.lookup_of_ne hb]
      exact hslot

/-- so the calls that hold cells go on to hold the one in the slot -/
theorem holds_step {p : Pool} (hp : p.Reachable) {m : Move} {i : RecordId} {a : String}
    (h : ∀ k cell, p.Holds k i a cell → (p.registry.record i).slots.lookup a = some cell)
    (hm : ¬ p.Severs m i a) {k : Nat} {cell : Nat} (hk : (p.step m).Holds k i a cell) :
    ((p.step m).registry.record i).slots.lookup a = some cell := by
  obtain ⟨pt, ⟨v, hv, hl⟩, hcell⟩ := hk
  have hkeep {pt : LookupPoint} (hr : p.Resolves k i a pt) (hcell : pt.cell? = some cell) :
      ((p.step m).registry.record i).slots.lookup a = some cell :=
    slot_step hp ⟨pt, hr, hcell⟩ (h k cell ⟨pt, hr, hcell⟩) hm
  rcases call_step hv with ⟨b, hc⟩ | hnew | ⟨reply, u, rfl, hc, hstep⟩
  · exact hkeep ⟨_, hc, hl⟩ hcell
  · rcases hnew with hnew | ⟨j, hnew⟩
    · obtain ⟨rfl, -⟩ := lookup?_of_isNew hnew hl
      cases hcell
    · rw [hnew] at hl
      cases hl
  · have hr : (p.step (.step k reply)).Resolves k i a pt := ⟨v, hv, hl⟩
    obtain ⟨owner, hkept⟩ := hp.kept
    rw [hstep] at hr
    rcases resolves_advance_self hp.sound hc hr with ⟨-, rfl, -⟩ | ⟨pt₀, hl₀, -⟩
    · cases hcell
    · obtain ⟨n, hlooked⟩ := looked_advance hp.sound hc (hkept.placed k i a pt₀ ⟨u, hc, hl₀⟩) hl₀ reply
      obtain ⟨-, -, hn | ⟨-, rfl⟩⟩ := hlooked.self i a pt hr
      · rcases hlooked.looks.cell?_eq_some hn hcell with hslot | hold
        · rw [hstep]
          exact hslot
        · exact hkeep hlooked.resolves hold
      · exact hkeep hlooked.resolves hcell

theorem matched_step {p : Pool} (hp : p.Reachable) {i : RecordId} {a : String} (h : p.Matched i a) {m : Move}
    (hm : ¬ p.Severs m i a) : (p.step m).Matched i a := by
  have hkeep (hr : (p.registry.record i).hasResolved a = true) :
      ((p.step m).registry.record i).hasResolved a = true := hasResolved_run hp hr [m]
  refine ⟨fun k cell => holds_step hp h.held hm, ?_, ?_⟩
  · intro k hk
    rcases announces_step hp hk with hk | ⟨-, cell, hholds, hfilled⟩
    · exact hkeep (h.announced k hk)
    · obtain ⟨module, hmod⟩ := Option.ne_none_iff_exists'.1 hfilled
      exact Record.hasResolved_iff.2
        ⟨module, Record.module?_eq_some.2 ⟨cell, slot_step hp hholds (h.held k cell hholds) hm, hmod⟩⟩
  · intro hr
    rcases reported_run [m] hr with hr | ⟨before, m', after, heq, hd⟩
    · exact hkeep (h.reported hr)
    · obtain ⟨k, -, hann⟩ := hd.announces
      cases before with
      | nil => exact hkeep (h.announced k hann)
      | cons m'' before => simp at heq

theorem matched_run {p : Pool} (hp : p.Reachable) {i : RecordId} {a : String} (h : p.Matched i a) {ms : List Move}
    (hms : ¬ p.SeveredDuring i a ms) : (p.run ms).Matched i a := by
  induction ms generalizing p with
  | nil => exact h
  | cons m ms ih =>
    obtain ⟨hm, hms⟩ := not_or.1 hms
    exact ih (hp.step m) (matched_step hp h hm) hms

theorem matched_new (timeout : Nat) (i : RecordId) (a : String) : (new timeout).Matched i a := by
  refine ⟨?_, ?_, ?_⟩
  · rintro k cell ⟨pt, ⟨u, hu, -⟩, -⟩
    cases hu
  · rintro k ⟨q, report, t, b, hu, -⟩
    cases hu
  · intro h
    cases h

/-- the sender departs while the context materialises the module of its one request: the sink is told that the record
is undeployed, with no modules, and after that that the alias is deployed -/
theorem deployed_after_undeployed :
    let x : Request := { id := ⟨"x"⟩, sender := ⟨"s"⟩, seq := 1, moduleAlias := "a" }
    let p := (new 100).run (.enter (.request x true .entering) :: turns 0 {} 6 ++
      [.ask 0, .enter (.remove (.departure ⟨"s"⟩)), .step 1 {}])
    let later := p.run [.ask 1, .step 1 {}, .ask 1, .step 1 {}, .step 0 { module := .ok ⟨"m", false⟩ }]
    p.Reachable ∧ p.Undeploys (.ask 1) 0 ∧ p.reported = [] ∧ (p.registry.record 0).aliases = [] ∧
      later.told = [0] ∧ later.Deploys (.ask 0) 0 "a" := by
  intro x p later
  exact ⟨⟨100, _, rfl⟩, by decide +kernel, by decide +kernel, by decide +kernel, by decide +kernel, by decide +kernel⟩

/-- **notifications match but for what is still awaited**: once a record is taken out of the cache, and so once the sink
is told that it is undeployed, the sink is told of a deployment on it only by a request that has waited for its context
or announced the module at every moment since. And when the sink is told that a record is undeployed, every alias that
is ever reported for it is among its modules, unless a request then waits for its context to materialise the alias, or
the alias's slot was severed. -/
theorem reported_or_awaited (timeout : Nat) (ms : List Move) :
    let p := (new timeout).run ms
    (∀ i, (p.registry.record i).isUndeployed = true → ∀ later m a, (p.run later).Deploys m i a →
        ∃ k, m.place? = some k ∧ (p.Awaits k i a ∨ p.Announces k i a)) ∧
      ∀ m i, p.Undeploys m i → (p.registry.record i).isUndeployed = true ∧
        ∀ a, ¬ (new timeout).SeveredDuring i a ms → ∀ later, (i, a) ∈ (p.run later).reported →
          a ∈ (p.registry.record i).aliases ∨ ∃ k, p.Awaits k i a := by
  intro p
  have hp : p.Reachable := ⟨timeout, ms, rfl⟩
  have hlate : ∀ i, (p.registry.record i).isUndeployed = true → ∀ later m a, (p.run later).Deploys m i a →
      ∃ k, m.place? = some k ∧ (p.Awaits k i a ∨ p.Announces k i a) := by
    intro i hu later m a hd
    obtain ⟨k, hm, hann⟩ := hd.announces
    exact ⟨k, hm, waits_run hp hu (.inr hann)⟩
  refine ⟨hlate, fun m i h => ⟨h.isUndeployed hp, fun a hms later hr => ?_⟩⟩
  have hmatched : p.Matched i a := matched_run ⟨timeout, [], rfl⟩ (matched_new timeout i a) hms
  rcases reported_run later hr with hr | ⟨before, m', after, -, hd⟩
  · exact .inl (Record.mem_aliases (hmatched.reported hr))
  · obtain ⟨k, -, hk | hk⟩ := hlate i (h.isUndeployed hp) before m' a hd
    · exact .inr ⟨k, hk⟩
    · exact .inl (Record.mem_aliases (hmatched.announced k hk))

/-- the sender departs after one alias was reported and while another is awaited -/
theorem late_by_request :
    let x : Request := { id := ⟨"x"⟩, sender := ⟨"s"⟩, seq := 1, moduleAlias := "a" }
    let ms := .enter (.request x true .entering) :: turns 0 { module := .ok ⟨"m", false⟩ } 8 ++
      .enter (.request { x with moduleAlias := "b" } true .entering) :: turns 1 {} 6 ++
      [.ask 1, .enter (.remove (.departure ⟨"s"⟩)), .step 2 {}]
    let p := (new 100).run ms
    let later := [.ask 2, .step 1 { module := .ok ⟨"n", true⟩ }]
    p.Undeploys (.ask 2) 0 ∧ (0, "a") ∈ (p.run later).reported ∧
      ("a" ∈ (p.registry.record 0).aliases ∨ ∃ k, p.Awaits k 0 "a") ∧
      (p.run later).Deploys (.ask 1) 0 "b" ∧ (p.Awaits 1 0 "b" ∨ p.Announces 1 0 "b") := by
  intro x ms p later
  have hund : p.Undeploys (.ask 2) 0 := by decide +kernel
  have hrep : (0, "a") ∈ (p.run later).reported := by decide +kernel
  have hdep : (p.run later).Deploys (.ask 1) 0 "b" := by decide +kernel
  have hms : ¬ (new 100).SeveredDuring 0 "a" ms := by decide +kernel
  obtain ⟨hlate, hmodules⟩ := reported_or_awaited 100 ms
  obtain ⟨hu, hmem⟩ := hmodules (.ask 2) 0 hund
  obtain ⟨k, hk, hwho⟩ := hlate 0 hu later (.ask 1) "b" hdep
  cases hk
  exact ⟨hund, hrep, hmem "a" hms later hrep, hdep, hwho⟩

end Pool

end Redeploy
