/-
Identical requests at the same time.

Any number of callers hand in one request, and nobody else does anything: their steps come in any order, time passes
between them, the membership does not change, and a context that is asked resolves the alias. Until one of them is
decided about nothing happens. If the decision refuses the request it will refuse it ever after, since records only get
older. If it accepts the request, the others find the record in the cache, and from then on all of them work on it, by
the cell in the alias's slot: nothing fails, so nobody removes the slot. One of them has the module made and tells the
sink, unless the alias was resolved before.

`Undecided` and `Sharing` are the two phases, and `Stands` says how far the one has come that has the module made.

Results:
- `joined_step`: what a move of one of the callers can be;
- `Undecided.step`, `Sharing.step`: every move keeps the phase, or leads from the first to the second;
- `together_run`: at every moment of such a run the callers are in one of the two.
-/
import Redeploy.Proofs.Materialisation
import Redeploy.Proofs.Isolation

namespace Redeploy

open Registry

/-- what a context was asked to resolve, or a sink was told of a deployment -/
def Mark.consulted? : Mark → Option Query
  | .asked (.context i a) => some (.context i a)
  | .asked (.deployed i a t) => some (.deployed i a t)
  | _ => none

/-- what the call has asked the context and told the sink, if it has the module of its alias made -/
def Underway.shown? (u : Underway) : Option (List Query) :=
  match u.call with
  | .request q _ (.resolving i (.asking _)) => some (if u.asking then [.context i q.moduleAlias] else [])
  | .request q _ (.notifying i t) =>
    some (.context i q.moduleAlias :: if u.asking then [.deployed i q.moduleAlias t] else [])
  | _ => none

/-- a request at the point has still to be decided about, or works on the record `i`, which is `r`, by the cell in the
slot of the alias -/
def RequestPoint.On (r : Record) (i : RecordId) (a : String) : RequestPoint → Prop
  | .resolving j pt => j = i ∧ pt.isClearing = false ∧ Pool.Tied r a pt
  | .notifying j _ => j = i
  | _ => True

theorem RequestPoint.On.mono {r r' : Record} {i : RecordId} {a : String} {pt : RequestPoint} (h : pt.On r i a)
    (hslot : ∀ cell, r.slots.lookup a = some cell → r'.slots.lookup a = some cell) : pt.On r' i a := by
  cases pt with
  | resolving j pt =>
    obtain ⟨hj, hclear, htied⟩ := h
    refine ⟨hj, hclear, ?_⟩
    cases pt with
    | looking => trivial
    | trying cell => exact hslot cell htied
    | asking cell => exact hslot cell htied
    | clearing why => cases hclear
  | _ => exact h

namespace Registry

/-- the registries differ at most in the order in which the cache is met -/
def Reordered (g g' : Registry) : Prop := ∃ cache, cache.Perm g.cache ∧ g' = { g with cache }

variable {g g' : Registry}

theorem Reordered.refl (g : Registry) : g.Reordered g := ⟨g.cache, .refl _, rfl⟩

theorem Reordered.trans {g'' : Registry} (h : g.Reordered g') (h' : g'.Reordered g'') : g.Reordered g'' := by
  obtain ⟨cache, hc, rfl⟩ := h
  obtain ⟨cache', hc', rfl⟩ := h'
  exact ⟨cache', hc'.trans hc, rfl⟩

theorem Reordered.record (h : g.Reordered g') (i : RecordId) : g'.record i = g.record i := by
  obtain ⟨cache, -, rfl⟩ := h
  rfl

theorem Reordered.length (h : g.Reordered g') : g'.records.length = g.records.length := by
  obtain ⟨cache, -, rfl⟩ := h
  rfl

theorem Reordered.stopped (h : g.Reordered g') : g'.stopped = g.stopped := by
  obtain ⟨cache, -, rfl⟩ := h
  rfl

theorem Reordered.caches (h : g.Reordered g') (i : RecordId) : g'.Caches i ↔ g.Caches i := by
  obtain ⟨cache, hc, rfl⟩ := h
  simp only [Caches, hc.mem_iff]

theorem Reordered.known (h : g.Reordered g') {q : Request} {i : RecordId} : g'.Known q i ↔ g.Known q i := by
  simp only [Known, h.caches, h.record]

/-- records only get older: a request that is admitted later is admitted now -/
theorem Reordered.admits (h : g.Reordered g') {q : Request} {now now' : Nat} (hnow : now ≤ now')
    (ha : g'.Admits q now') : g.Admits q now := by
  refine ⟨?_, ?_, ?_⟩
  · intro i hi
    rw [← h.record]
    exact ha.unknown i ((h.caches i).2 hi)
  · intro i hi
    rw [← h.record]
    exact ha.unequal i ((h.caches i).2 hi)
  · intro i hi hahead
    rw [← h.record] at hahead
    have hlt := ha.timely i ((h.caches i).2 hi) hahead
    obtain ⟨cache, -, rfl⟩ := h
    have hle : (g.record i).age now ≤ (g.record i).age now' := Nat.sub_le_sub_right hnow _
    exact lt_of_le_of_lt hle hlt

end Registry

namespace Pool

/-! ## The moves of the callers -/

/-- a move of the calls from the place `n` on, each of which is the request: one of them begins, puts its query, or does
a step. The sender is live or not all the time, and contexts resolve the alias. Or time passes, or the cache is met in
another order -/
def Move.Joins (q : Request) (live : Bool) (n : Nat) : Move → Prop
  | .enter c => ∃ report, c = .request q report .entering
  | .ask k => n ≤ k
  | .step k reply => n ≤ k ∧ reply.live = live ∧ ∃ x, reply.module = .ok x
  | .reorder _ => True
  | .pass _ => True
  | _ => False

/-- the registry is the same but for the order of the cache, and so are the evictions ordered and all that was done -/
structure Intact (p p' : Pool) : Prop where
  registry : p.registry.Reordered p'.registry
  evictions : p'.evictions = p.evictions
  done : p'.trace.filter Mark.isWork = p.trace.filter Mark.isWork

theorem Intact.trans {p p' p'' : Pool} (h : p.Intact p') (h' : p'.Intact p'') : p.Intact p'' :=
  ⟨h.registry.trans h'.registry, h'.evictions.trans h.evictions, h'.done.trans h.done⟩

theorem Untouched.intact {p p' : Pool} (h : p.Untouched p') : p.Intact p' :=
  ⟨h.registry ▸ .refl _, h.evictions, h.done⟩

/-- all that contexts were asked and the sink was told of deployments, in order -/
def consulted (p : Pool) : List Query := p.trace.filterMap Mark.consulted?

/-- a view of what was done sees nothing else -/
theorem view_of_done {β : Type} {t t' : List Mark} (view : Mark → Option β)
    (hview : ∀ x, x.isWork = false → view x = none) (h : t'.filter Mark.isWork = t.filter Mark.isWork) :
    t'.filterMap view = t.filterMap view := by
  have hkeep (t : List Mark) : (t.filter Mark.isWork).filterMap view = t.filterMap view := by
    induction t with
    | nil => rfl
    | cons x t ih =>
      cases hx : x.isWork with
      | true => simp [hx, List.filterMap_cons, ih]
      | false => simp [hx, ih, hview x hx]
  rw [← hkeep t', h, hkeep t]

theorem Intact.consulted {p p' : Pool} (h : p.Intact p') : p'.consulted = p.consulted := by
  refine view_of_done _ ?_ h.done
  intro x hx
  unfold Mark.isWork at hx
  split at hx <;> first | rfl | cases hx

/-- each record has had its context made, and no other context was -/
theorem made_of_length {p p' : Pool} (hp : p.Reachable) (hp' : p'.Reachable)
    (h : p'.registry.records.length = p.registry.records.length) : p'.made = p.made := by
  rw [hp.made, hp'.made, h]

/-- what a move of one of the callers can be -/
inductive Joined (p : Pool) (q : Request) (live : Bool) (n : Nat) : Move → Pool → Prop
  | aside {m : Move} {p' : Pool} (h : p.Aside p') (hi : p.Intact p') : Joined p q live n m p'
  | enter (report : Bool) :
    Joined p q live n (.enter (.request q report .entering)) (p.enter (.request q report .entering))
  | ask {k : Nat} {c : Call} (hk : n ≤ k) (hc : p.call? k = some ⟨c, false⟩) (hq : c.query p.registry ≠ .nothing) :
    Joined p q live n (.ask k) (p.pose k c)
  | step {k : Nat} {u : Underway} {reply : Reply} (hk : n ≤ k) (hl : reply.live = live)
    (hx : ∃ x, reply.module = .ok x) (hc : p.call? k = some u)
    (hready : u.asking = true ∨ u.call.query p.registry = .nothing)
    (hlock : u.call.needsLock = true → p.isFree k = true) : Joined p q live n (.step k reply) (p.advance k u.call reply)

theorem Aside.refl (p : Pool) : p.Aside p := ⟨rfl, .refl _, rfl, rfl, rfl, rfl, rfl, rfl, le_rfl⟩

theorem joined_step {q : Request} {live : Bool} {n : Nat} (p : Pool) {m : Move} (hm : m.Joins q live n) :
    p.Joined q live n m (p.step m) := by
  have hidle {m : Move} : p.Joined q live n m p := .aside (.refl p) (Untouched.refl p).intact
  have h := step_moved p m
  cases m with
  | enter c =>
    obtain ⟨report, rfl⟩ := hm
    simp only [Pool.step]
    split
    · exact .enter report
    · exact hidle
  | ask k =>
    generalize p.step (.ask k) = p' at h
    cases h with
    | idle => exact hidle
    | ask hc hq => exact .ask hm hc hq
    | aside hnone ha => cases hnone
  | step k reply =>
    generalize p.step (.step k reply) = p' at h
    cases h with
    | idle => exact hidle
    | step hc hready hlock => exact .step hm.1 hm.2.1 hm.2.2 hc hready hlock
    | aside hnone ha => cases hnone
  | reorder cache =>
    simp only [Pool.step]
    split
    · rename_i hperm
      exact .aside ⟨rfl, hperm, rfl, rfl, rfl, rfl, rfl, rfl, le_rfl⟩ ⟨⟨cache, hperm, rfl⟩, rfl, rfl⟩
    · exact hidle
  | pass ms =>
    exact .aside ⟨rfl, .refl _, rfl, rfl, rfl, rfl, rfl, rfl, Nat.le_add_right _ _⟩ ⟨.refl _, rfl, rfl⟩
  | _ => cases hm

variable {p₀ p p' : Pool} {k j n : Nat} {q : Request} {report live b : Bool} {i : RecordId} {m : Move} {u : Underway}
  {reply : Reply} {pt : RequestPoint}

theorem returned_pose {c : Call} {o : Outcome} : (p.pose j c).Returned k o ↔ p.Returned k o := by
  simp [Returned, Pool.pose]

theorem Aside.returned (h : p.Aside p') {o : Outcome} : p'.Returned k o ↔ p.Returned k o := by
  simp [Returned, h.trace]

/-! ## Before the decision -/

/-- the request would be turned away, now and ever after -/
def Declines (p : Pool) (q : Request) (live : Bool) : Prop :=
  live = false ∨ p.registry.stopped = true ∨ (∀ i, ¬ p.registry.Known q i) ∧ ¬ p.registry.Admits q p.now

theorem Declines.mono (h : p.Declines q live) (hg : p.registry.Reordered p'.registry) (hnow : p.now ≤ p'.now) :
    p'.Declines q live := by
  rcases h with h | h | ⟨hknown, hadmits⟩
  · exact .inl h
  · exact .inr (.inl (hg.stopped.trans h))
  · refine .inr (.inr ⟨?_, ?_⟩)
    · intro i hi
      exact hknown i (hg.known.1 hi)
    · intro ha
      exact hadmits (hg.admits hnow ha)

theorem Declines.decide_ne (hp : p.Reachable) (h : p.Declines q true) (hs : p.registry.stopped = false)
    (a : Admission) : p.registry.decide q p.now ≠ .ok a := by
  intro hd
  rcases h with h | h | ⟨hknown, hadmits⟩
  · cases h
  · rw [hs] at h
    cases h
  · rcases (decide_isOk_iff hp.sound.coherent).1 ⟨a, hd⟩ with ⟨i, hi⟩ | ha
    · exact hknown i hi
    · exact hadmits ha

/-- nothing has happened: the callers have still to be decided about, or were turned away -/
structure Undecided (p₀ p : Pool) (q : Request) (live : Bool) : Prop where
  intact : p₀.Intact p
  calls : ∀ k u, p₀.calls.length ≤ k → p.call? k = some u →
    ∃ report pt b, u = ⟨.request q report pt, b⟩ ∧ pt.isOpen = true ∧ (pt = .entering ∨ live = true)
  returned : ∀ k o, p₀.calls.length ≤ k → p.Returned k o →
    (∃ why, o = .failed why ∧ q.Rejection why) ∧ p.Declines q live

/-- at first there are no callers -/
theorem undecided_refl (hp : p.Reachable) (q : Request) (live : Bool) : p.Undecided p q live := by
  refine ⟨(Untouched.refl p).intact, ?_, ?_⟩
  · intro k u hk hc
    exact absurd (lt_of_call? hc) (Nat.not_lt.2 hk)
  · intro k o hk ho
    exact absurd (hp.settled.returned k o ho).1 (Nat.not_lt.2 hk)

/-- a step of a caller that changes nothing, and leads to another open point or turns the caller away -/
theorem Undecided.advance (h : p₀.Undecided p q live) (hc : p.call? k = some u)
    (hreg : (u.call.advance p.registry { reply with now := p.now }).registry = p.registry)
    (hrest : AtRest (u.call.advance p.registry { reply with now := p.now }).effects)
    (hnext : (∃ report pt, (u.call.advance p.registry { reply with now := p.now }).next = .go (.request q report pt) ∧
        pt.isOpen = true ∧ live = true) ∨
      ∃ why, (u.call.advance p.registry { reply with now := p.now }).next = .done (.failed why) ∧ q.Rejection why ∧
        p.Declines q live) : p₀.Undecided (p.advance k u.call reply) q live := by
  have hmono {q : Request} {live : Bool} (hd : p.Declines q live) : (p.advance k u.call reply).Declines q live :=
    hd.mono (untouched_advance hreg hrest).intact.registry le_rfl
  refine ⟨h.intact.trans (untouched_advance hreg hrest).intact, ?_, ?_⟩
  · intro j v hj hv
    rw [call?_advance hc] at hv
    split at hv
    · rcases hnext with ⟨report, pt, hn, hopen, hlive⟩ | ⟨why, hn, -⟩
      · rw [hn] at hv
        cases hv
        exact ⟨report, pt, false, rfl, hopen, .inr hlive⟩
      · rw [hn] at hv
        cases hv
    · exact h.calls j v hj hv
  · intro j o hj ho
    rcases returned_advance.1 ho with ho | ⟨rfl, hn⟩
    · obtain ⟨hwhy, hd⟩ := h.returned j o hj ho
      exact ⟨hwhy, hmono hd⟩
    · rcases hnext with ⟨report, pt, hn', -⟩ | ⟨why, hn', hw, hd⟩
      · rw [hn'] at hn
        cases hn
      · rw [hn'] at hn
        cases hn
        exact ⟨⟨why, rfl, hw⟩, hmono hd⟩

/-! ## After the decision -/

/-- how far the alias has come on the record of the callers: nobody has its module made, and nothing was asked; one of
them has, and that one alone; or it was made, and the context was asked and the sink told once -/
inductive Stands (p₀ p : Pool) (q : Request) (i : RecordId) : Prop
  | resting (hnone : ∀ k u, p₀.calls.length ≤ k → p.call? k = some u → u.shown? = none)
    (hsame : p.consulted = p₀.consulted)
    (hres : (p.registry.record i).hasResolved q.moduleAlias = (p₀.registry.record i).hasResolved q.moduleAlias)
  | working {k : Nat} {u : Underway} {told : List Query}
    (hnew : (p₀.registry.record i).hasResolved q.moduleAlias = false) (hk : p₀.calls.length ≤ k)
    (hc : p.call? k = some u) (hu : u.shown? = some told)
    (hsole : ∀ j v, p₀.calls.length ≤ j → p.call? j = some v → v.shown? ≠ none → j = k)
    (happ : p.consulted = p₀.consulted ++ told)
    (hres : ∀ report t, u.call = .request q report (.notifying i t) →
      (p.registry.record i).hasResolved q.moduleAlias = true)
  | done {t : Bool} (hnew : (p₀.registry.record i).hasResolved q.moduleAlias = false)
    (hnone : ∀ k u, p₀.calls.length ≤ k → p.call? k = some u → u.shown? = none)
    (happ : p.consulted = p₀.consulted ++ [.context i q.moduleAlias, .deployed i q.moduleAlias t])
    (hres : (p.registry.record i).hasResolved q.moduleAlias = true)

/-- the request was accepted for the record, which was cached or has been made for it, and all callers get it -/
structure Sharing (p₀ p : Pool) (q : Request) (live : Bool) (i : RecordId) : Prop where
  alive : live = true
  unstopped : p.registry.stopped = false
  known : p.registry.Known q i
  born : p₀.registry.Known q i ∧ p.made = p₀.made ∨
    (∀ j, p₀.registry.Caches j → (p₀.registry.record j).id ≠ q.id) ∧ i = p₀.registry.records.length ∧
      p.made = p₀.made ++ [i]
  calls : ∀ k u, p₀.calls.length ≤ k → p.call? k = some u →
    ∃ report pt b, u = ⟨.request q report pt, b⟩ ∧ pt.On (p.registry.record i) i q.moduleAlias
  returned : ∀ k o, p₀.calls.length ≤ k → p.Returned k o →
    o = .record i ∧ (p.registry.record i).hasResolved q.moduleAlias = true
  stands : p₀.Stands p q i

theorem shown?_of_isOpen (h : pt.isOpen = true) :
    (⟨.request q report pt, b⟩ : Underway).shown? = none := by
  cases pt <;> first | rfl | cases h

theorem consulted_advance (p : Pool) (k : Nat) (c : Call) (reply : Reply) :
    (p.advance k c reply).consulted = p.consulted := marks_advance p k c reply (fun _ => rfl) fun _ _ => rfl

/-- the decision accepts the request: nobody was turned away before, since that would be for good -/
theorem Undecided.shares (hp : p.Reachable) (h : p₀.Undecided p q live) (hk : p₀.calls.length ≤ k)
    (hc : p.call? k = some ⟨.request q report .deciding, b⟩)
    (hadv : p.advance k (.request q report .deciding) reply = p') {a : Admission}
    (hd : p.registry.decide q p.now = .ok a)
    (hn : (Call.advance p.registry { reply with now := p.now } (.request q report .deciding)).next =
      .go (.request q report (.resolving i .looking)))
    (hknown : p'.registry.Known q i)
    (hborn : p₀.registry.Known q i ∧ p'.made = p₀.made ∨
      (∀ j, p₀.registry.Caches j → (p₀.registry.record j).id ≠ q.id) ∧ i = p₀.registry.records.length ∧
        p'.made = p₀.made ++ [i])
    (hres : (p'.registry.record i).hasResolved q.moduleAlias = (p₀.registry.record i).hasResolved q.moduleAlias) :
    p₀.Sharing p' q live i := by
  subst hadv
  have hstopped : p.registry.stopped = false := hp.locked.unstopped k _ hc rfl
  have hlive : live = true := by
    obtain ⟨report', pt, b', heq, -, hpt⟩ := h.calls k _ hk hc
    cases heq
    exact hpt.resolve_left (by simp)
  have hnobody : ∀ j o, p₀.calls.length ≤ j → ¬ p.Returned j o := by
    intro j o hj ho
    exact (hlive ▸ (h.returned j o hj ho).2).decide_ne hp hstopped a hd
  have hcalls : ∀ j v, p₀.calls.length ≤ j → (p.advance k (.request q report .deciding) reply).call? j = some v →
      ∃ report' pt b', v = ⟨.request q report' pt, b'⟩ ∧ (pt.isOpen = true ∨ pt = .resolving i .looking) := by
    intro j v hj hv
    rw [call?_advance hc] at hv
    split at hv
    · rw [hn] at hv
      cases hv
      exact ⟨report, _, false, rfl, .inr rfl⟩
    · obtain ⟨report', pt, b', heq, hopen, -⟩ := h.calls j v hj hv
      exact ⟨report', pt, b', heq, .inl hopen⟩
  refine ⟨hlive, ?_, hknown, hborn, ?_, ?_, .resting ?_ ?_ hres⟩
  · show (Call.advance p.registry _ _).registry.stopped = false
    rw [Call.advance_stopped, hstopped]
    rfl
  · intro j v hj hv
    obtain ⟨report', pt, b', heq, hopen | rfl⟩ := hcalls j v hj hv
    · refine ⟨report', pt, b', heq, ?_⟩
      cases pt <;> trivial
    · exact ⟨report', _, b', heq, rfl, rfl, trivial⟩
  · intro j o hj ho
    rcases returned_advance.1 ho with ho | ⟨rfl, hdone⟩
    · exact absurd ho (hnobody j o hj)
    · rw [hn] at hdone
      cases hdone
  · intro j v hj hv
    obtain ⟨report', pt, b', rfl, hopen | rfl⟩ := hcalls j v hj hv
    · exact shown?_of_isOpen hopen
    · rfl
  · rw [consulted_advance, h.intact.consulted]

theorem Undecided.shares_cached (hp₀ : p₀.Reachable) (hp : p.Reachable) (h : p₀.Undecided p q live)
    (hk : p₀.calls.length ≤ k) (hc : p.call? k = some ⟨.request q report .deciding, b⟩)
    (hadv : p.advance k (.request q report .deciding) reply = p') (hp' : p'.Reachable)
    (hd : p.registry.decide q p.now = .ok (.cached i)) : p₀.Sharing p' q live i := by
  have hknown : p.registry.Known q i := (decide_eq_cached_iff hp.sound.coherent).1 hd
  have hs := @Call.advance_cached p.registry q report { reply with now := p.now } i hd
  have hreg : p'.registry = p.registry := by
    rw [← hadv]
    exact congrArg Step.registry hs
  refine h.shares hp hk hc hadv hd (by rw [hs]) (hreg ▸ hknown) (.inl ⟨h.intact.registry.known.1 hknown, ?_⟩) ?_
  · exact made_of_length hp₀ hp' (by rw [hreg, h.intact.registry.length])
  · rw [hreg, h.intact.registry.record]

theorem Undecided.shares_fresh (hp₀ : p₀.Reachable) (hp : p.Reachable) (h : p₀.Undecided p q live)
    (hk : p₀.calls.length ≤ k) (hc : p.call? k = some ⟨.request q report .deciding, b⟩)
    (hadv : p.advance k (.request q report .deciding) reply = p') (hp' : p'.Reachable) {v : Verdict}
    (hd : p.registry.decide q p.now = .ok (.fresh v)) : p₀.Sharing p' q live p₀.registry.records.length := by
  have hg := hp.sound.coherent
  have hunknown := ((decide_eq_fresh_iff hg).1 hd).1.unknown
  have hs := @Call.advance_fresh p.registry q report { reply with now := p.now } v hd
  have hlen := h.intact.registry.length
  obtain ⟨ordered, henters⟩ : ∃ ordered, p.Enters p' q ordered := hadv ▸ install_enters hg hd
  obtain ⟨clock, state, hrecord, -⟩ := henters.made
  rw [hlen] at hs hrecord
  have hcache : p'.registry.Caches p₀.registry.records.length := by
    rw [henters.registry, ← hlen]
    exact ⟨q.id, List.mem_append_right _ List.mem_cons_self⟩
  refine h.shares hp hk hc hadv hd (by rw [hs]) ⟨hcache, by rw [hrecord], by rw [hrecord]⟩ (.inr ⟨?_, rfl, ?_⟩) ?_
  · intro j hj
    rw [← h.intact.registry.record]
    exact hunknown j ((h.intact.registry.caches j).2 hj)
  · rw [hp₀.made, hp'.made, henters.length, hlen, List.range_succ]
  · rw [hrecord, record_eq_default le_rfl]
    rfl

/-- a step of a caller leaves all of them undecided, or has the request accepted -/
theorem Undecided.step_caller (hp₀ : p₀.Reachable) (hp : p.Reachable) (h : p₀.Undecided p q live)
    (hk : p₀.calls.length ≤ k) (hl : reply.live = live) (hc : p.call? k = some u)
    (hp' : (p.advance k u.call reply).Reachable) :
    p₀.Undecided (p.advance k u.call reply) q live ∨ ∃ i, p₀.Sharing (p.advance k u.call reply) q live i := by
  obtain ⟨report, pt, b, rfl, hopen, hpt⟩ := h.calls k u hk hc
  have hr := Call.advanceRequest_requests p.registry q report { reply with now := p.now } pt
  by_cases hd : ∃ a, pt = .deciding ∧ p.registry.decide q p.now = .ok a
  · obtain ⟨i | v, rfl, hd⟩ := hd
    · exact .inr ⟨i, h.shares_cached hp₀ hp hk hc rfl hp' hd⟩
    · exact .inr ⟨_, h.shares_fresh hp₀ hp hk hc rfl hp' hd⟩
  · have hquiet : ∀ v, pt = .deciding → p.registry.decide q p.now ≠ .ok (.fresh v) :=
      fun v hpt hd' => hd ⟨_, hpt, hd'⟩
    have hnot : ∀ i pt', pt ≠ .resolving i pt' := by
      rintro i pt' rfl
      cases hopen
    refine .inl (h.advance hc (hr.registry_eq hquiet hnot) (hr.quiet hp.sound.coherent hquiet).2 ?_)
    show (∃ report' pt', (Call.advanceRequest p.registry q report { reply with now := p.now } pt).next = _ ∧ _) ∨
      ∃ why, (Call.advanceRequest p.registry q report { reply with now := p.now } pt).next = _ ∧ _
    generalize Call.advanceRequest p.registry q report { reply with now := p.now } pt = s at hr
    cases hr with
    | enter hlive => exact .inl ⟨_, _, rfl, rfl, hl ▸ hlive⟩
    | left hdead => exact .inr ⟨_, rfl, .senderLeft, .inl (hl ▸ hdead)⟩
    | lock hs => exact .inl ⟨_, _, rfl, rfl, hpt.resolve_left (by simp)⟩
    | stopped hs => exact .inr ⟨_, rfl, .shuttingDown, .inr (.inl hs)⟩
    | recheck hlive => exact .inl ⟨_, _, rfl, rfl, hl ▸ hlive⟩
    | departed hdead => exact .inr ⟨_, rfl, .senderLeft, .inl (hl ▸ hdead)⟩
    | refused hwhy =>
      have hnone : ¬ ∃ a, p.registry.decide q p.now = .ok a := by
        rintro ⟨a, ha⟩
        exact hd ⟨a, rfl, ha⟩
      rw [decide_isOk_iff hp.sound.coherent, not_or, not_exists] at hnone
      refine .inr ⟨_, rfl, ?_, .inr (.inr hnone)⟩
      rcases decide_error hwhy with ⟨d, rfl⟩ | rfl
      · exact .sequenceMismatch d
      · exact .obsolete
    | cached hok => exact absurd ⟨_, rfl, hok⟩ hd
    | fresh hok => exact absurd ⟨_, rfl, hok⟩ hd
    | _ => cases hopen

/-- a move of one of the callers leaves all of them undecided, or has the request accepted -/
theorem Undecided.step (hp₀ : p₀.Reachable) (hp : p.Reachable) (h : p₀.Undecided p q live)
    (hm : m.Joins q live p₀.calls.length) :
    p₀.Undecided (p.step m) q live ∨ ∃ i, p₀.Sharing (p.step m) q live i := by
  have hp' := hp.step m
  have hj := joined_step p hm
  generalize p.step m = p' at hj hp'
  cases hj with
  | aside ha hi =>
    refine .inl ⟨h.intact.trans hi, ?_, ?_⟩
    · intro k u hk hc
      exact h.calls k u hk (ha.call? k ▸ hc)
    · intro k o hk ho
      obtain ⟨hwhy, hd⟩ := h.returned k o hk (ha.returned.1 ho)
      exact ⟨hwhy, hd.mono hi.registry ha.now⟩
  | enter report =>
    refine .inl ⟨h.intact.trans ⟨.refl _, rfl, rfl⟩, ?_, h.returned⟩
    intro k u hk hc
    rw [call?_enter] at hc
    split at hc
    · cases hc
      exact ⟨report, .entering, false, rfl, rfl, .inl rfl⟩
    · exact h.calls k u hk hc
  | @ask k c hk hc hq =>
    obtain ⟨report, pt, b, heq, hopen, hpt⟩ := h.calls k _ hk hc
    cases heq
    refine .inl ⟨h.intact.trans ⟨.refl _, rfl, ?_⟩, ?_, ?_⟩
    · have hquery : Mark.isWork (.asked ((Call.request q report pt).query p.registry)) = false := by
        cases pt <;> first | rfl | cases hopen
      simp [Pool.pose, List.filter_append, hquery]
    · intro j v hj hv
      rw [call?_pose hc] at hv
      split at hv
      · cases hv
        exact ⟨report, pt, true, rfl, hopen, hpt⟩
      · exact h.calls j v hj hv
    · intro j o hj ho
      exact h.returned j o hj (returned_pose.1 ho)
  | @step k u reply hk hl hx hc hready hlock => exact h.step_caller hp₀ hp hk hl hc hp'

/-! ## On the record -/

/-- what the move does not concern stays as it stands -/
theorem Stands.keep (h : p₀.Stands p q i) (hconsulted : p'.consulted = p.consulted)
    (hres : (p'.registry.record i).hasResolved q.moduleAlias = (p.registry.record i).hasResolved q.moduleAlias)
    (hold : ∀ j v, p'.call? j = some v → v.shown? ≠ none → p.call? j = some v)
    (hkeep : ∀ j v, p.call? j = some v → v.shown? ≠ none → p'.call? j = some v) : p₀.Stands p' q i := by
  have hnone' (hnone : ∀ k u, p₀.calls.length ≤ k → p.call? k = some u → u.shown? = none) (j : Nat) (v : Underway)
      (hj : p₀.calls.length ≤ j) (hv : p'.call? j = some v) : v.shown? = none := by
    by_contra hne
    exact hne (hnone j v hj (hold j v hv hne))
  cases h with
  | resting hnone hsame hresting => exact .resting (hnone' hnone) (hconsulted.trans hsame) (hres.trans hresting)
  | working hnew hk hc hu hsole happ hnotifying =>
    refine .working hnew hk (hkeep _ _ hc (by simp [hu])) hu ?_ (hconsulted.trans happ) ?_
    · intro j v hj hv hne
      exact hsole j v hj (hold j v hv hne) hne
    · intro report t heq
      exact hres.trans (hnotifying report t heq)
  | done hnew hnone happ hdone => exact .done hnew (hnone' hnone) (hconsulted.trans happ) (hres.trans hdone)

/-- the caller that has the module made is the only one, and all that was asked and told it has asked and told -/
theorem Stands.of_shown (h : p₀.Stands p q i) (hk : p₀.calls.length ≤ k) (hc : p.call? k = some u) {told : List Query}
    (hu : u.shown? = some told) :
    (p₀.registry.record i).hasResolved q.moduleAlias = false ∧
      (∀ j v, p₀.calls.length ≤ j → p.call? j = some v → v.shown? ≠ none → j = k) ∧
      p.consulted = p₀.consulted ++ told ∧
      ∀ report t, u.call = .request q report (.notifying i t) →
        (p.registry.record i).hasResolved q.moduleAlias = true := by
  have hne : u.shown? ≠ none := by simp [hu]
  cases h with
  | resting hnone hsame hres => exact absurd (hnone k u hk hc) hne
  | done hnew hnone happ hres => exact absurd (hnone k u hk hc) hne
  | @working k' u' told' hnew hk' hc' hu' hsole happ hres =>
    obtain rfl := hsole k u hk hc hne
    obtain rfl : u = u' := Option.some.inj (hc.symm.trans hc')
    obtain rfl : told = told' := Option.some.inj (hu.symm.trans hu')
    exact ⟨hnew, hsole, happ, hres⟩

theorem known_lookup {g g' : Registry} {a : String} {pt : LookupPoint} {n : Call.LookupStep}
    (h : Call.advanceLookup g i a reply pt = (g', n)) {j : RecordId} (hknown : g.Known q j) : g'.Known q j := by
  have hcaches := Call.caches_lookup h j
  obtain ⟨f, rfl, ho, -⟩ := Call.lookup_modifies h
  have horigin : ((g.modify i f).record j).origin = (g.record j).origin := record_modify_congr g i j Record.origin ho
  have hid := congrArg Record.id horigin
  have hseq := congrArg Record.seq horigin
  simp only [Record.origin] at hid hseq
  exact ⟨hcaches.2 hknown.1, hid.trans hknown.2.1, hseq.trans hknown.2.2⟩

theorem hasResolved_of_slot {r : Record} {a : String} {cell : Nat} (h : r.slots.lookup a = some cell) :
    r.hasResolved a = (r.content? cell).isSome := by
  simp [Record.hasResolved, Record.module?, h]

/-- a step of a caller that goes on with the record or returns it -/
theorem Sharing.advance (hp : p.Reachable) (h : p₀.Sharing p q live i)
    (hc : p.call? k = some ⟨.request q report pt, b⟩) (hadv : p.advance k (.request q report pt) reply = p')
    (hp' : p'.Reachable)
    (hmono : (p.registry.record i).hasResolved q.moduleAlias = true →
      (p'.registry.record i).hasResolved q.moduleAlias = true)
    (hreg : p'.registry = p.registry ∨
      ∃ at? n, Call.advanceLookup p.registry i q.moduleAlias { reply with now := p.now } at? = (p'.registry, n))
    (hslot : ∀ cell, (p.registry.record i).slots.lookup q.moduleAlias = some cell →
      (p'.registry.record i).slots.lookup q.moduleAlias = some cell)
    (hself : (∃ pt', p'.call? k = some ⟨.request q report pt', false⟩ ∧
        pt'.On (p'.registry.record i) i q.moduleAlias) ∨
      p'.Returned k (.record i) ∧ (p'.registry.record i).hasResolved q.moduleAlias = true)
    (hstands : p₀.Stands p' q i) : p₀.Sharing p' q live i := by
  have hknown : p'.registry.Known q i := by
    rcases hreg with hreg | ⟨at?, n, hreg⟩
    · exact hreg ▸ h.known
    · exact known_lookup hreg h.known
  have hlength : p'.registry.records.length = p.registry.records.length := by
    rcases hreg with hreg | ⟨at?, n, hreg⟩
    · rw [hreg]
    · exact (Call.evolves_lookup hp.sound.coherent hreg).length
  have hmade := made_of_length hp hp' hlength
  subst hadv
  refine ⟨h.alive, ?_, hknown, ?_, ?_, ?_, hstands⟩
  · show (Call.advance p.registry _ _).registry.stopped = false
    rw [Call.advance_stopped, h.unstopped]
    rfl
  · rw [hmade]
    exact h.born
  · intro j v hj hv
    by_cases hjk : j = k
    · subst hjk
      rcases hself with ⟨pt', hc', hon⟩ | ⟨ho, -⟩
      · rw [hc'] at hv
        cases hv
        exact ⟨report, pt', false, rfl, hon⟩
      · exact absurd (hp'.settled.returned j _ ho) (not_ended hv)
    · rw [call?_advance hc, if_neg hjk] at hv
      obtain ⟨report', pt', b', heq, hon⟩ := h.calls j v hj hv
      exact ⟨report', pt', b', heq, hon.mono hslot⟩
  · intro j o hj ho
    rcases returned_advance.1 ho with hold | ⟨rfl, -⟩
    · obtain ⟨ho, hres⟩ := h.returned j o hj hold
      exact ⟨ho, hmono hres⟩
    · rcases hself with ⟨pt', hc', -⟩ | ⟨ho', hres⟩
      · exact absurd (hp'.settled.returned j _ ho) (not_ended hc')
      · exact ⟨hp'.settled.unique j _ _ ho ho', hres⟩

/-- what stands elsewhere stands, if the caller of the step has the module made neither before nor after it -/
theorem Sharing.stands_advance (h : p₀.Sharing p q live i) (hc : p.call? k = some u) (hu : u.shown? = none)
    (hadv : p.advance k u.call reply = p')
    (hres : (p'.registry.record i).hasResolved q.moduleAlias = (p.registry.record i).hasResolved q.moduleAlias)
    (hnone : ∀ v, p'.call? k = some v → v.shown? = none) : p₀.Stands p' q i := by
  subst hadv
  have hcall := call?_advance hc reply
  refine h.stands.keep (consulted_advance ..) hres ?_ ?_
  · intro j v hv hne
    by_cases hj : j = k
    · subst hj
      exact absurd (hnone v hv) hne
    · rwa [hcall, if_neg hj] at hv
  · intro j v hv hne
    have hj : j ≠ k := by
      rintro rfl
      rw [hc] at hv
      cases hv
      exact hne hu
    rwa [hcall, if_neg hj]

/-- a caller that is not decided about yet goes on to the record, which it finds in the cache -/
theorem Sharing.step_open (hp : p.Reachable) (h : p₀.Sharing p q live i)
    (hc : p.call? k = some ⟨.request q report pt, b⟩) (hopen : pt.isOpen = true) (hl : reply.live = live)
    (hadv : p.advance k (.request q report pt) reply = p') (hp' : p'.Reachable) : p₀.Sharing p' q live i := by
  have hd : p.registry.decide q p.now = .ok (.cached i) := (decide_eq_cached_iff hp.sound.coherent).2 h.known
  have hlive : reply.live = true := hl.trans h.alive
  have hr := Call.advanceRequest_requests p.registry q report { reply with now := p.now } pt
  have hs : ∃ effects pt', Call.advanceRequest p.registry q report { reply with now := p.now } pt =
      ⟨p.registry, effects, .go (.request q report pt')⟩ ∧ (pt'.isOpen = true ∨ pt' = .resolving i .looking) := by
    generalize Call.advanceRequest p.registry q report { reply with now := p.now } pt = s at hr
    cases hr with
    | enter => exact ⟨_, _, rfl, .inl rfl⟩
    | left hdead => rw [hlive] at hdead; cases hdead
    | lock => exact ⟨_, _, rfl, .inl rfl⟩
    | stopped hs => rw [h.unstopped] at hs; cases hs
    | recheck => exact ⟨_, _, rfl, .inl rfl⟩
    | departed hdead => rw [hlive] at hdead; cases hdead
    | refused hd' => rw [hd] at hd'; cases hd'
    | cached hd' =>
      rw [hd] at hd'
      cases hd'
      exact ⟨_, _, rfl, .inr rfl⟩
    | fresh hd' => rw [hd] at hd'; cases hd'
    | _ => cases hopen
  obtain ⟨effects, pt', hs, hpt'⟩ := hs
  have hreg : p'.registry = p.registry := by
    rw [← hadv]
    exact congrArg Step.registry hs
  have hc' : p'.call? k = some ⟨.request q report pt', false⟩ := by
    rw [← hadv, call?_advance hc, if_pos rfl, Call.advance, hs]
    rfl
  refine h.advance hp hc hadv hp' (by rw [hreg]; exact id) (.inl hreg) (by rw [hreg]; exact fun _ => id)
    (.inl ⟨pt', hc', ?_⟩) (h.stands_advance hc (shown?_of_isOpen hopen) hadv (by rw [hreg]) ?_)
  · rcases hpt' with hopen' | rfl
    · cases pt' <;> trivial
    · exact ⟨rfl, rfl, trivial⟩
  · intro v hv
    rw [hc'] at hv
    cases hv
    rcases hpt' with hopen' | rfl
    · exact shown?_of_isOpen hopen'
    · rfl

/-- the sink was told, and the caller returns the record -/
theorem Sharing.step_notifying {j : RecordId} {t : Bool} (hp : p.Reachable) (h : p₀.Sharing p q live i)
    (hk : p₀.calls.length ≤ k) (hc : p.call? k = some ⟨.request q report (.notifying j t), b⟩)
    (hready : b = true ∨ (Call.request q report (.notifying j t)).query p.registry = .nothing)
    (hadv : p.advance k (.request q report (.notifying j t)) reply = p') (hp' : p'.Reachable) :
    p₀.Sharing p' q live i := by
  obtain rfl : b = true := hready.resolve_right (by simp [Call.query])
  obtain ⟨report', pt, b', heq, hon⟩ := h.calls k _ hk hc
  cases heq
  obtain rfl : j = i := hon
  obtain ⟨hnew, hsole, happ, hres⟩ := h.stands.of_shown hk hc rfl
  have hresolved : (p.registry.record j).hasResolved q.moduleAlias = true := hres report t rfl
  have hreg : p'.registry = p.registry := hadv ▸ rfl
  have htold : p'.consulted = p.consulted := hadv ▸ consulted_advance ..
  have ho : p'.Returned k (.record j) := by
    rw [← hadv]
    exact returned_advance.2 (.inr ⟨rfl, rfl⟩)
  refine h.advance hp hc hadv hp' (by rw [hreg]; exact id) (.inl hreg) (by rw [hreg]; exact fun _ => id)
    (.inr ⟨ho, hreg ▸ hresolved⟩) (.done hnew ?_ (htold.trans happ) (hreg ▸ hresolved))
  intro l v hl hv
  by_contra hne
  have hlk : l ≠ k := by
    rintro rfl
    exact not_ended hv (hp'.settled.returned l _ ho)
  rw [← hadv, call?_advance hc, if_neg hlk] at hv
  exact hlk (hsole l v hl hv hne)

/-- while the alias's cell is empty and free nobody has the module made, and the alias is not resolved -/
theorem Sharing.resting_of_free (hp : p.Reachable) (h : p₀.Sharing p q live i) {cell : Nat}
    (hslot : (p.registry.record i).slots.lookup q.moduleAlias = some cell)
    (hcell : (p.registry.record i).cells[cell]? = some ⟨none, false⟩) :
    (∀ k u, p₀.calls.length ≤ k → p.call? k = some u → u.shown? = none) ∧ p.consulted = p₀.consulted ∧
      (p₀.registry.record i).hasResolved q.moduleAlias = false := by
  have hunresolved : (p.registry.record i).hasResolved q.moduleAlias = false := by
    rw [hasResolved_of_slot hslot]
    simp [Record.content?, hcell]
  cases h.stands with
  | resting hnone hsame hres => exact ⟨hnone, hsame, hres ▸ hunresolved⟩
  | done hnew hnone happ hres =>
    rw [hunresolved] at hres
    cases hres
  | @working k u told hnew hk hc hu hsole happ hres =>
    obtain ⟨report, pt, b, rfl, hon⟩ := h.calls k u hk hc
    cases pt with
    | resolving j pt =>
      obtain ⟨rfl, hclear, htied⟩ := hon
      cases pt with
      | asking cell' =>
        -- the cell that another caller has filled is busy
        obtain rfl : cell' = cell := Option.some.inj (htied.symm.trans hslot)
        have hbusy := hp.busy_cell ⟨_, hc, rfl⟩ rfl
        rw [hcell] at hbusy
        cases hbusy
      | _ => cases hu
    | notifying j t =>
      obtain rfl : j = i := hon
      rw [hunresolved] at hres
      exact absurd (hres report t rfl) (by simp)
    | _ => cases hu

section

variable {at? : LookupPoint}

/-- a caller takes a step of its resolution on the record -/
theorem Sharing.looks (hp : p.Reachable) (h : p₀.Sharing p q live i)
    (hc : p.call? k = some ⟨.request q report (.resolving i at?), b⟩)
    (hadv : p.advance k (.request q report (.resolving i at?)) reply = p') :
    ∃ n, Call.advanceLookup p.registry i q.moduleAlias { reply with now := p.now } at? = (p'.registry, n) ∧
      Call.Looks (p.registry.record i) q.moduleAlias { reply with now := p.now } at? (p'.registry.record i) n ∧
      p'.Follows k q report i at? n := by
  have hreg : p'.registry = (Call.advanceLookup p.registry i q.moduleAlias { reply with now := p.now } at?).1 := by
    rw [← hadv]
    exact Call.advance_registry_of_lookup? rfl
  refine ⟨_, Prod.ext hreg.symm rfl, ?_, hadv ▸ follows_advance hc reply⟩
  rw [hreg]
  exact Call.advanceLookup_looks p.registry (hp.sound.coherent.lt h.known.1) ..

/-- a caller goes on with its resolution, or returns the record; it removes no slot -/
theorem Sharing.advance_resolving (hp : p.Reachable) (h : p₀.Sharing p q live i)
    (hc : p.call? k = some ⟨.request q report (.resolving i at?), b⟩) (hclear : at?.isClearing = false)
    (hadv : p.advance k (.request q report (.resolving i at?)) reply = p') (hp' : p'.Reachable)
    (hmono : (p.registry.record i).hasResolved q.moduleAlias = true →
      (p'.registry.record i).hasResolved q.moduleAlias = true)
    (hself : (∃ pt', p'.call? k = some ⟨.request q report pt', false⟩ ∧
        pt'.On (p'.registry.record i) i q.moduleAlias) ∨
      p'.Returned k (.record i) ∧ (p'.registry.record i).hasResolved q.moduleAlias = true)
    (hstands : p₀.Stands p' q i) : p₀.Sharing p' q live i := by
  obtain ⟨n, hreg, hlooks, -⟩ := h.looks hp hc hadv
  refine h.advance hp hc hadv hp' hmono (.inr ⟨at?, n, hreg⟩) ?_ hself hstands
  intro cell hcell
  refine hlooks.lookup_self hcell ?_
  rintro why rfl
  cases hclear

/-- a caller that finds or opens the alias's slot, or has to wait -/
theorem Sharing.goes_on (hp : p.Reachable) (h : p₀.Sharing p q live i)
    (hc : p.call? k = some ⟨.request q report (.resolving i at?), b⟩)
    (hat : at? = .looking ∨ ∃ cell, at? = .trying cell)
    (hadv : p.advance k (.request q report (.resolving i at?)) reply = p') (hp' : p'.Reachable) (cell : Nat)
    (hc' : p'.call? k = some ⟨.request q report (.resolving i (.trying cell)), false⟩)
    (hslot : (p'.registry.record i).slots.lookup q.moduleAlias = some cell)
    (hres : (p'.registry.record i).hasResolved q.moduleAlias = (p.registry.record i).hasResolved q.moduleAlias) :
    p₀.Sharing p' q live i := by
  have hclear : at?.isClearing = false := by rcases hat with rfl | ⟨cell, rfl⟩ <;> rfl
  have hshown : (⟨.request q report (.resolving i at?), b⟩ : Underway).shown? = none := by
    rcases hat with rfl | ⟨cell, rfl⟩ <;> rfl
  refine h.advance_resolving hp hc hclear hadv hp' (fun hr => hres.trans hr) (.inl ⟨_, hc', rfl, rfl, hslot⟩)
    (h.stands_advance hc hshown hadv hres ?_)
  intro v hv
  rw [hc'] at hv
  cases hv
  rfl

theorem Sharing.step_looking (hp : p.Reachable) (h : p₀.Sharing p q live i)
    (hc : p.call? k = some ⟨.request q report (.resolving i .looking), b⟩)
    (hadv : p.advance k (.request q report (.resolving i .looking)) reply = p') (hp' : p'.Reachable) :
    p₀.Sharing p' q live i := by
  obtain ⟨n, -, hlooks, hf⟩ := h.looks hp hc hadv
  have hgoes := h.goes_on hp hc (.inl rfl) hadv hp'
  generalize p.registry.record i = r at hlooks hgoes
  generalize p'.registry.record i = r' at hlooks hgoes
  cases hlooks with
  | found hslot => exact hgoes _ hf hslot rfl
  | opened hnone =>
    refine hgoes _ hf (by simp [List.lookup_append, hnone]) ?_
    simp [Record.hasResolved, Record.module?, List.lookup_append, hnone, Record.content?]

/-- a caller that looks into the alias's cell finds the module, waits for the caller that fills the cell, or comes to
be that caller -/
theorem Sharing.step_trying {cell : Nat} (hp : p.Reachable) (h : p₀.Sharing p q live i)
    (hk : p₀.calls.length ≤ k) (hc : p.call? k = some ⟨.request q report (.resolving i (.trying cell)), b⟩)
    (hslot : (p.registry.record i).slots.lookup q.moduleAlias = some cell)
    (hadv : p.advance k (.request q report (.resolving i (.trying cell))) reply = p') (hp' : p'.Reachable)
    (hmono : (p.registry.record i).hasResolved q.moduleAlias = true →
      (p'.registry.record i).hasResolved q.moduleAlias = true) : p₀.Sharing p' q live i := by
  obtain ⟨n, -, hlooks, hf⟩ := h.looks hp hc hadv
  have hgoes := h.goes_on hp hc (.inr ⟨cell, rfl⟩) hadv hp' cell
  have hself := h.advance_resolving hp hc rfl hadv hp' hmono
  have hfree := h.resting_of_free hp hslot
  have hkeep := h.stands_advance hc rfl hadv
  have hlive := hp.sound.coherent.not_undeployed h.known.1
  have hcall := call?_advance hc reply
  have htold : p'.consulted = p.consulted := hadv ▸ consulted_advance ..
  rw [hadv] at hcall
  generalize p.registry.record i = r at *
  generalize p'.registry.record i = r' at *
  cases hlooks with
  | missing => exact hgoes hf hslot rfl
  | busy => exact hgoes hf hslot rfl
  | full hcell =>
    have hres : r.hasResolved q.moduleAlias = true := by
      rw [hasResolved_of_slot hslot, hcell]
      rfl
    refine hself (.inr ⟨hf, hres⟩) (hkeep rfl ?_)
    intro v hv
    exact absurd (hp'.settled.returned k _ hf) (not_ended hv)
  | gone hcell hu => rw [hlive] at hu; cases hu
  | ask hcell =>
    obtain ⟨hnone, hsame, hnew⟩ := hfree hcell
    have hc' : p'.call? k = some ⟨.request q report (.resolving i (.asking cell)), false⟩ := hf
    refine hself (.inl ⟨_, hc', rfl, rfl, hslot⟩) (.working hnew hk hc' rfl ?_ (by simp [htold, hsame]) ?_)
    · intro j v hj hv hne
      by_contra hjk
      rw [hcall, if_neg hjk] at hv
      exact hne (hnone j v hj hv)
    · intro report' t heq
      cases heq

/-- the context has resolved the alias, and the caller comes to tell the sink -/
theorem Sharing.step_asking {cell : Nat} (hp : p.Reachable) (h : p₀.Sharing p q live i)
    (hk : p₀.calls.length ≤ k) (hc : p.call? k = some ⟨.request q report (.resolving i (.asking cell)), b⟩)
    (hslot : (p.registry.record i).slots.lookup q.moduleAlias = some cell) (hx : ∃ x, reply.module = .ok x)
    (hready : b = true ∨ (Call.request q report (.resolving i (.asking cell))).query p.registry = .nothing)
    (hadv : p.advance k (.request q report (.resolving i (.asking cell))) reply = p') (hp' : p'.Reachable)
    (hmono : (p.registry.record i).hasResolved q.moduleAlias = true →
      (p'.registry.record i).hasResolved q.moduleAlias = true) : p₀.Sharing p' q live i := by
  obtain rfl : b = true := hready.resolve_right (by simp [Call.query, Call.lookupQuery])
  obtain ⟨hnew, hsole, happ, -⟩ := h.stands.of_shown hk hc rfl
  obtain ⟨n, -, hlooks, hf⟩ := h.looks hp hc hadv
  have hself := h.advance_resolving hp hc rfl hadv hp' hmono
  have hbusy := hp.busy_cell ⟨_, hc, rfl⟩ rfl
  have hcall := call?_advance hc reply
  have htold : p'.consulted = p.consulted := hadv ▸ consulted_advance ..
  rw [hadv] at hcall
  generalize p.registry.record i = r at *
  generalize hr' : p'.registry.record i = r' at *
  cases hlooks with
  | @made _ x hmod =>
    have hres : (r.setCell cell ⟨some x, false⟩).hasResolved q.moduleAlias = true := by
      have hlt := (List.getElem?_eq_some_iff.1 hbusy).1
      have hslot' : (r.setCell cell ⟨some x, false⟩).slots.lookup q.moduleAlias = some cell := hslot
      rw [hasResolved_of_slot hslot']
      simp [Record.content?, Record.setCell, hlt]
    have hc' : p'.call? k = some ⟨.request q report (.notifying i x.isTask), false⟩ := hf
    refine hself (.inl ⟨_, hc', rfl⟩) (.working hnew hk hc' rfl ?_ (htold.trans happ) fun _ _ _ => hr' ▸ hres)
    intro j v hj hv hne
    by_contra hjk
    rw [hcall, if_neg hjk] at hv
    exact hjk (hsole j v hj hv hne)
  | refused hwhy =>
    obtain ⟨x, hx⟩ := hx
    rw [hx] at hwhy
    cases hwhy

end

/-- putting its query shows one thing more of the caller that has the module made, and nothing of the others -/
theorem shown?_pose {c : Call} {told : List Query} (g : Registry) (h : (⟨c, false⟩ : Underway).shown? = some told) :
    (⟨c, true⟩ : Underway).shown? = some (told ++ [c.query g]) ∧
      Mark.consulted? (.asked (c.query g)) = some (c.query g) := by
  unfold Underway.shown? at h
  split at h
  · rename_i heq
    simp only at heq
    subst heq
    cases h
    exact ⟨rfl, rfl⟩
  · rename_i heq
    simp only at heq
    subst heq
    cases h
    exact ⟨rfl, rfl⟩
  · cases h

theorem not_shown_pose (g : Registry) (h : (⟨.request q report pt, false⟩ : Underway).shown? = none) :
    (⟨.request q report pt, true⟩ : Underway).shown? = none ∧
      Mark.consulted? (.asked ((Call.request q report pt).query g)) = none := by
  cases pt with
  | resolving j at? =>
    cases at? with
    | asking cell => cases h
    | _ => exact ⟨rfl, rfl⟩
  | notifying j t => cases h
  | _ => exact ⟨rfl, rfl⟩

theorem consulted_pose (p : Pool) (k : Nat) (c : Call) :
    (p.pose k c).consulted = p.consulted ++ (Mark.consulted? (.asked (c.query p.registry))).toList :=
  marks_pose p k c Mark.consulted?

/-- a caller puts its query: to the membership, or as the one that has the module made -/
theorem Sharing.stands_pose (h : p₀.Sharing p q live i) (hk : p₀.calls.length ≤ k)
    (hc : p.call? k = some ⟨.request q report pt, false⟩) : p₀.Stands (p.pose k (.request q report pt)) q i := by
  have hcall := call?_pose hc (.request q report pt)
  have htold := consulted_pose p k (.request q report pt)
  cases hshown : (⟨.request q report pt, false⟩ : Underway).shown? with
  | none =>
    obtain ⟨hnone, hview⟩ := not_shown_pose p.registry hshown
    rw [hview] at htold
    refine h.stands.keep (by simpa using htold) rfl ?_ ?_
    · intro j v hv hne
      rw [hcall] at hv
      split at hv
      · cases hv
        exact absurd hnone hne
      · exact hv
    · intro j v hv hne
      rw [hcall, if_neg]
      · exact hv
      · rintro rfl
        rw [hc] at hv
        cases hv
        exact hne hshown
  | some told =>
    obtain ⟨hshown', hview⟩ := shown?_pose p.registry hshown
    obtain ⟨hnew, hsole, happ, hres⟩ := h.stands.of_shown hk hc hshown
    rw [hview] at htold
    refine .working hnew hk (by rw [hcall, if_pos rfl]) hshown' ?_ (by simp [htold, happ]) ?_
    · intro j v hj hv hne
      by_contra hjk
      rw [hcall, if_neg hjk] at hv
      exact hjk (hsole j v hj hv hne)
    · intro report' t heq
      exact hres report' t heq

/-- a move of one of the callers leaves all of them with the record -/
theorem Sharing.step (hp : p.Reachable) (h : p₀.Sharing p q live i) (hm : m.Joins q live p₀.calls.length) :
    p₀.Sharing (p.step m) q live i := by
  have hp' := hp.step m
  have hmono : (p.registry.record i).hasResolved q.moduleAlias = true →
      ((p.step m).registry.record i).hasResolved q.moduleAlias = true := fun hr => hasResolved_run hp hr [m]
  have hj := joined_step p hm
  generalize p.step m = p' at hj hp' hmono
  cases hj with
  | aside ha hi =>
    have hrecord := ha.record i
    refine ⟨h.alive, ha.stopped.trans h.unstopped, hi.registry.known.2 h.known, ?_, ?_, ?_, ?_⟩
    · rw [made_of_length hp hp' hi.registry.length]
      exact h.born
    · intro k u hk hc
      rw [hrecord]
      exact h.calls k u hk (ha.call? k ▸ hc)
    · intro k o hk ho
      rw [hrecord]
      exact h.returned k o hk (ha.returned.1 ho)
    · exact h.stands.keep hi.consulted (by rw [hrecord]) (fun j v hv _ => ha.call? j ▸ hv)
        fun j v hv _ => (ha.call? j).trans hv
  | enter report =>
    have hcall := call?_enter p (.request q report .entering)
    refine ⟨h.alive, h.unstopped, h.known, h.born, ?_, h.returned, h.stands.keep rfl rfl ?_ ?_⟩
    · intro k u hk hc
      rw [hcall] at hc
      split at hc
      · cases hc
        exact ⟨report, .entering, false, rfl, trivial⟩
      · exact h.calls k u hk hc
    · intro j v hv hne
      rw [hcall] at hv
      split at hv
      · cases hv
        exact absurd rfl hne
      · exact hv
    · intro j v hv _
      rw [hcall, if_neg (lt_of_call? hv).ne]
      exact hv
  | @ask k c hk hc hq =>
    obtain ⟨report, pt, b, heq, hon⟩ := h.calls k _ hk hc
    cases heq
    refine ⟨h.alive, h.unstopped, h.known, ?_, ?_, ?_, h.stands_pose hk hc⟩
    · rw [made_of_length hp hp' rfl]
      exact h.born
    · intro j v hj hv
      rw [call?_pose hc] at hv
      split at hv
      · cases hv
        exact ⟨report, pt, true, rfl, hon⟩
      · exact h.calls j v hj hv
    · intro j o hj ho
      exact h.returned j o hj (returned_pose.1 ho)
  | @step k u reply hk hl hx hc hready hlock =>
    obtain ⟨report, pt, b, rfl, hon⟩ := h.calls k u hk hc
    cases pt with
    | resolving j at? =>
      obtain ⟨rfl, hclear, htied⟩ := hon
      cases at? with
      | looking => exact h.step_looking hp hc rfl hp'
      | trying cell => exact h.step_trying hp hk hc htied rfl hp' hmono
      | asking cell => exact h.step_asking hp hk hc htied hx hready rfl hp' hmono
      | clearing why => cases hclear
    | notifying j t => exact h.step_notifying hp hk hc hready rfl hp'
    | _ => exact h.step_open hp hc rfl hl rfl hp'

/-- nothing has happened yet, or all callers share one record -/
def Together (p₀ p : Pool) (q : Request) (live : Bool) : Prop :=
  p₀.Undecided p q live ∨ ∃ i, p₀.Sharing p q live i

theorem Together.step (hp₀ : p₀.Reachable) (hp : p.Reachable) (h : p₀.Together p q live)
    (hm : m.Joins q live p₀.calls.length) : p₀.Together (p.step m) q live := by
  rcases h with h | ⟨i, h⟩
  · exact h.step hp₀ hp hm
  · exact .inr ⟨i, h.step hp hm⟩

theorem Together.run (hp₀ : p₀.Reachable) (hp : p.Reachable) (h : p₀.Together p q live) {ms : List Move}
    (hms : ∀ m ∈ ms, m.Joins q live p₀.calls.length) : p₀.Together (p.run ms) q live := by
  induction ms generalizing p with
  | nil => exact h
  | cons m ms ih =>
    apply ih (hp.step m) (h.step hp₀ hp (hms m List.mem_cons_self))
    intro m' hm'
    exact hms m' (List.mem_cons_of_mem _ hm')

theorem together_run (hp : p.Reachable) {ms : List Move} (hms : ∀ m ∈ ms, m.Joins q live p.calls.length) :
    p.Together (p.run ms) q live :=
  Together.run hp hp (.inl (undecided_refl hp q live)) hms

theorem Together.calls (h : p₀.Together p q live) (hk : p₀.calls.length ≤ k) (hc : p.call? k = some u) :
    ∃ report pt b, u = ⟨.request q report pt, b⟩ := by
  rcases h with h | ⟨i, h⟩
  · obtain ⟨report, pt, b, heq, -⟩ := h.calls k u hk hc
    exact ⟨report, pt, b, heq⟩
  · obtain ⟨report, pt, b, heq, -⟩ := h.calls k u hk hc
    exact ⟨report, pt, b, heq⟩

end Pool

end Redeploy
