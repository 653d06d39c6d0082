/-
Evictions: a record that is pending undeploy has exactly one that is outstanding.

An eviction is ordered when a record becomes pending. It waits until it is due, begins, and takes the record out once it
has the lock. Nothing calls it off: where the record goes in another way, the eviction finds it undeployed and does
nothing. So the law is about records that are not undeployed, and `outstanding` counts an eviction until it has had its
turn.

Results:
- `state_advance`: only an installation changes the state of a record that is not undeployed afterwards;
- `Timed`, `timed_step`: the law, and that every move keeps it;
- `Scheduled`, `Scheduled.step`: an ordered eviction stays, begins when it is due, and ends with its record undeployed;
- `becomes_pending`: records become pending by an installation, which orders the one eviction;
- **`pending_iff_one_eviction`**: the law for every cached record; with evictions carried out when they are due a record
  is gone once the network timeout has passed since it became pending, and no eviction takes it out before its deadline.
-/
import Redeploy.Proofs.Supersession
import Redeploy.Proofs.Teardown

namespace Redeploy

open Registry

/-- the record that the call is about to evict -/
def Underway.evicts (u : Underway) : List RecordId :=
  match u.call with
  | .removal (.expiry i) _ .starting => [i]
  | _ => []

/-! ## States -/

/-- an eviction has the record undeployed, whatever it was before, and changes no other -/
theorem Registry.record_expire {g : Registry} {i : RecordId} (hi : i < g.records.length) (j : RecordId) :
    (g.expire i).1.record j = if j = i then { g.record i with state := .undeployed } else g.record j := by
  unfold expire
  split
  · rename_i r hr
    obtain ⟨-, rfl⟩ := Record.advanceTo?_eq_some.1 hr
    show (g.modify i fun _ => { g.record i with state := .undeployed }).record j = _
    by_cases hj : j = i
    · subst hj
      rw [record_modify_self _ hi, if_pos rfl]
    · rw [record_modify_of_ne _ (Ne.symm hj), if_neg hj]
  · rename_i hr
    have hu : (g.record i).state = .undeployed := by
      simpa [Record.isUndeployed] using Record.rank_undeployed_le.1 (Record.advanceTo?_eq_none.1 hr)
    split
    · rename_i hj
      rw [hj, ← hu]
    · rfl

namespace Call

/-- a removal leaves the state of all records that it does not take out -/
theorem state_takes {g : Registry} (hg : g.Coherent) {c : Cause} (hc : ∀ i, c = .expiry i → i < g.records.length)
    (p : RemovalPoint) {i : RecordId} (h : ((takes g c p).1.record i).isUndeployed = false) :
    ((takes g c p).1.record i).state = (g.record i).state := by
  have hdrain {g : Registry} (hg : g.Coherent) (p : RecordId → Record → Bool)
      (h : ((g.drain p).1.record i).isUndeployed = false) : ((g.drain p).1.record i).state = (g.record i).state := by
    rw [record_drain hg] at h ⊢
    split at h
    · cases h
    · rename_i hi
      rw [if_neg hi]
  cases p with
  | starting =>
    cases c with
    | expiry j =>
      simp only [takes, drainFor, record_expire (hc j rfl)] at h ⊢
      split at h
      · cases h
      · rename_i hi
        rw [if_neg hi]
    | sweep reason => rfl
    | stop =>
      have hflags : Evolves g { g with stopped := true, cancelled := true } 0 [] [] :=
        evolves_flags hg (List.Perm.refl _) rfl
      exact hdrain hflags.coherent _ h
    | _ => exact hdrain hg _ h
  | checking left gone => exact hdrain hg _ h
  | _ => rfl

/-- only an installation changes the state of a record that is not undeployed afterwards -/
theorem state_advance {g : Registry} (hg : g.Coherent) (reply : Reply) {c : Call}
    (hc : ∀ i ∈ c.names, i < g.records.length)
    (hf : ∀ q report v, c = .request q report .deciding → g.decide q reply.now ≠ .ok (.fresh v)) {i : RecordId}
    (h : ((advance g reply c).registry.record i).isUndeployed = false) :
    ((advance g reply c).registry.record i).state = (g.record i).state := by
  have hlook {j : RecordId} {a : String} {p : LookupPoint} {g' : Registry} {n : LookupStep}
      (heq : advanceLookup g j a reply p = (g', n)) : (g'.record i).state = (g.record i).state := by
    obtain ⟨f, rfl, -, hs, -⟩ := lookup_modifies heq
    exact record_modify_congr g j i Record.state hs
  cases c with
  | request q report p =>
    have hr := advanceRequest_requests g q report reply p
    simp only [advance]
    generalize advanceRequest g q report reply p = s at hr
    cases hr with
    | fresh hd => exact absurd hd (hf q report _ rfl)
    | look heq => exact hlook heq
    | wait heq => exact hlook heq
    | made heq => exact hlook heq
    | found heq => exact hlook heq
    | unresolved heq => exact hlook heq
    | _ => rfl
  | lookup j a p =>
    rw [lookup_registry]
    exact hlook rfl
  | removal cause total p =>
    obtain ⟨gone, claimed, hr⟩ := advanceRemoval_removes g cause total reply p
    simp only [advance] at h ⊢
    generalize advanceRemoval g cause total reply p = s at h hr
    cases hr with
    | drain hp hb =>
      rw [tearDown_registry] at h ⊢
      exact state_takes hg (fun j hj => hc j (by rw [hj]; exact List.mem_cons_self)) p h
    | claim hp hr hb => exact record_modify_congr g _ i Record.state rfl
    | skip hp hr hb => rw [tearDown_registry]
    | next hb => rw [tearDown_registry]
    | _ => rfl
  | start checked => cases checked <;> simp only [advance] <;> split <;> rfl

/-- a call that evicts has its record undeployed -/
theorem undeployed_of_evicts {g : Registry} (reply : Reply) {u : Underway}
    (hc : ∀ i ∈ u.call.names, i < g.records.length) {i : RecordId} (h : i ∈ u.evicts) :
    ((advance g reply u.call).registry.record i).isUndeployed = true := by
  unfold Underway.evicts at h
  split at h
  · rename_i j total hu
    obtain rfl := List.mem_singleton.1 h
    have hi : i < g.records.length := hc i (by rw [hu]; exact List.mem_cons_self)
    simp only [hu, advance, advanceRemoval, tearDown_registry, drainFor, record_expire hi, if_true]
    rfl
  · cases h

/-- a removal that asks about senders is a sweep, or it was asking before -/
theorem sweep_of_checking {g : Registry} {reply : Reply} {c : Call} {cause : Cause} {total : Nat}
    {left gone : List RecordId}
    (h : ∀ total left gone, c = .removal cause total (.checking left gone) → ∃ reason, cause = .sweep reason)
    (hn : (advance g reply c).next = .go (.removal cause total (.checking left gone))) :
    ∃ reason, cause = .sweep reason := by
  cases c with
  | request q report p =>
    obtain ⟨p', hp⟩ := (advanceRequest_requests g q report reply p).stays hn
    cases hp
  | lookup i a p =>
    obtain ⟨p', hp⟩ := lookup_stays hn
    cases hp
  | start checked => cases checked <;> simp only [advance] at hn <;> split at hn <;> cases hn
  | removal cause' total' p =>
    obtain ⟨gone', claimed, hr⟩ := advanceRemoval_removes g cause' total' reply p
    have htear {g' : Registry} {total'' : Nat} {before : List Effect} {queue : List RecordId}
        (h : (tearDown g' cause' total'' before queue).next = .go (.removal cause total (.checking left gone))) :
        False := by
      have := tearDown_next h
      cases this
    simp only [advance] at hn
    generalize advanceRemoval g cause' total' reply p = s at hn hr
    cases hr with
    | check hp hb =>
      cases hn
      rcases hp with ⟨-, hreason⟩ | ⟨left', gone', rfl⟩
      · exact hreason
      · exact h _ _ _ rfl
    | drain hp hb => exact (htear hn).elim
    | skip hp hr hb => exact (htear hn).elim
    | next hb => exact (htear hn).elim
    | _ => cases hn

/-- no call comes to a point where it is about to evict: it begins there -/
theorem evicts_next {g : Registry} {reply : Reply} {c : Call} :
    ((advance g reply c).next.underway? c).elim [] Underway.evicts = [] := by
  cases hn : (advance g reply c).next with
  | done o => rfl
  | wait =>
    obtain ⟨i, a, p, hl, -⟩ := lookup?_wait hn
    cases c with
    | removal cause total pt => cases hl
    | _ => rfl
  | go c' =>
    show Underway.evicts { call := c' } = []
    cases c with
    | request q report p =>
      obtain ⟨p', rfl⟩ := (advanceRequest_requests g q report reply p).stays hn
      rfl
    | lookup i a p =>
      obtain ⟨p', rfl⟩ := lookup_stays hn
      rfl
    | start checked => cases checked <;> simp only [advance] at hn <;> split at hn <;> cases hn <;> rfl
    | removal cause total p =>
      obtain ⟨gone, claimed, hr⟩ := advanceRemoval_removes g cause total reply p
      have htear {g' : Registry} {total' : Nat} {before : List Effect} {queue : List RecordId}
          (h : (tearDown g' cause total' before queue).next = .go c') : Underway.evicts { call := c' } = [] := by
        rw [tearDown_next h]
        cases cause <;> rfl
      simp only [advance] at hn
      generalize advanceRemoval g cause total reply p = s at hn hr
      cases hr with
      | drain hp hb => exact htear hn
      | skip hp hr hb => exact htear hn
      | next hb => exact htear hn
      | _ => cases hn; cases cause <;> rfl

end Call

namespace Pool

/-! ## Outstanding evictions -/

/-- records whose eviction has begun and has not had its turn -/
def begun (p : Pool) : List RecordId := p.calls.flatMap fun u => u.elim [] Underway.evicts

/-- the records of all evictions that were ordered and have not had their turn -/
def outstanding (p : Pool) : List RecordId := p.evictions.map Prod.fst ++ p.begun

/-- a record that is not undeployed has one eviction outstanding if it is pending, and none if it is active -/
def Timed (p : Pool) : Prop :=
  ∀ i, (p.registry.record i).isUndeployed = false →
    p.outstanding.count i = (p.registry.record i).isPendingUndeploy.toNat

theorem begun_enter (p : Pool) (c : Call) : (p.enter c).begun = p.begun ++ Underway.evicts { call := c } := by
  simp [begun, Pool.enter]

theorem begun_pose {p : Pool} {k : Nat} {c : Call} (hc : p.call? k = some ⟨c, false⟩) (i : RecordId) :
    (p.pose k c).begun.count i = p.begun.count i := by
  have h := count_flatMap_set (f := Underway.evicts) (call?_eq_some.1 hc) (some ⟨c, true⟩) i
  rw [show Underway.evicts ⟨c, false⟩ = Underway.evicts ⟨c, true⟩ from rfl] at h
  exact Nat.add_right_cancel h

/-- a call that was about to evict has had its turn after a step of it -/
theorem begun_advance {p : Pool} {k : Nat} {u : Underway} (hc : p.call? k = some u) (reply : Reply) (i : RecordId) :
    (p.advance k u.call reply).begun.count i + u.evicts.count i = p.begun.count i := by
  have h := count_flatMap_set (f := Underway.evicts) (call?_eq_some.1 hc)
    ((u.call.advance p.registry { reply with now := p.now }).next.underway? u.call) i
  rw [Call.evicts_next, List.count_nil, Nat.add_zero] at h
  exact h

theorem evicts_of_isNew {g : Registry} {c : Call} (h : c.IsNew g = true) : Underway.evicts { call := c } = [] := by
  unfold Call.IsNew at h
  split at h
  · rfl
  · rfl
  · cases h
  · cases h
  · rename_i cause hne _
    cases cause with
    | expiry i => exact absurd rfl (hne i)
    | _ => rfl
  · rfl
  · cases h

/-- the evictions that an admitted request orders for a record: one if the record becomes pending -/
theorem count_orders {g : Registry} (hg : g.Coherent) (q : Request) (now : Nat) (clock : Timestamp)
    (i : RecordId) (h : (g.record i).isUndeployed = false) :
    ((g.orders q now).map Prod.fst).count i + (g.record i).isPendingUndeploy.toNat =
      ((g.install q (g.verdict q now) now clock).1.record i).isPendingUndeploy.toNat := by
  have hn := @nodup_verdict g q now hg
  have hact := @verdict_active g q now hg
  have hcount : ((g.orders q now).map Prod.fst).count i =
      (g.verdict q now).superseded.count i +
        (if (g.verdict q now).grace = 0 then ([] : List RecordId) else [g.records.length]).count i := by
    simp only [orders, List.map_append, List.map_map, List.count_append, Function.comp_def, List.map_id']
    split <;> rfl
  rw [hcount]
  rcases lt_trichotomy i g.records.length with hi | rfl | hi
  · have hlate : (if (g.verdict q now).grace = 0 then ([] : List RecordId) else [g.records.length]).count i = 0 := by
      split <;> simp [hi.ne']
    rw [hlate, record_install_of_lt hn hact hi]
    by_cases hs : i ∈ (g.verdict q now).superseded
    · have hactive : (g.record i).state = .active := by simpa [Record.isActive] using (hact i hs).2
      rw [List.count_eq_one_of_mem hn hs, if_pos hs]
      simp [Record.isPendingUndeploy, hactive]
    · rw [List.count_eq_zero_of_not_mem hs, if_neg hs, Nat.add_zero, Nat.zero_add]
  · have hnot : g.records.length ∉ (g.verdict q now).superseded := fun h => lt_irrefl _ (hact _ h).1
    have hnone : (default : Record).isPendingUndeploy = false := rfl
    rw [List.count_eq_zero_of_not_mem hnot, record_install_new, record_eq_default le_rfl, hnone]
    by_cases hz : (g.verdict q now).grace = 0
    · simp only [hz, newcomer, Record.isPendingUndeploy, if_true]
      rfl
    · simp [hz, newcomer, Record.isPendingUndeploy]
  · have hnot : i ∉ (g.verdict q now).superseded := fun h => lt_asymm hi (hact _ h).1
    rw [List.count_eq_zero_of_not_mem hnot, record_eq_default hi.le, record_eq_default (by rw [length_install]; exact hi)]
    split <;> simp [hi.ne]

/-- a step admits a request, or orders no eviction and leaves the state of every record that is not undeployed then -/
theorem admits_or_keeps {p : Pool} (hs : p.Sound) {k : Nat} {u : Underway} (hc : p.call? k = some u) (reply : Reply) :
    (∃ q report, u.call = .request q report .deciding ∧ p.registry.Admits q p.now ∧
        (p.advance k u.call reply).registry =
          (p.registry.install q (p.registry.verdict q p.now) p.now reply.clock).1 ∧
        (p.advance k u.call reply).evictions = p.evictions ++ p.registry.orders q p.now) ∨
      (p.advance k u.call reply).evictions = p.evictions ∧
        ∀ i, ((p.advance k u.call reply).registry.record i).isUndeployed = false →
          ((p.advance k u.call reply).registry.record i).state = (p.registry.record i).state := by
  by_cases hf : ∃ q report v, u.call = .request q report .deciding ∧ p.registry.decide q p.now = .ok (.fresh v)
  · obtain ⟨q, report, v, hu, hd⟩ := hf
    obtain ⟨hadm, rfl⟩ := (decide_eq_fresh_iff hs.coherent).1 hd
    have hadv := @Call.advance_fresh p.registry q report { reply with now := p.now } _ hd
    rw [hu]
    exact .inl ⟨q, report, rfl, hadm, by simp only [Pool.advance, hadv],
      by simp only [Pool.advance, hadv, evictions_install hs.coherent]⟩
  · have hquiet : ∀ q report v, u.call = .request q report .deciding → p.registry.decide q p.now ≠ .ok (.fresh v) :=
      fun q report v hu hd => hf ⟨q, report, v, hu, hd⟩
    refine .inr ⟨?_, fun i => Call.state_advance hs.coherent { reply with now := p.now } (hs.named k u hc) hquiet⟩
    obtain ⟨born, gone, claimed, hd⟩ := hs.does hc reply
    have hrest : AtRest (u.call.advance p.registry { reply with now := p.now }).effects := by
      generalize u.call.advance p.registry { reply with now := p.now } = s at hd
      generalize u.call = c at hd hquiet
      cases hd with
      | found ha => exact absurd ((decide_eq_fresh_iff hs.coherent).2 ⟨ha, rfl⟩) (hquiet _ _ _ rfl)
      | remove hr => exact hr.rest
      | other hc he hb hn => exact hb
    simp only [Pool.advance, evictions_rest hrest, List.append_nil]

/-- a step of a call keeps the law -/
theorem timed_advance {p : Pool} (h : p.Timed) (hs : p.Sound) {k : Nat} {u : Underway} (hc : p.call? k = some u)
    (reply : Reply) : (p.advance k u.call reply).Timed := by
  intro i hi
  have hbegun := begun_advance hc reply i
  obtain ⟨born, gone, claimed, hd⟩ := hs.does hc reply
  have hold : (p.registry.record i).isUndeployed = false := by
    by_contra hu
    have hu' := ((hd.evolves hs.coherent (hs.named k u hc)).undeployed i).2 (.inl (by simpa using hu))
    rw [show ((p.advance k u.call reply).registry.record i).isUndeployed = true from hu'] at hi
    cases hi
  have hlaw := h i hold
  simp only [outstanding, List.count_append] at hlaw ⊢
  rcases admits_or_keeps hs hc reply with ⟨q, report, hu, hadm, hreg, hevs⟩ | ⟨hevs, hstate⟩
  · have hnone : u.evicts = [] := by simp [Underway.evicts, hu]
    have hcount := count_orders hs.coherent q p.now reply.clock i hold
    rw [hevs, hreg, List.map_append, List.count_append, ← hcount]
    rw [hnone, List.count_nil] at hbegun
    omega
  · -- the call was not about to evict this record, or it would be undeployed now
    have hnot : u.evicts.count i = 0 := by
      refine List.count_eq_zero.2 fun hmem => ?_
      have hgone := Call.undeployed_of_evicts { reply with now := p.now } (hs.named k u hc) hmem
      rw [show ((p.advance k u.call reply).registry.record i).isUndeployed = true from hgone] at hi
      cases hi
    rw [hevs, show ((p.advance k u.call reply).registry.record i).isPendingUndeploy =
      (p.registry.record i).isPendingUndeploy by simp only [Record.isPendingUndeploy, hstate i hi]]
    omega

theorem timed_step {p : Pool} (h : p.Timed) (hs : p.Sound) (m : Move) : (p.step m).Timed := by
  have hm := step_moved p m
  generalize p.step m = p' at hm
  cases hm with
  | enter hc =>
    intro i hi
    rw [outstanding, begun_enter, evicts_of_isNew hc, List.append_nil]
    exact h i hi
  | ask hc hq =>
    intro i hi
    rw [outstanding, List.count_append, begun_pose hc, ← List.count_append]
    exact h i hi
  | step hc hready hlock => exact timed_advance h hs hc _
  | @evict k i due he hdue =>
    -- the eviction has only gone from those that wait to those that have begun
    intro j hj
    have hperm : ((i, due) :: p.evictions.eraseIdx k).Perm p.evictions := by
      obtain ⟨hlt, hget⟩ := List.getElem?_eq_some_iff.1 he
      rw [← hget]
      exact List.getElem_cons_eraseIdx_perm hlt
    have hcount := (hperm.map Prod.fst).count_eq j
    have hlaw := h j hj
    simp only [outstanding, List.count_append, List.map_cons, List.count_cons] at hcount hlaw ⊢
    rw [begun_enter, List.count_append]
    show ((p.evictions.eraseIdx k).map Prod.fst).count j + (p.begun.count j + [i].count j) =
      (p.registry.record j).isPendingUndeploy.toNat
    rw [List.count_singleton]
    omega
  | aside hm ha =>
    intro i hi
    rw [ha.record] at hi ⊢
    simp only [outstanding, begun, ha.evictions, ha.calls]
    exact h i hi
  | idle => exact h

theorem Reachable.timed {p : Pool} (hp : p.Reachable) : p.Timed :=
  hp.induct (fun timeout i _ => by rw [record_eq_default (Nat.zero_le i)]; rfl) fun _ m hr h => timed_step h hr.sound m

/-! ## Deadlines -/

/-- the eviction of the record for that moment waits, or has begun after it, or the record is gone -/
def Scheduled (p : Pool) (i : RecordId) (due : Nat) : Prop :=
  (i, due) ∈ p.evictions ∨ i ∈ p.begun ∧ due ≤ p.now ∨ (p.registry.record i).isUndeployed = true

theorem now_step (p : Pool) (m : Move) : p.now ≤ (p.step m).now := by
  have hm := step_moved p m
  generalize p.step m = p' at hm
  cases hm with
  | aside hm ha => exact ha.now
  | _ => exact le_rfl

theorem Scheduled.step {p : Pool} (hs : p.Sound) {i : RecordId} {due : Nat} (h : p.Scheduled i due) (m : Move) :
    (p.step m).Scheduled i due := by
  rcases h with hwait | ⟨hbegun, hdue⟩ | hgone
  · have hm := step_moved p m
    generalize p.step m = p' at hm
    cases hm with
    | step hc hready hlock => exact .inl (List.mem_append_left _ hwait)
    | @evict k j due' he hnow =>
      -- either this very eviction begins, or it goes on waiting
      obtain ⟨k', hk'⟩ := List.mem_iff_getElem?.1 hwait
      by_cases hk : k' = k
      · subst hk
        rw [he] at hk'
        cases hk'
        refine .inr (.inl ⟨?_, hnow⟩)
        rw [begun_enter]
        exact List.mem_append_right _ List.mem_cons_self
      · exact .inl (List.mem_eraseIdx_iff_getElem?.2 ⟨k', hk, hk'⟩)
    | aside hm ha => exact .inl (by rw [ha.evictions]; exact hwait)
    | _ => exact .inl hwait
  · have hlater := hdue.trans (now_step p m)
    have hm := step_moved p m
    generalize p.step m = p' at hm hlater
    have hsame (h : p'.begun.count i = p.begun.count i) : p'.Scheduled i due :=
      .inr (.inl ⟨List.count_pos_iff.1 (by rw [h]; exact List.count_pos_iff.2 hbegun), hlater⟩)
    cases hm with
    | enter hc => exact hsame (by rw [begun_enter, evicts_of_isNew hc, List.append_nil])
    | ask hc hq => exact hsame (begun_pose hc i)
    | @step k u reply hc hready hlock =>
      by_cases hev : i ∈ u.evicts
      · exact .inr (.inr (Call.undeployed_of_evicts _ (hs.named k u hc) hev))
      · have hcount := begun_advance hc reply i
        rw [List.count_eq_zero_of_not_mem hev, Nat.add_zero] at hcount
        exact hsame hcount
    | evict he hnow =>
      refine .inr (.inl ⟨?_, hlater⟩)
      rw [begun_enter]
      exact List.mem_append_left _ hbegun
    | aside hm ha => exact hsame (by simp only [begun, ha.calls])
    | idle => exact hsame rfl
  · exact .inr (.inr (undeployed_step hs hgone m))

theorem Scheduled.run {p : Pool} (hp : p.Reachable) {i : RecordId} {due : Nat} (h : p.Scheduled i due)
    (ms : List Move) : (p.run ms).Scheduled i due := by
  induction ms using List.reverseRecOn with
  | nil => exact h
  | append_singleton ms m ih =>
    rw [run_append]
    exact ih.step (hp.run ms).sound m

/-- the record becomes pending by the move -/
def BecomesPending (p : Pool) (m : Move) (i : RecordId) : Prop :=
  (p.registry.record i).state ≠ .pendingUndeploy ∧ ((p.step m).registry.record i).state = .pendingUndeploy

/-- when a record that becomes pending now is evicted: a cached one after the network timeout, a new one when the
youngest record ahead of its request has been there for so long -/
def IsDeadline (p : Pool) (i : RecordId) (due : Nat) : Prop :=
  p.registry.Caches i ∧ due = p.now + p.registry.timeout ∨
    i = p.registry.records.length ∧
      ∃ q delay, p.registry.Admits q p.now ∧ p.registry.Leaves q p.now delay ∧ due = p.now + delay

theorem IsDeadline.bounds {p : Pool} {i : RecordId} {due : Nat} (h : p.IsDeadline i due) :
    p.now ≤ due ∧ due ≤ p.now + p.registry.timeout := by
  rcases h with ⟨-, rfl⟩ | ⟨-, q, delay, ha, hl, rfl⟩
  · omega
  · have := hl.bounds ha
    omega

/-- a record becomes pending by an installation, which orders one eviction for it -/
theorem becomes_pending {p : Pool} (hp : p.Reachable) {m : Move} {i : RecordId} (h : p.BecomesPending m i) :
    ∃ due, p.IsDeadline i due ∧ ∀ d, (i, d) ∈ (p.step m).evictions ↔ d = due := by
  obtain ⟨hbefore, hafter⟩ := h
  have hs := hp.sound
  have hlive : ((p.step m).registry.record i).isUndeployed = false := by simp [Record.isUndeployed, hafter]
  have hold : (p.registry.record i).isUndeployed = false := by
    by_contra hu
    rw [undeployed_step hs (by simpa using hu) m] at hlive
    cases hlive
  have hnone : p.outstanding.count i = 0 := by
    rw [hp.timed i hold]
    simp [Record.isPendingUndeploy, hbefore]
  have hm := step_moved p m
  generalize p.step m = p' at hm hafter hlive
  cases hm with
  | @step k u reply hc hready hlock =>
    rcases admits_or_keeps hs hc reply with ⟨q, report, -, hadm, hreg, hevs⟩ | ⟨-, hstate⟩
    · rw [hreg] at hafter
      have hcount := count_orders hs.coherent q p.now reply.clock i hold
      simp only [Record.isPendingUndeploy, hafter] at hcount
      have hno : ((p.registry.record i).state == .pendingUndeploy) = false := by simpa using hbefore
      rw [beq_self_eq_true, hno, Bool.toNat_true, Bool.toNat_false, Nat.add_zero] at hcount
      have hmem : i ∈ (p.registry.orders q p.now).map Prod.fst :=
        List.count_pos_iff.1 (by rw [hcount]; exact Nat.one_pos)
      obtain ⟨⟨j, due⟩, horder, rfl⟩ := List.mem_map.1 hmem
      refine ⟨due, ?_, fun d => ?_⟩
      · rcases (mem_orders hs.coherent hadm).1 horder with ⟨hcached, -, rfl⟩ | ⟨hnew, delay, hl, rfl⟩
        · exact .inl ⟨hcached, rfl⟩
        · exact .inr ⟨hnew, q, delay, hadm, hl, rfl⟩
      · rw [hevs, List.mem_append]
        have hno : (j, d) ∉ p.evictions := fun hmem =>
          List.count_eq_zero.1 hnone (List.mem_append_left _ (List.mem_map.2 ⟨_, hmem, rfl⟩))
        refine ⟨fun hd => ?_, fun hd => .inr (hd ▸ horder)⟩
        have hin := hd.resolve_left hno
        exact congrArg Prod.snd (List.inj_on_of_nodup_map (nodup_orders hs.coherent) hin horder rfl)
    · exact absurd ((hstate i hlive).symm.trans hafter) hbefore
  | aside hm ha =>
    rw [ha.record] at hafter
    exact absurd hafter hbefore
  | _ => exact absurd hafter hbefore

/-! ## Evictions that take records out -/

/-- only a sweep asks about senders -/
def Sweeps (p : Pool) : Prop :=
  ∀ k c total left gone b, p.call? k = some ⟨.removal c total (.checking left gone), b⟩ → ∃ reason, c = .sweep reason

theorem sweeps_step {p : Pool} (h : p.Sweeps) (m : Move) : (p.step m).Sweeps := by
  intro k c total left gone b hk
  rcases call_step hk with ⟨b', hc⟩ | hnew | ⟨reply, u, rfl, hc, hstep⟩
  · exact h k c total left gone b' hc
  · rcases hnew with hnew | ⟨i, hnew⟩
    · cases holdsLock_of_isNew hnew
    · cases hnew
  · rw [hstep, call?_advance hc, if_pos rfl] at hk
    obtain ⟨-, hn | ⟨-, hu⟩⟩ := underway?_eq_some.1 hk
    · exact Call.sweep_of_checking (fun total' left' gone' hu => h k c total' left' gone' u.asking (hu ▸ hc)) hn
    · exact h k c total left gone u.asking (by rw [show Call.removal c total (.checking left gone) = u.call from hu, hc])

theorem sweeps_new (timeout : Nat) : (new timeout).Sweeps := by
  intro k c total left gone b h
  have hnone : (new timeout).call? k = none := rfl
  rw [hnone] at h
  cases h

theorem Reachable.sweeps {p : Pool} (hp : p.Reachable) : p.Sweeps :=
  hp.induct sweeps_new fun _ m _ h => sweeps_step h m

/-- the move is a step of an eviction, and takes the record out of the cache -/
def TimesOut (p : Pool) (m : Move) (i : RecordId) : Prop :=
  (∃ k reply j total pt b, m = .step k reply ∧ p.call? k = some ⟨.removal (.expiry j) total pt, b⟩) ∧
    p.registry.Caches i ∧ ¬ (p.step m).registry.Caches i

/-- an eviction takes out its own record, when it has its turn -/
theorem TimesOut.begun {p : Pool} (hp : p.Reachable) {m : Move} {i : RecordId} (h : p.TimesOut m i) :
    i ∈ p.begun := by
  obtain ⟨⟨k, reply, j, total, pt, b, rfl, hc⟩, hcached, hgone⟩ := h
  have hs := hp.sound
  have hlive := hs.coherent.not_undeployed hcached
  have hi := hs.coherent.lt hcached
  have hm := step_moved p (.step k reply)
  generalize p.step (.step k reply) = p' at hm hgone
  cases hm with
  | idle => exact absurd hcached hgone
  | aside hm ha => cases hm
  | @step k u reply hc' hready hlock =>
    rw [hc] at hc'
    cases hc'
    obtain ⟨gone, claimed, hr⟩ :=
      Call.advanceRemoval_removes p.registry (.expiry j) total { reply with now := p.now } pt
    have he := hr.evolves hs.coherent (fun i' h => hs.named k _ hc i' (by cases h; exact List.mem_cons_self))
      fun i' hi' => hs.named k _ hc i' (Call.queue_subset_names _ total pt i' hi')
    have hmem : i ∈ gone := by
      have hundeployed := (he.coherent.alive i (by rw [he.length]; omega)).not.2 hgone
      rw [Bool.not_eq_false, he.undeployed, hlive] at hundeployed
      exact hundeployed.resolve_left Bool.false_ne_true
    refine List.mem_flatMap.2 ⟨_, List.mem_of_getElem? (call?_eq_some.1 hc), ?_⟩
    show i ∈ Underway.evicts _
    generalize Call.advanceRemoval p.registry (.expiry j) total { reply with now := p.now } pt = s at hr
    cases hr with
    | drain hq hb =>
      cases pt with
      | starting =>
        simp only [Call.takes, Call.drainFor] at hmem
        split at hmem
        · exact hmem
        · cases hmem
      | checking left gone =>
        obtain ⟨reason, hreason⟩ := hp.sweeps k _ total left gone b hc
        cases hreason
      | _ => cases hmem
    | _ => cases hmem

/-- the eviction of the record is due and has not had its turn -/
def Overdue (p : Pool) (i : RecordId) : Prop := (∃ due ≤ p.now, (i, due) ∈ p.evictions) ∨ i ∈ p.begun

theorem Overdue.mem_outstanding {p : Pool} {i : RecordId} (h : p.Overdue i) : i ∈ p.outstanding := by
  rcases h with ⟨due, -, h⟩ | h
  · exact List.mem_append_left _ (List.mem_map.2 ⟨_, h, rfl⟩)
  · exact List.mem_append_right _ h

/-- **pending means exactly one timer**: a cached record is pending exactly if one eviction of it is outstanding, and
active exactly if none is. When a record becomes pending its one eviction is ordered for its deadline, within the
network timeout. Whatever happens then: once the network timeout has passed the record is not cached, unless its
eviction is overdue; and no eviction takes it out before the deadline. -/
theorem pending_iff_one_eviction {p : Pool} (hp : p.Reachable) :
    (∀ i, p.registry.Caches i →
        ((p.registry.record i).state = .pendingUndeploy ↔ p.outstanding.count i = 1) ∧
          ((p.registry.record i).state = .active ↔ p.outstanding.count i = 0)) ∧
      ∀ m i, p.BecomesPending m i →
        ∃ due, p.IsDeadline i due ∧ (∀ d, (i, d) ∈ (p.step m).evictions ↔ d = due) ∧
          p.now ≤ due ∧ due ≤ p.now + p.registry.timeout ∧
          ∀ ms,
            (p.now + p.registry.timeout ≤ ((p.step m).run ms).now → ¬ ((p.step m).run ms).Overdue i →
                ¬ ((p.step m).run ms).registry.Caches i) ∧
              ∀ m', ((p.step m).run ms).TimesOut m' i → due ≤ ((p.step m).run ms).now := by
  refine ⟨?_, ?_⟩
  · intro i hi
    have hlive := hp.sound.coherent.not_undeployed hi
    rw [hp.timed i hlive]
    cases hstate : (p.registry.record i).state with
    | undeployed =>
      rw [Record.isUndeployed, hstate] at hlive
      cases hlive
    | _ => simp [Record.isPendingUndeploy, hstate]
  · intro m i h
    obtain ⟨due, hdue, hevs⟩ := becomes_pending hp h
    have hsched : (p.step m).Scheduled i due := .inl ((hevs due).2 rfl)
    refine ⟨due, hdue, hevs, hdue.bounds.1, hdue.bounds.2, fun ms => ?_⟩
    have hr : ((p.step m).run ms).Reachable := (hp.step m).run ms
    have hlater := hsched.run (hp.step m) ms
    refine ⟨?_, ?_⟩
    · intro hpassed hprompt hcached
      rcases hlater with hwait | ⟨hbegun, -⟩ | hgone
      · exact hprompt (.inl ⟨due, hdue.bounds.2.trans hpassed, hwait⟩)
      · exact hprompt (.inr hbegun)
      · rw [hr.sound.coherent.not_undeployed hcached] at hgone
        cases hgone
    · intro m' ht
      have hbegun := ht.begun hr
      rcases hlater with hwait | ⟨-, hnow⟩ | hgone
      · -- one eviction of the record waits and another has begun
        have hlive := hr.sound.coherent.not_undeployed ht.2.1
        have hlaw := hr.timed i hlive
        have h₁ := List.count_pos_iff.2 hbegun
        have h₂ : 0 < (((p.step m).run ms).evictions.map Prod.fst).count i :=
          List.count_pos_iff.2 (List.mem_map.2 ⟨_, hwait, rfl⟩)
        have h₃ := Bool.toNat_le (((p.step m).run ms).registry.record i).isPendingUndeploy
        rw [outstanding, List.count_append] at hlaw
        omega
      · exact hnow
      · rw [hr.sound.coherent.not_undeployed ht.2.1] at hgone
        cases hgone

/-- a record that is superseded at 10 with a network timeout of 100 is there until 110, when its eviction has its turn -/
theorem evicted_when_due :
    let w : Request := { id := ⟨"w"⟩, sender := ⟨"s"⟩, seq := 1, moduleAlias := "a" }
    let z : Request := { id := ⟨"z"⟩, sender := ⟨"s"⟩, seq := 2, moduleAlias := "a" }
    let p := (new 100).run
      (.enter (.request w true .entering) :: turns 0 { module := .ok ⟨"m", false⟩ } 8 ++
        .pass 10 :: .enter (.request z true .entering) :: turns 1 {} 3)
    let due := (p.step (.step 1 {})).run [.pass 100, .evict 0]
    p.BecomesPending (.step 1 {}) 0 ∧ (p.step (.step 1 {})).outstanding.count 0 = 1 ∧
      due.TimesOut (.step 2 {}) 0 ∧ 110 ≤ due.now := by
  intro w z p due
  have hp : p.Reachable := ⟨100, _, rfl⟩
  have hpending : p.BecomesPending (.step 1 {}) 0 := ⟨by decide +kernel, by decide +kernel⟩
  have hcached : (p.step (.step 1 {})).registry.Caches 0 ∧ due.registry.Caches 0 :=
    ⟨⟨⟨"w"⟩, by decide +kernel⟩, ⟨⟨"w"⟩, by decide +kernel⟩⟩
  have hordered : (0, 110) ∈ (p.step (.step 1 {})).evictions := by decide +kernel
  have hpassed : p.now + p.registry.timeout ≤ (due.step (.step 2 {})).now := by decide +kernel
  have hnone : (due.step (.step 2 {})).outstanding = [] := by decide +kernel
  have hcall : due.call? 2 = some ⟨.removal (.expiry 0) 0 .starting, false⟩ := by decide +kernel
  clear_value p
  have hone : (p.step (.step 1 {})).outstanding.count 0 = 1 :=
    ((pending_iff_one_eviction (hp.step (.step 1 {}))).1 0 hcached.1).1.1 hpending.2
  obtain ⟨deadline, -, hevs, -, -, hlater⟩ := (pending_iff_one_eviction hp).2 _ _ hpending
  obtain rfl : 110 = deadline := (hevs 110).1 hordered
  have hprompt : ¬ (due.step (.step 2 {})).Overdue 0 := by
    intro h
    have hmem := h.mem_outstanding
    rw [hnone] at hmem
    cases hmem
  have hgone : ¬ (due.step (.step 2 {})).registry.Caches 0 :=
    (hlater [.pass 100, .evict 0, .step 2 {}]).1 hpassed hprompt
  have htimes : due.TimesOut (.step 2 {}) 0 := ⟨⟨2, {}, 0, 0, .starting, false, rfl, hcall⟩, hcached.2, hgone⟩
  exact ⟨hpending, hone, htimes, (hlater [.pass 100, .evict 0]).2 _ htimes⟩

end Pool

end Redeploy
