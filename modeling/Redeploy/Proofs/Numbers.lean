/-
The numbers that a sender gives its deployments.

A number is compared once, in the decision that makes a record. So whatever is said here about records at one moment
goes back to the decisions that made them: two active records of one sender never have one number, and a record is put
on the clock only by a newer one, or because a newer one was there before it.

Results:
- `unambiguous_step`, **`numbers_unambiguous`**: active records of one sender have different numbers;
- `BecomesPending.makes`: a record becomes pending by the decision that makes a newer one, or by its own;
- `Reachable.outnumbered`: what is pending, and so what an eviction takes out, is outnumbered;
- `leaves_cache`: a record is taken out by its eviction, or by a removal that is about its sender or about all;
- **`newest_never_times_out`**: only outnumbered records are pending or evicted, and the newest record of a sender is
  active until such a removal.
-/
import Redeploy.Proofs.Eviction
import Redeploy.Proofs.Versions

namespace Redeploy

open Registry

namespace Registry

/-- active cached records of one sender have different numbers -/
def Unambiguous (g : Registry) : Prop :=
  ∀ i j, g.Caches i → g.Caches j → (g.record i).isActive = true → (g.record j).isActive = true →
    (g.record i).sender = (g.record j).sender → (g.record i).seq = (g.record j).seq → i = j

/-- a record of the same sender with a greater number was made, whatever has become of it -/
def Outnumbered (g : Registry) (i : RecordId) : Prop :=
  ∃ j < g.records.length, (g.record j).sender = (g.record i).sender ∧ (g.record i).seq < (g.record j).seq

instance (g : Registry) (i : RecordId) : Decidable (g.Outnumbered i) := inferInstanceAs (Decidable (∃ _, _ ∧ _))

end Registry

/-- a removal for the cause is about the record's sender, or about all senders, and is no eviction -/
def Cause.Covers (r : Record) : Cause → Prop
  | .expiry _ => False
  | .named sender name => sender = r.sender ∧ r.hasName name = true
  | .departure m => m = r.sender
  | .sweep _ => True
  | .stop => True

/-- what a removal takes out is covered by its cause, unless the removal is an eviction; only sweeps ask about senders -/
theorem Call.covers_of_mem_takes {g : Registry} (hg : g.Coherent) {c : Cause} {p : RemovalPoint} {i : RecordId}
    (hp : ∀ left gone, p = .checking left gone → ∃ reason, c = .sweep reason) (h : i ∈ (takes g c p).2) :
    (∃ j, c = .expiry j) ∨ c.Covers (g.record i) := by
  cases p with
  | starting =>
    cases c with
    | expiry j => exact .inl ⟨j, rfl⟩
    | named sender name =>
      obtain ⟨-, hi⟩ := (mem_drain hg).1 h
      simp only [Bool.and_eq_true, beq_iff_eq] at hi
      exact .inr ⟨hi.1.symm, hi.2⟩
    | departure m =>
      obtain ⟨-, hi⟩ := (mem_drain hg).1 h
      exact .inr (beq_iff_eq.1 hi).symm
    | sweep reason => exact .inr trivial
    | stop => exact .inr trivial
  | checking left gone =>
    obtain ⟨reason, rfl⟩ := hp left gone rfl
    exact .inr trivial
  | _ => cases h

namespace Pool

/-! ## One number, one active record -/

/-- what a record keeps through a move: sender and number, and, if it is active afterwards, that it was and is cached -/
theorem rival_of_step {p : Pool} (hp : p.Reachable) {m : Move} {i : RecordId} (hi : i < p.registry.records.length)
    (h : ((p.step m).registry.record i).isActive = true) :
    p.registry.Caches i ∧ (p.registry.record i).isActive = true ∧
      ((p.step m).registry.record i).sender = (p.registry.record i).sender ∧
      ((p.step m).registry.record i).seq = (p.registry.record i).seq := by
  obtain ⟨hcached, hactive⟩ := cached_of_run hp hi [m] h
  exact ⟨hcached, hactive, Record.of_origin (origin_step hp.sound m hi)⟩

/-- a record stays a record, with its identifier, sender and number -/
theorem identity_run {p : Pool} (hp : p.Reachable) {i : RecordId} (hi : i < p.registry.records.length) (ms : List Move) :
    i < (p.run ms).registry.records.length ∧ ((p.run ms).registry.record i).id = (p.registry.record i).id ∧
      ((p.run ms).registry.record i).sender = (p.registry.record i).sender ∧
      ((p.run ms).registry.record i).seq = (p.registry.record i).seq := by
  obtain ⟨hlt, horigin, -⟩ := record_run hp hi ms
  exact ⟨hlt, (congrArg Record.id horigin :), Record.of_origin horigin⟩

/-- a record that is there only after the move is made by it -/
theorem makes_of_new {p : Pool} (hs : p.Sound) {m : Move} {i : RecordId} (hi : ¬ i < p.registry.records.length)
    (hi' : i < (p.step m).registry.records.length) : ∃ q, p.Makes m q i := by
  have hle : p.registry.records.length ≤ i := Nat.le_of_not_lt hi
  obtain ⟨hlen, q, hmade⟩ := makes_of_lt hs (lt_of_le_of_lt hle hi')
  rw [hlen] at hi'
  obtain rfl : i = p.registry.records.length := le_antisymm (Nat.le_of_lt_succ hi') hle
  exact ⟨q, hmade⟩

/-- a record that the move makes has identifier, sender and number of the request, then and at every later moment -/
theorem Makes.of_request {p : Pool} (hp : p.Reachable) {m : Move} {q : Request} {j : RecordId} (h : p.Makes m q j)
    (ms : List Move) : j < ((p.step m).run ms).registry.records.length ∧
      (((p.step m).run ms).registry.record j).id = q.id ∧
      (((p.step m).run ms).registry.record j).sender = q.sender ∧
      (((p.step m).run ms).registry.record j).seq = q.seq := by
  have hj : j < (p.step m).registry.records.length := by
    rw [h.2.1]
    exact Nat.lt_succ_self j
  obtain ⟨-, ordered, henters⟩ := h.enters hp
  obtain ⟨clock, state, hmade, -⟩ := henters.made
  have hkeeps := identity_run (hp.step m) hj ms
  rw [← h.1] at hmade
  rw [hmade] at hkeeps
  exact hkeeps

/-- the decision that makes a record has looked at every active record of its sender -/
theorem seq_ne_of_new {p : Pool} (hp : p.Reachable) {m : Move} {i j : RecordId}
    (hi : i < p.registry.records.length) (hj : ¬ j < p.registry.records.length)
    (hcached : (p.step m).registry.Caches j) (hactive : ((p.step m).registry.record i).isActive = true)
    (hsender : ((p.step m).registry.record i).sender = ((p.step m).registry.record j).sender) :
    ((p.step m).registry.record i).seq ≠ ((p.step m).registry.record j).seq := by
  obtain ⟨q, hmade⟩ := makes_of_new hp.sound hj ((hp.step m).sound.coherent.lt hcached)
  obtain ⟨hadm, -⟩ := hmade.enters hp
  obtain ⟨-, -, hfrom, hseq⟩ := hmade.of_request hp []
  obtain ⟨hcached', hactive', hsender', hseq'⟩ := rival_of_step hp hi hactive
  have hrivals : (p.registry.record i).Rivals q := ⟨hsender'.symm.trans (hsender.trans hfrom), hactive'⟩
  intro heq
  apply hadm.unequal i hcached' hrivals
  calc (p.registry.record i).seq = ((p.step m).registry.record i).seq := hseq'.symm
    _ = ((p.step m).registry.record j).seq := heq
    _ = q.seq := hseq

theorem unambiguous_step {p : Pool} (hp : p.Reachable) (h : p.registry.Unambiguous) (m : Move) :
    (p.step m).registry.Unambiguous := by
  intro i j hi hj hai haj hsender hseq
  -- the move makes at most one record, and that one was compared with the others
  by_cases hilt : i < p.registry.records.length <;> by_cases hjlt : j < p.registry.records.length
  · obtain ⟨hi', hai', hs, hn⟩ := rival_of_step hp hilt hai
    obtain ⟨hj', haj', hs', hn'⟩ := rival_of_step hp hjlt haj
    apply h i j hi' hj' hai' haj'
    · rw [← hs, ← hs', hsender]
    · rw [← hn, ← hn', hseq]
  · exact absurd hseq (seq_ne_of_new hp hilt hjlt hj hai hsender)
  · exact absurd hseq.symm (seq_ne_of_new hp hjlt hilt hi haj hsender.symm)
  · obtain ⟨q, hmade⟩ := makes_of_new hp.sound hilt ((hp.step m).sound.coherent.lt hi)
    obtain ⟨q', hmade'⟩ := makes_of_new hp.sound hjlt ((hp.step m).sound.coherent.lt hj)
    rw [hmade.1, hmade'.1]

theorem Reachable.unambiguous {p : Pool} (hp : p.Reachable) : p.registry.Unambiguous := by
  refine hp.induct ?_ fun _ m hr h => unambiguous_step hr h m
  rintro timeout i j ⟨d, hd⟩
  cases hd

/-- **numbers are unambiguous**: two records of one sender that are cached and active at the same moment have different
numbers -/
theorem numbers_unambiguous {p : Pool} (hp : p.Reachable) {i j : RecordId} (hij : i ≠ j)
    (hi : p.registry.Caches i) (hj : p.registry.Caches j) (hai : (p.registry.record i).isActive = true)
    (haj : (p.registry.record j).isActive = true)
    (hsender : (p.registry.record i).sender = (p.registry.record j).sender) :
    (p.registry.record i).seq ≠ (p.registry.record j).seq := by
  intro hseq
  exact hij (hp.unambiguous i j hi hj hai haj hsender hseq)

/-- a sender uses the number of its first deployment again once that one is pending: three records are cached, two of
them are active, and the pending one has the number of one of these -/
theorem number_used_again :
    let x : Request := { id := ⟨"x"⟩, sender := ⟨"s"⟩, seq := 1, moduleAlias := "a" }
    let y : Request := { id := ⟨"y"⟩, sender := ⟨"s"⟩, seq := 2, moduleAlias := "a" }
    let z : Request := { id := ⟨"z"⟩, sender := ⟨"s"⟩, seq := 1, moduleAlias := "b" }
    let p := (new 100).run
      (.enter (.request x true .entering) :: turns 0 { module := .ok ⟨"m", false⟩ } 8 ++
        .enter (.request y true .entering) :: turns 1 { module := .ok ⟨"m", false⟩ } 8 ++
        .enter (.request z true .entering) :: turns 2 { module := .ok ⟨"n", false⟩ } 8)
    p.registry.Caches 0 ∧ (p.registry.record 0).isPendingUndeploy = true ∧
      (p.registry.record 0).seq = (p.registry.record 2).seq ∧
      (p.registry.record 1).seq ≠ (p.registry.record 2).seq := by
  intro x y z p
  have hp : p.Reachable := ⟨100, _, rfl⟩
  have hx : p.registry.Caches 0 := ⟨⟨"x"⟩, by decide +kernel⟩
  have hpending : (p.registry.record 0).isPendingUndeploy = true := by decide +kernel
  have hsame : (p.registry.record 0).seq = (p.registry.record 2).seq := by decide +kernel
  have hy : p.registry.Caches 1 := ⟨⟨"y"⟩, by decide +kernel⟩
  have hz : p.registry.Caches 2 := ⟨⟨"z"⟩, by decide +kernel⟩
  have hay : (p.registry.record 1).isActive = true := by decide +kernel
  have haz : (p.registry.record 2).isActive = true := by decide +kernel
  have hsender : (p.registry.record 1).sender = (p.registry.record 2).sender := by decide +kernel
  clear_value p
  exact ⟨hx, hpending, hsame, numbers_unambiguous hp (by decide) hy hz hay haz hsender⟩

/-! ## Outnumbered records -/

theorem outnumbered_run {p : Pool} (hp : p.Reachable) {i : RecordId} (hi : i < p.registry.records.length)
    (h : p.registry.Outnumbered i) (ms : List Move) : (p.run ms).registry.Outnumbered i := by
  obtain ⟨j, hj, hsender, hlt⟩ := h
  obtain ⟨-, -, hs, hn⟩ := identity_run hp hi ms
  obtain ⟨hj', -, hs', hn'⟩ := identity_run hp hj ms
  refine ⟨j, hj', ?_, ?_⟩
  · rw [hs, hs', hsender]
  · rwa [hn, hn']

/-- in other words: a request of the record's sender with a greater number made a record in the run -/
theorem outnumbered_iff {timeout : Nat} {ms : List Move} {i : RecordId} :
    ((new timeout).run ms).registry.Outnumbered i ↔
      ∃ before m after q j, ms = before ++ m :: after ∧ ((new timeout).run before).Makes m q j ∧
        q.sender = (((new timeout).run ms).registry.record i).sender ∧
        (((new timeout).run ms).registry.record i).seq < q.seq := by
  have hreach : ∀ l, ((new timeout).run l).Reachable := fun l => ⟨timeout, l, rfl⟩
  constructor
  · rintro ⟨j, hj, hsender, hlt⟩
    obtain ⟨before, m, after, q, rfl, hmade⟩ := exists_made hj
    obtain ⟨-, -, hs, hn⟩ := hmade.of_request (hreach before) after
    rw [← run_cons, ← run_append] at hs hn
    exact ⟨before, m, after, q, j, rfl, hmade, hs ▸ hsender, hn ▸ hlt⟩
  · rintro ⟨before, m, after, q, j, rfl, hmade, hsender, hlt⟩
    obtain ⟨hj, -, hs, hn⟩ := hmade.of_request (hreach before) after
    rw [← run_cons, ← run_append] at hj hs hn
    exact ⟨j, hj, hs.trans hsender, hn ▸ hlt⟩

/-- a record becomes pending by a decision: it is behind the request, or was made for it and is late -/
theorem BecomesPending.makes {p : Pool} (hp : p.Reachable) {m : Move} {i : RecordId} (h : p.BecomesPending m i) :
    ∃ q, p.Makes m q p.registry.records.length ∧
      (p.registry.Caches i ∧ (p.registry.record i).IsBehind q ∨
        i = p.registry.records.length ∧ p.registry.IsLate q) := by
  obtain ⟨hbefore, hafter⟩ := h
  have hs := hp.sound
  have hlt : p.registry.records.length < (p.step m).registry.records.length := by
    have hlive : ((p.step m).registry.record i).isUndeployed = false := by simp [Record.isUndeployed, hafter]
    have hm := step_moved p m
    generalize p.step m = p' at hm hafter hlive ⊢
    cases hm with
    | @step k u reply hc hready hlock =>
      rcases admits_or_keeps hs hc reply with ⟨q, report, -, -, hreg, -⟩ | ⟨-, hstate⟩
      · rw [hreg, length_install]
        exact Nat.lt_succ_self _
      · exact absurd ((hstate i hlive).symm.trans hafter) hbefore
    | aside hm ha => exact absurd (ha.record i ▸ hafter) hbefore
    | _ => exact absurd hafter hbefore
  obtain ⟨hlen, q, hmade⟩ := makes_of_lt hs hlt
  obtain ⟨-, ordered, henters⟩ := hmade.enters hp
  refine ⟨q, hmade, ?_⟩
  rcases lt_trichotomy i p.registry.records.length with hi | rfl | hi
  · left
    by_contra hno
    rw [henters.others i hi hno] at hafter
    exact hbefore hafter
  · right
    obtain ⟨clock, state, hnew, hstate⟩ := henters.made
    rw [hnew] at hafter
    refine ⟨rfl, (hstate.resolve_right ?_).1⟩
    rintro ⟨-, rfl⟩
    cases hafter
  · rw [record_eq_default (by rw [hlen]; exact hi)] at hafter
    cases hafter

/-- so it is outnumbered then: by the new record, or by the one that made it late -/
theorem BecomesPending.outnumbered {p : Pool} (hp : p.Reachable) {m : Move} {i : RecordId}
    (h : p.BecomesPending m i) : (p.step m).registry.Outnumbered i := by
  obtain ⟨q, hmade, hwhy⟩ := h.makes hp
  obtain ⟨hnew, -, hfrom, hseq⟩ := hmade.of_request hp []
  have hold {k : RecordId} (hk : p.registry.Caches k) := identity_run hp (hp.sound.coherent.lt hk) [m]
  rcases hwhy with ⟨hi, ⟨hsender, -⟩, hlt, -⟩ | ⟨rfl, y, hy, ⟨hsender, -⟩, hlt, -⟩
  · obtain ⟨-, -, hs, hn⟩ := hold hi
    refine ⟨p.registry.records.length, hnew, ?_, ?_⟩
    · calc ((p.step m).registry.record p.registry.records.length).sender = q.sender := hfrom
        _ = (p.registry.record i).sender := hsender.symm
        _ = ((p.step m).registry.record i).sender := hs.symm
    · calc ((p.step m).registry.record i).seq = (p.registry.record i).seq := hn
        _ < q.seq := hlt
        _ = ((p.step m).registry.record p.registry.records.length).seq := hseq.symm
  · obtain ⟨hylt, -, hs, hn⟩ := hold hy
    refine ⟨y, hylt, ?_, ?_⟩
    · calc ((p.step m).registry.record y).sender = (p.registry.record y).sender := hs
        _ = q.sender := hsender
        _ = ((p.step m).registry.record p.registry.records.length).sender := hfrom.symm
    · calc ((p.step m).registry.record p.registry.records.length).seq = q.seq := hseq
        _ < (p.registry.record y).seq := hlt
        _ = ((p.step m).registry.record y).seq := hn.symm

theorem outnumbered_step {p : Pool} (hp : p.Reachable)
    (h : ∀ i, (p.registry.record i).state = .pendingUndeploy → p.registry.Outnumbered i) (m : Move) (i : RecordId)
    (hi : ((p.step m).registry.record i).state = .pendingUndeploy) : (p.step m).registry.Outnumbered i := by
  by_cases hold : (p.registry.record i).state = .pendingUndeploy
  · have hlt : i < p.registry.records.length := by
      by_contra hle
      rw [record_eq_default (Nat.le_of_not_lt hle)] at hold
      cases hold
    exact outnumbered_run hp hlt (h i hold) [m]
  · exact BecomesPending.outnumbered hp ⟨hold, hi⟩

/-- what is pending is outnumbered -/
theorem Reachable.outnumbered {p : Pool} (hp : p.Reachable) {i : RecordId}
    (h : (p.registry.record i).state = .pendingUndeploy) : p.registry.Outnumbered i := by
  refine hp.induct (P := fun p => ∀ i, (p.registry.record i).state = .pendingUndeploy → p.registry.Outnumbered i)
    ?_ (fun _ m hr h => outnumbered_step hr h m) i h
  intro timeout i h
  rw [record_eq_default (Nat.zero_le i)] at h
  cases h

/-- an eviction takes out what is pending -/
theorem TimesOut.pending {p : Pool} (hp : p.Reachable) {m : Move} {i : RecordId} (h : p.TimesOut m i) :
    (p.registry.record i).state = .pendingUndeploy := by
  have hbegun := List.count_pos_iff.2 (h.begun hp)
  have hlaw := hp.timed i (hp.sound.coherent.not_undeployed h.2.1)
  rw [outstanding, List.count_append] at hlaw
  by_contra hno
  have hzero : (p.registry.record i).isPendingUndeploy = false := by simpa [Record.isPendingUndeploy] using hno
  rw [hzero, Bool.toNat_false] at hlaw
  omega

/-! ## The newest record -/

/-- the move is a step of a removal that covers the record and is no eviction, and takes the record out -/
def Revokes (p : Pool) (m : Move) (i : RecordId) : Prop :=
  (∃ k reply c total pt b, m = .step k reply ∧ p.call? k = some ⟨.removal c total pt, b⟩ ∧
      c.Covers (p.registry.record i)) ∧
    p.registry.Caches i ∧ ¬ (p.step m).registry.Caches i

/-- a record leaves the cache by an eviction, or is revoked -/
theorem leaves_cache {p : Pool} (hp : p.Reachable) {m : Move} {i : RecordId} (hcached : p.registry.Caches i)
    (hgone : ¬ (p.step m).registry.Caches i) : p.TimesOut m i ∨ p.Revokes m i := by
  have hs := hp.sound
  have hi := hs.coherent.lt hcached
  have hm := step_moved p m
  generalize hp' : p.step m = p' at hm
  rw [hp'] at hgone
  cases hm with
  | @step k u reply hc hready hlock =>
    obtain ⟨born, gone, claimed, hd⟩ := hs.does hc reply
    have he := hd.evolves hs.coherent (hs.named k u hc)
    have hmem : i ∈ gone := by
      have hi' : i < (u.call.advance p.registry { reply with now := p.now }).registry.records.length := by
        rw [he.length]
        exact Nat.lt_add_right born hi
      have hu := (he.coherent.alive i hi').not.2 hgone
      rw [Bool.not_eq_false, he.undeployed, hs.coherent.not_undeployed hcached] at hu
      exact hu.resolve_left Bool.false_ne_true
    obtain ⟨c, asking⟩ := u
    generalize c.advance p.registry { reply with now := p.now } = s at hd
    cases hd with
    | found ha => cases hmem
    | other hc he hb hn => cases hmem
    | @remove cause total pt gone claimed s hr =>
      have hsweep : ∀ left gone, pt = .checking left gone → ∃ reason, cause = .sweep reason := by
        rintro left gone rfl
        exact hp.sweeps k cause total left gone asking hc
      have hmem : i ∈ (Call.takes p.registry cause pt).2 := by
        cases hr with
        | drain hq hb => exact hmem
        | _ => cases hmem
      rw [← hp'] at hgone
      rcases Call.covers_of_mem_takes hs.coherent hsweep hmem with ⟨j, rfl⟩ | hcovers
      · exact .inl ⟨⟨k, reply, j, total, pt, asking, rfl, hc⟩, hcached, hgone⟩
      · exact .inr ⟨⟨k, reply, cause, total, pt, asking, rfl, hc, hcovers⟩, hcached, hgone⟩
  | aside hm ha =>
    obtain ⟨d, hd⟩ := hcached
    exact absurd ⟨d, ha.cache.mem_iff.2 hd⟩ hgone
  | _ => exact absurd hcached hgone

/-- a move leaves a cached record that nothing outnumbers active, or revokes it -/
theorem active_or_revoked_step {p : Pool} (hp : p.Reachable) {m : Move} {i : RecordId}
    (hnewest : ¬ (p.step m).registry.Outnumbered i) (hcached : p.registry.Caches i) :
    ((p.step m).registry.Caches i ∧ ((p.step m).registry.record i).isActive = true) ∨ p.Revokes m i := by
  by_cases h : (p.step m).registry.Caches i
  · have hlive := (hp.step m).sound.coherent.not_undeployed h
    refine .inl ⟨h, ?_⟩
    cases hstate : ((p.step m).registry.record i).state with
    | active => simp [Record.isActive, hstate]
    | pendingUndeploy => exact absurd ((hp.step m).outnumbered hstate) hnewest
    | undeployed => simp [Record.isUndeployed, hstate] at hlive
  · refine .inr ((leaves_cache hp hcached h).resolve_left fun ht => hnewest ?_)
    exact outnumbered_run hp (hp.sound.coherent.lt hcached) (hp.outnumbered (ht.pending hp)) [m]

/-- a record that nothing outnumbers is active, or was revoked -/
theorem active_or_revoked {timeout : Nat} {ms : List Move} {i : RecordId}
    (hi : i < ((new timeout).run ms).registry.records.length)
    (hnewest : ¬ ((new timeout).run ms).registry.Outnumbered i) :
    (((new timeout).run ms).registry.Caches i ∧ (((new timeout).run ms).registry.record i).isActive = true) ∨
      ∃ before m after, ms = before ++ m :: after ∧ ((new timeout).run before).Revokes m i := by
  induction ms using List.reverseRecOn with
  | nil => exact absurd hi (Nat.not_lt_zero i)
  | append_singleton ms m ih =>
    have hp : ((new timeout).run ms).Reachable := ⟨timeout, ms, rfl⟩
    rw [run_append] at hi hnewest ⊢
    change i < (((new timeout).run ms).step m).registry.records.length at hi
    change ¬ (((new timeout).run ms).step m).registry.Outnumbered i at hnewest
    by_cases hold : i < ((new timeout).run ms).registry.records.length
    · rcases ih hold fun h => hnewest (outnumbered_run hp hold h [m]) with ⟨hcached, -⟩ | ⟨before, m', after, rfl, hr⟩
      · refine (active_or_revoked_step hp hnewest hcached).imp_right fun hr => ⟨ms, m, [], rfl, hr⟩
      · exact .inr ⟨before, m', after ++ [m], by simp, hr⟩
    · -- the move makes the record, and it is not late
      generalize (new timeout).run ms = p at hp hi hnewest hold ⊢
      obtain ⟨q, hmade⟩ := makes_of_new hp.sound hold hi
      obtain rfl := hmade.1
      obtain ⟨-, ordered, henters⟩ := hmade.enters hp
      obtain ⟨clock, state, hnew, ⟨-, rfl⟩ | ⟨-, rfl⟩⟩ := henters.made
      · exact absurd ((hp.step m).outnumbered (by rw [hnew])) hnewest
      · refine .inl ⟨⟨q.id, ?_⟩, ?_⟩
        · show _ ∈ (p.step m).registry.cache
          rw [henters.registry]
          simp
        · show ((p.step m).registry.record _).isActive = true
          rw [hnew]
          rfl

/-- **the newest deployment never times out**: a record is pending, or is taken out by its eviction, only if a request of
its sender with a greater number has made a record in the run. So a record with the greatest number for which its
sender ever had one made is active and cached, unless a removal of deployments by name, the departure of its sender, a
sweep or a stop has taken it out. -/
theorem newest_never_times_out (timeout : Nat) (ms : List Move) :
    let p := (new timeout).run ms
    (∀ i, (p.registry.record i).isPendingUndeploy = true ∨ (∃ m, p.TimesOut m i) →
        ∃ before m after q j, ms = before ++ m :: after ∧ ((new timeout).run before).Makes m q j ∧
          q.sender = (p.registry.record i).sender ∧ (p.registry.record i).seq < q.seq) ∧
      ∀ i < p.registry.records.length,
        (∀ before m after q j, ms = before ++ m :: after → ((new timeout).run before).Makes m q j →
          q.sender = (p.registry.record i).sender → q.seq ≤ (p.registry.record i).seq) →
        (p.registry.Caches i ∧ (p.registry.record i).isActive = true) ∨
          ∃ before m after, ms = before ++ m :: after ∧ ((new timeout).run before).Revokes m i := by
  intro p
  have hp : p.Reachable := ⟨timeout, ms, rfl⟩
  refine ⟨?_, ?_⟩
  · intro i h
    apply outnumbered_iff.1
    rcases h with h | ⟨m, h⟩
    · exact hp.outnumbered (by simpa [Record.isPendingUndeploy] using h)
    · exact hp.outnumbered (h.pending hp)
  · intro i hi hgreatest
    apply active_or_revoked hi
    intro h
    obtain ⟨before, m, after, q, j, heq, hmade, hsender, hlt⟩ := outnumbered_iff.1 h
    exact UInt64.not_lt.2 (hgreatest before m after q j heq hmade hsender) hlt

/-- a record is superseded by the newest one, a late request comes after it, the newest is asked for again, the network
timeout passes, and the superseded record is evicted; the newest one goes when its sender departs -/
theorem newest_until_departure :
    let w : Request := { id := ⟨"w"⟩, sender := ⟨"s"⟩, seq := 1, moduleAlias := "a" }
    let z : Request := { id := ⟨"z"⟩, sender := ⟨"s"⟩, seq := 2, moduleAlias := "a" }
    let ms := .enter (.request w true .entering) :: turns 0 { module := .ok ⟨"m", false⟩ } 8 ++
      .enter (.request z true .entering) :: turns 1 { module := .ok ⟨"m", false⟩ } 8 ++
      .enter (.request { w with id := ⟨"y"⟩ } true .entering) :: turns 2 { module := .ok ⟨"m", false⟩ } 8 ++
      .enter (.request z true .entering) :: turns 3 {} 8 ++ [.pass 100, .evict 0]
    let p := (new 100).run ms
    let departing := ms ++ [.enter (.remove (.departure ⟨"s"⟩)), .step 5 {}]
    p.TimesOut (.step 4 {}) 0 ∧ (p.registry.record 2).isPendingUndeploy = true ∧
      (∃ before m after q j, ms = before ++ m :: after ∧ ((new 100).run before).Makes m q j ∧
        q.sender = (p.registry.record 0).sender ∧ (p.registry.record 0).seq < q.seq) ∧
      ¬ p.registry.Outnumbered 1 ∧ ∃ before m after, departing = before ++ m :: after ∧
        ((new 100).run before).Revokes m 1 := by
  intro w z ms p departing
  have hcall : p.call? 4 = some ⟨.removal (.expiry 0) 0 .starting, false⟩ := by decide +kernel
  have hcached : p.registry.Caches 0 := ⟨⟨"w"⟩, by decide +kernel⟩
  have hp : (p.step (.step 4 {})).Reachable := (show p.Reachable from ⟨100, ms, rfl⟩).step _
  have hevicted : ((p.step (.step 4 {})).registry.record 0).isUndeployed = true := by decide +kernel
  have hgone : ¬ (p.step (.step 4 {})).registry.Caches 0 := by
    intro h
    rw [hp.sound.coherent.not_undeployed h] at hevicted
    cases hevicted
  have htimes : p.TimesOut (.step 4 {}) 0 := ⟨⟨4, {}, 0, 0, .starting, false, rfl, hcall⟩, hcached, hgone⟩
  have hlate : (p.registry.record 2).isPendingUndeploy = true := by decide +kernel
  have hnewest : ¬ p.registry.Outnumbered 1 := by decide +kernel
  have hstill : ¬ ((new 100).run departing).registry.Outnumbered 1 := by decide +kernel
  have hleft : (((new 100).run departing).registry.record 1).isActive = false := by decide +kernel
  have hthere : 1 < ((new 100).run departing).registry.records.length := by decide +kernel
  refine ⟨htimes, hlate, (newest_never_times_out 100 ms).1 0 (.inr ⟨_, htimes⟩), hnewest, ?_⟩
  clear_value departing
  refine ((newest_never_times_out 100 departing).2 1 hthere ?_).resolve_left ?_
  · intro before m after q j heq hmade hsender
    exact UInt64.not_lt.1 fun hlt => hstill (outnumbered_iff.2 ⟨before, m, after, q, j, heq, hmade, hsender, hlt⟩)
  · rintro ⟨-, hactive⟩
    rw [hleft] at hactive
    cases hactive

end Pool

end Redeploy
