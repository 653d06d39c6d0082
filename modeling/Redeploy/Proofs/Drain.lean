/-
What a removal takes out of the cache, and what it leaves.

The departure of a member, the withdrawal of a name and a sweep differ in whom they name, and share the rest: under the
lock the cached records that are named become undeployed and leave the cache in one step. Every other move of the call
leaves the cache and all other records as they are.

A sweep names a record by the answer about its sender, which it asks for one record after the other. It holds the lock
all that time, so it asks about every record that is cached when it takes them out (`Surveyed`).

Results:
- `hasName_iff`: what answers to a name is an alias that was resolved, or the module that it was resolved to;
- `record_takes`, `mem_takes`: the step that takes records out, record by record;
- `surveys_run`: whom a sweep has asked about;
- `own_frame`, `solely_frame`: what the moves of a removal leave alone;
- **`drain_exact`**: a removal takes out exactly what it names, and the same removal again takes out nothing.
-/
import Redeploy.Proofs.Removal

namespace Redeploy

open Registry

/-! ## Names -/

namespace Record

/-- where no alias has two slots, the slots are those that a lookup finds -/
theorem lookup_eq_some_iff {slots : List (String × Nat)} (hn : (slots.map Prod.fst).Nodup) {a : String} {cell : Nat} :
    slots.lookup a = some cell ↔ (a, cell) ∈ slots := by
  refine ⟨mem_of_lookup, fun h => ?_⟩
  induction slots with
  | nil => cases h
  | cons e slots ih =>
    obtain ⟨b, cell'⟩ := e
    rw [List.map_cons, List.nodup_cons] at hn
    rcases List.mem_cons.1 h with heq | hrest
    · cases heq
      simp
    · have hne : a ≠ b := by
        rintro rfl
        exact hn.1 (List.mem_map.2 ⟨(a, cell), hrest, rfl⟩)
      have hb : (a == b) = false := by simpa using hne
      rw [List.lookup_cons, hb]
      exact ih hn.2 hrest

/-- **what answers to a name**: an alias with a module, or that module -/
theorem hasName_iff {r : Record} (hn : (r.slots.map Prod.fst).Nodup) {name : String} :
    r.hasName name = true ↔ ∃ a x, r.module? a = some x ∧ (a = name ∨ x.name = name) := by
  simp only [hasName, List.any_eq_true, Option.any_eq_true, Bool.or_eq_true, beq_iff_eq, Prod.exists, module?_eq_some]
  constructor
  · rintro ⟨a, cell, hmem, x, hx, hname⟩
    exact ⟨a, x, ⟨cell, (lookup_eq_some_iff hn).2 hmem, hx⟩, hname⟩
  · rintro ⟨a, x, ⟨cell, hslot, hx⟩, hname⟩
    exact ⟨a, cell, (lookup_eq_some_iff hn).1 hslot, x, hx, hname⟩

end Record

/-- a step of a resolution opens a slot for an alias that has none, and closes at most its own -/
theorem Call.Looks.slots_nodup {r r' : Record} {a : String} {reply : Reply} {pt : LookupPoint} {n : Call.LookupStep}
    (h : Call.Looks r a reply pt r' n) (hn : (r.slots.map Prod.fst).Nodup) : (r'.slots.map Prod.fst).Nodup := by
  cases h with
  | opened h =>
    have hnot : a ∉ r.slots.map Prod.fst := by
      intro ha
      obtain ⟨⟨b, cell⟩, hmem, rfl⟩ := List.mem_map.1 ha
      rw [(Record.lookup_eq_some_iff hn).2 hmem] at h
      cases h
    rw [List.map_append, List.nodup_append]
    refine ⟨hn, List.nodup_singleton a, ?_⟩
    rintro b hb _ hb' rfl
    have hba : b = a := List.mem_singleton.1 hb'
    exact hnot (hba ▸ hb)
  | cleared =>
    unfold Record.closeSlot
    split
    · exact hn
    · exact hn.sublist (List.filter_sublist.map _)
  | _ => exact hn

/-- a departure, the withdrawal of a name, or a sweep -/
def Cause.isDrain : Cause → Bool
  | .named .. => true
  | .departure _ => true
  | .sweep _ => true
  | _ => false

/-- the removal names the record: of a sweep, it has heard that the sender is not live -/
def Cause.Names (c : Cause) (heard : List (RecordId × Bool)) (g : Registry) (i : RecordId) : Prop :=
  match c with
  | .named sender name => (g.record i).sender = sender ∧
    ∃ a x, (g.record i).module? a = some x ∧ (a = name ∨ x.name = name)
  | .departure m => (g.record i).sender = m
  | .sweep _ => (i, false) ∈ heard
  | _ => False

/-! ## The step that takes records out -/

namespace Registry

variable {g : Registry} {i : RecordId}

/-- the eviction of an undeployed record does nothing -/
theorem expire_of_undeployed (hu : (g.record i).isUndeployed = true) : g.expire i = (g, false) := by
  have hnone : (g.record i).advanceTo? .undeployed = none :=
    Record.advanceTo?_eq_none.2 (Record.rank_undeployed_le.2 hu)
  simp only [expire, hnone]

theorem expire_of_not_undeployed (hu : (g.record i).isUndeployed = false) : (g.expire i).2 = true := by
  have hsome : (g.record i).advanceTo? .undeployed = some { g.record i with state := .undeployed } := by
    refine Record.advanceTo?_eq_some.2 ⟨?_, rfl⟩
    by_contra hn
    rw [Record.rank_undeployed_le.1 (Nat.le_of_not_lt hn)] at hu
    cases hu
  simp only [expire, hsome]

end Registry

namespace Call

variable {g : Registry} {c : Cause} {p : RemovalPoint}

theorem drainFor_expiry (g : Registry) (i : RecordId) : drainFor g (.expiry i) =
    if (g.record i).isUndeployed then (g, []) else ((g.expire i).1, [i]) := by
  cases hu : (g.record i).isUndeployed with
  | true => simp [drainFor, expire_of_undeployed hu]
  | false => simp [drainFor, expire_of_not_undeployed hu]

theorem record_takes (hg : g.Coherent) (hc : ∀ i, c = .expiry i → i < g.records.length) (i : RecordId) :
    (takes g c p).1.record i =
      if i ∈ (takes g c p).2 then { g.record i with state := .undeployed } else g.record i := by
  cases p with
  | starting =>
    cases c with
    | expiry j =>
      simp only [takes, drainFor_expiry]
      split
      · rfl
      · simp only [record_expire (hc j rfl) i, List.mem_singleton]
        split
        · rename_i hi
          rw [hi]
        · rfl
    | named sender name => exact record_drain hg _ i
    | departure m => exact record_drain hg _ i
    | sweep reason => rfl
    | stop =>
      have hflags : Evolves g { g with stopped := true, cancelled := true } 0 [] [] :=
        evolves_flags hg (List.Perm.refl _) rfl
      exact record_drain hflags.coherent _ i
  | checking left gone => exact record_drain hg _ i
  | _ => rfl

theorem caches_takes (hg : g.Coherent) (hc : ∀ i, c = .expiry i → i < g.records.length) {i : RecordId} :
    (takes g c p).1.Caches i ↔ g.Caches i ∧ i ∉ (takes g c p).2 := by
  have he := takes_evolves hg hc p
  by_cases hi : i < g.records.length
  · rw [← he.coherent.alive i (by rw [he.length]; exact hi), ← hg.alive i hi, ← Bool.not_eq_true, ← Bool.not_eq_true,
      he.undeployed]
    tauto
  · refine iff_of_false (fun h => hi ?_) fun h => hi (hg.lt h.1)
    have hlt := he.coherent.lt h
    rwa [he.length] at hlt

end Call

namespace Pool

variable {p : Pool} {k : Nat} {m : Move} {ms : List Move} {c : Cause} {i : RecordId}

/-- no alias has two slots -/
theorem Reachable.slots_nodup (hp : p.Reachable) (i : RecordId) :
    ((p.registry.record i).slots.map Prod.fst).Nodup := by
  refine hp.induct (P := fun p => ((p.registry.record i).slots.map Prod.fst).Nodup) ?_ ?_
  · intro timeout
    exact List.nodup_nil
  · intro p m hp hn
    obtain ⟨owner, hk⟩ := hp.kept
    rcases record_step hp.sound hk m i with hstore | ⟨j, reply, a, pt, n, -, -, hlooks⟩
    · rw [show ((p.step m).registry.record i).slots = (p.registry.record i).slots from congrArg Prod.snd hstore]
      exact hn
    · exact hlooks.slots_nodup hn

/-! ## Whom a sweep asks about -/

/-- the record, and the answer about its sender, in a move of the sweep at the place -/
def hearing? (k : Nat) (p : Pool) (m : Move) : Option (RecordId × Bool) :=
  match m, p.call? k with
  | .step j reply, some ⟨.removal _ _ (.checking (i :: _) _), true⟩ => if j = k then some (i, reply.live) else none
  | _, _ => none

/-- what the call at the place hears of the senders of records in a run -/
def hearings (p : Pool) (k : Nat) (ms : List Move) : List (RecordId × Bool) := p.seen (hearing? k) ms

theorem hearings_concat (p : Pool) (k : Nat) (ms : List Move) (m : Move) :
    p.hearings k (ms ++ [m]) = p.hearings k ms ++ (hearing? k (p.run ms) m).toList := seen_concat ..

theorem hearing?_eq_some {e : RecordId × Bool} (h : hearing? k p m = some e) :
    ∃ c total left gone reply, m = .step k reply ∧ p.call? k = some ⟨.removal c total (.checking (e.1 :: left) gone), true⟩ ∧
      reply.live = e.2 := by
  unfold hearing? at h
  split at h
  · rename_i j reply c total i left gone hc
    split at h
    · rename_i hj
      cases h
      exact ⟨c, total, left, gone, reply, by rw [hj], hc, rfl⟩
    · cases h
  · cases h

/-- a sweep stands there that has heard of the records of `heard`: those with a sender that is not live are on its list,
and no cached record is forgotten -/
def Surveyed (g : Registry) (heard : List (RecordId × Bool)) : RemovalPoint → Prop
  | .starting => heard = []
  | .checking left gone => gone = (heard.filter fun e => !e.2).map Prod.fst ∧
    (∀ i, g.Caches i → i ∈ heard.map Prod.fst ++ left) ∧ (heard.map Prod.fst ++ left).Nodup
  | _ => True

/-- while a removal holds the lock no record enters the cache -/
theorem caches_of_held (hp : p.Reachable) {total : Nat} {left gone : List RecordId} {b : Bool}
    (hc : p.call? k = some ⟨.removal c total (.checking left gone), b⟩) (h : (p.step m).registry.Caches i) :
    p.registry.Caches i := by
  rcases caches_step hp.sound h with ⟨hold, -⟩ | ⟨j, q, report, b', hj, -⟩
  · exact hold
  · obtain rfl := hp.locked.sole k j _ _ hc hj rfl rfl
    rw [hc] at hj
    cases hj

theorem surveyed_stays (hp : p.Reachable) {total : Nat} {pt : RemovalPoint} {b : Bool} {heard : List (RecordId × Bool)}
    (hc : p.call? k = some ⟨.removal c total pt, b⟩) (hs : Surveyed p.registry heard pt) (m : Move) :
    Surveyed (p.step m).registry heard pt := by
  cases pt with
  | starting => exact hs
  | checking left gone => exact ⟨hs.1, fun i hi => hs.2.1 i (caches_of_held hp hc hi), hs.2.2⟩
  | _ => exact trivial

/-- a sweep lists the cached records, and strikes one from the list when it hears of its sender -/
theorem surveyed_step (hp : p.Reachable) {reason : SweepReason} {total total' : Nat} {pt pt' : RemovalPoint}
    {b b' : Bool} {heard : List (RecordId × Bool)} (hc : p.call? k = some ⟨.removal (.sweep reason) total pt, b⟩)
    (hpt : pt.toTearDown? = none) (hc' : (p.step m).call? k = some ⟨.removal (.sweep reason) total' pt', b'⟩) (hpt' : pt'.toTearDown? = none)
    (hs : Surveyed p.registry heard pt) :
    Surveyed (p.step m).registry (heard ++ (hearing? k p m).toList) pt' := by
  cases hh : hearing? k p m with
  | some e =>
    obtain ⟨c, total₁, left, gone, reply, rfl, hc₁, hlive⟩ := hearing?_eq_some hh
    rw [hc] at hc₁
    cases hc₁
    obtain ⟨hgone, hall, hn⟩ := hs
    have hcall := call?_advance hc reply k
    rw [if_pos rfl, ← step_eq_advance hc (.inl rfl) (by simp [Call.needsLock]) reply, hc'] at hcall
    cases hcall
    refine ⟨?_, fun i hi => ?_, ?_⟩
    · cases hl : reply.live <;> simp [hgone, ← hlive, hl]
    · simpa using hall i (caches_of_held hp hc hi)
    · simpa using hn
  | none =>
    rw [Option.toList_none, List.append_nil]
    have hstays {b'' : Bool} (h : (p.step m).call? k = some ⟨.removal (.sweep reason) total pt, b''⟩) :
        Surveyed (p.step m).registry heard pt' := by
      rw [hc'] at h
      cases h
      exact surveyed_stays hp hc hs m
    by_cases hm : m.place? = some k
    · rcases step_self hm hc with h | h | ⟨reply, rfl, h, hready⟩
      · exact hstays (by rw [h]; exact hc)
      · exact hstays (by rw [h, call?_pose hc, if_pos rfl])
      · have hcall := call?_advance hc reply k
        rw [if_pos rfl, ← h, hc'] at hcall
        cases pt with
        | starting =>
          cases hcall
          rw [show heard = [] from hs, h]
          refine ⟨rfl, fun i hi => ?_, hp.sound.coherent.records_nodup⟩
          obtain ⟨d, hd⟩ := hi
          exact List.mem_map.2 ⟨_, hd, rfl⟩
        | checking left gone =>
          cases left with
          | nil =>
            -- it takes the records out, and has nothing more to ask
            obtain ⟨-, hn | ⟨hn, -⟩⟩ := underway?_eq_some.1 hcall.symm
            · cases Call.tearDown_next hn
              cases hpt'
            · obtain ⟨j, a, pt', hl, -⟩ := Call.lookup?_wait hn
              cases hl
          | cons i left =>
            rcases hready with hready | hready
            · obtain rfl : b = true := hready
              simp [hearing?, hc] at hh
            · cases hready
        | _ => cases hpt
    · exact hstays (by rw [call?_step_of_ne hm (lt_of_call? hc)]; exact hc)

theorem surveys_run (hp : p.Reachable) {reason : SweepReason} {total : Nat} {b : Bool}
    (hc : p.call? k = some ⟨.removal (.sweep reason) total .starting, b⟩) (ms : List Move) {total' : Nat}
    {pt : RemovalPoint} {b' : Bool} (hc' : (p.run ms).call? k = some ⟨.removal (.sweep reason) total' pt, b'⟩)
    (hpt : pt.toTearDown? = none) : Surveyed (p.run ms).registry (p.hearings k ms) pt := by
  induction ms using List.reverseRecOn generalizing total' pt b' with
  | nil =>
    rw [show p.run [] = p from rfl, hc] at hc'
    cases hc'
    rfl
  | append_singleton ms m ih =>
    have hr := hp.run ms
    rw [run_append] at hc' ⊢
    change ((p.run ms).step m).call? k = _ at hc'
    rw [hearings_concat]
    cases tearing_run hp hc rfl ms with
    | before hc₀ hpt₀ => exact surveyed_step hr hc₀ hpt₀ hc' hpt (ih hc₀ hpt₀)
    | midway hc₀ hmid =>
      -- what tears down goes on to, and comes to no point before that
      obtain ⟨queue, hq, -⟩ := hmid.toTearDown?
      rcases TearsDown.step (.inr ⟨_, queue, hc₀, hq, List.Subset.refl _⟩) m with hend | ⟨u, queue', hu, hq', -⟩
      · exact absurd hend (not_ended hc')
      · rw [hc'] at hu
        cases hu
        rw [show pt.toTearDown? = some queue' from hq'] at hpt
        cases hpt
    | ended ho => exact absurd ((hr.settled.returned k _ ho).step m) (not_ended hc')

/-- **a removal takes out the cached records that it names** -/
theorem mem_takes (hp : p.Reachable) {total : Nat} {pt : RemovalPoint} {b : Bool}
    (hc : p.call? k = some ⟨.removal c total pt, b⟩) (hd : c.isDrain = true) (hdraws : pt.Draws c)
    {heard : List (RecordId × Bool)} (hh : ∀ reason, c = .sweep reason → Surveyed p.registry heard pt) :
    i ∈ (Call.takes p.registry c pt).2 ↔ p.registry.Caches i ∧ c.Names heard p.registry i := by
  have hcoh := hp.sound.coherent
  rcases hdraws with ⟨rfl, hno⟩ | ⟨gone, rfl⟩
  · cases c with
    | named sender name =>
      simp only [Call.takes, Call.drainFor, mem_drain hcoh, Cause.Names, Bool.and_eq_true, beq_iff_eq,
        Record.hasName_iff (hp.slots_nodup i)]
    | departure m => simp only [Call.takes, Call.drainFor, mem_drain hcoh, Cause.Names, beq_iff_eq]
    | sweep reason => exact absurd rfl (hno reason)
    | _ => cases hd
  · obtain ⟨reason, rfl⟩ := hp.sweeps k c total [] gone b hc
    obtain ⟨rfl, -, -⟩ := hh reason rfl
    simp only [Call.takes, mem_drain hcoh, Cause.Names]
    simp

/-! ## What the moves of a removal leave alone -/

/-- the move leaves the record as it is, and where it is cached -/
structure Leaves (p : Pool) (m : Move) (i : RecordId) : Prop where
  record : (p.step m).registry.record i = p.registry.record i
  cache : ∀ d, (d, i) ∈ (p.step m).registry.cache ↔ (d, i) ∈ p.registry.cache

theorem leaves_of_registry (h : (p.step m).registry = p.registry) (i : RecordId) : p.Leaves m i :=
  ⟨by rw [h], fun d => by rw [h]⟩

/-- a move that is no step of a call leaves all records alone -/
theorem leaves_of_no_step (hm : ∀ j reply, m ≠ .step j reply) (i : RecordId) : p.Leaves m i := by
  have h := step_moved p m
  generalize hp' : p.step m = p' at h
  cases h with
  | step hc hready hlock => exact absurd rfl (hm _ _)
  | aside hnone ha => exact ⟨by rw [hp', ha.record], fun d => by rw [hp', ha.cache.mem_iff]⟩
  | _ => exact leaves_of_registry ((congrArg Pool.registry hp').trans rfl) i

/-- **the moves of a removal** order no eviction, leave alone every record that it has not taken out, and have those that
they take out undeployed, whatever they were -/
theorem own_frame (hp : p.Reachable) (h : p.Tearing ms k c) (hm : m.place? = some k) :
    ((p.run ms).step m).evictions = (p.run ms).evictions ∧
      (∀ i, ¬ p.TakenBy (ms ++ [m]) k i → (p.run ms).Leaves m i) ∧
      ∀ i, (p.run ms).TakesOut m i → ((p.run ms).step m).registry.record i =
        { (p.run ms).registry.record i with state := .undeployed } := by
  have hr := hp.run ms
  have hstill (hreg : ((p.run ms).step m).registry = (p.run ms).registry)
      (hev : ((p.run ms).step m).evictions = (p.run ms).evictions) :
      ((p.run ms).step m).evictions = (p.run ms).evictions ∧
        (∀ i, ¬ p.TakenBy (ms ++ [m]) k i → (p.run ms).Leaves m i) ∧
        ∀ i, (p.run ms).TakesOut m i → ((p.run ms).step m).registry.record i =
          { (p.run ms).registry.record i with state := .undeployed } :=
    ⟨hev, fun i _ => leaves_of_registry hreg i, fun i ht => absurd ht (not_takesOut hreg)⟩
  cases h with
  | @before total pt b hc hpt hlog hno =>
    rcases step_self hm hc with h | h | ⟨reply, -, h, -⟩
    · exact hstill (by rw [h]) (by rw [h])
    · exact hstill (by rw [h]; rfl) (by rw [h]; rfl)
    · rcases Call.advance_first hpt (p.run ms).registry { reply with now := (p.run ms).now } c total with
        ⟨total', pt', -, -, hreg, hrest⟩ | ⟨before, -, hb, hadv⟩
      · refine hstill (by rw [h]; exact hreg) ?_
        simp only [h, Pool.advance, evictions_rest hrest, List.append_nil]
      · obtain ⟨hreg, hev, -, hout⟩ := draw_step hr.sound hc hpt hb hadv h
        have hnamed : ∀ i, c = .expiry i → i < (p.run ms).registry.records.length := by
          rintro i rfl
          exact hr.sound.named k _ hc i List.mem_cons_self
        have hrecord := Call.record_takes hr.sound.coherent hnamed (p := pt)
        refine ⟨hev, fun i hi => ?_, fun i ht => ?_⟩
        · have hno' : i ∉ (Call.takes (p.run ms).registry c pt).2 := fun h =>
            hi (takenBy_concat.2 (.inr ⟨hm, (hout i).2 h⟩))
          have hsame : ((p.run ms).step m).registry.record i = (p.run ms).registry.record i := by
            rw [hreg, hrecord, if_neg hno']
          refine ⟨hsame, fun d => ?_⟩
          rw [(hr.step m).sound.coherent.mem_iff, hr.sound.coherent.mem_iff, hsame, hreg,
            Call.caches_takes hr.sound.coherent hnamed]
          tauto
        · rw [hreg, hrecord, if_pos ((hout i).1 ht)]
  | midway hc hmid hn htaken =>
    obtain ⟨queue, hq, hsub⟩ := hmid.toTearDown?
    have htears : (p.run ms).TearsDown k queue := .inr ⟨_, queue, hc, hq, List.Subset.refl _⟩
    obtain ⟨hcache, hev, hrecord⟩ := htears.frame hm
    refine ⟨hev, fun i hi => ⟨hrecord i fun hiq => hi ?_, fun d => by rw [hcache]⟩, fun i ht => ?_⟩
    · exact takenBy_concat.2 (.inl ((htaken i).2 (hsub hiq)))
    · obtain ⟨⟨d, hold⟩, hnew⟩ := ht
      exact absurd ⟨d, by rw [hcache]; exact hold⟩ hnew
  | ended ho hlog hn htaken =>
    have h := step_of_ended hm (hr.settled.returned k _ ho).2
    exact hstill (by rw [h]) (by rw [h])

/-- what a move changes for the first time in a run -/
theorem exists_change {P : Pool → Prop} (h : P p) (hno : ¬ P (p.run ms)) :
    ∃ before m after, ms = before ++ m :: after ∧ P (p.run before) ∧ ¬ P ((p.run before).step m) := by
  induction ms generalizing p with
  | nil => exact absurd h hno
  | cons m ms ih =>
    by_cases hm : P (p.step m)
    · obtain ⟨before, m', after, rfl, hold, hnew⟩ := ih hm hno
      exact ⟨m :: before, m', after, rfl, hold, hnew⟩
    · exact ⟨[], m, ms, rfl, h, hm⟩

/-- **a removal that ends has taken its records out in one move**, all of them -/
theorem exists_draw (hp : p.Reachable) {total : Nat} {pt : RemovalPoint} {b : Bool}
    (hc : p.call? k = some ⟨.removal c total pt, b⟩) (hpt : pt.toTearDown? = none) (he : (p.run ms).Ended k) :
    ∃ before m after total' pt' b', ms = before ++ m :: after ∧ m.place? = some k ∧
      (p.run before).call? k = some ⟨.removal c total' pt', b'⟩ ∧ pt'.Draws c ∧
      (∃ reply, (p.run before).step m = (p.run before).advance k (.removal c total' pt') reply) ∧
      (∀ i, (p.run before).TakesOut m i ↔ i ∈ (Call.takes (p.run before).registry c pt').2) ∧
      ∀ i, p.TakenBy ms k i ↔ (p.run before).TakesOut m i := by
  obtain ⟨before, m, after, rfl, ⟨total', pt', b', hc', hpt'⟩, hnew⟩ := exists_change
    (P := fun q => ∃ total pt b, q.call? k = some ⟨.removal c total pt, b⟩ ∧ pt.toTearDown? = none)
    ⟨total, pt, b, hc, hpt⟩ fun ⟨total', pt', b', hc', _⟩ => not_ended hc' he
  have hr := hp.run before
  have hm : m.place? = some k := by
    by_contra hm
    exact hnew ⟨total', pt', b', (call?_step_of_ne hm (lt_of_call? hc')).trans hc', hpt'⟩
  refine ⟨before, m, after, total', pt', b', rfl, hm, hc', ?_⟩
  rcases step_self hm hc' with h | h | ⟨reply, -, h, -⟩
  · exact absurd ⟨total', pt', b', by rw [h]; exact hc', hpt'⟩ hnew
  · exact absurd ⟨total', pt', true, by rw [h, call?_pose hc', if_pos rfl], hpt'⟩ hnew
  · have hcall := call?_advance hc' reply k
    rw [if_pos rfl, ← h] at hcall
    rcases Call.advance_first hpt' (p.run before).registry { reply with now := (p.run before).now } c total' with
      ⟨total₂, pt₂, hn, hpt₂, -⟩ | ⟨notices, hdraws, hb, hadv⟩
    · rw [hn] at hcall
      exact absurd ⟨total₂, pt₂, false, hcall, hpt₂⟩ hnew
    · obtain ⟨-, -, -, hout⟩ := draw_step hr.sound hc' hpt' hb hadv h
      refine ⟨hdraws, ⟨reply, h⟩, hout, fun i => ⟨fun ht => ?_, fun ht => ⟨before, m, after, rfl, hm, ht⟩⟩⟩
      have hlate : p.TakenBy (before ++ [m]) k i := by
        cases tearing_run hp hc hpt (before ++ [m]) with
        | before hc₂ hpt₂ =>
          rw [run_append] at hc₂
          exact absurd ⟨_, _, _, hc₂, hpt₂⟩ hnew
        | midway hc₂ hmid =>
          obtain ⟨queue, hq, -⟩ := hmid.toTearDown?
          exact TearsDown.takenBy (.inr ⟨_, queue, hc₂, hq, List.Subset.refl _⟩) (List.append_cons .. ▸ ht)
        | ended ho =>
          have htears : (p.run (before ++ [m])).TearsDown k [] := .inl ((hp.run _).settled.returned k _ ho)
          exact htears.takenBy (List.append_cons .. ▸ ht)
      refine ((takenBy_concat.1 hlate).resolve_left ?_).2
      cases tearing_run hp hc hpt before with
      | before hc₂ hpt₂ hlog hno => exact hno i
      | midway hc₂ hmid =>
        obtain ⟨queue, hq, -⟩ := hmid.toTearDown?
        rw [hc'] at hc₂
        cases hc₂
        rw [hpt'] at hq
        cases hq
      | ended ho => exact absurd (hr.settled.returned k _ ho) (not_ended hc')

/-- in the run no call but the one at the place does a step: nobody calls back into the registry -/
def Solely (k : Nat) (ms : List Move) : Prop := ∀ j reply, .step j reply ∈ ms → j = k

/-- a removal that has the registry to itself leaves alone all that it does not take out -/
theorem solely_frame (hp : p.Reachable) {total : Nat} {pt : RemovalPoint} {b : Bool}
    (hc : p.call? k = some ⟨.removal c total pt, b⟩) (hpt : pt.toTearDown? = none) (hs : Solely k ms)
    (hi : ¬ p.TakenBy ms k i) :
    (p.run ms).registry.record i = p.registry.record i ∧
      ∀ d, (d, i) ∈ (p.run ms).registry.cache ↔ (d, i) ∈ p.registry.cache := by
  induction ms using List.reverseRecOn with
  | nil => exact ⟨rfl, fun _ => .rfl⟩
  | append_singleton ms m ih =>
    obtain ⟨hrecord, hcache⟩ := ih (fun j reply h => hs j reply (List.mem_append_left _ h)) fun h => hi (h.append [m])
    have hleaves : (p.run ms).Leaves m i := by
      by_cases hm : m.place? = some k
      · exact (own_frame hp (tearing_run hp hc hpt ms) hm).2.1 i hi
      · refine leaves_of_no_step ?_ i
        rintro j reply rfl
        exact hm (by rw [hs j reply (by simp)]; rfl)
    rw [run_append]
    exact ⟨hleaves.record.trans hrecord, fun d => (hleaves.cache d).trans (hcache d)⟩

/-! ## Exactly what is named -/

/-- in the run of the moves the removal at the place has taken its records out in the move `m`, after `before` -/
structure Drained (p : Pool) (ms : List Move) (k : Nat) (c : Cause) (before : List Move) (m : Move) : Prop where
  split : ∃ after, ms = before ++ m :: after
  own : m.place? = some k
  /-- it has taken out the cached records that it names -/
  named : ∀ i, p.TakenBy ms k i ↔
    (p.run before).registry.Caches i ∧ c.Names (p.hearings k before) (p.run before).registry i
  /-- a sweep has asked once about every record cached then -/
  asked : ∀ reason, c = .sweep reason → ((p.hearings k before).map Prod.fst).Nodup ∧
    ∀ i, (p.run before).registry.Caches i → ∃ live, (i, live) ∈ p.hearings k before
  /-- what was active or pending is undeployed, and else as it was -/
  undeployed : ∀ i, p.TakenBy ms k i →
    (((p.run before).registry.record i).state = .active ∨
      ((p.run before).registry.record i).state = .pendingUndeploy) ∧
    ((p.run before).step m).registry.record i = { (p.run before).registry.record i with state := .undeployed }

theorem exists_drained (hp : p.Reachable) {total : Nat} {b : Bool}
    (hc : p.call? k = some ⟨.removal c total .starting, b⟩) (hd : c.isDrain = true) (he : (p.run ms).Ended k) :
    ∃ before m, p.Drained ms k c before m := by
  obtain ⟨before, m, after, total', pt, b', rfl, hm, hc', hdraws, -, hout, htaken⟩ := exists_draw hp hc rfl he
  have hr := hp.run before
  have hpt : pt.toTearDown? = none := by
    rcases hdraws with ⟨rfl, -⟩ | ⟨gone, rfl⟩ <;> rfl
  have hsurvey : ∀ reason, c = .sweep reason → Surveyed (p.run before).registry (p.hearings k before) pt := by
    rintro reason rfl
    exact surveys_run hp hc before hc' hpt
  refine ⟨before, m, ⟨after, rfl⟩, hm, fun i => ?_, ?_, fun i ht => ?_⟩
  · rw [htaken, hout, mem_takes hr hc' hd hdraws hsurvey]
  · rintro reason rfl
    rcases hdraws with ⟨-, hno⟩ | ⟨gone, rfl⟩
    · exact absurd rfl (hno reason)
    · obtain ⟨-, hall, hn⟩ := hsurvey reason rfl
      simp only [List.append_nil] at hall hn
      refine ⟨hn, fun i hi => ?_⟩
      obtain ⟨⟨j, live⟩, he, rfl⟩ := List.mem_map.1 (hall i hi)
      exact ⟨live, he⟩
  · have hnow := (htaken i).1 ht
    refine ⟨?_, (own_frame hp (tearing_run hp hc rfl before) hm).2.2 i hnow⟩
    have hu := hr.sound.coherent.not_undeployed hnow.1
    unfold Record.isUndeployed at hu
    cases hst : ((p.run before).registry.record i).state with
    | active => exact .inl rfl
    | pendingUndeploy => exact .inr rfl
    | undeployed => simp [hst] at hu

/-- what a removal names depends on the record, and on what it has heard of it -/
theorem names_congr {g g' : Registry} {heard heard' : List (RecordId × Bool)} (hr : g'.record i = g.record i)
    (hh : ∀ reason, c = .sweep reason → (i, false) ∈ heard' → (i, false) ∈ heard) (h : c.Names heard' g' i) :
    c.Names heard g i := by
  cases c with
  | named sender name => simpa only [Cause.Names, hr] using h
  | departure m => simpa only [Cause.Names, hr] using h
  | sweep reason => exact hh reason rfl h
  | _ => exact h.elim

/-- the same removal, when all others have held still since, names nothing that is cached -/
theorem drained_again (hp : p.Reachable) {total : Nat} {b : Bool}
    (hc : p.call? k = some ⟨.removal c total .starting, b⟩) {before : List Move} (hdrained : p.Drained ms k c before m)
    (hs : Solely k ms) (hnew : (Call.remove c).IsNew (p.run ms).registry = true) {ms₂ before₂ : List Move} {m₂ : Move}
    {k₂ : Nat} (hk : k₂ = (p.run ms).calls.length) (hs₂ : Solely k₂ ms₂)
    (hdrained₂ : ((p.run ms).step (.enter (.remove c))).Drained ms₂ k₂ c before₂ m₂)
    (hsame : ∀ i live live', (i, live) ∈ p.hearings k ms →
      (i, live') ∈ ((p.run ms).step (.enter (.remove c))).hearings k₂ ms₂ → live' = live) :
    ¬ ((p.run ms).step (.enter (.remove c))).TakenBy ms₂ k₂ i := by
  intro ht
  obtain ⟨hcached, hnames⟩ := (hdrained₂.named i).1 ht
  obtain ⟨after, hsplit⟩ := hdrained.split
  obtain ⟨after₂, hsplit₂⟩ := hdrained₂.split
  have hp₂ := (hp.run ms).step (.enter (.remove c))
  have henter : (p.run ms).step (.enter (.remove c)) = (p.run ms).enter (.remove c) := by simp [Pool.step, hnew]
  have hreg : ((p.run ms).step (.enter (.remove c))).registry = (p.run ms).registry := by rw [henter]; rfl
  have hc₂ : ((p.run ms).step (.enter (.remove c))).call? k₂ = some ⟨.removal c 0 .starting, false⟩ := by
    rw [henter, call?_enter, if_pos hk]
    rfl
  have hear {l : List (RecordId × Bool)} {q : Pool} {j : Nat} {x : List Move} {y : Move} {z : List Move}
      (h : l = q.hearings j x) : l ⊆ q.hearings j (x ++ y :: z) := by
    rw [h, hearings, hearings, seen_append]
    exact List.subset_append_left _ _
  generalize (p.run ms).step (.enter (.remove c)) = p₂ at ht hcached hnames hp₂ hreg hc₂ hdrained₂ hsame
  -- the record is cached now, so neither removal has taken it out before
  have hlive := (hp₂.run before₂).sound.coherent.not_undeployed hcached
  have hno₂ : ¬ p₂.TakenBy before₂ k₂ i := by
    intro h
    rw [h.undeployed hp₂] at hlive
    cases hlive
  obtain ⟨hrecord₂, hcache₂⟩ := solely_frame hp₂ hc₂ rfl
    (fun j reply h => hs₂ j reply (by rw [hsplit₂]; exact List.mem_append_left _ h)) hno₂
  have hcached' : (p.run ms).registry.Caches i := by
    obtain ⟨d, hd⟩ := hcached
    exact ⟨d, hreg ▸ (hcache₂ d).1 hd⟩
  have hlive' := (hp.run ms).sound.coherent.not_undeployed hcached'
  have hno : ¬ p.TakenBy ms k i := by
    intro h
    rw [h.undeployed hp] at hlive'
    cases hlive'
  obtain ⟨hrecord, hcache⟩ := solely_frame hp hc rfl hs hno
  obtain ⟨hrecord₀, hcache₀⟩ := solely_frame hp hc rfl
    (fun j reply h => hs j reply (by rw [hsplit]; exact List.mem_append_left _ h))
    (fun h => hno (by rw [hsplit]; exact h.append _))
  have hcached₀ : (p.run before).registry.Caches i := by
    obtain ⟨d, hd⟩ := hcached'
    exact ⟨d, (hcache₀ d).2 ((hcache d).1 hd)⟩
  refine hno ((hdrained.named i).2 ⟨hcached₀, names_congr ?_ ?_ hnames⟩)
  · rw [hrecord₂, hreg, hrecord, hrecord₀]
  · intro reason hreason hheard
    obtain ⟨live, hlive⟩ := (hdrained.asked reason hreason).2 i hcached₀
    have heq := hsame i live false (by rw [hsplit]; exact hear rfl hlive) (by rw [hsplit₂]; exact hear rfl hheard)
    rw [heq]
    exact hlive

/-- **drains are exact**: whatever else happens, a departure, the withdrawal of a name or a sweep that ends has taken out in
one move exactly the cached records that it names, has returned their number, and has told about each of them, with the
departed member if it is a departure, and then that is the sender. No move of it orders or withdraws an eviction, or
touches a record that it does not take out. If nobody calls back into the registry, and the members that a sweep asks about
are live or not as they were, the same removal again takes out nothing. Left alone with the lock it ends. -/
theorem drain_exact (hp : p.Reachable) {total : Nat} {b : Bool}
    (hc : p.call? k = some ⟨.removal c total .starting, b⟩) (hd : c.isDrain = true) (ms : List Move) :
    ((p.run ms).Ended k → (∃ before m, p.Drained ms k c before m) ∧
        ∃ visits : List Visit, (visits.map Visit.record).Nodup ∧
          (∀ i, p.TakenBy ms k i ↔ i ∈ visits.map Visit.record) ∧ (p.run ms).Returned k (.removed visits.length) ∧
          p.beats k ms = visits.flatMap (Visit.script c.departed)) ∧
      (∀ d, c.departed = some d ↔ c = .departure d) ∧
      (∀ d, c.departed = some d → ∀ i, p.TakenBy ms k i → ((p.run ms).registry.record i).sender = d) ∧
      (∀ before m after, ms = before ++ m :: after → m.place? = some k →
        ((p.run before).step m).evictions = (p.run before).evictions ∧
          ∀ i, ¬ p.TakenBy ms k i → (p.run before).Leaves m i) ∧
      ((p.run ms).Ended k → Solely k ms → (Call.remove c).IsNew (p.run ms).registry = true →
        let p₂ := (p.run ms).step (.enter (.remove c))
        let k₂ := (p.run ms).calls.length
        ∀ ms₂, Solely k₂ ms₂ → (p₂.run ms₂).Ended k₂ →
          (∀ i live live', (i, live) ∈ p.hearings k ms → (i, live') ∈ p₂.hearings k₂ ms₂ → live' = live) →
          (p₂.run ms₂).Returned k₂ (.removed 0) ∧ ∀ i, ¬ p₂.TakenBy ms₂ k₂ i) ∧
      (p.isFree k = true → ∀ replies, ∃ n, (p.run (answeredTurns k replies n)).Ended k) := by
  have hvisits {p : Pool} {k : Nat} {ms : List Move} {total : Nat} {b : Bool} (hp : p.Reachable)
      (hc : p.call? k = some ⟨.removal c total .starting, b⟩) (he : (p.run ms).Ended k) :
      ∃ visits : List Visit, (visits.map Visit.record).Nodup ∧
        (∀ i, p.TakenBy ms k i ↔ i ∈ visits.map Visit.record) ∧ (p.run ms).Returned k (.removed visits.length) ∧
        p.beats k ms = visits.flatMap (Visit.script c.departed) := by
    cases tearing_run hp hc rfl ms with
    | before hc' => exact absurd he (not_ended hc')
    | midway hc' => exact absurd he (not_ended hc')
    | ended ho hlog hn htaken => exact ⟨_, hn, htaken, ho, hlog⟩
  have hdeparted (d : MemberId) : c.departed = some d ↔ c = .departure d := by
    cases c <;> simp [Cause.departed]
  refine ⟨fun he => ⟨exists_drained hp hc hd he, hvisits hp hc he⟩, hdeparted, ?_, ?_, ?_, ended_of_alone hp hc⟩
  · intro d hcause i ht
    obtain rfl := (hdeparted d).1 hcause
    obtain ⟨before, m, after, rfl, hm, hout⟩ := ht
    have hr := hp.run before
    rcases removal_run hc before with hend | ⟨total', pt, b', hc'⟩
    · exact absurd hout (not_takesOut (by rw [step_of_ended hm hend.2]))
    · obtain ⟨hcached, hsender⟩ := (takesOut_departure hr hc' hm hout i).1 hout
      rw [run_append, (identity_run hr (hr.sound.coherent.lt hcached) _).2.2.1, hsender]
  · intro before m after hsplit hm
    obtain ⟨hev, hleaves, -⟩ := own_frame hp (tearing_run hp hc rfl before) hm
    refine ⟨hev, fun i hi => hleaves i fun h => hi ?_⟩
    rw [hsplit, List.append_cons]
    exact h.append after
  · intro he hs hnew p₂ k₂ ms₂ hs₂ he₂ hsame
    have hp₂ : p₂.Reachable := (hp.run ms).step _
    have hc₂ : p₂.call? k₂ = some ⟨.removal c 0 .starting, false⟩ := by
      have henter : p₂ = (p.run ms).enter (.remove c) := by simp [p₂, Pool.step, hnew]
      rw [henter, call?_enter, if_pos rfl]
      rfl
    obtain ⟨before, m, hdrained⟩ := exists_drained hp hc hd he
    obtain ⟨before₂, m₂, hdrained₂⟩ := exists_drained hp₂ hc₂ hd he₂
    have hno (i : RecordId) : ¬ p₂.TakenBy ms₂ k₂ i :=
      drained_again hp hc hdrained hs hnew rfl hs₂ hdrained₂ hsame
    obtain ⟨visits, -, htaken, ho, -⟩ := hvisits hp₂ hc₂ he₂
    refine ⟨?_, hno⟩
    have hnil : visits = [] := by
      refine List.eq_nil_iff_forall_not_mem.2 fun v hv => hno v.record ?_
      exact (htaken _).2 (List.mem_map.2 ⟨v, hv, rfl⟩)
    rw [hnil] at ho
    exact ho

/-- one sender has a module under a name, fails to get one under that name as an alias, and another sender has one; the
first withdraws the name, twice -/
theorem withdrawn_by_name :
    let x : Request := { id := ⟨"x"⟩, sender := ⟨"s"⟩, seq := 1, moduleAlias := "a" }
    let y : Request := { id := ⟨"y"⟩, sender := ⟨"s"⟩, seq := 2, moduleAlias := "m" }
    let z : Request := { id := ⟨"z"⟩, sender := ⟨"t"⟩, seq := 1, moduleAlias := "a" }
    let c : Cause := .named ⟨"s"⟩ "m"
    let p := (new 100).run (
      .enter (.request x true .entering) :: turns 0 { module := .ok ⟨"m", false⟩ } 8 ++
      .enter (.request y true .entering) :: turns 1 {} 8 ++
      .enter (.request z true .entering) :: turns 2 { module := .ok ⟨"m", false⟩ } 8 ++
      ([.enter (.remove c)] : List Move))
    let ms := turns 3 {} 3
    let p₂ := (p.run ms).step (.enter (.remove c))
    p.call? 3 = some ⟨.remove c, false⟩ ∧ (p.run ms).Ended 3 ∧ (p.run ms).Returned 3 (.removed 1) ∧
      p.TakenBy ms 3 0 ∧ ¬ p.TakenBy ms 3 1 ∧ ¬ p.TakenBy ms 3 2 ∧ p.registry.cache.map Prod.snd = [0, 1, 2] ∧
      (p₂.run (turns 4 {} 1)).Returned 4 (.removed 0) := by
  intro x y z c p ms p₂
  have hp : p.Reachable := ⟨100, _, rfl⟩
  have hc : p.call? 3 = some ⟨.remove c, false⟩ := by decide +kernel
  have ho : (p.run ms).Returned 3 (.removed 1) := by decide +kernel
  have hend := (hp.run ms).settled.returned 3 _ ho
  have hend₂ : (p₂.run (turns 4 {} 1)).Ended 4 := by
    refine ((hp.run ms).step _).run _ |>.settled.returned 4 (.removed 0) ?_
    decide +kernel
  have hplace : (p.run ms).calls.length = 4 := by decide +kernel
  have hcached : p.registry.cache.map Prod.snd = [0, 1, 2] := by decide +kernel
  have hleft : (p.run ms).registry.cache.map Prod.snd = [1, 2] := by decide +kernel
  have hheard : p₂.hearings 4 (turns 4 {} 1) = [] := by decide +kernel
  have hsole : Solely 3 ms := by
    intro j reply h
    simp [ms, turns] at h
    exact h.1
  have hsole₂ : Solely 4 (turns 4 {} 1) := by
    intro j reply h
    simp [turns] at h
    exact h.1
  have hdraw : ms = [.ask 3] ++ .step 3 {} :: turns 3 {} 2 := rfl
  have hfirst : (⟨"x"⟩, 0) ∈ (p.step (.ask 3)).registry.cache := by decide +kernel
  have hsecond : ((p.step (.ask 3)).step (.step 3 {})).registry.cache.map Prod.snd = [1, 2] := by decide +kernel
  have hnew : (Call.remove c).IsNew (p.run ms).registry = true := rfl
  have hp' := hp.run ms
  obtain ⟨-, -, -, -, hagain, -⟩ := drain_exact hp hc rfl ms
  have htwice := (hagain hend hsole hnew (turns 4 {} 1)
    (by rw [hplace]; exact hsole₂) (by rw [hplace]; exact hend₂) (by
      intro i live live' _ h
      rw [hplace] at h
      rw [show ((p.run ms).step (.enter (.remove c))).hearings 4 (turns 4 {} 1) = [] from hheard] at h
      cases h)).1
  rw [hplace] at htwice
  clear_value p ms
  have htaken : p.TakenBy ms 3 0 := by
    refine ⟨[.ask 3], .step 3 {}, turns 3 {} 2, hdraw, rfl, ⟨⟨"x"⟩, hfirst⟩, ?_⟩
    rintro ⟨d, hd⟩
    have hmem := List.mem_map_of_mem (f := Prod.snd) hd
    rw [show p.run [.ask 3] = p.step (.ask 3) from rfl, hsecond] at hmem
    simp at hmem
  have hstays {i : RecordId} (hi : i ∈ (p.run ms).registry.cache.map Prod.snd) : ¬ p.TakenBy ms 3 i := by
    intro h
    obtain ⟨⟨d, j⟩, hd, rfl⟩ := List.mem_map.1 hi
    have hu := h.undeployed hp
    rw [hp'.sound.coherent.not_undeployed ⟨d, hd⟩] at hu
    cases hu
  refine ⟨hc, hend, ho, htaken, hstays ?_, hstays ?_, hcached, htwice⟩ <;> simp [hleft]

end Pool

end Redeploy
