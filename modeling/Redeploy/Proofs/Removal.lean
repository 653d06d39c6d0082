/-
What a removal does after its records are out of the cache, whoever fails.

It tears them down one after the other. Of each it tells the sink, reads the hooks once the sink has returned, tells each
of these in order, and has the context release what it holds. Any other calls may happen between two of these, and hooks
may be added. Those that are told may fail; then a line is logged, and that is all that differs.

`beats` is what is seen of one call while others go on. `Midway` lists the stages of a teardown, each with what was seen
until then; a step leads from one stage to the next (`Midway.asks`, `Midway.returns`), and `tearing_run` carries that
along a run.

Results:
- `tearing_run`: where a removal stands, and what was seen of it;
- `TakenBy.unique`, `beats_apart`: a record is taken out by one call, and no other tells about it;
- `ended_of_alone`: a removal that has the lock to itself ends, whatever it is answered;
- `muted_run`: runs that differ in failures alone differ in the log of failures alone;
- **`teardown_immune`**: the whole sequence, of every removal.
-/
import Redeploy.Proofs.Departure
import Redeploy.Proofs.Shutdown

namespace Redeploy

open Registry

/-! ## What is seen of a removal -/

inductive Beat where
  /-- it tells a sink, a hook or a context -/
  | tells (query : Query)
  /-- the sink has returned; the hooks registered now are those that will be told -/
  | reads (record : RecordId) (hooks : List Nat)
deriving DecidableEq, Repr

/-- the record that it is about -/
def Beat.record? : Beat → Option RecordId
  | .tells q => q.tornDown?
  | .reads i _ => some i

/-- one record in the course of a removal, with the hooks that were read for it -/
structure Visit where
  record : RecordId
  hooks : List Nat
deriving DecidableEq, Repr

/-- the teardown of the record from beginning to end -/
def Visit.script (departed : Option MemberId) (v : Visit) : List Beat :=
  Beat.tells (.undeployed v.record departed) :: Beat.reads v.record v.hooks ::
    v.hooks.map (fun h => Beat.tells (.hook h v.record departed)) ++ [Beat.tells (.release v.record)]

namespace Call

/-- what the call tells with its query -/
def tells? (g : Registry) (c : Call) : Option Beat :=
  if (c.query g).tornDown?.isSome then some (.tells (c.query g)) else none

/-- what the call reads with its next step -/
def reads? (g : Registry) : Call → Option Beat
  | .removal _ _ (.telling (i :: _)) => some (.reads i g.hooks)
  | _ => none

theorem tells?_of_tornDown? {g : Registry} {c : Call} {i : RecordId} (h : (c.query g).tornDown? = some i) :
    c.tells? g = some (.tells (c.query g)) := by
  simp [tells?, h]

/-- nothing is told before the records are taken out -/
theorem tells?_of_toTearDown? {c : Call} (h : c.toTearDown? = none) (g : Registry) : c.tells? g = none := by
  cases hq : (c.query g).tornDown? with
  | none => simp [tells?, hq]
  | some i =>
    obtain ⟨queue, hqueue, -⟩ := tornDown?_query hq
    rw [h] at hqueue
    cases hqueue

theorem reads?_of_toTearDown? {c : Call} (h : c.toTearDown? = none) (g : Registry) : c.reads? g = none := by
  unfold reads?
  split
  · cases h
  · rfl

end Call

/-- `Midway d gone log visits p asking`: a removal that has taken out the records of `gone`, and stands at `p`, with its
query put or not. What was seen of it is `log`, and it is done with `visits`. -/
inductive Midway (d : Option MemberId) (gone : List RecordId) :
    List Beat → List Visit → RemovalPoint → Bool → Prop
  | telling {visits : List Visit} {i : RecordId} {rest : List RecordId}
    (hg : gone = visits.map Visit.record ++ i :: rest) :
    Midway d gone (visits.flatMap (Visit.script d)) visits (.telling (i :: rest)) false
  | told {visits : List Visit} {i : RecordId} {rest : List RecordId}
    (hg : gone = visits.map Visit.record ++ i :: rest) :
    Midway d gone (visits.flatMap (Visit.script d) ++ [Beat.tells (.undeployed i d)]) visits (.telling (i :: rest)) true
  /-- the hooks of `before` were told -/
  | hooking {visits : List Visit} {i : RecordId} {rest : List RecordId} {before : List Nat} {hook : Nat}
    {after : List Nat} (hg : gone = visits.map Visit.record ++ i :: rest) :
    Midway d gone
      (visits.flatMap (Visit.script d) ++ [Beat.tells (.undeployed i d), Beat.reads i (before ++ hook :: after)] ++
        before.map fun h => Beat.tells (.hook h i d))
      visits (.hooking (hook :: after) (i :: rest)) false
  | hooked {visits : List Visit} {i : RecordId} {rest : List RecordId} {before : List Nat} {hook : Nat}
    {after : List Nat} (hg : gone = visits.map Visit.record ++ i :: rest) :
    Midway d gone
      (visits.flatMap (Visit.script d) ++ [Beat.tells (.undeployed i d), Beat.reads i (before ++ hook :: after)] ++
        (before ++ [hook]).map fun h => Beat.tells (.hook h i d))
      visits (.hooking (hook :: after) (i :: rest)) true
  | releasing {visits : List Visit} {i : RecordId} {rest : List RecordId} {hooks : List Nat}
    (hg : gone = visits.map Visit.record ++ i :: rest) :
    Midway d gone
      (visits.flatMap (Visit.script d) ++ [Beat.tells (.undeployed i d), Beat.reads i hooks] ++
        hooks.map fun h => Beat.tells (.hook h i d))
      visits (.releasing (i :: rest)) false
  | released {visits : List Visit} {i : RecordId} {rest : List RecordId} {hooks : List Nat}
    (hg : gone = visits.map Visit.record ++ i :: rest) :
    Midway d gone ((visits ++ [Visit.mk i hooks]).flatMap (Visit.script d)) visits (.releasing (i :: rest)) true

namespace Midway

variable {g : Registry} {c : Cause} {d : Option MemberId} {gone : List RecordId} {log : List Beat} {visits : List Visit}
  {p : RemovalPoint} {asking : Bool}

theorem toTearDown? (h : Midway d gone log visits p asking) :
    ∃ queue, p.toTearDown? = some queue ∧ queue ⊆ gone := by
  cases h <;> subst_vars <;> exact ⟨_, rfl, List.subset_append_right _ _⟩

/-- what was seen is the beginning of all that will be seen -/
theorem log_prefix (h : Midway d gone log visits p asking) :
    ∃ all : List Visit, log <+: all.flatMap (Visit.script d) ∧ all.map Visit.record = gone := by
  -- a record whose hooks were not read is visited with none; those after it are still to come
  have hall (i : RecordId) (rest : List RecordId) (hooks : List Nat) {part : List Beat}
      (hg : gone = visits.map Visit.record ++ i :: rest) (hp : part <+: Visit.script d ⟨i, hooks⟩) :
      ∃ all : List Visit, visits.flatMap (Visit.script d) ++ part <+: all.flatMap (Visit.script d) ∧
        all.map Visit.record = gone := by
    refine ⟨visits ++ ⟨i, hooks⟩ :: rest.map fun j => ⟨j, []⟩, ?_, ?_⟩
    · rw [List.flatMap_append, List.flatMap_cons]
      exact (List.prefix_append_right_inj _).2 (hp.trans (List.prefix_append _ _))
    · simp [hg, Function.comp_def]
  cases h with
  | @telling _ i rest hg => simpa using hall i rest [] hg List.nil_prefix
  | @told _ i rest hg => exact hall i rest [] hg (by simp [Visit.script])
  | @hooking _ i rest before hook after hg =>
    rw [List.append_assoc]
    exact hall i rest (before ++ hook :: after) hg (by simp [Visit.script])
  | @hooked _ i rest before hook after hg =>
    rw [List.append_assoc]
    exact hall i rest (before ++ hook :: after) hg (by simp [Visit.script])
  | @releasing _ i rest hooks hg =>
    rw [List.append_assoc]
    exact hall i rest hooks hg (by simp [Visit.script])
  | @released _ i rest hooks hg =>
    rw [List.flatMap_append]
    exact hall i rest hooks hg (by simp)

/-- a removal that has not put its query does so next, and tells somebody by it -/
theorem asks (h : Midway c.departed gone log visits p false) (g : Registry) (total : Nat) :
    ((Call.removal c total p).query g).tornDown?.isSome ∧
      Midway c.departed gone (log ++ [Beat.tells ((Call.removal c total p).query g)]) visits p true := by
  generalize hb : false = b at h
  cases h with
  | telling hg => exact ⟨rfl, .told hg⟩
  | @hooking _ i rest before hook after hg =>
    refine ⟨rfl, ?_⟩
    have h := @Midway.hooked c.departed gone visits i rest before hook after hg
    rw [List.map_append, ← List.append_assoc] at h
    exact h
  | @releasing _ i rest hooks hg =>
    refine ⟨rfl, ?_⟩
    have h := @Midway.released c.departed gone visits i rest hooks hg
    rw [List.flatMap_append] at h
    simpa [Visit.script, Call.query] using h
  | _ => cases hb

/-- a removal that is answered goes on to its next stage, or ends, whatever the answer is -/
theorem returns (h : Midway c.departed gone log visits p true)
    (hfree : ∀ i ∈ p.unclaimed true, (g.record i).released = false) (reply : Reply) (total : Nat) :
    (∃ visits' p', (Call.advance g reply (.removal c total p)).next = .go (.removal c total p') ∧
        Midway c.departed gone (log ++ ((Call.removal c total p).reads? g).toList) visits' p' false) ∨
      (Call.advance g reply (.removal c total p)).next = .done (.removed total) ∧
        ∃ visits' : List Visit,
          log ++ ((Call.removal c total p).reads? g).toList = visits'.flatMap (Visit.script c.departed) ∧
            visits'.map Visit.record = gone := by
  have hclaim {i : RecordId} {rest : List RecordId} {before : List Effect} (hr : (g.record i).released = false) :
      (Call.release g c total before i rest).next = .go (.removal c total (.releasing (i :: rest))) := by
    simp [Call.release, hr]
  generalize hb : true = b at h
  cases h with
  | @told _ i rest hg =>
    left
    cases hh : g.hooks with
    | nil =>
      refine ⟨visits, .releasing (i :: rest), ?_, ?_⟩
      · simp only [Call.advance, Call.advanceRemoval, hh]
        exact hclaim (hfree i List.mem_cons_self)
      · simpa [Call.reads?, hh] using @Midway.releasing c.departed gone visits i rest [] hg
    | cons hook after =>
      refine ⟨visits, .hooking (hook :: after) (i :: rest), ?_, ?_⟩
      · simp only [Call.advance, Call.advanceRemoval, hh]
      · simpa [Call.reads?, hh] using @Midway.hooking c.departed gone visits i rest [] hook after hg
  | @hooked _ i rest before hook after hg =>
    left
    cases after with
    | nil =>
      refine ⟨visits, .releasing (i :: rest), hclaim (hfree i List.mem_cons_self), ?_⟩
      simpa [Call.reads?] using @Midway.releasing c.departed gone visits i rest (before ++ [hook]) hg
    | cons hook' after =>
      refine ⟨visits, .hooking (hook' :: after) (i :: rest), rfl, ?_⟩
      simpa [Call.reads?] using @Midway.hooking c.departed gone visits i rest (before ++ [hook]) hook' after hg
  | @released _ i rest hooks hg =>
    have hread : ((Call.removal c total (.releasing (i :: rest))).reads? g).toList = [] := rfl
    rw [hread, List.append_nil]
    cases rest with
    | nil => exact .inr ⟨rfl, visits ++ [⟨i, hooks⟩], rfl, by simp [hg]⟩
    | cons j rest => exact .inl ⟨visits ++ [⟨i, hooks⟩], .telling (j :: rest), rfl, .telling (by simp [hg])⟩
  | _ => cases hb

end Midway

/-- the next step of a removal for that cause takes its records out -/
def RemovalPoint.Draws (p : RemovalPoint) (c : Cause) : Prop :=
  (p = .starting ∧ ∀ reason, c ≠ .sweep reason) ∨ ∃ gone, p = .checking [] gone

/-- a removal that has taken nothing out asks about one more sender, or takes out what it will tear down -/
theorem Call.advance_first {p : RemovalPoint} (hp : p.toTearDown? = none) (g : Registry) (reply : Reply) (c : Cause)
    (total : Nat) :
    (∃ total' p', (advance g reply (.removal c total p)).next = .go (.removal c total' p') ∧ p'.toTearDown? = none ∧
        (advance g reply (.removal c total p)).registry = g ∧ AtRest (advance g reply (.removal c total p)).effects) ∨
      ∃ before, p.Draws c ∧ AtRest before ∧ advance g reply (.removal c total p) =
        tearDown (takes g c p).1 c (takes g c p).2.length before (takes g c p).2 := by
  have hnil : AtRest [] := by simp [AtRest]
  have hdrain (count : Nat) : AtRest (drainNotices count c) := by
    unfold drainNotices
    split
    · split <;> simp [AtRest, Effect.isWork]
    · exact hnil
  cases p with
  | starting =>
    cases c with
    | sweep reason =>
      refine .inl ⟨0, _, rfl, rfl, rfl, ?_⟩
      cases reason <;> simp [advance, advanceRemoval, AtRest, Effect.isWork]
    | _ => exact .inr ⟨_, .inl ⟨rfl, fun reason h => by cases h⟩, hdrain _, rfl⟩
  | checking left gone =>
    cases left with
    | nil => exact .inr ⟨[], .inr ⟨gone, rfl⟩, hnil, rfl⟩
    | cons i left => exact .inl ⟨total, _, rfl, rfl, rfl, hnil⟩
  | _ => cases hp

namespace Pool

variable {p : Pool} {k : Nat} {m : Move} {ms : List Move}

/-! ## The course of a removal -/

/-- what the moves of a run show one after the other -/
def seen {β : Type} (view : Pool → Move → Option β) (p : Pool) : List Move → List β
  | [] => []
  | m :: ms => (view p m).toList ++ (p.step m).seen view ms

theorem seen_append {β : Type} (view : Pool → Move → Option β) (p : Pool) (ms ms' : List Move) :
    p.seen view (ms ++ ms') = p.seen view ms ++ (p.run ms).seen view ms' := by
  induction ms generalizing p with
  | nil => rfl
  | cons m ms ih => rw [List.cons_append, seen, seen, ih, List.append_assoc, run_cons]

theorem seen_concat {β : Type} (view : Pool → Move → Option β) (p : Pool) (ms : List Move) (m : Move) :
    p.seen view (ms ++ [m]) = p.seen view ms ++ (view (p.run ms) m).toList := by
  rw [seen_append, seen, seen, List.append_nil]

theorem mem_seen {β : Type} {view : Pool → Move → Option β} {x : β} (h : x ∈ p.seen view ms) :
    ∃ before m after, ms = before ++ m :: after ∧ view (p.run before) m = some x := by
  induction ms generalizing p with
  | nil => cases h
  | cons m ms ih =>
    rcases List.mem_append.1 h with h | h
    · exact ⟨[], m, ms, rfl, Option.mem_toList.1 h⟩
    · obtain ⟨before, m', after, rfl, hx⟩ := ih h
      exact ⟨m :: before, m', after, rfl, hx⟩

/-- what a move shows of the call at the place -/
def beat? (k : Nat) (p : Pool) (m : Move) : Option Beat :=
  match m, p.call? k with
  | .ask j, some ⟨c, false⟩ => if j = k then c.tells? p.registry else none
  | .step j _, some ⟨c, true⟩ => if j = k then c.reads? p.registry else none
  | _, _ => none

/-- what is seen of the call at the place in a run -/
def beats (p : Pool) (k : Nat) (ms : List Move) : List Beat := p.seen (beat? k) ms

theorem beats_concat (p : Pool) (k : Nat) (ms : List Move) (m : Move) :
    p.beats k (ms ++ [m]) = p.beats k ms ++ (beat? k (p.run ms) m).toList := seen_concat ..

/-- what is seen of a call is seen in moves of it that can be done -/
theorem beat?_eq_some {x : Beat} (h : beat? k p m = some x) :
    (∃ c, m = .ask k ∧ p.call? k = some ⟨c, false⟩ ∧ c.tells? p.registry = some x) ∨
      ∃ c reply, m = .step k reply ∧ p.call? k = some ⟨c, true⟩ ∧ c.reads? p.registry = some x := by
  unfold beat? at h
  split at h
  · rename_i j c hc
    split at h
    · rename_i hj
      exact .inl ⟨c, by rw [hj], hc, h⟩
    · cases h
  · rename_i j reply c hc
    split at h
    · rename_i hj
      exact .inr ⟨c, reply, by rw [hj], hc, h⟩
    · cases h
  · cases h

theorem beat?_of_ne (hm : m.place? ≠ some k) : beat? k p m = none := by
  rw [Option.eq_none_iff_forall_ne_some]
  intro x hx
  rcases beat?_eq_some hx with ⟨c, rfl, -⟩ | ⟨c, reply, rfl, -⟩ <;> exact hm rfl

theorem beat?_of_call (h : ∀ u, p.call? k = some u → u.call.toTearDown? = none) : beat? k p m = none := by
  rw [Option.eq_none_iff_forall_ne_some]
  intro x hx
  rcases beat?_eq_some hx with ⟨c, -, hc, ht⟩ | ⟨c, reply, -, hc, ht⟩
  · rw [Call.tells?_of_toTearDown? (h _ hc)] at ht
    cases ht
  · rw [Call.reads?_of_toTearDown? (h _ hc)] at ht
    cases ht

/-- the step in which a removal takes out its records -/
theorem draw_step (hs : p.Sound) {c : Cause} {total n : Nat} {pt : RemovalPoint} {b : Bool} {reply : Reply}
    {before : List Effect} (hc : p.call? k = some ⟨.removal c total pt, b⟩) (hpt : pt.toTearDown? = none)
    (hb : AtRest before)
    (hadv : Call.advance p.registry { reply with now := p.now } (.removal c total pt) =
      Call.tearDown (Call.takes p.registry c pt).1 c n before (Call.takes p.registry c pt).2)
    (hstep : p.step m = p.advance k (.removal c total pt) reply) :
    (p.step m).registry = (Call.takes p.registry c pt).1 ∧ (p.step m).evictions = p.evictions ∧
      (Call.takes p.registry c pt).2.Nodup ∧ ∀ i, p.TakesOut m i ↔ i ∈ (Call.takes p.registry c pt).2 := by
  have hq : pt.queue = [] := by cases pt <;> first | rfl | cases hpt
  have hdoes : Call.Does p.registry { reply with now := p.now } (.removal c total pt) 0
      (Call.takes p.registry c pt).2 [] (Call.advance p.registry { reply with now := p.now } (.removal c total pt)) := by
    rw [hadv]
    exact .remove (.drain hq hb)
  refine ⟨?_, ?_, (hdoes.evolves hs.coherent (hs.named k _ hc)).nodup, fun i => takesOut_iff hs hc hdoes hstep⟩
  · rw [hstep]
    show (Call.advance p.registry { reply with now := p.now } (.removal c total pt)).registry = _
    rw [hadv, Call.tearDown_registry]
  · simp only [hstep, Pool.advance, hadv, evictions_rest (Call.tearDown_rest hb), List.append_nil]

/-- where the removal at the place stands after a run -/
inductive Tearing (p : Pool) (ms : List Move) (k : Nat) (c : Cause) : Prop
  /-- it has taken nothing out -/
  | before {total : Nat} {pt : RemovalPoint} {b : Bool} (hc : (p.run ms).call? k = some ⟨.removal c total pt, b⟩)
    (hpt : pt.toTearDown? = none) (hlog : p.beats k ms = []) (hno : ∀ i, ¬ p.TakenBy ms k i)
  | midway {gone : List RecordId} {visits : List Visit} {pt : RemovalPoint} {b : Bool}
    (hc : (p.run ms).call? k = some ⟨.removal c gone.length pt, b⟩)
    (hm : Midway c.departed gone (p.beats k ms) visits pt b) (hn : gone.Nodup)
    (htaken : ∀ i, p.TakenBy ms k i ↔ i ∈ gone)
  | ended {visits : List Visit} (ho : (p.run ms).Returned k (.removed visits.length))
    (hlog : p.beats k ms = visits.flatMap (Visit.script c.departed)) (hn : (visits.map Visit.record).Nodup)
    (htaken : ∀ i, p.TakenBy ms k i ↔ i ∈ visits.map Visit.record)

namespace Tearing

variable {c : Cause}

/-- a move that shows nothing of the call, takes nothing out for it and leaves it where it is -/
theorem stay (h : p.Tearing ms k c) (hcall : ((p.run ms).step m).call? k = (p.run ms).call? k)
    (hbeat : beat? k (p.run ms) m = none) (hno : m.place? = some k → ∀ i, ¬ (p.run ms).TakesOut m i) :
    p.Tearing (ms ++ [m]) k c := by
  have hlog : p.beats k (ms ++ [m]) = p.beats k ms := by simp [beats_concat, hbeat]
  have htaken (i : RecordId) : p.TakenBy (ms ++ [m]) k i ↔ p.TakenBy ms k i := by
    rw [takenBy_concat]
    exact or_iff_left fun ⟨hm, ht⟩ => hno hm i ht
  have hrun : p.run (ms ++ [m]) = (p.run ms).step m := run_append p ms [m]
  cases h with
  | before hc hpt hl hn =>
    exact .before (by rw [hrun, hcall, hc]) hpt (hlog.trans hl) fun i => by rw [htaken]; exact hn i
  | midway hc hm hn ht =>
    exact .midway (by rw [hrun, hcall, hc]) (by rw [hlog]; exact hm) hn fun i => by rw [htaken, ht]
  | ended ho hl hn ht =>
    exact .ended (by rw [hrun]; exact returned_step ho m) (hlog.trans hl) hn fun i => by rw [htaken, ht]

/-- a step of a removal that has taken nothing out -/
theorem first (hp : p.Reachable) {total : Nat} {pt : RemovalPoint} {b : Bool} {reply : Reply}
    (hc : (p.run ms).call? k = some ⟨.removal c total pt, b⟩) (hpt : pt.toTearDown? = none)
    (hlog : p.beats k (ms ++ [m]) = []) (hno : ∀ i, ¬ p.TakenBy ms k i) (hm : m.place? = some k)
    (hstep : (p.run ms).step m = (p.run ms).advance k (.removal c total pt) reply) : p.Tearing (ms ++ [m]) k c := by
  have hr := hp.run ms
  have hrun : p.run (ms ++ [m]) = (p.run ms).step m := run_append p ms [m]
  have hcall := call?_advance hc reply k
  rw [if_pos rfl, ← hstep, ← hrun] at hcall
  rcases Call.advance_first hpt (p.run ms).registry { reply with now := (p.run ms).now } c total with
    ⟨total', pt', hn, hpt', hreg, -⟩ | ⟨before, -, hb, hadv⟩
  · rw [hn] at hcall
    refine .before hcall hpt' hlog fun i ht => ?_
    rcases takenBy_concat.1 ht with ht | ⟨-, ht⟩
    · exact hno i ht
    · exact not_takesOut (by rw [hstep]; exact hreg) ht
  · obtain ⟨-, -, hn, hout⟩ := draw_step hr.sound hc hpt hb hadv hstep
    have htaken (i : RecordId) :
        p.TakenBy (ms ++ [m]) k i ↔ i ∈ (Call.takes (p.run ms).registry c pt).2 := by
      rw [takenBy_concat, hout]
      exact ⟨fun h => h.elim (fun h => absurd h (hno i)) And.right, fun h => .inr ⟨hm, h⟩⟩
    simp only [hadv] at hcall
    generalize Call.takes (p.run ms).registry c pt = taken at hadv htaken hn hcall
    obtain ⟨g', gone⟩ := taken
    cases gone with
    | nil =>
      refine @Tearing.ended p (ms ++ [m]) k c [] ?_ hlog List.nodup_nil htaken
      rw [hrun, hstep]
      exact returned_advance.2 (.inr ⟨rfl, congrArg Step.next hadv⟩)
    | cons i rest =>
      have hmid : Midway c.departed (i :: rest) (p.beats k (ms ++ [m])) [] (.telling (i :: rest)) false := by
        rw [hlog]
        exact @Midway.telling c.departed (i :: rest) [] i rest rfl
      exact .midway hcall hmid hn htaken

/-- a move of a removal that tears down -/
theorem next (hp : p.Reachable) {gone : List RecordId} {visits : List Visit} {pt : RemovalPoint} {b : Bool}
    (hc : (p.run ms).call? k = some ⟨.removal c gone.length pt, b⟩)
    (hmid : Midway c.departed gone (p.beats k ms) visits pt b) (hn : gone.Nodup)
    (htaken : ∀ i, p.TakenBy ms k i ↔ i ∈ gone) (hm : m = .ask k ∨ ∃ reply, m = .step k reply) :
    p.Tearing (ms ++ [m]) k c := by
  have hr := hp.run ms
  have hrun : p.run (ms ++ [m]) = (p.run ms).step m := run_append p ms [m]
  have hplace : m.place? = some k := by rcases hm with rfl | ⟨reply, rfl⟩ <;> rfl
  obtain ⟨queue, hq, -⟩ := hmid.toTearDown?
  have htears : (p.run ms).TearsDown k queue := .inr ⟨_, queue, hc, hq, List.Subset.refl _⟩
  have hno (i : RecordId) : ¬ (p.run ms).TakesOut m i := by
    rintro ⟨⟨d, hold⟩, hnew⟩
    exact hnew ⟨d, by rw [(htears.frame hplace).1]; exact hold⟩
  have htaken' (i : RecordId) : p.TakenBy (ms ++ [m]) k i ↔ i ∈ gone := by
    rw [takenBy_concat, ← htaken]
    exact or_iff_left fun h => hno i h.2
  cases b with
  | false =>
    obtain ⟨hsome, hmid'⟩ := hmid.asks (p.run ms).registry gone.length
    obtain ⟨i, hi⟩ := Option.isSome_iff_exists.1 hsome
    have hquery : (Call.removal c gone.length pt).query (p.run ms).registry ≠ .nothing := by
      intro h
      rw [h] at hi
      cases hi
    rcases hm with rfl | ⟨reply, rfl⟩
    · have hlog : p.beats k (ms ++ [Move.ask k]) =
          p.beats k ms ++ [Beat.tells ((Call.removal c gone.length pt).query (p.run ms).registry)] := by
        simp [beats_concat, beat?, hc, Call.tells?_of_tornDown? hi]
      have hcall : (p.run (ms ++ [Move.ask k])).call? k = some ⟨.removal c gone.length pt, true⟩ := by
        rw [hrun, step_eq_pose hc hquery, call?_pose hc, if_pos rfl]
      rw [← hlog] at hmid'
      exact .midway hcall hmid' hn htaken'
    · -- it cannot go on without an answer
      have hstep : (p.run ms).step (.step k reply) = p.run ms := by simp [Pool.step, hc, hquery]
      exact stay (.midway hc hmid hn htaken) (by rw [hstep]) (by simp [beat?, hc]) fun _ => hno
  | true =>
    rcases hm with rfl | ⟨reply, rfl⟩
    · have hstep : (p.run ms).step (.ask k) = p.run ms := by simp [Pool.step, hc]
      exact stay (.midway hc hmid hn htaken) (by rw [hstep]) (by simp [beat?, hc]) fun _ => hno
    · have hlock : (Call.removal c gone.length pt).needsLock = false := by
        cases pt <;> first | rfl | cases hq
      have hstep := step_eq_advance hc (.inl rfl) (by simp [hlock]) reply
      have hlog : p.beats k (ms ++ [Move.step k reply]) =
          p.beats k ms ++ ((Call.removal c gone.length pt).reads? (p.run ms).registry).toList := by
        simp [beats_concat, beat?, hc]
      -- nobody but this call could have claimed the release of the record
      have hfree (i : RecordId) (hi : i ∈ pt.unclaimed true) : ((p.run ms).registry.record i).released = false :=
        (hr.accounts.undeployed hc hi).2
      have hnext := hmid.returns hfree { reply with now := (p.run ms).now } gone.length
      rw [← hlog] at hnext
      have hcall := call?_advance hc reply k
      rw [if_pos rfl, ← hstep, ← hrun] at hcall
      rcases hnext with ⟨visits', pt', hnext, hmid'⟩ | ⟨hnext, visits', hlog', hgone⟩
      · rw [hnext] at hcall
        exact .midway hcall hmid' hn htaken'
      · refine .ended ?_ hlog' (hgone ▸ hn) (hgone ▸ htaken')
        have hlen : visits'.length = gone.length := by rw [← hgone, List.length_map]
        rw [hrun, hstep, hlen]
        exact returned_advance.2 (.inr ⟨rfl, hnext⟩)

theorem step (hp : p.Reachable) (h : p.Tearing ms k c) (m : Move) : p.Tearing (ms ++ [m]) k c := by
  have hr := hp.run ms
  by_cases hm : m.place? = some k
  · cases h with
    | @before total pt b hc hpt hlog hno =>
      have hlog' : p.beats k (ms ++ [m]) = [] := by
        rw [beats_concat, hlog, beat?_of_call fun u hu => by rw [hc] at hu; cases hu; exact hpt]
        rfl
      rcases step_self hm hc with h | h | ⟨reply, -, h, -⟩
      · refine stay (.before hc hpt hlog hno) (by rw [h]) ?_ fun _ i => not_takesOut (by rw [h])
        exact beat?_of_call fun u hu => by rw [hc] at hu; cases hu; exact hpt
      · have hcall : (p.run (ms ++ [m])).call? k = some ⟨.removal c total pt, true⟩ := by
          rw [run_append]
          exact (congrArg (·.call? k) h).trans (by rw [call?_pose hc, if_pos rfl])
        refine .before hcall hpt hlog' fun i ht => ?_
        rcases takenBy_concat.1 ht with ht | ⟨-, ht⟩
        · exact hno i ht
        · exact not_takesOut (by rw [h]; rfl) ht
      · exact first hp hc hpt hlog' hno hm h
    | midway hc hmid hn htaken =>
      refine next hp hc hmid hn htaken ?_
      cases m with
      | ask j => exact .inl (by rw [Option.some.inj hm])
      | step j reply => exact .inr ⟨reply, by rw [Option.some.inj hm]⟩
      | _ => cases hm
    | ended ho hlog hn htaken =>
      have hnone := (hr.settled.returned k _ ho).2
      have hstep := step_of_ended hm hnone
      refine stay (.ended ho hlog hn htaken) (by rw [hstep]) ?_ fun _ i => not_takesOut (by rw [hstep])
      exact beat?_of_call fun u hu => by rw [hnone] at hu; cases hu
  · have hlt : k < (p.run ms).calls.length := by
      cases h with
      | before hc => exact lt_of_call? hc
      | midway hc => exact lt_of_call? hc
      | ended ho => exact (hr.settled.returned k _ ho).1
    exact h.stay (call?_step_of_ne hm hlt) (beat?_of_ne hm) fun h => absurd h hm

end Tearing

theorem tearing_run (hp : p.Reachable) {c : Cause} {total : Nat} {pt : RemovalPoint} {b : Bool}
    (hc : p.call? k = some ⟨.removal c total pt, b⟩) (hpt : pt.toTearDown? = none) (ms : List Move) :
    p.Tearing ms k c := by
  induction ms using List.reverseRecOn with
  | nil =>
    refine .before hc hpt rfl fun i => ?_
    rintro ⟨before, m, after, heq, -⟩
    simp at heq
  | append_singleton ms m ih => exact ih.step hp m

/-! ## One call for each record -/

theorem TakenBy.append {i : RecordId} (h : p.TakenBy ms k i) (ms' : List Move) : p.TakenBy (ms ++ ms') k i := by
  obtain ⟨before, m, after, rfl, hm, ht⟩ := h
  exact ⟨before, m, after ++ ms', by simp, hm, ht⟩

/-- a record is taken out by one call -/
theorem TakenBy.unique (hp : p.Reachable) {j : Nat} {i : RecordId} (hj : p.TakenBy ms j i) (hk : p.TakenBy ms k i) :
    j = k := by
  induction ms using List.reverseRecOn with
  | nil =>
    obtain ⟨before, m, after, heq, -⟩ := hj
    simp at heq
  | append_singleton ms m ih =>
    -- what was taken out before is no longer cached
    have hout {l : Nat} (hl : p.TakenBy ms l i) : ¬ (p.run ms).TakesOut m i := by
      rintro ⟨hold, -⟩
      have hu := hl.undeployed hp
      rw [(hp.run ms).sound.coherent.not_undeployed hold] at hu
      cases hu
    rcases takenBy_concat.1 hj with hj | ⟨hmj, htj⟩ <;> rcases takenBy_concat.1 hk with hk | ⟨hmk, htk⟩
    · exact ih hj hk
    · exact absurd htk (hout hj)
    · exact absurd htj (hout hk)
    · exact Option.some.inj (hmj.symm.trans hmk)

/-- what is seen of a call is about records that it has taken out -/
theorem takenBy_of_beats {x : Beat} {timeout : Nat} {i : RecordId} (hx : x ∈ p.beats k ms) (hi : x.record? = some i)
    {ms₀ : List Move} (h₀ : p = (new timeout).run ms₀) : (new timeout).TakenBy (ms₀ ++ ms) k i := by
  have hnew : (new timeout).Reachable := ⟨timeout, [], rfl⟩
  induction ms using List.reverseRecOn with
  | nil => cases hx
  | append_singleton ms m ih =>
    rw [beats_concat, List.mem_append, Option.mem_toList] at hx
    rw [← List.append_assoc]
    rcases hx with hx | hx
    · exact (ih hx).append [m]
    · -- it tears the record down at that moment
      obtain ⟨u, queue, hu, hq, hmem⟩ : ∃ u queue, (p.run ms).call? k = some u ∧ u.call.toTearDown? = some queue ∧
          i ∈ queue := by
        rcases beat?_eq_some hx with ⟨c, -, hc, ht⟩ | ⟨c, reply, -, hc, ht⟩
        · unfold Call.tells? at ht
          split at ht
          · cases ht
            obtain ⟨queue, hq, hmem⟩ := Call.tornDown?_query hi
            exact ⟨_, queue, hc, hq, hmem⟩
          · cases ht
        · unfold Call.reads? at ht
          split at ht
          · cases ht
            cases hi
            exact ⟨_, _, hc, rfl, List.mem_cons_self⟩
          · cases ht
      rw [h₀, ← run_append] at hu
      obtain ⟨before, m', after, hsplit, hplace, htakes, -⟩ :=
        (takesAtOnce_of_call hnew (Nat.zero_le k) (ms₀ ++ ms) u hu).all queue hq
      exact TakenBy.append ⟨before, m', after, hsplit, hplace, htakes i hmem⟩ [m]

/-- whom one call has taken out no other call tells about -/
theorem beats_apart (hp : p.Reachable) {j : Nat} (hj : j ≠ k) {i : RecordId} (hk : p.TakenBy ms k i) {x : Beat}
    (hx : x ∈ p.beats j ms) : x.record? ≠ some i := by
  obtain ⟨timeout, ms₀, rfl⟩ := hp
  intro hi
  have hnew : (new timeout).Reachable := ⟨timeout, [], rfl⟩
  have hall : (new timeout).TakenBy (ms₀ ++ ms) k i := by
    obtain ⟨before, m, after, rfl, hm, ht⟩ := hk
    rw [← run_append] at ht
    exact ⟨ms₀ ++ before, m, after, by simp, hm, ht⟩
  exact hj ((takenBy_of_beats hx hi rfl).unique hnew hall)

/-! ## A removal that is left alone -/

/-- the moves of a call that is left alone, with its answers one after the other -/
def answeredTurns (k : Nat) (replies : Nat → Reply) : Nat → List Move
  | 0 => []
  | n + 1 => .ask k :: .step k (replies 0) :: answeredTurns k (fun j => replies (j + 1)) n

theorem isFree_congr {p' : Pool} (h : ∀ j, j ≠ k → p'.call? j = p.call? j) (hfree : p.isFree k = true) :
    p'.isFree k = true := by
  rw [isFree_iff] at hfree ⊢
  intro j u hu hl
  by_contra hj
  rw [h j hj] at hu
  exact hj (hfree j u hu hl)

/-- left alone with the lock a removal ends, whatever it is answered: each of its turns makes it lighter -/
theorem ended_of_alone (hp : p.Reachable) {c : Cause} {total : Nat} {pt : RemovalPoint} {b : Bool}
    (hc : p.call? k = some ⟨.removal c total pt, b⟩) (hfree : p.isFree k = true) (replies : Nat → Reply) :
    ∃ n, (p.run (answeredTurns k replies n)).Ended k := by
  generalize hcall : Call.removal c total pt = call at hc
  induction call using (InvImage.wf Call.weight WellFoundedRelation.wf).induction
    generalizing p total pt b replies with
  | _ call ih =>
    subst hcall
    obtain ⟨b', hc₁, hreg, hready, hothers⟩ := ask_ready hc
    have hp₁ := hp.step (.ask k)
    have hfree₁ := isFree_congr hothers hfree
    rw [← hreg] at hready
    have hstep := step_eq_advance hc₁ hready (fun _ => hfree₁) (replies 0)
    have hrun (n : Nat) : p.run (answeredTurns k replies (n + 1)) =
        ((p.step (.ask k)).step (.step k (replies 0))).run (answeredTurns k (fun j => replies (j + 1)) n) := rfl
    generalize p.step (.ask k) = p₁ at hc₁ hp₁ hfree₁ hready hstep hrun
    have hp₂ := hp₁.step (.step k (replies 0))
    have hcall := call?_advance hc₁ (replies 0)
    rw [← hstep] at hcall
    have hfree₂ : (p₁.step (.step k (replies 0))).isFree k = true :=
      isFree_congr (fun j hj => by rw [hcall, if_neg hj]) hfree₁
    have hself := hcall k
    rw [if_pos rfl] at hself
    rcases Call.removal_next p₁.registry { replies 0 with now := p₁.now } c total pt with
      ⟨total', pt', hn⟩ | ⟨count, hn⟩ <;> rw [hn] at hself
    · obtain ⟨n, hend⟩ := ih _ (Call.advance_weight hn) hp₂ hfree₂ (fun j => replies (j + 1)) rfl hself
      exact ⟨n + 1, by rw [hrun]; exact hend⟩
    · have hlt : k < (p₁.step (.step k (replies 0))).calls.length :=
        lt_of_lt_of_le (lt_of_call? hc₁) (length_step p₁ _)
      exact ⟨1, by rw [hrun]; exact ⟨hlt, hself⟩⟩

end Pool

/-! ## What failures change -/

/-- the line that is logged when a hook or a context fails -/
def Effect.isComplaint : Effect → Bool
  | .notice (.hookFailed ..) => true
  | .notice (.releaseFailed ..) => true
  | _ => false

def Mark.isComplaint : Mark → Bool
  | .did e => e.isComplaint
  | _ => false

/-- the answer of somebody that does not fail -/
def Reply.forgiven (reply : Reply) : Reply := { reply with failure := none }

/-- the move, with an answer of somebody that does not fail -/
def Pool.Move.forgiven : Pool.Move → Pool.Move
  | .step k reply => .step k reply.forgiven
  | m => m

/-- the effects but for the lines about failures -/
def uncomplaining (es : List Effect) : List Effect := es.filter fun e => !e.isComplaint

/-- the steps differ in lines about failures at most -/
structure Step.Alike (s s' : Step) : Prop where
  registry : s.registry = s'.registry
  next : s.next = s'.next
  effects : uncomplaining s.effects = uncomplaining s'.effects

theorem Step.Alike.refl (s : Step) : s.Alike s := ⟨rfl, rfl, rfl⟩

namespace Call

variable {g : Registry} {c : Cause} {total : Nat} {before before' : List Effect}

theorem advanceLookup_forgiven (i : RecordId) (a : String) (reply : Reply) (p : LookupPoint) :
    advanceLookup g i a reply.forgiven p = advanceLookup g i a reply p := by
  cases p <;> rfl

theorem advanceRequest_forgiven (q : Request) (report : Bool) (reply : Reply) (p : RequestPoint) :
    advanceRequest g q report reply.forgiven p = advanceRequest g q report reply p := by
  cases p with
  | resolving i p => simp only [advanceRequest, advanceLookup_forgiven]
  | _ => rfl

theorem tearDown_alike (h : uncomplaining before = uncomplaining before') (queue : List RecordId) :
    (tearDown g c total before queue).Alike (tearDown g c total before' queue) := by
  unfold uncomplaining at h
  cases queue <;> exact ⟨rfl, rfl, by simp [tearDown, uncomplaining, h]⟩

theorem release_alike (h : uncomplaining before = uncomplaining before') (i : RecordId) (rest : List RecordId) :
    (release g c total before i rest).Alike (release g c total before' i rest) := by
  unfold release
  split
  · exact tearDown_alike h rest
  · exact ⟨rfl, rfl, h⟩

/-- **a failure makes a step log a line, and changes nothing else** -/
theorem advance_forgiven (g : Registry) (reply : Reply) (c : Call) :
    (advance g reply.forgiven c).Alike (advance g reply c) := by
  cases c with
  | request q report p =>
    simp only [advance, advanceRequest_forgiven]
    exact .refl _
  | lookup i a p =>
    simp only [advance, advanceLookup_forgiven]
    exact .refl _
  | start checked => cases checked <;> exact .refl _
  | removal cause total p =>
    cases p with
    | starting => cases cause <;> exact .refl _
    | checking left gone => cases left <;> exact .refl _
    | telling queue => cases queue <;> exact .refl _
    | hooking hooks queue =>
      cases queue with
      | nil => cases hooks <;> exact .refl _
      | cons i rest =>
        cases hooks with
        | nil => exact .refl _
        | cons hook hooks =>
          obtain ⟨live, module, failure, now, clock⟩ := reply
          cases failure with
          | none => exact .refl _
          | some why =>
            have hlog : uncomplaining [] = uncomplaining [.notice (.hookFailed (g.record i) why)] := rfl
            cases hooks with
            | nil => exact release_alike hlog i rest
            | cons hook' hooks => exact ⟨rfl, rfl, hlog⟩
    | releasing queue =>
      cases queue with
      | nil => exact .refl _
      | cons i rest =>
        obtain ⟨live, module, failure, now, clock⟩ := reply
        cases failure with
        | none => exact .refl _
        | some why =>
          have hlog : uncomplaining [] = uncomplaining [.notice (.releaseFailed (g.record i) why)] := rfl
          exact tearDown_alike hlog rest

end Call

namespace Pool

variable {p p' : Pool} {k : Nat} {m m' : Move} {ms ms' : List Move}

/-- the pool with the lines about failures struck from its log -/
def muted (p : Pool) : Pool := { p with trace := p.trace.filter fun x => !x.isComplaint }

theorem muted_advance (p : Pool) (k : Nat) (c : Call) (reply : Reply) :
    (p.muted.advance k c reply.forgiven).muted = (p.advance k c reply).muted := by
  have h := Call.advance_forgiven p.registry { reply with now := p.now } c
  have hdid (es : List Effect) :
      (es.map Mark.did).filter (fun x => !x.isComplaint) = (uncomplaining es).map Mark.did := by
    rw [List.filter_map]
    rfl
  have horders (es : List Effect) :
      (uncomplaining es).filterMap (Effect.eviction? p.now) = es.filterMap (Effect.eviction? p.now) := by
    rw [uncomplaining, List.filterMap_filter]
    congr 1
    funext e
    cases e <;> simp [Effect.isComplaint, Effect.eviction?]
  show (p.muted.advance k c reply.forgiven).muted = _
  simp only [Pool.advance, muted, List.filter_append, List.filter_filter, Bool.and_self, hdid]
  change Call.advance p.registry { reply.forgiven with now := p.now } c |>.Alike _ at h
  rw [h.registry, h.next, h.effects, ← horders, h.effects, horders]

theorem muted_step (p : Pool) (m : Move) : (p.muted.step m.forgiven).muted = (p.step m).muted := by
  have hmuted : p.muted.muted = p.muted := by simp [muted, List.filter_filter]
  have hfree (k : Nat) : p.muted.isFree k = p.isFree k := rfl
  have hcall (k : Nat) : p.muted.call? k = p.call? k := rfl
  have hreg : p.muted.registry = p.registry := rfl
  cases m with
  | step k reply =>
    simp only [Move.forgiven, Pool.step, hcall, hfree, hreg]
    split
    · split
      · exact muted_advance p k _ reply
      · exact hmuted
    · exact hmuted
  | ask k =>
    simp only [Move.forgiven, Pool.step, hcall, hreg]
    split
    · split
      · exact hmuted
      · simp [muted, Pool.pose, List.filter_filter]
    · exact hmuted
  | enter c =>
    simp only [Move.forgiven, Pool.step, hreg]
    split
    · simp [muted, Pool.enter, List.filter_filter]
    · exact hmuted
  | evict j =>
    have horders : p.muted.evictions = p.evictions := rfl
    have hnow : p.muted.now = p.now := rfl
    simp only [Move.forgiven, Pool.step, horders, hnow]
    split
    · split
      · simp [muted, Pool.enter, List.filter_filter]
      · exact hmuted
    · exact hmuted
  | reorder cache =>
    simp only [Move.forgiven, Pool.step, hreg]
    split
    · simp [muted, List.filter_filter]
    · exact hmuted
  | _ => simp [Move.forgiven, Pool.step, muted, List.filter_filter]

theorem muted_congr (h : p'.muted = p.muted) (hm : m'.forgiven = m.forgiven) :
    (p'.step m').muted = (p.step m).muted := by
  rw [← muted_step p', ← muted_step p, h, hm]

/-- **runs that differ in failures alone** differ in the log of failures alone -/
theorem muted_run (h : ms'.map Move.forgiven = ms.map Move.forgiven) :
    (p.run ms').muted = (p.run ms).muted := by
  induction ms using List.reverseRecOn generalizing ms' with
  | nil =>
    obtain rfl : ms' = [] := by simpa using h
    rfl
  | append_singleton ms m ih =>
    rw [List.map_append, List.map_singleton] at h
    obtain ⟨before, after, rfl, hbefore, hafter⟩ := List.map_eq_append_iff.1 h
    obtain ⟨m', rfl, hm⟩ := List.map_eq_singleton_iff.1 hafter
    rw [run_append, run_append]
    exact muted_congr (ih hbefore) hm

/-- what is seen of a call does not depend on failures -/
theorem beat?_muted (p : Pool) (k : Nat) (m : Move) : beat? k p.muted m.forgiven = beat? k p m := by
  have hcall : p.muted.call? k = p.call? k := rfl
  simp only [beat?, hcall]
  cases p.call? k with
  | none => cases m <;> rfl
  | some u =>
    obtain ⟨c, b⟩ := u
    cases b <;> cases m <;> rfl

theorem beats_forgiven (h : ms'.map Move.forgiven = ms.map Move.forgiven) (k : Nat) :
    p.beats k ms' = p.beats k ms := by
  induction ms using List.reverseRecOn generalizing ms' with
  | nil =>
    obtain rfl : ms' = [] := by simpa using h
    rfl
  | append_singleton ms m ih =>
    rw [List.map_append, List.map_singleton] at h
    obtain ⟨before, after, rfl, hbefore, hafter⟩ := List.map_eq_append_iff.1 h
    obtain ⟨m', rfl, hm⟩ := List.map_eq_singleton_iff.1 hafter
    rw [beats_concat, beats_concat, ih hbefore, ← beat?_muted, ← beat?_muted (p.run ms), muted_run hbefore, hm]

/-! ## Failures and teardowns -/

/-- **failures do not touch a teardown**: a removal takes out some records, and whatever else happens, whoever is told or
fails, and whatever hooks are added, what is seen of it is the teardown of each of them, one after the other: the sink is
told, the hooks registered when it has returned are told in order, and the context releases what it holds, once each. It
is seen to the end when the removal ends, which it does with the number of records. They are gone for good, and nobody
else tells about them. A run in which others fail is the same but for the log of failures; and left alone with the lock
the removal ends, whatever it is answered. -/
theorem teardown_immune (hp : p.Reachable) {c : Cause} {total : Nat} {b : Bool}
    (hc : p.call? k = some ⟨.removal c total .starting, b⟩) (ms : List Move) :
    (∃ visits : List Visit, (visits.map Visit.record).Nodup ∧
        (∀ i, p.TakenBy ms k i ↔ i ∈ visits.map Visit.record) ∧
        p.beats k ms <+: visits.flatMap (Visit.script c.departed) ∧
        ((p.run ms).Ended k → p.beats k ms = visits.flatMap (Visit.script c.departed) ∧
          (p.run ms).Returned k (.removed visits.length))) ∧
      (∀ o, (p.run ms).Returned k o → ∃ count, o = .removed count) ∧
      (∀ i, p.TakenBy ms k i → (p.run ms).registry.Gone i ∧
        ∀ j, j ≠ k → ∀ x ∈ p.beats j ms, x.record? ≠ some i) ∧
      (∀ ms', ms'.map Move.forgiven = ms.map Move.forgiven →
        (p.run ms').muted = (p.run ms).muted ∧ ∀ j, p.beats j ms' = p.beats j ms) ∧
      (p.isFree k = true → ∀ replies, ∃ n, (p.run (answeredTurns k replies n)).Ended k) := by
  have hr := hp.run ms
  refine ⟨?_, ?_, ?_, ?_, ended_of_alone hp hc⟩
  · cases tearing_run hp hc rfl ms with
    | before hcall hpt hlog hno =>
      refine ⟨[], List.nodup_nil, fun i => iff_of_false (hno i) (List.not_mem_nil), ?_, ?_⟩
      · rw [hlog]
        exact List.nil_prefix
      · exact fun he => absurd he (not_ended hcall)
    | midway hcall hmid hn htaken =>
      obtain ⟨all, hlog, rfl⟩ := hmid.log_prefix
      exact ⟨all, hn, htaken, hlog, fun he => absurd he (not_ended hcall)⟩
    | @ended visits ho hlog hn htaken =>
      refine ⟨visits, hn, htaken, ?_, fun _ => ⟨hlog, ho⟩⟩
      rw [hlog]
  · intro o ho
    have hend := hr.settled.returned k o ho
    cases tearing_run hp hc rfl ms with
    | before hcall => exact absurd hend (not_ended hcall)
    | midway hcall => exact absurd hend (not_ended hcall)
    | ended ho' => exact ⟨_, hr.settled.unique k _ _ ho ho'⟩
  · intro i ht
    exact ⟨gone_of_undeployed hr.sound.coherent (ht.undeployed hp), fun j hj x hx => beats_apart hp hj ht hx⟩
  · intro ms' h
    exact ⟨muted_run h, beats_forgiven h⟩

/-- a sender with two deployments departs; told about the first, the sink has another hook registered, and later one hook
fails and so does a context -/
theorem torn_down_through_failures :
    let x : Request := { id := ⟨"x"⟩, sender := ⟨"s"⟩, seq := 1, moduleAlias := "a" }
    let y : Request := { id := ⟨"y"⟩, sender := ⟨"s"⟩, seq := 2, moduleAlias := "b" }
    let p := (new 100).run (.addHook 7 ::
      .enter (.request x true .entering) :: turns 0 { module := .ok ⟨"m", false⟩ } 8 ++
      .enter (.request y true .entering) :: turns 1 { module := .ok ⟨"m", false⟩ } 8 ++
      ([.enter (.remove (.departure ⟨"s"⟩))] : List Move))
    let broken : Reply := { failure := some .shuttingDown }
    let ms : List Move := .step 2 {} :: .ask 2 :: .addHook 8 :: .step 2 {} :: .ask 2 :: .step 2 broken :: turns 2 {} 1 ++
      turns 2 broken 1 ++ turns 2 {} 4
    p.call? 2 = some ⟨.remove (.departure ⟨"s"⟩), false⟩ ∧ (p.run ms).Returned 2 (.removed 2) ∧
      p.beats 2 ms = [(⟨0, [7, 8]⟩ : Visit), ⟨1, [7, 8]⟩].flatMap (Visit.script (some ⟨"s"⟩)) ∧
      (p.run ms).registry.Gone 0 ∧ (p.run ms).registry.Gone 1 ∧
      (p.run (ms.map Move.forgiven)).muted = (p.run ms).muted ∧
      (p.run (ms.map Move.forgiven)).trace ≠ (p.run ms).trace := by
  intro x y p broken ms
  have hp : p.Reachable := ⟨100, _, rfl⟩
  have hc : p.call? 2 = some ⟨.remove (.departure ⟨"s"⟩), false⟩ := by decide +kernel
  have ho : (p.run ms).Returned 2 (.removed 2) := by decide +kernel
  have hlog : p.beats 2 ms = [(⟨0, [7, 8]⟩ : Visit), ⟨1, [7, 8]⟩].flatMap (Visit.script (some ⟨"s"⟩)) := by decide +kernel
  have hdiffer : (p.run (ms.map Move.forgiven)).trace ≠ (p.run ms).trace := by decide +kernel
  have hcached : (⟨"x"⟩, 0) ∈ p.registry.cache ∧ (⟨"y"⟩, 1) ∈ p.registry.cache := by decide +kernel
  have hempty : (p.step (.step 2 {})).registry.cache = [] := by decide +kernel
  have hfirst : ms = .step 2 {} :: ms.tail := rfl
  have htwice : (ms.map Move.forgiven).map Move.forgiven = ms.map Move.forgiven := rfl
  clear_value p ms
  have htaken (d : DeploymentId) (i : RecordId) (hd : (d, i) ∈ p.registry.cache) : p.TakenBy ms 2 i := by
    refine ⟨[], .step 2 {}, ms.tail, hfirst, rfl, ⟨d, hd⟩, ?_⟩
    rintro ⟨d', hd'⟩
    rw [show p.run [] = p from rfl, hempty] at hd'
    cases hd'
  obtain ⟨-, -, hgone, hsame, -⟩ := teardown_immune hp hc ms
  exact ⟨hc, ho, hlog, (hgone 0 (htaken _ 0 hcached.1)).1, (hgone 1 (htaken _ 1 hcached.2)).1, (hsame _ htwice).1,
    hdiffer⟩

end Pool

end Redeploy
