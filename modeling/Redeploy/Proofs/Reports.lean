/-
Reports of what was deployed on a record and is undeployed.

When a record is torn down, the log gets one line and the subscribers get one event for each of its modules. Lines and
events are made apart from each other, but each sink goes through the modules in the order of their aliases, so they say the
same one by one. The order is that of code points, which is also the order of the bytes (`bytes_lt`).

Earlier each alias was reported on its own, when its module had been made for a request. Such a report is about the module
that was made then. As long as all modules made for an alias are of one kind, the reports at either end give it the same
kind; and there is more than one to be made only where a slot was severed. A module that was made for a mere lookup is
reported at the end only (`Accounted`).

Results:
- `bytes_lt`: the order of strings and that of their bytes;
- `aliases_ascending`, `count_aliases`: the aliases of a record;
- `agrees`: a line and an event about one module;
- `accounted_run`: who has been told of a module, or will be;
- `sourced_run`: what is reported or listed was made;
- **`sinks_agree`**: the reports of an undeployed record, among themselves and with the earlier ones.
-/
import Mathlib.Data.List.Lex
import Mathlib.Data.String.Basic
import Redeploy.Deployment.Event
import Redeploy.Proofs.Attempt
import Redeploy.Proofs.Versions

namespace Redeploy

/-! ## The order of bytes -/

/-- the bytes of a string -/
def bytes (s : String) : List UInt8 := s.toByteArray.data.toList

theorem bytes_eq (s : String) : bytes s = s.toList.flatMap String.utf8EncodeChar := by
  unfold bytes
  rw [← String.utf8Encode_toList, List.utf8Encode]
  simp

theorem cons_lt_cons {m n : ℕ} (hm : m < 256) (hn : n < 256) {x y : List UInt8} :
    UInt8.ofNat m :: x < UInt8.ofNat n :: y ↔ m < n ∨ m = n ∧ x < y := by
  rw [List.cons_lt_cons_iff, UInt8.lt_iff_toNat_lt, ← UInt8.toNat_inj, UInt8.toNat_ofNat', UInt8.toNat_ofNat',
    Nat.mod_eq_of_lt hm, Nat.mod_eq_of_lt hn]

/-- the greater number has the greater one of the first two digits that differ, to the base 64 -/
theorem digits_lt {m n : ℕ} (h : m < n) : m / 262144 < n / 262144 ∨ m / 262144 = n / 262144 ∧
    (m / 4096 % 64 < n / 4096 % 64 ∨ m / 4096 % 64 = n / 4096 % 64 ∧
      (m / 64 % 64 < n / 64 % 64 ∨ m / 64 % 64 = n / 64 % 64 ∧ m % 64 < n % 64)) := by
  have hdigit (m n : ℕ) (h : m < n) : m / 64 < n / 64 ∨ m / 64 = n / 64 ∧ m % 64 < n % 64 := by omega
  have hdiv (k : ℕ) : k / 64 / 64 = k / 4096 ∧ k / 4096 / 64 = k / 262144 := by omega
  rcases hdigit m n h with h | ⟨heq, h⟩
  · rcases hdigit _ _ h with h | ⟨heq, h⟩
    · rw [(hdiv m).1, (hdiv n).1] at h
      rcases hdigit _ _ h with h | ⟨heq, h⟩
      · exact .inl (by rwa [(hdiv m).2, (hdiv n).2] at h)
      · exact .inr ⟨by rwa [(hdiv m).2, (hdiv n).2] at heq, .inl h⟩
    · rw [(hdiv m).1, (hdiv n).1] at heq
      exact .inr ⟨by rw [← (hdiv m).2, heq, (hdiv n).2], .inr ⟨by rw [heq], .inl h⟩⟩
  · have heq' : m / 4096 = n / 4096 := by rw [← (hdiv m).1, heq, (hdiv n).1]
    exact .inr ⟨by rw [← (hdiv m).2, heq', (hdiv n).2], .inr ⟨by rw [heq'], .inr ⟨by rw [heq], h⟩⟩⟩

/-- the bytes of the smaller character are smaller at the first place where they differ, whatever comes after them -/
theorem utf8EncodeChar_append_lt {c d : Char} (h : c < d) (x y : List UInt8) :
    String.utf8EncodeChar c ++ x < String.utf8EncodeChar d ++ y := by
  have hval : c.val.toNat < d.val.toNat := UInt32.lt_iff_toNat_lt.1 h
  have hd : d.val.toNat < 1114112 := by
    rcases d.valid with h | h <;> omega
  unfold String.utf8EncodeChar
  generalize c.val.toNat = m at hval
  generalize d.val.toNat = n at hval hd
  have hdigits := digits_lt hval
  have hm : m / 262144 % 8 = m / 262144 := by omega
  have hn : n / 262144 % 8 = n / 262144 := by omega
  dsimp only
  -- characters of one to four bytes
  split_ifs <;> simp (disch := omega) only [List.cons_append, List.nil_append, cons_lt_cons] <;> omega

theorem flatMap_utf8EncodeChar_lt {cs ds : List Char} (h : cs < ds) :
    cs.flatMap String.utf8EncodeChar < ds.flatMap String.utf8EncodeChar := by
  induction h with
  | @nil d ds =>
    rw [List.flatMap_nil, List.flatMap_cons]
    obtain ⟨b, bs, hb⟩ := List.exists_cons_of_ne_nil (String.utf8EncodeChar_ne_nil (c := d))
    rw [hb]
    exact List.nil_lt_cons _ _
  | cons hlt ih =>
    rw [List.flatMap_cons, List.flatMap_cons]
    exact List.append_left_lt ih
  | rel hlt =>
    rw [List.flatMap_cons, List.flatMap_cons]
    exact utf8EncodeChar_append_lt hlt _ _

/-- **the smaller string has the smaller bytes** -/
theorem bytes_lt {s t : String} (h : s < t) : bytes s < bytes t := by
  rw [bytes_eq, bytes_eq]
  exact flatMap_utf8EncodeChar_lt (String.lt_iff_toList_lt.1 h)

/-! ## The aliases of a record -/

namespace Record

variable {r : Record}

theorem aliases_nodup (hn : (r.slots.map Prod.fst).Nodup) : r.aliases.Nodup := by
  have hfull : (r.slots.filterMap fun e => (r.content? e.2).map (e.1, ·)).map Prod.fst =
      (r.slots.filter fun e => (r.content? e.2).isSome).map Prod.fst := by
    induction r.slots with
    | nil => rfl
    | cons e slots ih =>
      cases hc : r.content? e.2 with
      | none => simpa [hc] using ih
      | some x => simpa [hc] using ih
  have hperm : r.aliases.Perm ((r.slots.filterMap fun e => (r.content? e.2).map (e.1, ·)).map Prod.fst) :=
    (List.mergeSort_perm _ _).map Prod.fst
  rw [hperm.nodup_iff, hfull]
  exact hn.sublist (List.filter_sublist.map Prod.fst)

theorem aliases_ascending (hn : (r.slots.map Prod.fst).Nodup) : r.aliases.Pairwise (· < ·) := by
  have hsorted : r.modules.Pairwise fun a b => decide (a.1 ≤ b.1) = true := by
    refine List.pairwise_mergeSort ?_ ?_ _
    · exact fun a b c hab hbc => decide_eq_true (le_trans (of_decide_eq_true hab) (of_decide_eq_true hbc))
    · intro a b
      rcases le_total a.1 b.1 with h | h <;> simp [h]
  have hle : r.aliases.Pairwise (· ≤ ·) := List.pairwise_map.2 (hsorted.imp of_decide_eq_true)
  exact hle.imp₂ (fun _ _ => lt_of_le_of_ne) (aliases_nodup hn)

theorem mem_aliases_iff (hn : (r.slots.map Prod.fst).Nodup) {a : String} : a ∈ r.aliases ↔ r.hasResolved a = true := by
  rw [hasResolved_iff, aliases, List.mem_map]
  constructor
  · rintro ⟨⟨a, x⟩, hx, rfl⟩
    exact ⟨x, (mem_modules hn).1 hx⟩
  · rintro ⟨x, hx⟩
    exact ⟨(a, x), (mem_modules hn).2 hx, rfl⟩

theorem count_aliases (hn : (r.slots.map Prod.fst).Nodup) (a : String) :
    r.aliases.count a = if r.hasResolved a then 1 else 0 := by
  rw [(aliases_nodup hn).count]
  simp only [mem_aliases_iff hn]

end Record

/-! ## Lines and events -/

namespace DeploymentEvent

/-- when the record of the event was made, as far as the event says so -/
def deployedAt? : DeploymentEvent → Option Timestamp
  | deployed .. => none
  | undeployed _ _ t _ => some t

/-- the log line and the event say the same of an undeployed module; `render` is how the log shows points of time -/
structure Agrees (render : Timestamp → String) (line : Logging.Entry) (event : DeploymentEvent) : Prop where
  message : line.message = "Module undeployed"
  id : line.fields.lookup "deployment_id" = some (.rendered event.what.id.text)
  sender : line.fields.lookup "sender_id" = some (.rendered event.what.sender.text)
  named : line.fields.lookup "alias" = some (.rendered event.what.moduleAlias)
  kind : line.fields.lookup "kind" = some (.text (Notice.kindName event.what.isTask))
  kind_event : event.kind = Notice.kindName event.what.isTask ++ "_undeployed"
  departed : line.fields.lookup "departed_node_id" = some (.rendered (match event.departed with
    | none => "None"
    | some d => "Some(" ++ d.describe ++ ")"))
  deployedAt : line.fields.lookup "deployed_at" = event.deployedAt?.map fun t => .rendered (render t)

variable (r : Record) (departed : Option MemberId) (now : Timestamp)

theorem agrees (render : Timestamp → String) :
    List.Forall₂ (Agrees render) ((Notice.ofUndeployed r departed).map (Notice.entry render))
      (ofUndeployed r departed now) := by
  rw [Notice.ofUndeployed, ofUndeployed, List.map_map, List.forall₂_map_left_iff, List.forall₂_map_right_iff,
    List.forall₂_same]
  rintro ⟨a, x⟩ -
  refine ⟨rfl, rfl, rfl, rfl, rfl, ?_, rfl, rfl⟩
  cases hx : x.isTask <;> simp [kind, what, hx, Notice.kindName]

theorem aliases_ofUndeployed : (ofUndeployed r departed now).map (fun e => e.what.moduleAlias) = r.aliases := by
  rw [ofUndeployed, List.map_map]
  rfl

theorem mem_ofUndeployed {r : Record} {departed : Option MemberId} {now : Timestamp} {e : DeploymentEvent} :
    e ∈ ofUndeployed r departed now ↔
      ∃ a x, (a, x) ∈ r.modules ∧ e = .undeployed ⟨r.id, r.sender, a, x.isTask⟩ departed r.deployedAt now := by
  simp only [ofUndeployed, List.mem_map, Prod.exists]
  constructor
  · rintro ⟨a, x, h, rfl⟩
    exact ⟨a, x, h, rfl⟩
  · rintro ⟨a, x, h, rfl⟩
    exact ⟨a, x, h, rfl⟩

end DeploymentEvent

/-! ## What was made -/

/-- the modules that were made for the alias on the record, in order -/
def madeFor (i : RecordId) (a : String) (l : List Answer) : List Module :=
  (l.filter fun e => e.isFor i a && e.fresh).map Answer.module

theorem mem_madeFor {i : RecordId} {a : String} {l : List Answer} {x : Module} :
    x ∈ madeFor i a l ↔ ∃ cell, ⟨i, a, cell, x, true⟩ ∈ l := by
  simp only [madeFor, List.mem_map, List.mem_filter, Answer.isFor, Bool.and_eq_true, beq_iff_eq]
  constructor
  · rintro ⟨⟨_, _, cell, _, _⟩, ⟨h, ⟨rfl, rfl⟩, rfl⟩, rfl⟩
    exact ⟨cell, h⟩
  · rintro ⟨cell, h⟩
    exact ⟨_, ⟨h, ⟨rfl, rfl⟩, rfl⟩, rfl⟩

/-- all of them are tasks, or all are classes -/
def OneKind (l : List Module) : Prop := ∀ x ∈ l, ∀ y ∈ l, x.isTask = y.isTask

/-- the record, the alias and the kind that a sink is told of when a module is deployed -/
def Mark.report? : Mark → Option (RecordId × String × Bool)
  | .asked (.deployed i a isTask) => some (i, a, isTask)
  | _ => none

namespace Call

/-- a request that has had a module made goes on to report it; a lookup returns it -/
theorem next_of_made {g : Registry} {reply : Reply} {c : Call} {i : RecordId} {a : String} {pt : LookupPoint} {x : Module}
    (hl : c.lookup? = some (i, a, pt)) (hn : (advanceLookup g i a reply pt).2 = .found x true) :
    (∃ q report, (c.advance g reply).next = .go (.request q report (.notifying i x.isTask)) ∧ q.moduleAlias = a) ∨
      (c.advance g reply).next = .done (.module x true) := by
  have hstep : advanceLookup g i a reply pt = ((advanceLookup g i a reply pt).1, .found x true) := Prod.ext rfl hn
  cases c with
  | request q report p =>
    cases p with
    | resolving j pt' =>
      cases hl
      refine .inl ⟨q, report, ?_, rfl⟩
      simp only [advance, advanceRequest]
      rw [hstep]
    | _ => cases hl
  | lookup j b pt' =>
    cases hl
    right
    simp only [advance]
    rw [hstep]
  | _ => cases hl

end Call

namespace Pool

variable {p : Pool} {m : Move} {k : Nat} {i : RecordId} {a : String} {x : Module} {l : List Answer}

theorem answers_concat (p : Pool) (ms : List Move) (m : Move) :
    p.answers (ms ++ [m]) = p.answers ms ++ ((p.run ms).answer? m).toList := by
  induction ms generalizing p with
  | nil => simp [answers, run]
  | cons m' ms ih => rw [List.cons_append, answers, answers, ih, List.append_assoc, run_cons]

/-- the move ends a resolution of the alias for which the module was made -/
def Materialises (p : Pool) (m : Move) (i : RecordId) (a : String) (x : Module) : Prop :=
  ∃ cell, p.answer? m = some ⟨i, a, cell, x, true⟩

theorem Materialises.mem (h : p.Materialises m i a x) : x ∈ madeFor i a (l ++ (p.answer? m).toList) := by
  obtain ⟨cell, h⟩ := h
  exact mem_madeFor.2 ⟨cell, List.mem_append_right _ (by simp [h])⟩

/-- **an alias has its module from before, or it is the one that was made with the move** -/
theorem module?_step (hp : p.Reachable) (hx : ((p.step m).registry.record i).module? a = some x) :
    (p.registry.record i).module? a = some x ∨ p.Materialises m i a x := by
  cases hold : (p.registry.record i).module? a with
  | some y =>
    have hsame : ((p.step m).registry.record i).module? a = some y := module?_run hp hold [m]
    exact .inl (hsame.symm.trans hx)
  | none =>
    right
    have hchanged : ((p.step m).registry.record i).module? a ≠ (p.registry.record i).module? a := by
      rw [hold, hx]
      exact Option.some_ne_none x
    rcases resolution_step hp m with ⟨-, hstore⟩ | ⟨k, j, b, pt, reply, n, hres, hlooks, hothers, hans⟩
    · exact absurd (module?_congr (hstore i) a) hchanged
    · by_cases hj : i = j
      · subst hj
        by_cases hb : a = b
        · subst hb
          obtain rfl := hlooks.fresh_of_new (fun _ => hp.busy_cell hres) hold hx
          obtain ⟨cell, hcell⟩ := hlooks.found_cell rfl
          refine ⟨cell, ?_⟩
          rw [hans, Call.LookupStep.answer?, hcell]
          rfl
        · obtain ⟨owner, hk⟩ := hp.kept
          exact absurd (hlooks.frame hb fun cell => hk.apart hres hb).2 hchanged
      · exact absurd (by rw [hothers i hj]) hchanged

/-- a request that is about to report had the module made, with this move or before -/
theorem materialises_of_notifying {q : Request} {report isTask b : Bool}
    (h : (p.step m).call? k = some ⟨.request q report (.notifying i isTask), b⟩) :
    (∃ b', p.call? k = some ⟨.request q report (.notifying i isTask), b'⟩) ∨
      ∃ x, p.Materialises m i q.moduleAlias x ∧ x.isTask = isTask := by
  rcases call_step h with hold | hnew | ⟨reply, ⟨c, asking⟩, rfl, hc, -⟩
  · exact .inl hold
  · rcases hnew with hnew | ⟨j, hnew⟩ <;> cases hnew
  rcases step_self (show (Move.step k reply).place? = some k from rfl) hc with
    hsame | hpose | ⟨reply, hm, hstep, hready⟩
  · exact .inl ⟨b, hsame ▸ h⟩
  · rw [hpose, call?_pose hc, if_pos rfl] at h
    obtain rfl : c = .request q report (.notifying i isTask) := congrArg Underway.call (Option.some.inj h)
    exact .inl ⟨asking, hc⟩
  cases hm
  rw [hstep, call?_advance hc, if_pos rfl] at h
  obtain ⟨-, hn | ⟨-, hu⟩⟩ := underway?_eq_some.1 h
  · right
    obtain ⟨pt, x, hu, hfound⟩ := Call.notifying_next hn
    obtain ⟨cell, rfl⟩ := asking_of_fresh hfound
    have hl : c.lookup? = some (i, q.moduleAlias, .asking cell) := by
      rw [show c = _ from hu]
      rfl
    refine ⟨x, ⟨cell, ?_⟩, ?_⟩
    · have hready' : (asking || c.query p.registry == .nothing) = true := by simpa using hready
      simp only [answer?, hc, Option.bind_some, if_pos hready', Call.answer?, hl, hfound, Call.LookupStep.answer?,
        LookupPoint.cell?, Option.map_some]
    · rcases Call.next_of_made hl hfound with ⟨q', report', hgo, -⟩ | hdone
      · rw [hn] at hgo
        cases hgo
        rfl
      · rw [hn] at hdone
        cases hdone
  · obtain rfl : Call.request q report (.notifying i isTask) = c := hu
    exact .inl ⟨asking, hc⟩

/-- a module that was made is about to be reported, or was made for a lookup -/
theorem Materialises.next (h : p.Materialises m i a x) :
    ∃ k, (p.step m).Returned k (.module x true) ∨ ∃ q report,
      (p.step m).call? k = some ⟨.request q report (.notifying i x.isTask), false⟩ ∧ q.moduleAlias = a := by
  obtain ⟨cell, h⟩ := h
  cases m with
  | step k reply =>
    obtain ⟨u, hc, hans⟩ := Option.bind_eq_some_iff.1 h
    rw [Option.ite_none_right_eq_some] at hans
    obtain ⟨hready, hans⟩ := hans
    obtain ⟨⟨j, b, pt⟩, hl, hans⟩ := Option.bind_eq_some_iff.1 hans
    obtain ⟨hfound, -, rfl, rfl⟩ := Call.LookupStep.answer?_eq_some hans
    have hready' : u.asking = true ∨ u.call.query p.registry = .nothing := by simpa using hready
    rw [step_eq_advance hc hready' (by simp [Call.needsLock_of_lookup? hl]) reply]
    refine ⟨k, ?_⟩
    rcases Call.next_of_made hl hfound with ⟨q, report, hgo, ha⟩ | hdone
    · refine .inr ⟨q, report, ?_, ha⟩
      rw [call?_advance hc, if_pos rfl, hgo]
      rfl
    · exact .inl (returned_advance.2 (.inr ⟨rfl, hdone⟩))
  | _ => cases h

/-! ## What was reported -/

/-- what the sink was told of modules that were deployed -/
def reports (p : Pool) : List (RecordId × String × Bool) := p.trace.filterMap Mark.report?

/-- a report is made by the request that is about to make it -/
theorem reports_step (p : Pool) (m : Move) : (p.step m).reports = p.reports ∨
    ∃ k q report i isTask, m = .ask k ∧ p.call? k = some ⟨.request q report (.notifying i isTask), false⟩ ∧
      (p.step m).reports = p.reports ++ [(i, q.moduleAlias, isTask)] := by
  rcases view_step p m Mark.report? (fun _ => rfl) (fun _ _ => rfl) with h | ⟨k, c, ⟨i, a, t⟩, rfl, hc, -, hv, happ⟩
  · exact .inl h
  · right
    cases hq : c.query p.registry with
    | deployed j b t' =>
      rw [hq] at hv
      cases hv
      obtain ⟨q, report, rfl, rfl⟩ := Call.query_deployed hq
      exact ⟨k, q, report, i, t, rfl, hc, happ⟩
    | _ => rw [hq] at hv; cases hv

theorem mem_reports_step {e : RecordId × String × Bool} (h : e ∈ p.reports) (m : Move) : e ∈ (p.step m).reports := by
  obtain ⟨x, hx, hv⟩ := List.mem_filterMap.1 h
  exact List.mem_filterMap.2 ⟨x, trace_step hx, hv⟩

/-- a request that is about to report is still, or it does -/
theorem notifying_step {q : Request} {report isTask : Bool}
    (hc : p.call? k = some ⟨.request q report (.notifying i isTask), false⟩) (m : Move) :
    (p.step m).call? k = some ⟨.request q report (.notifying i isTask), false⟩ ∨
      (i, q.moduleAlias, isTask) ∈ (p.step m).reports := by
  by_cases hm : m.place? = some k
  · rcases step_self hm hc with hsame | hpose | ⟨reply, -, -, hready⟩
    · exact .inl (by rw [hsame, hc])
    · right
      rw [hpose]
      exact List.mem_filterMap.2 ⟨_, List.mem_append_right _ List.mem_cons_self, rfl⟩
    · rcases hready with hready | hready <;> cases hready
  · exact .inl (by rw [call?_step_of_ne hm (lt_of_call? hc), hc])

/-- **who is told of a module**: the sink knows of it, or will be told by the request that it was made for, or it was made
for a lookup, which tells nobody -/
inductive Accounted (p : Pool) (i : RecordId) (a : String) (x : Module) : Prop
  | told (h : (i, a, x.isTask) ∈ p.reports)
  | pending {k : Nat} {q : Request} {report : Bool}
    (h : p.call? k = some ⟨.request q report (.notifying i x.isTask), false⟩) (ha : q.moduleAlias = a)
  | quiet {k : Nat} (h : p.Returned k (.module x true))

theorem Accounted.step (h : p.Accounted i a x) (m : Move) : (p.step m).Accounted i a x := by
  cases h with
  | told h => exact .told (mem_reports_step h m)
  | pending h ha =>
    subst ha
    rcases notifying_step h m with h | h
    · exact .pending h rfl
    · exact .told h
  | quiet h => exact .quiet (returned_step h m)

theorem accounted_step (hp : p.Reachable) (h : (p.registry.record i).module? a = some x → p.Accounted i a x)
    (hx : ((p.step m).registry.record i).module? a = some x) : (p.step m).Accounted i a x := by
  rcases module?_step hp hx with hold | hmade
  · exact (h hold).step m
  · obtain ⟨k, hreturned | ⟨q, report, hc, ha⟩⟩ := hmade.next
    · exact .quiet hreturned
    · exact .pending hc ha

theorem accounted_run (timeout : Nat) (ms : List Move)
    (hx : (((new timeout).run ms).registry.record i).module? a = some x) : ((new timeout).run ms).Accounted i a x := by
  induction ms using List.reverseRecOn with
  | nil => cases hx
  | append_singleton ms m ih =>
    rw [run_append] at hx ⊢
    exact accounted_step ⟨timeout, ms, rfl⟩ ih hx

/-- what is listed, announced or reported was made: the answers are those so far -/
structure Sourced (p : Pool) (l : List Answer) : Prop where
  listed : ∀ i a x, (p.registry.record i).module? a = some x → x ∈ madeFor i a l
  announced : ∀ k q report i isTask b, p.call? k = some ⟨.request q report (.notifying i isTask), b⟩ →
    ∃ x ∈ madeFor i q.moduleAlias l, x.isTask = isTask
  reported : ∀ i a isTask, (i, a, isTask) ∈ p.reports → ∃ x ∈ madeFor i a l, x.isTask = isTask

theorem madeFor_append (hx : x ∈ madeFor i a l) (l' : List Answer) : x ∈ madeFor i a (l ++ l') := by
  obtain ⟨cell, h⟩ := mem_madeFor.1 hx
  exact mem_madeFor.2 ⟨cell, List.mem_append_left _ h⟩

theorem Sourced.step (hp : p.Reachable) (h : p.Sourced l) (m : Move) :
    (p.step m).Sourced (l ++ (p.answer? m).toList) := by
  refine ⟨?_, ?_, ?_⟩
  · intro i a x hx
    rcases module?_step hp hx with hold | hmade
    · exact madeFor_append (h.listed i a x hold) _
    · exact hmade.mem
  · intro k q report i isTask b hc
    rcases materialises_of_notifying hc with ⟨b', hold⟩ | ⟨x, hmade, hkind⟩
    · obtain ⟨x, hx, hkind⟩ := h.announced k q report i isTask b' hold
      exact ⟨x, madeFor_append hx _, hkind⟩
    · exact ⟨x, hmade.mem, hkind⟩
  · intro i a isTask hr
    have hold (hr : (i, a, isTask) ∈ p.reports) : ∃ x ∈ madeFor i a (l ++ (p.answer? m).toList), x.isTask = isTask := by
      obtain ⟨x, hx, hkind⟩ := h.reported i a isTask hr
      exact ⟨x, madeFor_append hx _, hkind⟩
    rcases reports_step p m with hsame | ⟨k, q, report, j, t, -, hc, happ⟩
    · exact hold (hsame ▸ hr)
    · rw [happ, List.mem_append] at hr
      rcases hr with hr | hr
      · exact hold hr
      · cases List.mem_singleton.1 hr
        obtain ⟨x, hx, hkind⟩ := h.announced k q report i isTask false hc
        exact ⟨x, madeFor_append hx _, hkind⟩

theorem sourced_run (timeout : Nat) (ms : List Move) :
    ((new timeout).run ms).Sourced ((new timeout).answers ms) := by
  induction ms using List.reverseRecOn with
  | nil => exact ⟨fun _ _ _ h => (nomatch h), fun _ _ _ _ _ _ h => (nomatch h), fun _ _ _ h => (nomatch h)⟩
  | append_singleton ms m ih =>
    rw [run_append, answers_concat]
    exact ih.step ⟨timeout, ms, rfl⟩ m

/-- where no slot was severed, no more than one was made -/
theorem oneKind_of_not_severed {timeout : Nat} {ms : List Move} (h : ¬(new timeout).SeveredDuring i a ms) :
    OneKind (madeFor i a ((new timeout).answers ms)) := by
  have honce : Once ((((new timeout).run ms).registry.record i).module? a)
      (given (Answer.isFor i a) ((new timeout).answers ms)) := by
    have hnew : (new timeout).Reachable := ⟨timeout, [], rfl⟩
    have hnil : Once (((new timeout).registry.record i).module? a) [] := rfl
    simpa using once_alias_run hnew (matched_new timeout i a) h hnil
  intro x hx y hy
  have hcontent {x : Module} (hx : x ∈ madeFor i a ((new timeout).answers ms)) :
      (((new timeout).run ms).registry.record i).module? a = some x := by
    obtain ⟨cell, hx⟩ := mem_madeFor.1 hx
    refine honce.eq_of_mem (List.mem_map.2 ⟨_, List.mem_filter.2 ⟨hx, ?_⟩, rfl⟩)
    simp [Answer.isFor]
  rw [Option.some.inj ((hcontent hx).symm.trans (hcontent hy))]

/-- **the reports of an undeployed record**, whatever has become of its aliases. Lines and events say the same one by one,
in strictly ascending order of the bytes of the aliases; each resolved alias has one of them, and no other has any. All events
name the member that departed, if one is given, and when the record was made, which is the same at every later time. The
module of each has been reported when it was made, or will be, or was made for a lookup. As long as the modules made for an
alias are of one kind, every report about it, before or after, is of the kind that its line and event have; and they are of
one kind, since there is no more than one, if no slot of the alias is severed. -/
theorem sinks_agree (timeout : Nat) (ms : List Move) (i : RecordId) (departed : Option MemberId) (now : Timestamp) :
    let p := (new timeout).run ms
    let r := p.registry.record i
    let events := DeploymentEvent.ofUndeployed r departed now
    (∀ render, List.Forall₂ (DeploymentEvent.Agrees render) ((Notice.ofUndeployed r departed).map (Notice.entry render))
        events) ∧
      (events.map fun e => bytes e.what.moduleAlias).Pairwise (· < ·) ∧
      (∀ a, (events.map fun e => e.what.moduleAlias).count a = if r.hasResolved a then 1 else 0) ∧
      (∀ e ∈ events, e.departed = departed ∧ e.deployedAt? = some r.deployedAt) ∧
      (i < p.registry.records.length → ∀ later, ((p.run later).registry.record i).deployedAt = r.deployedAt) ∧
      ∀ e ∈ events,
        (∃ x, r.module? e.what.moduleAlias = some x ∧ x.isTask = e.what.isTask ∧ p.Accounted i e.what.moduleAlias x) ∧
        ∀ later, let l := madeFor i e.what.moduleAlias ((new timeout).answers (ms ++ later))
          (OneKind l → ∀ isTask, (i, e.what.moduleAlias, isTask) ∈ (p.run later).reports → isTask = e.what.isTask) ∧
          (¬(new timeout).SeveredDuring i e.what.moduleAlias (ms ++ later) → OneKind l) := by
  intro p r events
  have hp : p.Reachable := ⟨timeout, ms, rfl⟩
  have hn := hp.slots_nodup i
  have haliases : (events.map fun e => e.what.moduleAlias) = r.aliases :=
    DeploymentEvent.aliases_ofUndeployed r departed now
  refine ⟨DeploymentEvent.agrees r departed now, ?_, fun a => ?_, ?_, fun hi later => ?_, ?_⟩
  · have hbytes : (events.map fun e => bytes e.what.moduleAlias) = r.aliases.map bytes := by
      rw [← haliases, List.map_map]
      rfl
    rw [hbytes, List.pairwise_map]
    exact (Record.aliases_ascending hn).imp bytes_lt
  · rw [haliases]
    exact Record.count_aliases hn a
  · intro e he
    obtain ⟨a, x, -, rfl⟩ := DeploymentEvent.mem_ofUndeployed.1 he
    exact ⟨rfl, rfl⟩
  · have horigin : ((p.run later).registry.record i).origin = r.origin := (record_run hp hi later).2.1
    calc ((p.run later).registry.record i).deployedAt
      _ = ((p.run later).registry.record i).origin.deployedAt := rfl
      _ = r.origin.deployedAt := by rw [horigin]
      _ = r.deployedAt := rfl
  · intro e he
    obtain ⟨a, x, hmem, rfl⟩ := DeploymentEvent.mem_ofUndeployed.1 he
    have hx : r.module? a = some x := (Record.mem_modules hn).1 hmem
    refine ⟨⟨x, hx, rfl, accounted_run timeout ms hx⟩, fun later => ⟨fun hone isTask hr => ?_, oneKind_of_not_severed⟩⟩
    -- what is listed was made, and so was what is reported, perhaps later and in another cell
    have hsourced := sourced_run timeout (ms ++ later)
    rw [run_append] at hsourced
    have hlisted := hsourced.listed i a x (module?_run hp hx later)
    obtain ⟨y, hy, hkind⟩ := hsourced.reported i a isTask hr
    rw [← hkind]
    exact hone y hy x hlisted

/-- a task that fails at first and is made for a second request, a class that is made for a lookup, an alias that fails, and
the departure of the sender -/
theorem task_undeployed_as_reported :
    let x : Request := { id := ⟨"x"⟩, sender := ⟨"s"⟩, seq := 1, moduleAlias := "b" }
    let fails : Reply := { module := .error .shuttingDown }
    let ms := .enter (.request x true .entering) :: turns 0 fails 9 ++
      .enter (Call.resolveAlias 0 "é") :: turns 1 { module := .ok ⟨"n", false⟩ } 5 ++
      .enter (.request x true .entering) :: turns 2 { module := .ok ⟨"m", true⟩ } 9 ++
      .enter (Call.resolveAlias 0 "z") :: turns 3 fails 5 ++ [.enter (.remove (.departure ⟨"s"⟩)), .step 4 {}]
    let p := (new 100).run ms
    let events := DeploymentEvent.ofUndeployed (p.registry.record 0) (some ⟨"s"⟩) default
    p.Undeploys (.ask 4) 0 ∧ p.reports = [(0, "b", true)] ∧ ¬(new 100).SeveredDuring 0 "b" ms ∧
      (events.map fun e => e.what.moduleAlias).count "b" = 1 ∧ (events.map fun e => e.what.moduleAlias).count "é" = 1 ∧
      (events.map fun e => e.what.moduleAlias).count "z" = 0 ∧
      ∀ e ∈ events, e.what.moduleAlias = "b" → e.what.isTask = true ∧ e.departed = some ⟨"s"⟩ := by
  intro x fails ms p events
  have hund : p.Undeploys (.ask 4) 0 := by decide +kernel
  have hreports : p.reports = [(0, "b", true)] := by decide +kernel
  have hms : ¬(new 100).SeveredDuring 0 "b" ms := by decide +kernel
  have hb : (p.registry.record 0).hasResolved "b" = true := by decide +kernel
  have he : (p.registry.record 0).hasResolved "é" = true := by decide +kernel
  have hz : (p.registry.record 0).hasResolved "z" = false := by decide +kernel
  obtain ⟨-, -, hcount, hsame, -, hkinds⟩ := sinks_agree 100 ms 0 (some ⟨"s"⟩) default
  refine ⟨hund, hreports, hms, ?_, ?_, ?_, fun e hmem ha => ⟨?_, (hsame e hmem).1⟩⟩
  · rw [hcount, hb, if_pos rfl]
  · rw [hcount, he, if_pos rfl]
  · rw [hcount, hz, if_neg Bool.false_ne_true]
  · obtain ⟨-, hkinds⟩ := hkinds e hmem
    obtain ⟨hkind, hone⟩ := hkinds []
    rw [ha, List.append_nil] at hkind hone
    have hreported : (0, "b", true) ∈ (p.run []).reports := by
      have hnil (q : Pool) : q.run [] = q := rfl
      rw [hnil, hreports]
      exact List.mem_cons_self
    exact (hkind (hone hms) true hreported).symm

end Pool

end Redeploy
