/-
What one step of a call does: to the registry, and to the call itself.

A request stays a request until it ends, a lookup a lookup, and a removal a removal for the same cause. Requests,
lookups and starts take nothing out of the cache; a removal takes out in one step all that it will tear down. `Requests`
and `Removes` list what a step of a request and of a removal can be, and `Does` what a step of any call can be, with
the records it makes, takes out and claims; what a step keeps is one case analysis over them.

Results:
- `advanceRequest_requests`, `advanceRemoval_removes`, `advance_does`: every step is one of those listed;
- `Does.evolves`, `Does.names`: the registry evolves, and the call goes on with records that it was about or took out;
- `Does.created`, `Does.schedule_lt`: contexts are made for the new records, evictions ordered for records ever made;
- `advance_stopped`, `holdsLock_next`, `isInside_next`: when a registry is stopped, and who has the lock.
-/
import Redeploy.Proofs.Admission
import Redeploy.Deployment.Call

namespace Redeploy

open Registry

/-- the effect makes a context or orders an eviction -/
def Effect.isWork : Effect → Bool
  | .create .. | .schedule .. => true
  | _ => false

/-- the record that the effect makes a context for -/
def Effect.created? : Effect → Option RecordId
  | .create i _ => some i
  | _ => none

/-- the effects are neither new contexts nor orders to evict -/
def AtRest (es : List Effect) : Prop := ∀ e ∈ es, e.isWork = false

theorem created_rest {es : List Effect} (h : AtRest es) : es.filterMap Effect.created? = [] := by
  rw [List.filterMap_eq_nil_iff]
  intro e he
  have hw := h e he
  cases e <;> simp_all [Effect.isWork, Effect.created?]

/-- the records that a removal at the point still has to tear down -/
def RemovalPoint.queue : RemovalPoint → List RecordId
  | .telling queue => queue
  | .hooking _ queue => queue
  | .releasing queue => queue
  | _ => []

/-- a removal for that cause goes on to ask about senders -/
def RemovalPoint.Asks (p : RemovalPoint) (c : Cause) : Prop :=
  (p = .starting ∧ ∃ reason, c = .sweep reason) ∨ ∃ left gone, p = .checking left gone

/-- the record is the first to be torn down, and its context has not been released yet -/
def RemovalPoint.IsFor (p : RemovalPoint) (i : RecordId) (rest : List RecordId) : Prop :=
  p = .telling (i :: rest) ∨ ∃ hooks, p = .hooking hooks (i :: rest)

theorem RemovalPoint.IsFor.queue_eq {p : RemovalPoint} {i : RecordId} {rest : List RecordId} (h : p.IsFor i rest) :
    p.queue = i :: rest := by
  rcases h with rfl | ⟨hooks, rfl⟩ <;> rfl

namespace Record

theorem openSlot_origin (r : Record) (a : String) : (r.openSlot a).1.origin = r.origin := by
  unfold openSlot
  split <;> rfl

theorem openSlot_state (r : Record) (a : String) : (r.openSlot a).1.state = r.state := by
  unfold openSlot
  split <;> rfl

theorem openSlot_released (r : Record) (a : String) : (r.openSlot a).1.released = r.released := by
  unfold openSlot
  split <;> rfl

theorem closeSlot_eq (r : Record) (a : String) : r.closeSlot a = { r with slots := (r.closeSlot a).slots } := by
  unfold closeSlot
  split <;> rfl

end Record

namespace Call

/-! ## Lookups -/

section

variable {g g' : Registry} {i : RecordId} {a : String} {reply : Reply} {p : LookupPoint} {n : LookupStep}

/-- a step of a resolution changes its record only, and nothing of it but cells and slots -/
theorem lookup_modifies (h : advanceLookup g i a reply p = (g', n)) :
    ∃ f : Record → Record, g' = g.modify i f ∧ (f (g.record i)).origin = (g.record i).origin ∧
      (f (g.record i)).state = (g.record i).state ∧ (f (g.record i)).released = (g.record i).released := by
  obtain rfl : (advanceLookup g i a reply p).1 = g' := by rw [h]
  have hid : ∃ f : Record → Record, g = g.modify i f ∧ (f (g.record i)).origin = (g.record i).origin ∧
      (f (g.record i)).state = (g.record i).state ∧ (f (g.record i)).released = (g.record i).released :=
    ⟨id, by simp [Registry.modify], rfl, rfl, rfl⟩
  cases p with
  | looking => exact ⟨_, rfl, Record.openSlot_origin _ a, Record.openSlot_state _ a, Record.openSlot_released _ a⟩
  | trying cell =>
    simp only [advanceLookup]
    split
    · exact hid
    · split
      · exact hid
      · split_ifs
        · exact hid
        · exact hid
        · exact ⟨_, rfl, rfl, rfl, rfl⟩
  | asking cell =>
    simp only [advanceLookup]
    split
    · exact ⟨_, rfl, rfl, rfl, rfl⟩
    · exact ⟨_, rfl, rfl, rfl, rfl⟩
  | clearing why =>
    refine ⟨_, rfl, ?_, ?_, ?_⟩ <;> rw [Record.closeSlot_eq]
    rfl

theorem evolves_lookup (hg : g.Coherent) (h : advanceLookup g i a reply p = (g', n)) : Evolves g g' 0 [] [] := by
  obtain ⟨f, rfl, ho, hs, hr⟩ := lookup_modifies h
  exact modify_evolves hg i f ho hs hr

theorem stopped_lookup (h : advanceLookup g i a reply p = (g', n)) : g'.stopped = g.stopped := by
  obtain ⟨f, rfl, -⟩ := lookup_modifies h
  rfl

theorem record_lookup_of_ne (h : advanceLookup g i a reply p = (g', n)) {j : RecordId} (hj : i ≠ j) :
    g'.record j = g.record j := by
  obtain ⟨f, rfl, -⟩ := lookup_modifies h
  exact record_modify_of_ne f hj

end

/-! ## Requests -/

theorem rejection_rest (g : Registry) (q : Request) (report : Bool) (why : Failure) {before : List Effect}
    (hb : AtRest before) : AtRest (rejection g q report why before).effects := by
  intro e he
  simp only [rejection, List.mem_append] at he
  rcases he with he | he
  · exact hb e he
  · split at he
    · rw [List.mem_singleton.1 he]
      rfl
    · cases he

/-- `Requests g q report reply p s`: what a step `s` of a request at the point `p` can be -/
inductive Requests (g : Registry) (q : Request) (report : Bool) (reply : Reply) : RequestPoint → Step → Prop
  | enter (hl : reply.live = true) :
    Requests g q report reply .entering ⟨g, [.notice (.resolving q)], .go (.request q report .locking)⟩
  | left (hl : reply.live = false) :
    Requests g q report reply .entering (rejection g q report (.senderLeft q.sender) [.notice (.resolving q)])
  | lock (hs : g.stopped = false) :
    Requests g q report reply .locking ⟨g, [], .go (.request q report .rechecking)⟩
  | stopped (hs : g.stopped = true) :
    Requests g q report reply .locking (rejection g q report .shuttingDown [])
  | recheck (hl : reply.live = true) :
    Requests g q report reply .rechecking ⟨g, [], .go (.request q report .deciding)⟩
  | departed (hl : reply.live = false) :
    Requests g q report reply .rechecking (rejection g q report (.senderLeft q.sender) [])
  | refused {why : Failure} (hd : g.decide q reply.now = .error why) :
    Requests g q report reply .deciding (rejection g q report why [])
  | cached {i : RecordId} (hd : g.decide q reply.now = .ok (.cached i)) :
    Requests g q report reply .deciding ⟨g, [], .go (.request q report (.resolving i .looking))⟩
  | fresh {v : Verdict} (hd : g.decide q reply.now = .ok (.fresh v)) :
    Requests g q report reply .deciding
      ⟨(g.install q v reply.now reply.clock).1, (g.install q v reply.now reply.clock).2.2,
        .go (.request q report (.resolving g.records.length .looking))⟩
  | look {g' : Registry} {i : RecordId} {p p' : LookupPoint}
    (h : advanceLookup g i q.moduleAlias reply p = (g', .go p')) :
    Requests g q report reply (.resolving i p) ⟨g', [], .go (.request q report (.resolving i p'))⟩
  | wait {g' : Registry} {i : RecordId} {p : LookupPoint}
    (h : advanceLookup g i q.moduleAlias reply p = (g', .wait)) :
    Requests g q report reply (.resolving i p) ⟨g', [], .wait⟩
  | made {g' : Registry} {i : RecordId} {p : LookupPoint} {m : Module}
    (h : advanceLookup g i q.moduleAlias reply p = (g', .found m true)) :
    Requests g q report reply (.resolving i p) ⟨g', [], .go (.request q report (.notifying i m.isTask))⟩
  | found {g' : Registry} {i : RecordId} {p : LookupPoint} {m : Module}
    (h : advanceLookup g i q.moduleAlias reply p = (g', .found m false)) :
    Requests g q report reply (.resolving i p) ⟨g', [], .done (.record i)⟩
  | unresolved {g' : Registry} {i : RecordId} {p : LookupPoint} {why : Failure}
    (h : advanceLookup g i q.moduleAlias reply p = (g', .failed why)) :
    Requests g q report reply (.resolving i p)
      (rejection g' q report (.aliasNotFound q.moduleAlias (g'.record i).id) [.notice (.unresolved why (g'.record i))])
  | notified {i : RecordId} {isTask : Bool} :
    Requests g q report reply (.notifying i isTask) ⟨g, [], .done (.record i)⟩

/-- every step of a request is one of `Requests` -/
theorem advanceRequest_requests (g : Registry) (q : Request) (report : Bool) (reply : Reply) (p : RequestPoint) :
    Requests g q report reply p (advanceRequest g q report reply p) := by
  cases p with
  | entering =>
    simp only [advanceRequest]
    split
    · rename_i h
      exact .enter h
    · rename_i h
      exact .left (by simpa using h)
  | locking =>
    simp only [advanceRequest]
    split
    · rename_i h
      exact .stopped h
    · rename_i h
      exact .lock (by simpa using h)
  | rechecking =>
    simp only [advanceRequest]
    split
    · rename_i h
      exact .recheck h
    · rename_i h
      exact .departed (by simpa using h)
  | deciding =>
    simp only [advanceRequest]
    split
    · rename_i h
      exact .refused h
    · rename_i h
      exact .cached h
    · rename_i h
      rw [install_snd_fst]
      exact .fresh h
  | resolving i p =>
    simp only [advanceRequest]
    split
    · rename_i h
      exact .look h
    · rename_i h
      exact .wait h
    · rename_i h
      exact .made h
    · rename_i h
      exact .found h
    · rename_i h
      exact .unresolved h
  | notifying i isTask => exact .notified

namespace Requests

variable {g : Registry} {q : Request} {report : Bool} {reply : Reply} {p : RequestPoint} {s : Step}

/-- a request stays a request -/
theorem stays (h : Requests g q report reply p s) {c : Call} (hn : s.next = .go c) :
    ∃ p', c = .request q report p' := by
  cases h <;> cases hn <;> exact ⟨_, rfl⟩

/-- no step but the one that makes a record takes part in its life, or has effects but notices -/
theorem quiet (h : Requests g q report reply p s) (hg : g.Coherent)
    (hf : ∀ v, p = .deciding → g.decide q reply.now ≠ .ok (.fresh v)) :
    Evolves g s.registry 0 [] [] ∧ AtRest s.effects := by
  have hnil : AtRest [] := by simp [AtRest]
  cases h with
  | enter hl => exact ⟨Evolves.refl hg, by simp [AtRest, Effect.isWork]⟩
  | left hl => exact ⟨Evolves.refl hg, rejection_rest _ _ _ _ (by simp [AtRest, Effect.isWork])⟩
  | lock hs => exact ⟨Evolves.refl hg, hnil⟩
  | stopped hs => exact ⟨Evolves.refl hg, rejection_rest _ _ _ _ hnil⟩
  | recheck hl => exact ⟨Evolves.refl hg, hnil⟩
  | departed hl => exact ⟨Evolves.refl hg, rejection_rest _ _ _ _ hnil⟩
  | refused hd => exact ⟨Evolves.refl hg, rejection_rest _ _ _ _ hnil⟩
  | cached hd => exact ⟨Evolves.refl hg, hnil⟩
  | fresh hd => exact absurd hd (hf _ rfl)
  | look h => exact ⟨evolves_lookup hg h, hnil⟩
  | wait h => exact ⟨evolves_lookup hg h, hnil⟩
  | made h => exact ⟨evolves_lookup hg h, hnil⟩
  | found h => exact ⟨evolves_lookup hg h, hnil⟩
  | unresolved h => exact ⟨evolves_lookup hg h, rejection_rest _ _ _ _ (by simp [AtRest, Effect.isWork])⟩
  | notified => exact ⟨Evolves.refl hg, hnil⟩

end Requests

/-- the three ends of a decision -/
theorem advance_refused {g : Registry} {q : Request} {report : Bool} {reply : Reply} {why : Failure}
    (h : g.decide q reply.now = .error why) :
    advance g reply (.request q report .deciding) = rejection g q report why [] := by
  simp [advance, advanceRequest, h]

theorem advance_cached {g : Registry} {q : Request} {report : Bool} {reply : Reply} {i : RecordId}
    (h : g.decide q reply.now = .ok (.cached i)) :
    advance g reply (.request q report .deciding) = ⟨g, [], .go (.request q report (.resolving i .looking))⟩ := by
  simp [advance, advanceRequest, h]

theorem advance_fresh {g : Registry} {q : Request} {report : Bool} {reply : Reply} {v : Verdict}
    (h : g.decide q reply.now = .ok (.fresh v)) :
    advance g reply (.request q report .deciding) =
      ⟨(g.install q v reply.now reply.clock).1, (g.install q v reply.now reply.clock).2.2,
        .go (.request q report (.resolving g.records.length .looking))⟩ := by
  simp [advance, advanceRequest, h, install_snd_fst]

/-- a lookup stays a lookup -/
theorem lookup_stays {g : Registry} {i : RecordId} {a : String} {reply : Reply} {p : LookupPoint} {c : Call}
    (h : (advance g reply (.lookup i a p)).next = .go c) : ∃ p', c = .lookup i a p' := by
  simp only [advance] at h
  split at h
  · exact ⟨_, (Next.go.inj h).symm⟩
  all_goals cases h

theorem lookup_registry (g : Registry) (i : RecordId) (a : String) (reply : Reply) (p : LookupPoint) :
    (advance g reply (.lookup i a p)).registry = (advanceLookup g i a reply p).1 := by
  simp only [advance]
  split <;> rename_i heq <;> rw [heq]

/-! ## Removals -/

theorem drainFor_evolves {g : Registry} (hg : g.Coherent) {c : Cause}
    (hc : ∀ i, c = .expiry i → i < g.records.length) : Evolves g (drainFor g c).1 0 (drainFor g c).2 [] := by
  cases c with
  | expiry i =>
    have h := expire_evolves hg (hc i rfl)
    simp only [drainFor]
    exact h
  | named sender name => exact drain_evolves hg _
  | departure m => exact drain_evolves hg _
  | sweep reason => exact Evolves.refl hg
  | stop =>
    have hflags : Evolves g { g with stopped := true, cancelled := true } 0 [] [] :=
      evolves_flags hg (List.Perm.refl _) rfl
    have hdrain := drain_evolves hflags.coherent fun _ _ => true
    exact hflags.trans hdrain hdrain.cached

theorem tearDown_registry (g : Registry) (c : Cause) (total : Nat) (before : List Effect) (queue : List RecordId) :
    (tearDown g c total before queue).registry = g := by
  cases queue <;> rfl

/-- the records that a removal at the point takes out, if it takes out any, with the registry that is left -/
def takes (g : Registry) (c : Cause) : RemovalPoint → Registry × List RecordId
  | .starting => drainFor g c
  | .checking _ gone => g.drain fun i _ => gone.contains i
  | _ => (g, [])

theorem takes_evolves {g : Registry} (hg : g.Coherent) {c : Cause} (hc : ∀ i, c = .expiry i → i < g.records.length)
    (p : RemovalPoint) : Evolves g (takes g c p).1 0 (takes g c p).2 [] := by
  cases p with
  | starting => exact drainFor_evolves hg hc
  | checking left gone => exact drain_evolves hg _
  | _ => exact Evolves.refl hg

/-- `Removes g c total p gone claimed s`: what a step `s` of a removal at the point `p` can be, when it takes the
records of `gone` out of the cache and claims the release of those of `claimed` -/
inductive Removes (g : Registry) (c : Cause) (total : Nat) :
    RemovalPoint → List RecordId → List RecordId → Step → Prop
  /-- it is about to ask about the next sender, or to take the records out -/
  | check {p : RemovalPoint} {before : List Effect} {total' : Nat} {left gone : List RecordId} (hp : p.Asks c)
    (hb : AtRest before) : Removes g c total p [] [] ⟨g, before, .go (.removal c total' (.checking left gone))⟩
  | drain {p : RemovalPoint} {before : List Effect} {total' : Nat} (hp : p.queue = []) (hb : AtRest before) :
    Removes g c total p (takes g c p).2 [] (tearDown (takes g c p).1 c total' before (takes g c p).2)
  | hook {p : RemovalPoint} {i : RecordId} {rest : List RecordId} {hooks : List Nat} {before : List Effect}
    (hp : p.IsFor i rest) (hb : AtRest before) :
    Removes g c total p [] [] ⟨g, before, .go (.removal c total (.hooking hooks (i :: rest)))⟩
  | claim {p : RemovalPoint} {i : RecordId} {rest : List RecordId} {before : List Effect} (hp : p.IsFor i rest)
    (hr : (g.record i).released = false) (hb : AtRest before) :
    Removes g c total p [] [i]
      ⟨g.modify i fun r => { r with released := true }, before, .go (.removal c total (.releasing (i :: rest)))⟩
  /-- the context was released before -/
  | skip {p : RemovalPoint} {i : RecordId} {rest : List RecordId} {before : List Effect} (hp : p.IsFor i rest)
    (hr : (g.record i).released = true) (hb : AtRest before) :
    Removes g c total p [] [] (tearDown g c total before rest)
  | next {i : RecordId} {rest : List RecordId} {before : List Effect} (hb : AtRest before) :
    Removes g c total (.releasing (i :: rest)) [] [] (tearDown g c total before rest)

theorem release_removes {g : Registry} {c : Cause} {total : Nat} {p : RemovalPoint} {i : RecordId}
    {rest : List RecordId} {before : List Effect} (hp : p.IsFor i rest) (hb : AtRest before) :
    ∃ claimed, Removes g c total p [] claimed (release g c total before i rest) := by
  unfold release
  split
  · rename_i hr
    exact ⟨[], .skip hp hr hb⟩
  · rename_i hr
    exact ⟨[i], .claim hp (by simpa using hr) hb⟩

/-- every step of a removal is one of `Removes` -/
theorem advanceRemoval_removes (g : Registry) (c : Cause) (total : Nat) (reply : Reply) (p : RemovalPoint) :
    ∃ gone claimed, Removes g c total p gone claimed (advanceRemoval g c total reply p) := by
  have hnil : AtRest [] := by simp [AtRest]
  cases p with
  | starting =>
    simp only [advanceRemoval]
    split
    · refine ⟨[], [], .check (.inl ⟨rfl, _, rfl⟩) ?_⟩
      split <;> simp [AtRest, Effect.isWork]
    · refine ⟨_, [], .drain rfl ?_⟩
      unfold drainNotices
      split
      · split <;> simp [AtRest, Effect.isWork]
      · exact hnil
  | checking left gone =>
    cases left with
    | nil => exact ⟨_, [], .drain rfl hnil⟩
    | cons i left => exact ⟨[], [], .check (.inr ⟨_, _, rfl⟩) hnil⟩
  | telling queue =>
    cases queue with
    | nil => exact ⟨[], [], .drain rfl hnil⟩
    | cons i rest =>
      simp only [advanceRemoval]
      split
      · exact ⟨[], release_removes (.inl rfl) hnil⟩
      · exact ⟨[], [], .hook (.inl rfl) hnil⟩
  | hooking hooks queue =>
    cases queue with
    | nil =>
      have h : Removes g c total (.hooking hooks []) [] [] (tearDown g c total [] []) := .drain rfl hnil
      cases hooks <;> exact ⟨[], [], h⟩
    | cons i rest =>
      have hfor : (RemovalPoint.hooking hooks (i :: rest)).IsFor i rest := .inr ⟨hooks, rfl⟩
      cases hooks with
      | nil => exact ⟨[], release_removes hfor hnil⟩
      | cons h hooks =>
        simp only [advanceRemoval]
        split
        · refine ⟨[], release_removes hfor ?_⟩
          split <;> simp [AtRest, Effect.isWork]
        · refine ⟨[], [], .hook hfor ?_⟩
          split <;> simp [AtRest, Effect.isWork]
  | releasing queue =>
    cases queue with
    | nil => exact ⟨[], [], .drain rfl hnil⟩
    | cons i rest =>
      refine ⟨[], [], .next ?_⟩
      split <;> simp [AtRest, Effect.isWork]

theorem finalNotices_rest (g : Registry) (total : Nat) (c : Cause) : AtRest (finalNotices g total c) := by
  unfold finalNotices
  split <;> simp [AtRest, Effect.isWork]

theorem notices_rest (r : Record) (c : Cause) : AtRest (notices r c) := by
  unfold notices
  split <;> simp [AtRest, Effect.isWork]

theorem tearDown_rest {g : Registry} {c : Cause} {total : Nat} {before : List Effect} {queue : List RecordId}
    (hb : AtRest before) : AtRest (tearDown g c total before queue).effects := by
  intro e he
  cases queue with
  | nil =>
    rcases List.mem_append.1 he with he | he
    · exact hb e he
    · exact finalNotices_rest g total c e he
  | cons i rest =>
    rcases List.mem_append.1 he with he | he
    · exact hb e he
    · exact notices_rest _ c e he

namespace Removes

variable {g : Registry} {c : Cause} {total : Nat} {p : RemovalPoint} {gone claimed : List RecordId} {s : Step}

theorem evolves (h : Removes g c total p gone claimed s) (hg : g.Coherent)
    (hc : ∀ i, c = .expiry i → i < g.records.length) (hq : ∀ i ∈ p.queue, i < g.records.length) :
    Evolves g s.registry 0 gone claimed := by
  cases h with
  | check => exact Evolves.refl hg
  | drain hp hb =>
    rw [tearDown_registry]
    exact takes_evolves hg hc p
  | hook => exact Evolves.refl hg
  | claim hp hr hb => exact claim_evolves hg (hq _ (by simp [hp.queue_eq])) hr
  | skip =>
    rw [tearDown_registry]
    exact Evolves.refl hg
  | next =>
    rw [tearDown_registry]
    exact Evolves.refl hg

/-- a removal stays a removal for the same cause, and goes on with what it has taken out -/
theorem stays (h : Removes g c total p gone claimed s) {c' : Call} (hn : s.next = .go c') :
    ∃ total' p', c' = .removal c total' p' ∧ ∀ i ∈ p'.queue, i ∈ p.queue ∨ i ∈ gone := by
  have hin {queue : List RecordId} (hq : ∀ i ∈ queue, i ∈ p.queue ∨ i ∈ gone) {g' : Registry} {total' : Nat}
      {before : List Effect} (hn : (tearDown g' c total' before queue).next = .go c') :
      ∃ total' p', c' = .removal c total' p' ∧ ∀ i ∈ p'.queue, i ∈ p.queue ∨ i ∈ gone :=
    ⟨_, _, tearDown_next hn, hq⟩
  cases h with
  | check => exact ⟨_, _, (Next.go.inj hn).symm, by simp [RemovalPoint.queue]⟩
  | drain hp hb => exact hin (fun i hi => .inr hi) hn
  | hook hp hb =>
    refine ⟨_, _, (Next.go.inj hn).symm, fun i hi => .inl ?_⟩
    rw [hp.queue_eq]
    exact hi
  | claim hp hr hb =>
    refine ⟨_, _, (Next.go.inj hn).symm, fun i hi => .inl ?_⟩
    rw [hp.queue_eq]
    exact hi
  | skip hp hr hb =>
    refine hin (fun i hi => .inl ?_) hn
    rw [hp.queue_eq]
    exact List.mem_cons_of_mem _ hi
  | next => exact hin (fun i hi => .inl (List.mem_cons_of_mem _ hi)) hn

theorem rest (h : Removes g c total p gone claimed s) : AtRest s.effects := by
  cases h with
  | check hp hb => exact hb
  | drain hp hb => exact tearDown_rest hb
  | hook hp hb => exact hb
  | claim hp hr hb => exact hb
  | skip hp hr hb => exact tearDown_rest hb
  | next hb => exact tearDown_rest hb

end Removes

/-! ## All calls -/

/-- the records that a removal is about -/
def names : Call → List RecordId
  | .removal (.expiry i) _ p => i :: p.queue
  | .removal _ _ p => p.queue
  | _ => []

/-- `Does g reply c born gone claimed s`: what a step `s` of the call `c` can be, when it makes `born` records, takes
those of `gone` out of the cache and claims the release of those of `claimed` -/
inductive Does (g : Registry) (reply : Reply) : Call → Nat → List RecordId → List RecordId → Step → Prop
  | found {q : Request} {report : Bool} (ha : g.Admits q reply.now) :
    Does g reply (.request q report .deciding) 1 [] []
      ⟨(g.install q (g.verdict q reply.now) reply.now reply.clock).1,
        (g.install q (g.verdict q reply.now) reply.now reply.clock).2.2,
        .go (.request q report (.resolving g.records.length .looking))⟩
  | remove {cause : Cause} {total : Nat} {p : RemovalPoint} {gone claimed : List RecordId} {s : Step}
    (h : Removes g cause total p gone claimed s) : Does g reply (.removal cause total p) 0 gone claimed s
  | other {c : Call} {s : Step} (hc : ∀ cause total p, c ≠ .removal cause total p) (he : Evolves g s.registry 0 [] [])
    (hb : AtRest s.effects) (hn : ∀ c', s.next = .go c' → c'.names = []) : Does g reply c 0 [] [] s

/-- every step of a call is one of `Does` -/
theorem advance_does {g : Registry} (hg : g.Coherent) {c : Call} (hc : ∀ i ∈ c.names, i < g.records.length)
    (reply : Reply) : ∃ born gone claimed, Does g reply c born gone claimed (advance g reply c) := by
  cases c with
  | request q report p =>
    by_cases hf : ∃ v, p = .deciding ∧ g.decide q reply.now = .ok (.fresh v)
    · obtain ⟨v, rfl, hd⟩ := hf
      obtain ⟨ha, rfl⟩ := (decide_eq_fresh_iff hg).1 hd
      rw [advance_fresh hd]
      exact ⟨1, [], [], .found ha⟩
    · have hp : ∀ v, p = .deciding → g.decide q reply.now ≠ .ok (.fresh v) := fun v hp h => hf ⟨v, hp, h⟩
      have hr := advanceRequest_requests g q report reply p
      obtain ⟨he, hb⟩ := hr.quiet hg hp
      refine ⟨0, [], [], .other (by simp) he hb ?_⟩
      intro c' hn
      obtain ⟨p', rfl⟩ := hr.stays hn
      rfl
  | lookup i a p =>
    refine ⟨0, [], [], .other (by simp) ?_ ?_ ?_⟩
    · rw [lookup_registry]
      exact evolves_lookup hg rfl
    · simp only [advance]
      split <;> simp [AtRest]
    · intro c' hn
      obtain ⟨p', rfl⟩ := lookup_stays hn
      rfl
  | removal cause total p =>
    obtain ⟨gone, claimed, h⟩ := advanceRemoval_removes g cause total reply p
    exact ⟨0, gone, claimed, .remove h⟩
  | start checked =>
    refine ⟨0, [], [], .other (by simp) ?_ ?_ ?_⟩
    · cases checked <;> simp only [advance] <;> split
      · exact Evolves.refl hg
      · exact Evolves.refl hg
      · exact Evolves.refl hg
      · exact evolves_flags hg (List.Perm.refl _) rfl
    · cases checked <;> simp only [advance] <;> split <;> simp [AtRest, Effect.isWork]
    · intro c' hn
      cases checked <;> simp only [advance] at hn <;> split at hn <;> cases hn <;> rfl

theorem queue_subset_names (cause : Cause) (total : Nat) (p : RemovalPoint) :
    ∀ i ∈ p.queue, i ∈ (removal cause total p).names := by
  intro i hi
  cases cause <;> simp [names, hi]

namespace Does

variable {g : Registry} {reply : Reply} {c : Call} {born : Nat} {gone claimed : List RecordId} {s : Step}

theorem evolves (h : Does g reply c born gone claimed s) (hg : g.Coherent)
    (hc : ∀ i ∈ c.names, i < g.records.length) : Evolves g s.registry born gone claimed := by
  cases h with
  | found ha =>
    exact install_evolves hg (hg.lookup?_eq_none_iff.2 ha.unknown) fun i hi => (verdict_active hg i hi).1
  | remove h =>
    refine h.evolves hg ?_ fun i hi => hc i (queue_subset_names _ _ _ i hi)
    rintro i rfl
    exact hc i List.mem_cons_self
  | other hc he hb hn => exact he

/-- a call goes on with records that it was about or has just taken out -/
theorem names (h : Does g reply c born gone claimed s) {c' : Call} (hn : s.next = .go c') :
    ∀ i ∈ c'.names, i ∈ c.names ∨ i ∈ gone := by
  intro i hi
  cases h with
  | found ha =>
    cases hn
    cases hi
  | @remove cause total p gone claimed s h =>
    obtain ⟨total', p', rfl, hq⟩ := h.stays hn
    have hsub := queue_subset_names cause total p
    cases cause <;> simp only [Call.names, List.mem_cons] at hi hsub ⊢
    case expiry j =>
      rcases hi with rfl | hi
      · exact .inl (.inl rfl)
      · rcases hq i hi with h | h
        · exact .inl (.inr h)
        · exact .inr h
    all_goals exact hq i hi
  | other hc he hb hnames =>
    rw [hnames c' hn] at hi
    cases hi

/-- a context is made for each new record, and for no other -/
theorem created (h : Does g reply c born gone claimed s) (hg : g.Coherent) :
    s.effects.filterMap Effect.created? = List.range' g.records.length born := by
  cases h with
  | @found q report ha =>
    have hold : ((g.verdict q reply.now).superseded.flatMap fun i =>
        [Effect.notice (.superseding q (g.record i)), .schedule i g.timeout]).filterMap Effect.created? = [] := by
      rw [List.filterMap_eq_nil_iff]
      intro e he
      obtain ⟨i, -, he⟩ := List.mem_flatMap.1 he
      simp only [List.mem_cons, List.not_mem_nil, or_false] at he
      rcases he with rfl | rfl <;> rfl
    rw [install_effects (nodup_verdict hg) (verdict_active hg)]
    simp only [List.filterMap_append, hold]
    split <;> rfl
  | remove h => exact created_rest h.rest
  | other hc he hb hn => exact created_rest hb

/-- evictions are ordered for records ever made -/
theorem schedule_lt (h : Does g reply c born gone claimed s) (hg : g.Coherent) {i : RecordId} {delay : Nat}
    (he : .schedule i delay ∈ s.effects) : i < g.records.length + born := by
  cases h with
  | @found q report ha =>
    rw [install_effects (nodup_verdict hg) (verdict_active hg)] at he
    have hold : i ∈ (g.verdict q reply.now).superseded → i < g.records.length :=
      fun hi => (verdict_active hg i hi).1
    by_cases hz : (g.verdict q reply.now).grace = 0 <;> simp [hz] at he <;> grind
  | remove h => exact absurd (h.rest _ he) (by simp [Effect.isWork])
  | other hc he' hb hn => exact absurd (hb _ he) (by simp [Effect.isWork])

end Does

/-! ## The lock -/

/-- the next step of the call stops the registry -/
def stops : Call → Bool
  | .removal .stop _ .starting => true
  | _ => false

theorem Requests.stopped_eq {g : Registry} {q : Request} {report : Bool} {reply : Reply} {p : RequestPoint} {s : Step}
    (h : Requests g q report reply p s) : s.registry.stopped = g.stopped := by
  cases h with
  | fresh hd =>
    simp only
    rw [install_eq]
  | look h => exact stopped_lookup h
  | wait h => exact stopped_lookup h
  | made h => exact stopped_lookup h
  | found h => exact stopped_lookup h
  | unresolved h => exact stopped_lookup h
  | _ => rfl

theorem takes_stopped (g : Registry) (c : Cause) (total : Nat) (p : RemovalPoint) :
    (takes g c p).1.stopped = (g.stopped || (removal c total p).stops) := by
  cases p with
  | starting =>
    cases c with
    | expiry i =>
      simp only [takes, drainFor, Registry.expire, stops, Bool.or_false]
      split <;> rfl
    | _ => simp [takes, drainFor, Registry.drain, stops]
  | _ => cases c <;> simp [takes, Registry.drain, stops]

theorem Removes.stopped {g : Registry} {c : Cause} {total : Nat} {p : RemovalPoint} {gone claimed : List RecordId}
    {s : Step} (h : Removes g c total p gone claimed s) :
    s.registry.stopped = (g.stopped || (removal c total p).stops) := by
  have hfor {i : RecordId} {rest : List RecordId} (hp : p.IsFor i rest) : (removal c total p).stops = false := by
    rcases hp with rfl | ⟨hooks, rfl⟩ <;> cases c <;> rfl
  cases h with
  | check hp hb =>
    rcases hp with ⟨rfl, reason, rfl⟩ | ⟨left, gone, rfl⟩
    · simp [stops]
    · cases c <;> simp [stops]
  | drain hp hb => rw [tearDown_registry, takes_stopped]
  | hook hp hb => simp [hfor hp]
  | claim hp hr hb => simp [hfor hp, Registry.modify]
  | skip hp hr hb => simp [hfor hp, tearDown_registry]
  | next hb =>
    rw [tearDown_registry]
    cases c <;> simp [stops]

/-- only the removal that stops the registry does so -/
theorem advance_stopped (g : Registry) (reply : Reply) (c : Call) :
    (advance g reply c).registry.stopped = (g.stopped || c.stops) := by
  cases c with
  | request q report p =>
    simp only [stops, Bool.or_false]
    exact (advanceRequest_requests g q report reply p).stopped_eq
  | lookup i a p =>
    simp only [lookup_registry, stops, Bool.or_false]
    exact stopped_lookup rfl
  | removal c total p =>
    obtain ⟨gone, claimed, h⟩ := advanceRemoval_removes g c total reply p
    exact h.stopped
  | start checked =>
    cases checked <;> simp only [advance, stops, Bool.or_false] <;> split <;> rfl

theorem needsLock_of_stops {c : Call} (h : c.stops = true) : c.needsLock = true := by
  unfold stops at h
  split at h
  · rfl
  · cases h

/-- a call holds the lock after a step only if it held it before or has just taken it -/
theorem holdsLock_next {g : Registry} {reply : Reply} {c c' : Call} (h : (advance g reply c).next = .go c')
    (hl : c'.holdsLock = true) : c.holdsLock = true ∨ c.needsLock = true := by
  cases c with
  | request q report p =>
    have hr := advanceRequest_requests g q report reply p
    simp only [advance] at h
    generalize advanceRequest g q report reply p = s at h hr
    cases hr with
    | lock hs => exact .inr rfl
    | recheck hl => exact .inl rfl
    | _ => cases h <;> cases hl
  | lookup i a p =>
    obtain ⟨p', rfl⟩ := lookup_stays h
    cases hl
  | start checked => cases checked <;> simp only [advance] at h <;> split at h <;> cases h <;> cases hl
  | removal c total p =>
    obtain ⟨gone, claimed, hr⟩ := advanceRemoval_removes g c total reply p
    have htear {g' : Registry} {total' : Nat} {before : List Effect} {queue : List RecordId}
        (h : (tearDown g' c total' before queue).next = .go c') : False := by
      rw [tearDown_next h] at hl
      cases hl
    simp only [advance] at h
    generalize advanceRemoval g c total reply p = s at h hr
    cases hr with
    | check hp hb =>
      rcases hp with ⟨rfl, -⟩ | ⟨left, gone, rfl⟩
      · exact .inr rfl
      · exact .inl rfl
    | drain hp hb => exact (htear h).elim
    | hook hp hb => cases h; cases hl
    | claim hp hr hb => cases h; cases hl
    | skip hp hr hb => exact (htear h).elim
    | next hb => exact (htear h).elim

/-- a request that holds the lock -/
def isInside : Call → Bool
  | .request _ _ .rechecking => true
  | .request _ _ .deciding => true
  | _ => false

theorem holdsLock_of_isInside {c : Call} (h : c.isInside = true) : c.holdsLock = true := by
  unfold isInside at h
  split at h
  · rfl
  · rfl
  · cases h

theorem stops_of_isInside {c : Call} (h : c.isInside = true) : c.stops = false := by
  cases c with
  | request q report p => rfl
  | _ => cases h

/-- a request gets the lock only on a registry that is not stopped -/
theorem isInside_next {g : Registry} {reply : Reply} {c c' : Call} (h : (advance g reply c).next = .go c')
    (hi : c'.isInside = true) : c.stops = false ∧ (c.isInside = true ∨ g.stopped = false) := by
  cases c with
  | request q report p =>
    refine ⟨rfl, ?_⟩
    have hr := advanceRequest_requests g q report reply p
    simp only [advance] at h
    generalize advanceRequest g q report reply p = s at h hr
    cases hr with
    | lock hs => exact .inr hs
    | recheck hl => exact .inl rfl
    | _ => cases h <;> cases hi
  | lookup i a p =>
    obtain ⟨p', rfl⟩ := lookup_stays h
    cases hi
  | start checked => cases checked <;> simp only [advance] at h <;> split at h <;> cases h <;> cases hi
  | removal c total p =>
    obtain ⟨gone, claimed, hr⟩ := advanceRemoval_removes g c total reply p
    obtain ⟨total', p', rfl, -⟩ := hr.stays h
    cases hi

end Call

end Redeploy
