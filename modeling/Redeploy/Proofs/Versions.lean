/-
Versions of one alias: which records of a sender are active with it at the same time.

The decision that makes a record for a request is the only place where records are weighed against each other. It looks
at what the cached records have resolved by then. So two active records of a sender share an alias only where the
decision could not see it: the later record was made for another alias, or the earlier one had not resolved the alias
when the later was made. Both come about: a request for a cached deployment is served without any weighing, and an alias
may be resolved while another request is decided about.

Results:
- `Makes.enters`, `exists_made`: the decision that makes a record enters it, and every record of a run was so made;
- `Makes.outranks`: of the new record and one that has resolved its alias, the one with the lower number is never active
  again;
- `two_active_versions`: a request that hits the cache leaves two active records with its alias, and so may two requests
  at the same time;
- **`active_versions`**: what two active records of a sender that share an alias have to do with each other.
-/
import Redeploy.Proofs.Supersession
import Redeploy.Proofs.Teardown

namespace Redeploy

open Registry

/-- a record keeps its sender and its number -/
theorem Record.of_origin {r r' : Record} (h : r'.origin = r.origin) : r'.sender = r.sender ∧ r'.seq = r.seq :=
  ⟨(congrArg Record.sender h :), (congrArg Record.seq h :)⟩

/-- only the decision about a request makes a record, and makes one -/
theorem Call.Does.born_pos {g : Registry} {reply : Reply} {c : Call} {born : Nat} {gone claimed : List RecordId}
    {s : Step} (h : Call.Does g reply c born gone claimed s) (hb : 0 < born) :
    born = 1 ∧ ∃ q report, c = .request q report .deciding := by
  cases h with
  | found ha => exact ⟨rfl, _, _, rfl⟩
  | remove hr => exact absurd hb (lt_irrefl 0)
  | other hc he hb' hn => exact absurd hb (lt_irrefl 0)

namespace Pool

/-! ## How records come about -/

/-- the move is the decision about the request, and the record is made by it -/
def Makes (p : Pool) (m : Move) (q : Request) (j : RecordId) : Prop :=
  j = p.registry.records.length ∧ (p.step m).registry.records.length = j + 1 ∧
    ∃ k reply report b, m = .step k reply ∧ p.call? k = some ⟨.request q report .deciding, b⟩

theorem Makes.enters {p : Pool} (hp : p.Reachable) {m : Move} {q : Request} {j : RecordId} (h : p.Makes m q j) :
    p.registry.Admits q p.now ∧ ∃ ordered, p.Enters (p.step m) q ordered := by
  obtain ⟨rfl, hlen, k, reply, report, b, rfl, hc⟩ := h
  have hg := hp.sound.coherent
  rcases step_self (m := .step k reply) rfl hc with h | h | ⟨reply', hm, h, -⟩
  · rw [h] at hlen
    omega
  · have hsame : (p.pose k (.request q report .deciding)).registry = p.registry := rfl
    rw [h, hsame] at hlen
    omega
  · cases hm
    rw [h] at hlen ⊢
    have hno {r : Registry} (hr : (p.advance k (.request q report .deciding) reply).registry = r)
        (hsame : r = p.registry) : False := by
      rw [hr, hsame] at hlen
      omega
    cases hd : p.registry.decide q ({ reply with now := p.now } : Reply).now with
    | error why => exact (hno (congrArg Step.registry (Call.advance_refused hd)) rfl).elim
    | ok v =>
      cases v with
      | cached i => exact (hno (congrArg Step.registry (Call.advance_cached hd)) rfl).elim
      | fresh v => exact ⟨((decide_eq_fresh_iff hg).1 hd).1, install_enters hg hd⟩

/-- a move after which there are more records is a decision that makes one -/
theorem makes_of_lt {p : Pool} (hs : p.Sound) {m : Move} (h : p.registry.records.length < (p.step m).registry.records.length) :
    (p.step m).registry.records.length = p.registry.records.length + 1 ∧
      ∃ q, p.Makes m q p.registry.records.length := by
  have hm := step_moved p m
  generalize hp' : p.step m = p' at hm h
  cases hm with
  | @step k u reply hc hready hlock =>
    obtain ⟨born, gone, claimed, hd⟩ := hs.does hc reply
    have hlen : (p.advance k u.call reply).registry.records.length = p.registry.records.length + born :=
      (hd.evolves hs.coherent (hs.named k u hc)).length
    obtain ⟨rfl, q, report, hu⟩ := hd.born_pos (by omega)
    exact ⟨hlen, q, rfl, hp' ▸ hlen, k, reply, report, u.asking, rfl, by rw [hc, ← hu]⟩
  | aside hm ha =>
    rw [ha.records] at h
    omega
  | _ => exact absurd h (lt_irrefl _)

/-- every record of a run was made by one of its moves -/
theorem exists_made {timeout : Nat} {ms : List Move} {j : RecordId}
    (hj : j < ((new timeout).run ms).registry.records.length) :
    ∃ before m after q, ms = before ++ m :: after ∧ ((new timeout).run before).Makes m q j := by
  induction ms using List.reverseRecOn with
  | nil => exact absurd hj (Nat.not_lt_zero _)
  | append_singleton ms m ih =>
    by_cases hold : j < ((new timeout).run ms).registry.records.length
    · obtain ⟨before, m', after, q, rfl, hmade⟩ := ih hold
      exact ⟨before, m', after ++ [m], q, by simp, hmade⟩
    · rw [run_append] at hj
      have hs := (show ((new timeout).run ms).Reachable from ⟨timeout, ms, rfl⟩).sound
      obtain ⟨hlen, q, hmade⟩ := makes_of_lt hs (m := m) (lt_of_le_of_lt (Nat.le_of_not_lt hold) hj)
      have hnew : j = ((new timeout).run ms).registry.records.length := by
        have hj : j < (((new timeout).run ms).step m).registry.records.length := hj
        rw [hlen] at hj
        exact le_antisymm (Nat.le_of_lt_succ hj) (Nat.le_of_not_lt hold)
      exact ⟨ms, m, [], q, rfl, hnew ▸ hmade⟩

/-! ## What a record keeps -/

/-- no record is lost by a move, and lives move forward -/
theorem forward_step {p : Pool} (hs : p.Sound) (m : Move) :
    p.registry.records.length ≤ (p.step m).registry.records.length ∧
      ∀ i < p.registry.records.length, (p.registry.record i).state.rank ≤ ((p.step m).registry.record i).state.rank := by
  have hm := step_moved p m
  generalize p.step m = p' at hm
  cases hm with
  | @step k u reply hc hready hlock =>
    obtain ⟨born, gone, claimed, hd⟩ := hs.does hc reply
    have he := hd.evolves hs.coherent (hs.named k u hc)
    have hlen : (p.advance k u.call reply).registry.records.length = p.registry.records.length + born := he.length
    exact ⟨by omega, he.forward⟩
  | aside hm ha => exact ⟨by rw [ha.records], fun i _ => by rw [ha.record]⟩
  | _ => exact ⟨le_rfl, fun _ _ => le_rfl⟩

/-- along a run a record stays the one that was made, and its life moves forward -/
theorem record_run {p : Pool} (hp : p.Reachable) {i : RecordId} (hi : i < p.registry.records.length) (ms : List Move) :
    i < (p.run ms).registry.records.length ∧
      ((p.run ms).registry.record i).origin = (p.registry.record i).origin ∧
      (p.registry.record i).state.rank ≤ ((p.run ms).registry.record i).state.rank := by
  induction ms using List.reverseRecOn with
  | nil => exact ⟨hi, rfl, le_rfl⟩
  | append_singleton ms m ih =>
    obtain ⟨hlt, horigin, hrank⟩ := ih
    have hs := (hp.run ms).sound
    rw [run_append]
    obtain ⟨hlen, hforward⟩ := forward_step hs m
    exact ⟨lt_of_lt_of_le hlt hlen, (origin_step hs m hlt).trans horigin, hrank.trans (hforward i hlt)⟩

/-- a record that is active was active at every earlier moment of its life -/
theorem active_of_run {p : Pool} (hp : p.Reachable) {i : RecordId} (hi : i < p.registry.records.length)
    {ms : List Move} (h : ((p.run ms).registry.record i).isActive = true) : (p.registry.record i).isActive = true := by
  have hrank := (record_run hp hi ms).2.2
  have hstate : ((p.run ms).registry.record i).state = .active := by simpa [Record.isActive] using h
  rw [hstate] at hrank
  cases hs : (p.registry.record i).state <;> simp [Record.isActive, hs]
  all_goals simp [hs, Lifecycle.rank] at hrank

/-! ## Active versions -/

/-- what an active record of a run was at an earlier moment of its life -/
theorem cached_of_run {p : Pool} (hp : p.Reachable) {i : RecordId} (hi : i < p.registry.records.length)
    (ms : List Move) (h : ((p.run ms).registry.record i).isActive = true) :
    p.registry.Caches i ∧ (p.registry.record i).isActive = true := by
  have hactive := active_of_run hp hi h
  have hstate : (p.registry.record i).state = .active := by simpa [Record.isActive] using hactive
  exact ⟨(hp.sound.coherent.alive i hi).1 (by simp [Record.isUndeployed, hstate]), hactive⟩

/-- the record answers requests, is active, and has resolved the alias -/
structure Offers (p : Pool) (i : RecordId) (a : String) : Prop where
  cached : p.registry.Caches i
  active : (p.registry.record i).isActive = true
  resolved : (p.registry.record i).hasResolved a = true

/-- two active records of one sender with one alias, and no call under way: a request that hits the newer record in the
cache resolves the alias there (`hit`), or the older one resolves it while the newer is made (`overlap`) -/
theorem two_active_versions :
    let x : Request := { id := ⟨"x"⟩, sender := ⟨"s"⟩, seq := 1, moduleAlias := "a" }
    let y : Request := { id := ⟨"y"⟩, sender := ⟨"s"⟩, seq := 2, moduleAlias := "b" }
    let z : Request := { id := ⟨"z"⟩, sender := ⟨"s"⟩, seq := 2, moduleAlias := "a" }
    let hit := (new 100).run
      (.enter (.request x true .entering) :: turns 0 { module := .ok ⟨"m", false⟩ } 8 ++
        .enter (.request y true .entering) :: turns 1 { module := .ok ⟨"n", false⟩ } 8 ++
        .enter (.request { y with moduleAlias := "a" } true .entering) :: turns 2 { module := .ok ⟨"m", false⟩ } 8)
    let overlap := (new 100).run
      (.enter (.request x true .entering) :: turns 0 {} 6 ++ .ask 0 ::
        .enter (.request z true .entering) :: turns 1 { module := .ok ⟨"m", false⟩ } 8 ++
        turns 0 { module := .ok ⟨"m", false⟩ } 2)
    (hit.Reachable ∧ hit.IsIdle ∧ hit.Returned 2 (.record 1) ∧ hit.Offers 0 "a" ∧ hit.Offers 1 "a" ∧
        (hit.registry.record 0).sender = (hit.registry.record 1).sender ∧
        (hit.registry.record 0).seq < (hit.registry.record 1).seq) ∧
      overlap.Reachable ∧ overlap.IsIdle ∧ overlap.Returned 1 (.record 1) ∧ overlap.Offers 0 "a" ∧
        overlap.Offers 1 "a" ∧ (overlap.registry.record 0).sender = (overlap.registry.record 1).sender ∧
        (overlap.registry.record 0).seq < (overlap.registry.record 1).seq := by
  intro x y z hit overlap
  refine ⟨⟨⟨100, _, rfl⟩, by decide +kernel, by decide +kernel, ?_, ?_, by decide +kernel, by decide +kernel⟩,
    ⟨100, _, rfl⟩, by decide +kernel, by decide +kernel, ?_, ?_, by decide +kernel, by decide +kernel⟩
  · exact ⟨⟨⟨"x"⟩, by decide +kernel⟩, by decide +kernel, by decide +kernel⟩
  · exact ⟨⟨⟨"y"⟩, by decide +kernel⟩, by decide +kernel, by decide +kernel⟩
  · exact ⟨⟨⟨"x"⟩, by decide +kernel⟩, by decide +kernel, by decide +kernel⟩
  · exact ⟨⟨⟨"z"⟩, by decide +kernel⟩, by decide +kernel, by decide +kernel⟩

/-- a request is never decided in favour of a second record of its number; and of the new record and a rival that has
resolved the alias, the one with the lower number is never active again -/
theorem Makes.outranks {p : Pool} (hp : p.Reachable) {m : Move} {q : Request} {j : RecordId} (h : p.Makes m q j)
    {i : RecordId} (hcached : p.registry.Caches i) (hrivals : (p.registry.record i).Rivals q) :
    (p.registry.record i).seq ≠ q.seq ∧
      ((p.registry.record i).hasResolved q.moduleAlias = true → ∀ ms,
        ((p.registry.record i).seq < q.seq → (((p.step m).run ms).registry.record i).isActive = false) ∧
          (q.seq < (p.registry.record i).seq → (((p.step m).run ms).registry.record j).isActive = false)) := by
  obtain ⟨hadm, ordered, henters⟩ := h.enters hp
  have hi := hp.sound.coherent.lt hcached
  refine ⟨hadm.unequal i hcached hrivals, fun hres ms => ⟨fun hlt => ?_, fun hlt => ?_⟩⟩
  · have hpending := henters.behind i hcached ⟨hrivals, hlt, hres⟩
    by_contra hactive
    have hlt' : i < (p.step m).registry.records.length := by
      rw [henters.length]
      exact Nat.lt_succ_of_lt hi
    have := active_of_run (hp.step m) hlt' (by simpa using hactive)
    simp [hpending, Record.isActive] at this
  · obtain ⟨clock, state, hmade, hstate⟩ := henters.made
    obtain ⟨-, rfl⟩ := hstate.resolve_right fun h => h.1 ⟨i, hcached, hrivals, hlt, hres⟩
    rw [h.1]
    by_contra hactive
    have hlt' : p.registry.records.length < (p.step m).registry.records.length := by
      rw [henters.length]
      exact Nat.lt_succ_self _
    have := active_of_run (hp.step m) hlt' (by simpa using hactive)
    simp [hmade, Record.isActive] at this

/-- **active versions of one alias**: two active cached records of a sender that share an alias have different numbers,
and the later of them was made for another alias, or at a moment when the earlier one had not resolved the alias. A
request that makes its record has every active cached record of its sender with a lower number that has resolved the
alias by then inactive for good; if one with a higher number has, the new record is never active. -/
theorem active_versions (timeout : Nat) (ms : List Move) :
    let p := (new timeout).run ms
    (∀ i j a, i < j → p.Offers i a → p.Offers j a → (p.registry.record i).sender = (p.registry.record j).sender →
        (p.registry.record i).seq ≠ (p.registry.record j).seq ∧
          ∃ before m after q, ms = before ++ m :: after ∧ ((new timeout).run before).Makes m q j ∧
            (q.moduleAlias ≠ a ∨ (((new timeout).run before).registry.record i).hasResolved a = false)) ∧
      ∀ m q j, p.Makes m q j → ∀ i, p.Offers i q.moduleAlias → (p.registry.record i).sender = q.sender → ∀ later,
        ((p.registry.record i).seq < q.seq → (((p.step m).run later).registry.record i).isActive = false) ∧
          (q.seq < (p.registry.record i).seq → (((p.step m).run later).registry.record j).isActive = false) := by
  intro p
  have hreach : ∀ l, ((new timeout).run l).Reachable := fun l => ⟨timeout, l, rfl⟩
  refine ⟨?_, fun m q j h i ho hsender => (h.outranks (hreach ms) ho.cached ⟨hsender, ho.active⟩).2 ho.resolved⟩
  intro i j a hij hi hj hsender
  obtain ⟨before, m, after, q, rfl, hmade⟩ := exists_made ((hreach ms).sound.coherent.lt hj.cached)
  have hp := hreach before
  have hrun : p = (((new timeout).run before).step m).run after := by rw [← run_cons, ← run_append]
  clear_value p
  subst hrun
  refine (?_ : _ ∧ _).imp_right fun h => ⟨before, m, after, q, rfl, hmade, h⟩
  generalize (new timeout).run before = p at hp hmade hi hj hsender ⊢
  have hij' : i < p.registry.records.length := hmade.1 ▸ hij
  have hj' : j < (p.step m).registry.records.length := by rw [hmade.2.1]; exact Nat.lt_succ_self j
  -- the earlier record was there, active and of the request's sender when the later was made
  obtain ⟨hcached, hactive⟩ := cached_of_run hp hij' (m :: after) hi.active
  obtain ⟨-, ordered, henters⟩ := hmade.enters hp
  obtain ⟨clock, state, hnew, -⟩ := henters.made
  obtain ⟨hfrom, hseq⟩ := Record.of_origin (record_run hp hij' (m :: after)).2.1
  obtain ⟨hfrom', hseq'⟩ := Record.of_origin (record_run (hp.step m) hj' after).2.1
  rw [run_cons] at hfrom hseq
  rw [hmade.1, hnew, ← hmade.1] at hfrom' hseq'
  have hrivals : (p.registry.record i).Rivals q := ⟨by rw [← hfrom, hsender, hfrom'], hactive⟩
  obtain ⟨hne, hlower⟩ := hmade.outranks hp hcached hrivals
  refine ⟨by rw [hseq, hseq']; exact hne, ?_⟩
  by_cases halias : q.moduleAlias = a
  · subst halias
    refine .inr ?_
    by_contra hres
    obtain ⟨hbehind, hahead⟩ := hlower (by simpa using hres) after
    rcases UInt64.lt_or_lt_of_ne hne with hlt | hlt
    · have hinactive := hbehind hlt
      rw [hi.active] at hinactive
      cases hinactive
    · have hinactive := hahead hlt
      rw [hj.active] at hinactive
      cases hinactive
  · exact .inl halias

/-- two records of one sender made for different aliases, a request for the alias of the first that hits the second in
the cache, and a request of a higher number for that alias, which has both go -/
theorem superseded_versions :
    let x : Request := { id := ⟨"x"⟩, sender := ⟨"s"⟩, seq := 1, moduleAlias := "a" }
    let y : Request := { id := ⟨"y"⟩, sender := ⟨"s"⟩, seq := 2, moduleAlias := "b" }
    let z : Request := { id := ⟨"z"⟩, sender := ⟨"s"⟩, seq := 3, moduleAlias := "a" }
    let ms := .enter (.request x true .entering) :: turns 0 { module := .ok ⟨"m", false⟩ } 8 ++
      .enter (.request y true .entering) :: turns 1 { module := .ok ⟨"n", false⟩ } 8 ++
      .enter (.request { y with moduleAlias := "a" } true .entering) :: turns 2 { module := .ok ⟨"m", false⟩ } 8 ++
      .enter (.request z true .entering) :: turns 3 {} 3
    let p := (new 100).run ms
    p.Offers 0 "a" ∧ p.Offers 1 "a" ∧
      (∃ before m after q, ms = before ++ m :: after ∧ ((new 100).run before).Makes m q 1 ∧
        (q.moduleAlias ≠ "a" ∨ (((new 100).run before).registry.record 0).hasResolved "a" = false)) ∧
      p.Makes (.step 3 {}) z 2 ∧ ∀ later, (((p.step (.step 3 {})).run later).registry.record 1).isActive = false := by
  intro x y z ms p
  have h₀ : p.Offers 0 "a" := ⟨⟨⟨"x"⟩, by decide +kernel⟩, by decide +kernel, by decide +kernel⟩
  have h₁ : p.Offers 1 "a" := ⟨⟨⟨"y"⟩, by decide +kernel⟩, by decide +kernel, by decide +kernel⟩
  have hmakes : p.Makes (.step 3 {}) z 2 :=
    ⟨by decide +kernel, by decide +kernel, 3, {}, true, false, rfl, by decide +kernel⟩
  have hsender : (p.registry.record 0).sender = (p.registry.record 1).sender := by decide +kernel
  have hsender' : (p.registry.record 1).sender = z.sender := by decide +kernel
  have hlt : (p.registry.record 1).seq < z.seq := by decide +kernel
  have h := active_versions 100 ms
  exact ⟨h₀, h₁, (h.1 0 1 "a" Nat.zero_lt_one h₀ h₁ hsender).2, hmakes,
    fun later => (h.2 _ z 2 hmakes 1 h₁ hsender' later).1 hlt⟩

end Pool

end Redeploy
