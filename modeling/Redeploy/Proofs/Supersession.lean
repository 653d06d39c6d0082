/-
What the acceptance of a request does to a pool: all of it, and nothing else.

A request for a cached deployment changes nothing. One for an unknown deployment enters one record. The records behind
it become pending and are evicted after the network timeout; if records are ahead of it, the new one is pending as well
and evicted when the youngest of them has been there for the whole network timeout. `Enters` says this field by field,
with a frame for everything else.

Results:
- `leaves_iff`: the verdict's grace is what is left to the youngest record ahead, and it is never nothing;
- `step_accepting`: a request is accepted by the decision only, for a cached record or for a new one;
- `mem_orders`, `nodup_orders`: the evictions that an admitted request orders;
- `install_enters`: what an installation does to the pool;
- **`acceptance_effect`**: the moves of a request up to the decision change nothing, unless one accepts it for an
  unknown deployment; that one does what `Enters` says.
-/
import Redeploy.Proofs.Rejection

namespace Redeploy

open Registry

/-- the record that the effect makes a context for, and the parent of the context -/
def Effect.context? : Effect → Option (RecordId × Option String)
  | .create i parent => some (i, parent)
  | _ => none

def Mark.context? : Mark → Option (RecordId × Option String)
  | .did e => e.context?
  | _ => none

namespace Registry

variable {g : Registry} {q : Request} {now delay : Nat}

/-! ## Late requests -/

/-- a cached record is ahead of the request -/
def IsLate (g : Registry) (q : Request) : Prop := ∃ i, g.Caches i ∧ (g.record i).IsAhead q

/-- `delay` is the network timeout less the age of the youngest record ahead of the request -/
def Leaves (g : Registry) (q : Request) (now delay : Nat) : Prop :=
  ∃ y, g.Caches y ∧ (g.record y).IsAhead q ∧ delay = g.timeout - (g.record y).age now ∧
    ∀ i, g.Caches i → (g.record i).IsAhead q → (g.record y).age now ≤ (g.record i).age now

theorem grace_ne_zero_iff (hg : g.Coherent) (ha : g.Admits q now) : (g.verdict q now).grace ≠ 0 ↔ g.IsLate q := by
  rw [ne_eq, grace_eq_zero_iff hg ha]
  simp [IsLate]

theorem leaves_iff (hg : g.Coherent) (ha : g.Admits q now) :
    g.Leaves q now delay ↔ (g.verdict q now).grace ≠ 0 ∧ delay = (g.verdict q now).grace := by
  constructor
  · rintro ⟨y, hy, hahead, rfl, hmin⟩
    have hne := (grace_ne_zero_iff hg ha).2 ⟨y, hy, hahead⟩
    obtain ⟨z, hz, hz', hgrace, hminz⟩ := exists_youngest hg hne
    -- there may be several youngest records, all of the same age
    have hage : (g.record y).age now = (g.record z).age now := le_antisymm (hmin z hz hz') (hminz y hy hahead)
    refine ⟨hne, ?_⟩
    rw [hgrace, hage]
    rfl
  · rintro ⟨hne, rfl⟩
    exact exists_youngest hg hne

theorem Leaves.bounds (ha : g.Admits q now) (h : g.Leaves q now delay) : 0 < delay ∧ delay ≤ g.timeout := by
  obtain ⟨y, hy, hahead, rfl, -⟩ := h
  have := ha.timely y hy hahead
  omega

/-! ## The effects of an installation -/

/-- the evictions that an admitted request orders: of the records that it supersedes, and of its own if it is late -/
def orders (g : Registry) (q : Request) (now : Nat) : List (RecordId × Nat) :=
  ((g.verdict q now).superseded.map fun i => (i, now + g.timeout)) ++
    if (g.verdict q now).grace = 0 then [] else [(g.records.length, now + (g.verdict q now).grace)]

theorem mem_orders (hg : g.Coherent) (ha : g.Admits q now) {i : RecordId} {due : Nat} :
    (i, due) ∈ g.orders q now ↔ g.Caches i ∧ (g.record i).IsBehind q ∧ due = now + g.timeout ∨
      i = g.records.length ∧ ∃ delay, g.Leaves q now delay ∧ due = now + delay := by
  have hlate : (i, due) ∈ (if (g.verdict q now).grace = 0 then ([] : List (RecordId × Nat))
        else [(g.records.length, now + (g.verdict q now).grace)]) ↔
      i = g.records.length ∧ ∃ delay, g.Leaves q now delay ∧ due = now + delay := by
    simp only [leaves_iff hg ha]
    by_cases h : (g.verdict q now).grace = 0 <;> simp [h]
  rw [orders, List.mem_append, hlate, List.mem_map]
  simp only [Prod.mk.injEq, mem_verdict hg]
  constructor
  · rintro (⟨j, ⟨hj, hb⟩, rfl, rfl⟩ | h)
    · exact .inl ⟨hj, hb, rfl⟩
    · exact .inr h
  · rintro (⟨hi, hb, rfl⟩ | h)
    · exact .inl ⟨i, ⟨hi, hb⟩, rfl, rfl⟩
    · exact .inr h

/-- no record is evicted twice on behalf of one request -/
theorem nodup_orders (hg : g.Coherent) : ((g.orders q now).map Prod.fst).Nodup := by
  have hn := @nodup_verdict g q now hg
  rw [orders, List.map_append, List.map_map]
  refine List.nodup_append.2 ⟨by simpa [Function.comp_def] using hn, by split <;> simp, ?_⟩
  intro i hi j hj
  have hlt : i < g.records.length := by
    refine (verdict_active hg i (?_ : i ∈ (g.verdict q now).superseded)).1
    simpa [Function.comp_def] using hi
  have hj : j = g.records.length := by split at hj <;> simp_all
  exact hj ▸ hlt.ne

variable {clock : Timestamp}

theorem evictions_install (hg : g.Coherent) :
    (g.install q (g.verdict q now) now clock).2.2.filterMap (Effect.eviction? now) = g.orders q now := by
  rw [install_effects (nodup_verdict hg) (verdict_active hg), orders]
  simp only [List.filterMap_append, List.filterMap_flatMap, List.filterMap_cons, List.filterMap_nil,
    Effect.eviction?]
  split <;> simp [Effect.eviction?, List.map_eq_flatMap]

theorem contexts_install (hg : g.Coherent) :
    (g.install q (g.verdict q now) now clock).2.2.filterMap Effect.context? =
      [(g.records.length, q.parent <|> g.defaultParent)] := by
  rw [install_effects (nodup_verdict hg) (verdict_active hg)]
  simp only [List.filterMap_append, List.filterMap_flatMap, List.filterMap_cons, List.filterMap_nil,
    Effect.context?]
  split <;> simp [List.filterMap_cons, Effect.context?]

end Registry

namespace Pool

/-- the pool `p'` is `p` after the entry of a new record for the request, with the evictions that were `ordered` -/
structure Enters (p p' : Pool) (q : Request) (ordered : List (RecordId × Nat)) : Prop where
  /-- one record is new and answers requests from now on; the registry is otherwise the same -/
  length : p'.registry.records.length = p.registry.records.length + 1
  registry : p'.registry = { p.registry with
    records := p'.registry.records
    cache := p.registry.cache ++ [(q.id, p.registry.records.length)] }
  /-- the new record is as the request says -/
  made : ∃ clock state, p'.registry.record p.registry.records.length =
      { id := q.id, sender := q.sender, seq := q.seq, version := q.version, mode := q.mode, createdAt := p.now,
        deployedAt := clock, state, released := false, cells := [], slots := [] } ∧
    (p.registry.IsLate q ∧ state = .pendingUndeploy ∨ ¬ p.registry.IsLate q ∧ state = .active)
  contexts : p'.trace.filterMap Mark.context? =
    p.trace.filterMap Mark.context? ++ [(p.registry.records.length, q.parent <|> p.registry.defaultParent)]
  behind : ∀ i, p.registry.Caches i → (p.registry.record i).IsBehind q →
    p'.registry.record i = { p.registry.record i with state := .pendingUndeploy }
  others : ∀ i < p.registry.records.length, ¬ (p.registry.Caches i ∧ (p.registry.record i).IsBehind q) →
    p'.registry.record i = p.registry.record i
  evictions : p'.evictions = p.evictions ++ ordered
  /-- no record is evicted by two of the new evictions -/
  once : (ordered.map Prod.fst).Nodup
  mem_ordered : ∀ i due, (i, due) ∈ ordered ↔
    p.registry.Caches i ∧ (p.registry.record i).IsBehind q ∧ due = p.now + p.registry.timeout ∨
      i = p.registry.records.length ∧ ∃ delay, p.registry.Leaves q p.now delay ∧ due = p.now + delay
  late : p.registry.IsLate q → ∃ delay, p.registry.Leaves q p.now delay
  bounds : ∀ delay, p.registry.Leaves q p.now delay → 0 < delay ∧ delay ≤ p.registry.timeout

variable {p : Pool} {k : Nat} {q : Request} {report b : Bool} {pt : RequestPoint} {m : Move} {i : RecordId}

/-- only the decision accepts a request: for a record that is cached under its number, or for a new one -/
theorem step_accepting (hc : p.call? k = some ⟨.request q report pt, b⟩) (hpt : pt.isOpen = true)
    (hm : m.place? = some k) (ha : (p.step m).AcceptedFor k q report i) :
    ∃ reply : Reply, p.step m = p.advance k (.request q report .deciding) reply ∧
      (p.registry.decide q ({ reply with now := p.now } : Reply).now = .ok (.cached i) ∨
        i = p.registry.records.length ∧
          ∃ v, p.registry.decide q ({ reply with now := p.now } : Reply).now = .ok (.fresh v)) := by
  rcases step_self hm hc with h | h | ⟨reply, rfl, h, -⟩
  · rw [h, AcceptedFor, hc] at ha
    cases ha
    cases hpt
  · rw [h, AcceptedFor, call?_pose hc, if_pos rfl] at ha
    cases ha
  · rw [h, AcceptedFor, call?_advance hc, if_pos rfl] at ha
    have hr := Call.advanceRequest_requests p.registry q report { reply with now := p.now } pt
    simp only [Call.advance] at ha
    generalize Call.advanceRequest p.registry q report { reply with now := p.now } pt = s at ha hr
    cases hr with
    | cached hd =>
      cases ha
      exact ⟨reply, h, .inl hd⟩
    | fresh hd =>
      cases ha
      exact ⟨reply, h, .inr ⟨rfl, _, hd⟩⟩
    | look heq => cases hpt
    | wait heq => cases hpt
    | _ => cases ha

theorem install_enters (hg : p.registry.Coherent) {reply : Reply} {v : Verdict}
    (hd : p.registry.decide q ({ reply with now := p.now } : Reply).now = .ok (.fresh v)) :
    ∃ ordered, p.Enters (p.advance k (.request q report .deciding) reply) q ordered := by
  obtain ⟨hadm, rfl⟩ := (decide_eq_fresh_iff hg).1 hd
  have hs := @Call.advance_fresh p.registry q report { reply with now := p.now } _ hd
  have hreg : (p.advance k (.request q report .deciding) reply).registry =
      (p.registry.install q (p.registry.verdict q p.now) p.now reply.clock).1 := congrArg Step.registry hs
  have hev : (p.advance k (.request q report .deciding) reply).evictions = p.evictions ++
      (p.registry.install q (p.registry.verdict q p.now) p.now reply.clock).2.2.filterMap (Effect.eviction? p.now) := by
    simp only [Pool.advance, hs]
  have htrace : (p.advance k (.request q report .deciding) reply).trace = p.trace ++
      (p.registry.install q (p.registry.verdict q p.now) p.now reply.clock).2.2.map .did := by
    simp only [Pool.advance, hs, Next.marks, List.append_nil]
  have hn := @nodup_verdict p.registry q p.now hg
  have hact := @verdict_active p.registry q p.now hg
  rw [evictions_install hg] at hev
  refine ⟨_, ?_, ?_, ?_, ?_, ?_, ?_, hev, nodup_orders hg, fun i due => mem_orders hg hadm, ?_,
    fun delay => Leaves.bounds hadm⟩
  · rw [hreg, length_install]
  · rw [hreg]
    exact install_eq
  · refine ⟨reply.clock, _, by rw [hreg]; exact record_install_new, ?_⟩
    rw [← grace_ne_zero_iff hg hadm]
    by_cases h : (p.registry.verdict q p.now).grace = 0 <;> simp [h]
  · rw [htrace, List.filterMap_append, List.filterMap_map]
    exact congrArg _ (contexts_install hg)
  · intro i hi hb
    rw [hreg, record_install_of_lt hn hact (hg.lt hi), if_pos ((mem_verdict hg).2 ⟨hi, hb⟩)]
  · intro i hi hb
    rw [hreg, record_install_of_lt hn hact hi, if_neg fun h => hb ((mem_verdict hg).1 h)]
  · intro hl
    exact ⟨_, (leaves_iff hg hadm).2 ⟨(grace_ne_zero_iff hg hadm).2 hl, rfl⟩⟩

/-- **acceptance changes what it must, and nothing else**: a move of a request that was not decided about changes
nothing unless it accepts the request. If the deployment is cached, the request is accepted for the cached record, which
has its number, and again nothing changes. If it is not cached, a new record enters: those behind it become pending
with one eviction each after the network timeout, the new one is pending with one eviction when the youngest record
ahead of it reaches the network timeout, and active with none if no record is ahead; every other record is as it was. -/
theorem acceptance_effect (hp : p.Reachable) (hc : p.call? k = some ⟨.request q report pt, b⟩)
    (hpt : pt.isOpen = true) (hm : m.place? = some k) :
    ((∀ i, ¬ (p.step m).AcceptedFor k q report i) → p.Untouched (p.step m)) ∧
      ∀ i, (p.step m).AcceptedFor k q report i →
        ((∃ j, p.registry.Caches j ∧ (p.registry.record j).id = q.id) →
            p.registry.Known q i ∧ p.Untouched (p.step m)) ∧
          ((∀ j, p.registry.Caches j → (p.registry.record j).id ≠ q.id) →
            i = p.registry.records.length ∧ ∃ ordered, p.Enters (p.step m) q ordered) := by
  have hg := hp.sound.coherent
  refine ⟨?_, ?_⟩
  · intro hno
    rcases step_open hp hc hpt m with ⟨-, h⟩ | ⟨i, ha, -⟩
    · exact h hm
    · exact absurd ha (hno i)
  · intro i ha
    obtain ⟨reply, hstep, hd | ⟨rfl, v, hd⟩⟩ := step_accepting hc hpt hm ha
    · have hknown := (decide_eq_cached_iff hg).1 hd
      refine ⟨fun _ => ⟨hknown, ?_⟩, fun hnone => absurd hknown.2.1 (hnone i hknown.1)⟩
      rw [hstep]
      apply untouched_advance <;> rw [Call.advance_cached hd]
      simp [AtRest]
    · refine ⟨?_, fun _ => ⟨rfl, hstep ▸ install_enters hg hd⟩⟩
      rintro ⟨j, hj, hid⟩
      exact absurd hid (((decide_eq_fresh_iff hg).1 hd).1.unknown j hj)

/-- a request between an older record that it supersedes and a newer one that has been there for half the timeout -/
theorem superseded_and_late :
    let w : Request := { id := ⟨"w"⟩, sender := ⟨"s"⟩, seq := 1, moduleAlias := "a" }
    let z : Request := { id := ⟨"z"⟩, sender := ⟨"s"⟩, seq := 5, moduleAlias := "b" }
    let x : Request := { id := ⟨"x"⟩, sender := ⟨"s"⟩, seq := 3, moduleAlias := "a" }
    let p := (new 100).run
      (.enter (.request w true .entering) :: turns 0 { module := .ok ⟨"m", false⟩ } 8 ++
        .pass 10 :: .enter (.request z true .entering) :: turns 1 { module := .ok ⟨"n", true⟩ } 8 ++
        .enter (.lookup 1 "a" .looking) :: turns 2 { module := .ok ⟨"o", false⟩ } 4 ++
        .pass 50 :: .enter (.request x true .entering) :: turns 3 {} 3)
    (p.registry.record 0).IsBehind x ∧ (p.registry.record 1).IsAhead x ∧
      p.Enters (p.step (.step 3 {})) x [(0, 160), (2, 110)] := by
  intro w z x p
  have hp : p.Reachable := ⟨100, _, rfl⟩
  have hc : p.call? 3 = some ⟨.request x true .deciding, false⟩ := by decide +kernel
  have ha : (p.step (.step 3 {})).AcceptedFor 3 x true 2 := by
    show (p.step (.step 3 {})).call? 3 = some _
    decide +kernel
  have hbehind : (p.registry.record 0).IsBehind x := by decide +kernel
  have hahead : (p.registry.record 1).IsAhead x := by decide +kernel
  have hcache : p.registry.lookup? x.id = none := by decide +kernel
  have hold : p.evictions = [] := by decide +kernel
  have hnew : (p.step (.step 3 {})).evictions = [(0, 160), (2, 110)] := by decide +kernel
  clear_value p
  obtain ⟨-, ordered, h⟩ := ((acceptance_effect hp hc rfl rfl).2 2 ha).2
    (hp.sound.coherent.lookup?_eq_none_iff.1 hcache)
  obtain rfl : ordered = [(0, 160), (2, 110)] := by
    have := h.evictions
    rw [hold, hnew] at this
    exact this.symm
  exact ⟨hbehind, hahead, h⟩

end Pool

end Redeploy
