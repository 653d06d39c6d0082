/-
The epoch of the local node.

A directory keeps it in two places: as a counter, which the token shows and every registration of the local node raises, and
in the entry of the local node, which that registration writes. Registrations of other nodes write the entry of whatever
node they name. If one names the local node, is accepted and carries another epoch than the token (`Intrudes`), the two
differ from then on, until the local node is removed or registers again. There is no other way for them to differ
(`agrees_apply_iff`), and an entry whose epoch falls is such a foreign one, replaced by the local node's own.

Results:
- `epoch_apply`, `epoch_run`: the counter counts registrations of the local node;
- `agrees_apply_iff`, `agrees_run_iff`: entry and token agree as long as no registration intrudes;
- **`own_epoch`**: agreement, and neither epoch falls;
- `own_epoch_overwritten`: a history after which they differ, and the entry's epoch falls.
-/
import Redeploy.Proofs.Epochs

namespace Redeploy.Membership

/-- the operation registers the local node -/
def Op.isOwn : Op → Bool
  | .registerSelf .. => true
  | _ => false

namespace Directory

variable {d : Directory} {m : MemberId} {op : Op} {os : List Op}

/-- the entry of the local node, if there is one, carries the epoch of its token -/
def Agrees (d : Directory) : Prop := ∀ n, d.find? d.self = some n → n.epoch = d.token.epoch

/-- the operation registers the local node the way other nodes are registered, with success and in an epoch that is not
that of its token -/
def Intrudes (d : Directory) (op : Op) : Prop :=
  ∃ n, op = .register n ∧ n.id = d.self ∧ (d.register n).2.1 = true ∧ n.epoch ≠ d.token.epoch

/-! ## The counter -/

theorem epoch_apply (d : Directory) (op : Op) :
    (d.apply op).1.epoch = if op.isOwn then d.epoch + 1 else d.epoch := by
  cases op with
  | registerSelf address clock => rfl
  | register n =>
    simp only [apply, register]
    split
    · split <;> rfl
    · rfl
  | heartbeat m clock => rfl
  | leave m =>
    simp only [apply, leave]
    split <;> rfl
  | fail m =>
    simp only [apply, fail]
    split <;> rfl
  | evictStale clock => rfl

/-- the counter counts registrations of the local node, as long as it does not wrap -/
theorem epoch_run (d : Directory) (os : List Op) (hfit : d.epoch.toNat + os.countP Op.isOwn < 2 ^ 64) :
    (d.run os).1.epoch.toNat = d.epoch.toNat + os.countP Op.isOwn := by
  induction os using List.reverseRecOn with
  | nil => rfl
  | append_singleton os op ih =>
    rw [List.countP_append, List.countP_singleton] at hfit
    rw [run_concat, epoch_apply, List.countP_append, List.countP_singleton]
    cases hown : op.isOwn with
    | false =>
      simp only [hown, Bool.false_eq_true, if_false] at hfit ⊢
      exact ih (by omega)
    | true =>
      simp only [hown, if_true] at hfit ⊢
      have hbefore := ih (by omega)
      rw [UInt64.toNat_add, hbefore]
      exact Nat.mod_eq_of_lt (by simpa [Nat.add_assoc] using hfit)

/-! ## One operation -/

/-- an operation that registers nobody leaves the epoch of an entry, if it leaves the entry -/
theorem epoch_kept (h : d.Keyed) (hreg : ∀ n, op ≠ .register n) (hown : op.isOwn = false) {known' : Node}
    (hk' : (d.apply op).1.find? m = some known') : ∃ known, d.find? m = some known ∧ known.epoch = known'.epoch := by
  have hc := changes_apply h m op
  rw [hk'] at hc
  generalize d.find? m = before, eventsOf m (d.apply op).2 = es at hc ⊢
  cases hc with
  | joined | renewed | refused => exact absurd rfl (hreg _)
  | beat | idle => exact ⟨_, rfl, rfl⟩
  | own => cases hown

/-- the registration of the local node writes the epoch of its token -/
theorem find?_registerSelf (d : Directory) (address : String) (clock : Timestamp) :
    (d.apply (.registerSelf address clock)).1.find? d.self =
      some { id := d.self, address, lastHeartbeat := clock, epoch := d.epoch + 1 } := by
  simp only [apply, registerSelf, find?_put, if_pos]

/-- an operation that registers nobody neither brings entry and token apart nor intrudes -/
theorem agrees_apply_of_quiet (h : d.Keyed) (ha : d.Agrees) (hreg : ∀ n, op ≠ .register n) (hown : op.isOwn = false) :
    (d.apply op).1.Agrees ↔ ¬d.Intrudes op := by
  refine ⟨fun _ hin => ?_, fun _ known' hk' => ?_⟩
  · obtain ⟨n, hop, -⟩ := hin
    exact hreg n hop
  · rw [self_apply] at hk'
    obtain ⟨known, hk, hepoch⟩ := epoch_kept h hreg hown hk'
    calc known'.epoch
      _ = known.epoch := hepoch.symm
      _ = d.token.epoch := ha known hk
      _ = (d.apply op).1.token.epoch := by simp [token, epoch_apply, hown]

/-- a registration like those of other nodes brings them apart exactly if it intrudes -/
theorem agrees_register_iff (ha : d.Agrees) (n : Node) :
    (d.apply (.register n)).1.Agrees ↔ ¬d.Intrudes (.register n) := by
  obtain ⟨-, hrefused, haccepted⟩ := register_outcome d n
  have htoken : (d.apply (.register n)).1.token.epoch = d.token.epoch := epoch_apply d (.register n)
  have hentry (m : MemberId) : (d.apply (.register n)).1.find? m = (d.register n).1.find? m := rfl
  -- an entry that is left as it was agrees as it did
  have hkept (hsame : (d.register n).1.find? d.self = d.find? d.self) : (d.apply (.register n)).1.Agrees := by
    intro known' hk'
    rw [self_apply, hentry, hsame] at hk'
    rw [htoken]
    exact ha known' hk'
  cases hok : (d.register n).2.1 with
  | false =>
    refine ⟨fun _ hin => ?_, fun _ => hkept (by rw [(hrefused hok).1])⟩
    obtain ⟨n', hop, -, hok', -⟩ := hin
    cases hop
    rw [hok] at hok'
    cases hok'
  | true =>
    by_cases hid : n.id = d.self
    · -- the entry is what was received
      have hn : (d.apply (.register n)).1.find? d.self = some n := by rw [hentry, ← hid, (haccepted hok).1]
      refine ⟨fun hagrees hin => ?_, fun hnot known' hk' => ?_⟩
      · obtain ⟨n', hop, -, -, hne⟩ := hin
        cases hop
        exact hne (by rw [← htoken]; exact hagrees n (by rw [self_apply, hn]))
      · rw [self_apply, hn] at hk'
        rw [← Option.some.inj hk', htoken]
        by_contra hne
        exact hnot ⟨n, rfl, hid, hok, hne⟩
    · refine ⟨fun _ hin => ?_, fun _ => hkept ((haccepted hok).2 d.self (Ne.symm hid))⟩
      obtain ⟨n', hop, hid', -⟩ := hin
      cases hop
      exact hid hid'

/-- entry and token go on to agree unless the operation intrudes -/
theorem agrees_apply_iff (h : d.Keyed) (ha : d.Agrees) (op : Op) : (d.apply op).1.Agrees ↔ ¬d.Intrudes op := by
  cases op with
  | registerSelf address clock =>
    refine ⟨fun _ hin => ?_, fun _ known' hk' => ?_⟩
    · obtain ⟨n, hop, -⟩ := hin
      cases hop
    · rw [self_apply, find?_registerSelf] at hk'
      rw [← Option.some.inj hk', token, epoch_apply]
      rfl
  | register n => exact agrees_register_iff ha n
  | heartbeat m clock => exact agrees_apply_of_quiet h ha (by simp) rfl
  | leave m => exact agrees_apply_of_quiet h ha (by simp) rfl
  | fail m => exact agrees_apply_of_quiet h ha (by simp) rfl
  | evictStale clock => exact agrees_apply_of_quiet h ha (by simp) rfl

/-- the epoch of the local entry falls only where the local node itself replaces a foreign one -/
theorem own_of_falls (h : d.Keyed) {known known' : Node} (hfit : d.epoch.toNat + 1 < 2 ^ 64)
    (hk : d.find? d.self = some known) (hk' : (d.apply op).1.find? d.self = some known')
    (hlt : known'.epoch < known.epoch) : op.isOwn = true ∧ ¬d.Agrees := by
  have hc := changes_apply h d.self op
  rw [hk, hk'] at hc
  generalize eventsOf d.self (d.apply op).2 = es at hc
  cases hc with
  | renewed _ hle => exact absurd hlt (UInt64.not_lt.2 hle)
  | refused | beat | idle => exact absurd hlt (UInt64.lt_irrefl _)
  | @own _ _ address clock _ _ =>
    refine ⟨rfl, fun ha => ?_⟩
    have hepoch : known.epoch = d.epoch := ha known hk
    rw [find?_registerSelf] at hk'
    rw [← Option.some.inj hk', hepoch, UInt64.lt_iff_toNat_lt, UInt64.toNat_add] at hlt
    have hone : (d.epoch.toNat + (1 : UInt64).toNat) % 2 ^ 64 = d.epoch.toNat + 1 := Nat.mod_eq_of_lt hfit
    omega

/-! ## Histories -/

theorem agrees_run_iff (h : d.Keyed) (ha : d.Agrees) (os : List Op) :
    (∀ os', os' <+: os → (d.run os').1.Agrees) ↔
      ∀ before op after, os = before ++ op :: after → ¬(d.run before).1.Intrudes op := by
  constructor
  · rintro hall before op after rfl
    have hbefore := hall before (List.prefix_append _ _)
    have hafter := hall (before ++ [op]) ⟨after, by simp⟩
    rw [run_concat] at hafter
    exact (agrees_apply_iff (keyed_run h before) hbefore op).1 hafter
  · intro hnone os' hos'
    induction os' using List.reverseRecOn with
    | nil => exact ha
    | append_singleton before op ih =>
      obtain ⟨after, rfl⟩ := hos'
      rw [run_concat, agrees_apply_iff (keyed_run h before) (ih ⟨op :: after, by simp⟩)]
      exact hnone before op after (by simp)

/-- **the epoch of the local node**: in every history too short for the counter to wrap, the token counts registrations of
the local node, so it never falls. Entry and token agree throughout exactly if no registration intrudes, and then the
epoch of the entry never falls either. Where it does fall, the local node has replaced a foreign entry. -/
theorem own_epoch (self : MemberId) (heartbeatTimeout : Int64) (os : List Op) (hfew : os.length < 2 ^ 64 - 1) :
    let d (os : List Op) : Directory := ((empty self heartbeatTimeout).run os).1
    let Undisturbed := ∀ before op after, os = before ++ op :: after → ¬(d before).Intrudes op
    (∀ os', os' <+: os → (d os').token.epoch.toNat = 1 + os'.countP Op.isOwn) ∧
    (∀ os₁ os₂, os₁ <+: os₂ → os₂ <+: os → (d os₁).token.epoch ≤ (d os₂).token.epoch) ∧
    ((∀ os', os' <+: os → ∀ n, (d os').find? self = some n → n.epoch = (d os').token.epoch) ↔ Undisturbed) ∧
    (Undisturbed → ∀ os₁ os₂ n₁ n₂, os₁ <+: os₂ → os₂ <+: os →
      (d os₁).find? self = some n₁ → (d os₂).find? self = some n₂ → n₁.epoch ≤ n₂.epoch) ∧
    ∀ before op after n n', os = before ++ op :: after → (d before).find? self = some n →
      (d (before ++ [op])).find? self = some n' → n'.epoch < n.epoch →
      op.isOwn = true ∧ n.epoch ≠ (d before).token.epoch := by
  intro d Undisturbed
  have hkeyed : (empty self heartbeatTimeout).Keyed := keyed_empty self heartbeatTimeout
  have hstart : (empty self heartbeatTimeout).Agrees := by
    intro n hn
    cases hn
  have hself (os' : List Op) : (d os').self = self := self_run _ os'
  have hcount {os' : List Op} (hos' : os' <+: os) : (d os').token.epoch.toNat = 1 + os'.countP Op.isOwn := by
    have hle : os'.countP Op.isOwn ≤ os.length := List.countP_le_length.trans hos'.length_le
    refine epoch_run (empty self heartbeatTimeout) os' ?_
    simp only [empty, UInt64.toNat_one]
    omega
  have hrises {os₁ os₂ : List Op} (h₁ : os₁ <+: os₂) (h₂ : os₂ <+: os) :
      (d os₁).token.epoch ≤ (d os₂).token.epoch := by
    rw [UInt64.le_iff_toNat_le, hcount (h₁.trans h₂), hcount h₂]
    have hle : os₁.countP Op.isOwn ≤ os₂.countP Op.isOwn := h₁.sublist.countP_le
    omega
  have hagree : (∀ os', os' <+: os → ∀ n, (d os').find? self = some n → n.epoch = (d os').token.epoch) ↔
      Undisturbed := by
    refine Iff.trans (forall₂_congr fun os' _ => ?_) (agrees_run_iff hkeyed hstart os)
    show (∀ n, (d os').find? self = some n → _) ↔ (d os').Agrees
    rw [Agrees, hself os']
  refine ⟨fun os' => hcount, fun os₁ os₂ => hrises, hagree, ?_, ?_⟩
  · intro hnone os₁ os₂ n₁ n₂ h₁ h₂ hn₁ hn₂
    calc n₁.epoch
      _ = (d os₁).token.epoch := hagree.2 hnone os₁ (h₁.trans h₂) n₁ hn₁
      _ ≤ (d os₂).token.epoch := hrises h₁ h₂
      _ = n₂.epoch := (hagree.2 hnone os₂ h₂ n₂ hn₂).symm
  · rintro before op after n n' rfl hn hn' hlt
    have hfit : (d before).epoch.toNat + 1 < 2 ^ 64 := by
      have hbefore : (d before).epoch.toNat = _ := hcount (List.prefix_append _ _)
      have hle : before.countP Op.isOwn ≤ before.length := List.countP_le_length
      simp only [List.length_append, List.length_cons] at hfew
      omega
    have hnext : d (before ++ [op]) = ((d before).apply op).1 := by
      show ((empty self heartbeatTimeout).run (before ++ [op])).1 = _
      rw [run_concat]
    rw [← hself before] at hn
    rw [hnext, ← hself before] at hn'
    obtain ⟨hown, hdiffer⟩ := own_of_falls (keyed_run hkeyed before) hfit hn hn' hlt
    refine ⟨hown, fun heq => hdiffer fun n₀ hn₀ => ?_⟩
    obtain rfl : n = n₀ := Option.some.inj (hn.symm.trans hn₀)
    exact heq

/-- the local node registers, is heard of from elsewhere in its own epoch, is removed and registers again -/
theorem own_epoch_regained :
    let a : MemberId := ⟨"a"⟩
    let node (id : String) (epoch : UInt64) : Node := ⟨⟨id⟩, "a:2", default, [], epoch⟩
    let os : List Op := [.registerSelf "a:1" default, .register (node "b" 9), .register (node "a" 2), .leave a,
      .register (node "a" 2), .registerSelf "a:1" default]
    let d := ((empty a 30).run os).1
    os.length < 2 ^ 64 - 1 ∧ d.token.epoch.toNat = 1 + os.countP Op.isOwn ∧
      (d.find? a).map Node.epoch = some 3 ∧ d.token.epoch = 3 := by
  intro a node os d
  have hfew : os.length < 2 ^ 64 - 1 := by decide
  exact ⟨hfew, (own_epoch a 30 os hfew).1 os (List.prefix_refl os), by decide, by decide⟩

/-- another node passes on a registration of the local one in a later epoch. The entry has the epoch 7 then and the token
2, and when the local node registers again, the epoch of its entry falls to 3 without its having been removed. -/
theorem own_epoch_overwritten :
    let a : MemberId := ⟨"a"⟩
    let before : List Op := [.registerSelf "a:1" default, .register ⟨a, "a:1", default, [], 7⟩]
    let d := ((empty a 30).run before).1
    let d' := (d.apply (.registerSelf "a:1" default)).1
    ¬(∀ n, d.find? a = some n → n.epoch = d.token.epoch) ∧
      ¬(∀ n n', d.find? a = some n → d'.find? a = some n' → n.epoch ≤ n'.epoch) := by
  intro a before d d'
  have hentry : d.find? a = some ⟨a, "a:1", default, [], 7⟩ := by decide
  have hentry' : d'.find? a = some ⟨a, "a:1", default, [], 3⟩ := by decide
  constructor
  · intro hall
    exact absurd (hall _ hentry) (by decide)
  · intro hall
    exact absurd (hall _ _ hentry hentry') (by decide)

end Directory

end Redeploy.Membership
