/-
The texts of numbers are numerals.

An integer is written with digits, none of them superfluous, so its text reads back as it. A floating-point number is written
without exponent: digits, perhaps a point and more digits, or a word. That such a text is a numeral again rests on its having
a digit at all. The digits are those of the first grid point, from coarse to fine, that reads back as the number; the
coarsest grid has the place of the number's first digit, so no grid point near it is zero.

Results:
- `intNumeral?_toString`: an integer reads back;
- `leadingPlace_spec`: the number is not below a unit at its leading place;
- `shortest_pos`, `plain_positional`: there is a digit;
- **`isNumeral_text`**: the text of a floating-point number is a numeral.
-/
import Mathlib.Data.List.TakeWhile
import Redeploy.Number.Binary64
import Redeploy.Proofs.JsonText

namespace Redeploy

variable {s ds : List Char}

/-- digits, one at least -/
def Digits (ds : List Char) : Prop := ds ≠ [] ∧ ∀ d ∈ ds, d.isDigit = true

theorem digits_toDigits (n : Nat) : Digits (Nat.toDigits 10 n) :=
  ⟨Nat.toDigits_ne_nil, fun _ hd => Nat.isDigit_of_mem_toDigits (by decide) (by decide) hd⟩

theorem Digits.all (h : Digits ds) : (!ds.isEmpty && ds.all Char.isDigit) = true := by
  simp only [Bool.and_eq_true, Bool.not_eq_true', List.isEmpty_eq_false_iff, List.all_eq_true]
  exact h

/-- digits have no sign in front of them -/
theorem Digits.head_ne (h : Digits ds) {c : Char} (hc : c.isDigit = false) (r : List Char) : ds ≠ c :: r := by
  intro heq
  have hdigit := h.2 c (by simp [heq])
  rw [hc] at hdigit
  cases hdigit

/-! ## Integers -/

theorem natNumeral?_of_digits (h : Digits ds) : natNumeral? ds = some (ofDigits ds) := by
  unfold natNumeral?
  split
  · exact absurd rfl (h.head_ne rfl _)
  · exact if_pos h.all

theorem ofDigits_toDigits (n : Nat) : ofDigits (Nat.toDigits 10 n) = n := Nat.ofDigitChars_ten_toDigits

theorem toList_toString_ofNat (n : Nat) : (toString (n : Int)).toList = Nat.toDigits 10 n := by
  simp [Int.toString_eq_repr, Int.repr]

theorem toList_toString_negSucc (n : Nat) : (toString (Int.negSucc n)).toList = '-' :: Nat.toDigits 10 (n + 1) := by
  simp [Int.toString_eq_repr, Int.repr]

theorem intNumeral?_of_digits (h : Digits ds) : intNumeral? ds = some (ofDigits ds : Int) := by
  unfold intNumeral?
  split
  · exact absurd rfl (h.head_ne rfl _)
  · rw [natNumeral?_of_digits h]
    rfl

/-- an integer reads back from its text -/
theorem intNumeral?_toString (n : Int) : intNumeral? (toString n).toList = some n := by
  cases n with
  | ofNat n =>
    calc intNumeral? (toString (n : Int)).toList
      _ = some (ofDigits (Nat.toDigits 10 n) : Int) := by
        rw [toList_toString_ofNat, intNumeral?_of_digits (digits_toDigits n)]
      _ = some (n : Int) := by rw [ofDigits_toDigits]
  | negSucc n =>
    rw [toList_toString_negSucc, intNumeral?, (digits_toDigits (n + 1)).all, if_pos rfl, ofDigits_toDigits]
    rfl

/-! ## Decimal numerals -/

/-- digits, and perhaps a point and more digits -/
def Plain (s : List Char) : Prop :=
  Digits s ∨ ∃ whole fraction, s = whole ++ '.' :: fraction ∧ Digits whole ∧ ∀ d ∈ fraction, d.isDigit = true

/-- the text is a decimal numeral -/
def IsNumeral (s : String) : Prop := (Decimal.ofNumeral? s.toList).isSome = true

instance (s : String) : Decidable (IsNumeral s) := inferInstanceAs (Decidable (_ = _))

theorem takeWhile_digits (h : ∀ d ∈ ds, d.isDigit = true) : ds.takeWhile Char.isDigit = ds :=
  List.takeWhile_eq_self_iff.2 h

theorem dropWhile_digits (h : ∀ d ∈ ds, d.isDigit = true) : ds.dropWhile Char.isDigit = [] :=
  List.dropWhile_eq_nil_iff.2 h

theorem Plain.head_ne (h : Plain s) {c : Char} (hc : c.isDigit = false) (r : List Char) : s ≠ c :: r := by
  rcases h with h | ⟨whole, fraction, rfl, hwhole, -⟩
  · exact h.head_ne hc r
  · cases whole with
    | nil => exact absurd rfl hwhole.1
    | cons d whole =>
      intro heq
      obtain ⟨rfl, -⟩ := List.cons.inj heq
      exact hwhole.head_ne hc whole rfl

theorem Plain.unsigned (h : Plain s) (negative : Bool) : (Decimal.unsigned? negative s).isSome = true := by
  rcases h with h | ⟨whole, fraction, rfl, hwhole, hfraction⟩
  · simp [Decimal.unsigned?, takeWhile_digits h.2, dropWhile_digits h.2, h.1, Decimal.exponent?]
  · have htake : (whole ++ '.' :: fraction).takeWhile Char.isDigit = whole := by
      rw [List.takeWhile_append_of_pos hwhole.2]
      simp
    have hdrop : (whole ++ '.' :: fraction).dropWhile Char.isDigit = '.' :: fraction := by
      rw [List.dropWhile_append_of_pos hwhole.2]
      rfl
    simp [Decimal.unsigned?, htake, hdrop, hwhole.1, dropWhile_digits hfraction, Decimal.exponent?]

/-- a plain text, perhaps after a sign, is a numeral -/
theorem Plain.ofNumeral? (h : Plain s) {signed : List Char} (hs : signed = s ∨ signed = '-' :: s ∨ signed = '+' :: s) :
    (Decimal.ofNumeral? signed).isSome = true := by
  unfold Decimal.ofNumeral?
  split
  rename_i negative body hsplit
  have hbody : body = s := by
    rcases hs with rfl | rfl | rfl
    · split at hsplit
      · exact absurd rfl (h.head_ne rfl _)
      · exact absurd rfl (h.head_ne rfl _)
      · cases hsplit
        rfl
    · cases hsplit
      rfl
    · cases hsplit
      rfl
  -- the words are numerals whatever they stand for
  split
  · rfl
  · rfl
  · rfl
  · rw [hbody]
    exact h.unsigned negative

theorem plain_of_all (h : (!ds.isEmpty && ds.all Char.isDigit) = true) : Plain ds := by
  simp only [Bool.and_eq_true, Bool.not_eq_true', List.isEmpty_eq_false_iff, List.all_eq_true] at h
  exact .inl h

/-- an integer numeral is a decimal one too -/
theorem ofNumeral?_of_intNumeral? (h : (intNumeral? s).isSome = true) : (Decimal.ofNumeral? s).isSome = true := by
  unfold intNumeral? at h
  split at h
  · split at h
    · rename_i hall
      exact (plain_of_all hall).ofNumeral? (.inr (.inl rfl))
    · cases h
  · rw [Option.isSome_map] at h
    simp only [natNumeral?] at h
    split at h
    · split at h
      · rename_i hall
        exact (plain_of_all hall).ofNumeral? (.inr (.inr rfl))
      · cases h
    · split at h
      · rename_i hall
        exact (plain_of_all hall).ofNumeral? (.inl rfl)
      · cases h

/-! ## The digits of a floating-point number -/

namespace Binary64

variable {num den : Nat}

theorem roundQuotient_pos {ties : Ties} (hden : 0 < den) (h : den ≤ num) : 0 < roundQuotient ties num den := by
  have hquotient : 0 < num / den := Nat.div_pos h hden
  unfold roundQuotient
  grind

theorem scaled_den_pos {base : Nat} (hbase : 0 < base) {e : Int} (h : 0 < den) : 0 < (scaled base e num den).2 := by
  unfold scaled
  split
  · exact h
  · exact Nat.mul_pos h (Nat.pow_pos hbase)

/-- the search for the leading place of a number below one ends where the number has a digit, or where it gives up -/
theorem le_of_below {fuel j : Nat} (h : den ≤ num * 10 ^ (j + fuel)) :
    ∃ k : Nat, leadingPlace.below num den fuel j = -(k : Int) ∧ den ≤ num * 10 ^ k := by
  induction fuel generalizing j with
  | zero => exact ⟨j, rfl, h⟩
  | succ fuel ih =>
    rw [leadingPlace.below]
    split
    · rename_i hle
      exact ⟨j, rfl, hle⟩
    · exact ih (by rwa [Nat.add_right_comm])

/-- the number is at least a unit of its leading place, and all the more one of a finer place -/
theorem leadingPlace_spec (h : den ≤ num * 10 ^ (1 + 400)) {k : Int} (hk : -leadingPlace num den ≤ k) :
    (scaled 10 k num den).2 ≤ (scaled 10 k num den).1 := by
  unfold leadingPlace at hk
  split at hk
  · rename_i hle
    unfold scaled
    split
    · exact hle.trans (Nat.le_mul_of_pos_right num (Nat.pow_pos (by decide)))
    · rename_i hneg
      -- a whole number with that many digits
      have hlength : (-k).toNat < (Nat.toDigits 10 (num / den)).length := by omega
      have hdigits : 10 ^ (-k).toNat ≤ num / den := by
        by_contra hlt
        have hshort := (Nat.length_toDigits_le_iff (b := 10) (by decide) (by omega)).2 (Nat.lt_of_not_le hlt)
        omega
      calc den * 10 ^ (-k).toNat
        _ ≤ den * (num / den) := Nat.mul_le_mul_left den hdigits
        _ ≤ num := Nat.mul_div_le num den
  · obtain ⟨j, hj, hle⟩ := le_of_below h
    rw [hj] at hk
    have hscaled : scaled 10 k num den = (num * 10 ^ k.toNat, den) := if_pos (by omega)
    rw [hscaled]
    calc den
      _ ≤ num * 10 ^ j := hle
      _ ≤ num * 10 ^ k.toNat := Nat.mul_le_mul_left num (Nat.pow_le_pow_right (by decide) (by omega))

variable {m : Nat} {q : Int}

/-- no grid point at a place up to the leading one is zero -/
theorem candidate_pos {ties : Ties} {lead : Int} {count : Nat} (hcount : 0 < count)
    (hden : 0 < (fraction m q).2)
    (h : ∀ k : Int, -lead ≤ k →
      (scaled 10 k (fraction m q).1 (fraction m q).2).2 ≤ (scaled 10 k (fraction m q).1 (fraction m q).2).1) :
    0 < (shortest.candidate ties m q lead count).1 := by
  have hle := h (-(lead - count + 1)) (by omega)
  have hpos : 0 < (scaled 10 (-(lead - count + 1)) (fraction m q).1 (fraction m q).2).2 :=
    scaled_den_pos (by decide) hden
  have hnear : 0 < roundQuotient ties _ _ := roundQuotient_pos hpos hle
  have hfloor : 0 < _ / _ := Nat.div_pos hle hpos
  simp only [shortest.candidate]
  grind

theorem shortest_pos {ties : Ties} {lead : Int} {fuel count : Nat} (hcount : 0 < count)
    (h : ∀ count, 0 < count → 0 < (shortest.candidate ties m q lead count).1) :
    0 < (shortest ties m q lead fuel count).1 := by
  induction fuel generalizing count with
  | zero => exact h count hcount
  | succ fuel ih =>
    simp only [shortest]
    split
    · exact h count hcount
    · exact ih (Nat.succ_pos count)

/-- the least number above zero is not much smaller than one -/
theorem fraction_le (hm : 0 < m) (hq : minExponent ≤ q) {places : Nat} (hplaces : 1074 ≤ 3 * places) :
    (fraction m q).2 ≤ (fraction m q).1 * 10 ^ places := by
  have hten : 0 < 10 ^ places := Nat.pow_pos (by decide)
  unfold fraction scaled
  split
  · exact Nat.mul_pos (Nat.mul_pos hm (Nat.pow_pos (by decide))) hten
  · have hexponent : (-q).toNat ≤ 3 * places := by
      unfold minExponent at hq
      omega
    calc 1 * 2 ^ (-q).toNat
      _ ≤ 2 ^ (3 * places) := by
        rw [Nat.one_mul]
        exact Nat.pow_le_pow_right (by decide) hexponent
      _ = (2 ^ 3) ^ places := Nat.pow_mul 2 3 places
      _ ≤ 10 ^ places := Nat.pow_le_pow_left (by decide) places
      _ ≤ m * 10 ^ places := Nat.le_mul_of_pos_left _ hm

/-- a positive number has a digit that is not 0 -/
theorem dropWhile_zeros {c : Nat} (hc : 0 < c) : (Nat.toDigits 10 c).reverse.dropWhile (· == '0') ≠ [] := by
  intro hnil
  rw [List.dropWhile_eq_nil_iff] at hnil
  obtain ⟨d, hd⟩ := Option.isSome_iff_exists.1 (List.isSome_head?.2 (Nat.toDigits_ne_nil (n := c) (b := 10)))
  have hzero : (d == '0') = true := hnil d (List.mem_reverse.2 (List.mem_of_mem_head? hd))
  exact Json.head_toDigits hc (by rw [hd, beq_iff_eq.1 hzero])

/-- a number that is not zero has a digit -/
theorem digits_digits (ties : Ties) (hm : 0 < m) (hq : minExponent ≤ q) : Digits (digits ties m q).1 := by
  have hden : 0 < (fraction m q).2 := scaled_den_pos (by decide) Nat.one_pos
  have hpos : 0 < (shortest ties m q (leadingPlace (fraction m q).1 (fraction m q).2) 20 1).1 :=
    shortest_pos Nat.one_pos fun count hcount =>
      candidate_pos hcount hden fun k => leadingPlace_spec (fraction_le hm hq (by decide))
  simp only [digits]
  generalize (shortest ties m q (leadingPlace (fraction m q).1 (fraction m q).2) 20 1).1 = c at hpos ⊢
  have hdrop : (Nat.toDigits 10 c).reverse.drop ((Nat.toDigits 10 c).reverse.takeWhile (· == '0')).length =
      (Nat.toDigits 10 c).reverse.dropWhile (· == '0') := by
    generalize (Nat.toDigits 10 c).reverse = ds
    calc ds.drop (ds.takeWhile (· == '0')).length
      _ = (ds.takeWhile (· == '0') ++ ds.dropWhile (· == '0')).drop (ds.takeWhile (· == '0')).length := by
        rw [List.takeWhile_append_dropWhile]
      _ = ds.dropWhile (· == '0') := List.drop_left
  rw [hdrop]
  refine ⟨by simpa using dropWhile_zeros hpos, fun d hd => (digits_toDigits c).2 d ?_⟩
  exact List.mem_reverse.1 ((List.dropWhile_suffix _).subset (List.mem_reverse.1 hd))

theorem plain_positional {place : Int} (h : Digits ds) : Plain (positional ds place) := by
  have hzeros (n : Nat) : ∀ d ∈ List.replicate n '0', d.isDigit = true := by
    intro d hd
    rw [(List.mem_replicate.1 hd).2]
    rfl
  simp only [positional]
  split
  · refine .inl ⟨by simp [h.1], ?_⟩
    intro d hd
    exact (List.mem_append.1 hd).elim (h.2 d) (hzeros _ d)
  · split
    · rename_i hshort
      refine .inr ⟨_, _, rfl, ⟨?_, ?_⟩, ?_⟩
      · rw [← List.length_pos_iff, List.length_take]
        omega
      · exact fun d hd => h.2 d (List.mem_of_mem_take hd)
      · exact fun d hd => h.2 d (List.mem_of_mem_drop hd)
    · refine .inr ⟨['0'], _, rfl, digits_toDigits 0, ?_⟩
      intro d hd
      exact (List.mem_append.1 hd).elim (hzeros _ d) (h.2 d)

/-- the exponent is one that numbers have -/
inductive InRange : Binary64 → Prop
  | finite (negative : Bool) (m : Nat) {q : Int} (h : minExponent ≤ q) : InRange (.finite negative m q)
  | infinite (negative : Bool) : InRange (.infinite negative)
  | nan : InRange .nan

theorem inRange_ofFraction (negative : Bool) (num den : Nat) : InRange (ofFraction negative num den) := by
  unfold ofFraction
  extract_lets k exponent q₀ q
  have hq : minExponent ≤ q := Int.le_max_right _ _
  clear_value q
  obtain ⟨n, d⟩ := scaled 2 (-q) num den
  dsimp only
  by_cases hcarry : roundQuotient Ties.toEven n d = 1 <<< 53
  · rw [if_pos hcarry]
    dsimp only
    split
    · exact .infinite negative
    · exact .finite negative _ (by omega)
  · rw [if_neg hcarry]
    dsimp only
    split
    · exact .infinite negative
    · exact .finite negative _ hq

theorem inRange_ofDecimal (d : Decimal) : InRange (ofDecimal d) := by
  cases d with
  | infinite negative => exact .infinite negative
  | nan => exact .nan
  | finite negative digits e =>
    simp only [ofDecimal]
    split
    · exact .finite negative 0 (Int.le_refl _)
    · split
      · exact .infinite negative
      · exact inRange_ofFraction _ _ _

/-- **the text of a number is a numeral** -/
theorem isNumeral_text {x : Binary64} (h : InRange x) : IsNumeral x.text := by
  cases h with
  | nan => decide
  | infinite negative => cases negative <;> decide
  | finite negative m hq =>
    rename_i q
    unfold IsNumeral
    simp only [text, String.toList_ofList]
    have hbody : Plain (if m = 0 then ['0'] else positional (digits .toGreater m q).1 (digits .toGreater m q).2) := by
      split
      · exact .inl (digits_toDigits 0)
      · exact plain_positional (digits_digits .toGreater (by omega) hq)
    split
    · exact hbody.ofNumeral? (.inr (.inl rfl))
    · exact hbody.ofNumeral? (.inl rfl)

end Binary64

end Redeploy
