/-
What is written as JSON is read back as it was.

A text is read from its front, so the reader has to know where a value ends. Strings, arrays and objects close
themselves. A number goes on as long as digits do, and ends only because of what comes next: the end of the text, a
comma, or a closing bracket (`Ends`). `Reads` says that the text of a value, whatever follows, is read as that value and
nothing more; the length of the text is fuel enough, since every call of the reader passes over a character.

A value can be read back if its integers fit a word and it has no other numbers (`Plain`). The induction is on that,
with one lemma for each kind of value; for arrays and objects it is on the items, with what was read before them.

Results:
- `stringRest?_escape`: one step of the reader undoes the escape of one character, whichever it is;
- `number?_digits`: the digits of a number that fits a word, with no zero before them;
- `Plain.reads`: a plain value is read from the front of a text;
- `readText_text`: a plain value is read from its own text.
-/
import Mathlib.Tactic
import Redeploy.Json.Reader

namespace Redeploy.Json

/-- what may come after a value of any kind -/
inductive Ends : List Char → Prop
  | text : Ends []
  | comma (r : List Char) : Ends (',' :: r)
  | bracket (r : List Char) : Ends (']' :: r)
  | brace (r : List Char) : Ends ('\x7d' :: r)

variable {r rest : List Char} {c : Char}

theorem skip_cons (h : isSpace c = false) : skip (c :: r) = c :: r := by
  simp [skip, h]

/-! ## Strings -/

/-- the escape of a control character gives its number, which stands for it -/
theorem unescape?_control (n : Nat) (hn : n < 32) (r : List Char) :
    unescape? ('u' :: '0' :: '0' :: ((if n < 16 then ['0'] else []) ++ Text.hex n) ++ r) =
      some (some (Char.ofNat n), r) := by
  interval_cases n <;> rfl

/-- one step of the reader undoes the escape of one character -/
theorem stringRest?_escape (c : Char) (fuel : Nat) (acc r : List Char) :
    stringRest? (fuel + 1) acc true (escape c ++ r) = stringRest? fuel (c :: acc) true r := by
  unfold escape
  split
  case h_8 hquote hback _ _ _ _ _ =>
    split
    · rename_i hcontrol
      have hlt : c.toNat < 32 := hcontrol
      have hread := unescape?_control c.toNat hlt r
      rw [Char.ofNat_toNat] at hread
      have htext : ['\\', 'u', '0', '0'] ++ (if c.toNat < 16 then ['0'] else []) ++ Text.hex c.toNat ++ r =
          '\\' :: 'u' :: '0' :: '0' :: ((if c.toNat < 16 then ['0'] else []) ++ Text.hex c.toNat) ++ r := by
        simp
      rw [htext]
      simp only [List.cons_append] at hread ⊢
      simp only [stringRest?, hread]
    · rename_i hcontrol
      rw [List.singleton_append, stringRest?]
      · rw [if_neg hcontrol]
      · exact hquote
      · exact hback
  all_goals rfl

theorem stringRest?_flatMap (cs : List Char) (fuel : Nat) (acc rest : List Char) (h : cs.length < fuel) :
    stringRest? fuel acc true (cs.flatMap escape ++ '"' :: rest) =
      some (.string (String.ofList (acc.reverse ++ cs)), rest) := by
  induction cs generalizing fuel acc with
  | nil =>
    obtain ⟨fuel, rfl⟩ : ∃ f, fuel = f + 1 := ⟨fuel - 1, by simp at h; omega⟩
    simp [stringRest?]
  | cons c cs ih =>
    obtain ⟨fuel, rfl⟩ : ∃ f, fuel = f + 1 := ⟨fuel - 1, by simp at h; omega⟩
    rw [List.flatMap_cons, List.append_assoc, stringRest?_escape, ih fuel (c :: acc) (by simp at h; omega)]
    simp

theorem length_le_flatMap_escape (cs : List Char) : cs.length ≤ (cs.flatMap escape).length := by
  induction cs with
  | nil => simp
  | cons c cs ih =>
    have hescape : 0 < (escape c).length := by
      unfold escape
      split <;> try exact Nat.succ_pos _
      split <;> exact Nat.succ_pos _
    rw [List.flatMap_cons, List.length_append, List.length_cons]
    omega

/-- a string after its opening quote -/
theorem stringRest?_quoted (s : String) (rest : List Char) :
    stringRest? ((s.toList.flatMap escape ++ '"' :: rest).length + 1) [] true
      (s.toList.flatMap escape ++ '"' :: rest) = some (.string s, rest) := by
  have hlength := length_le_flatMap_escape s.toList
  rw [stringRest?_flatMap _ _ _ _ (by simp only [List.length_append]; omega)]
  simp

/-! ## Numbers -/

theorem isDigit_of_mem_toDigits {n : Nat} (h : c ∈ Nat.toDigits 10 n) : c.isDigit = true :=
  Nat.isDigit_of_mem_toDigits (by decide) (by decide) h

/-- a positive number is written without a zero before it -/
theorem head_toDigits {n : Nat} (hn : 0 < n) : (Nat.toDigits 10 n).head? ≠ some '0' := by
  induction n using Nat.strongRecOn with
  | ind n ih =>
    rw [Nat.toDigits_eq_if (by decide)]
    split
    · interval_cases n <;> decide
    · have hhead := ih (n / 10) (by omega) (by omega)
      have hsome : (Nat.toDigits 10 (n / 10)).head?.isSome = true := by
        rw [List.isSome_head?]
        exact List.ne_nil_of_length_pos Nat.length_toDigits_pos
      obtain ⟨d, hd⟩ := Option.isSome_iff_exists.1 hsome
      rw [hd] at hhead
      rw [List.head?_append, hd]
      exact hhead

theorem le_ofDigitChars (ds : List Char) (n : Nat) : n ≤ Nat.ofDigitChars 10 ds n := by
  induction ds generalizing n with
  | nil => exact Nat.le_refl n
  | cons d ds ih =>
    calc n
      _ ≤ 10 * n + (d.toNat - '0'.toNat) := by omega
      _ ≤ Nat.ofDigitChars 10 ds (10 * n + (d.toNat - '0'.toNat)) := ih _

/-- all digits count when the number fits a word -/
theorem takeDigits_eq (ds : List Char) (n taken : Nat) (hds : ∀ d ∈ ds, d.isDigit = true)
    (hlt : Nat.ofDigitChars 10 ds n < UInt64.size) :
    takeDigits n taken ds = (Nat.ofDigitChars 10 ds n, taken + ds.length, []) := by
  induction ds generalizing n taken with
  | nil => rfl
  | cons d ds ih =>
    have hstep : 10 * n + (d.toNat - '0'.toNat) < UInt64.size := Nat.lt_of_le_of_lt (le_ofDigitChars ds _) hlt
    have hrest := ih (10 * n + (d.toNat - '0'.toNat)) (taken + 1) (fun d' hd' => hds d' (by simp [hd'])) hlt
    have hlength : taken + 1 + ds.length = taken + (ds.length + 1) := by omega
    simp only [takeDigits, hds d (by simp), hstep, if_true, hrest, hlength, List.length_cons]
    rfl

theorem exponent?_of_ends (h : Ends rest) : exponent? rest = some (none, rest) := by
  cases h <;> rfl

theorem takeWhile_of_ends (h : Ends rest) : rest.takeWhile Char.isDigit = [] := by
  cases h <;> rfl

theorem dropWhile_of_ends (h : Ends rest) : rest.dropWhile Char.isDigit = rest := by
  cases h <;> rfl

/-- the digits of a number that fits a word, after its sign -/
theorem number?_digits (negative : Bool) {n : Nat} (hn : n < UInt64.size) (hrest : Ends rest) :
    number? negative (Nat.toDigits 10 n ++ rest) = some (ofInteger negative n, rest) := by
  have hdigits : ∀ d ∈ Nat.toDigits 10 n, d.isDigit = true := fun d hd => isDigit_of_mem_toDigits hd
  have hwhole : (Nat.toDigits 10 n ++ rest).takeWhile Char.isDigit = Nat.toDigits 10 n := by
    rw [List.takeWhile_append_of_pos hdigits, takeWhile_of_ends hrest, List.append_nil]
  have hleft : (Nat.toDigits 10 n ++ rest).dropWhile Char.isDigit = rest := by
    rw [List.dropWhile_append_of_pos hdigits, dropWhile_of_ends hrest]
  have hvalue : Nat.ofDigitChars 10 (Nat.toDigits 10 n) 0 = n := Nat.ofDigitChars_toDigits (by decide) (by decide)
  have htaken : takeDigits 0 0 (Nat.toDigits 10 n) = (n, (Nat.toDigits 10 n).length, []) := by
    rw [takeDigits_eq _ _ _ hdigits (by rw [hvalue]; exact hn), hvalue, Nat.zero_add]
  have hformed : ((Nat.toDigits 10 n).isEmpty ||
      ((Nat.toDigits 10 n).length > 1 && (Nat.toDigits 10 n).head? == some '0')) = false := by
    have hne : Nat.toDigits 10 n ≠ [] := List.ne_nil_of_length_pos Nat.length_toDigits_pos
    rcases Nat.eq_zero_or_pos n with rfl | hpos
    · rfl
    · simp [hne, head_toDigits hpos]
  -- no fraction follows
  have hpoint : ∀ r, rest ≠ '.' :: r := by
    intro r hr
    rw [hr] at hrest
    cases hrest
  simp [number?, hwhole, hleft, htaken, hformed, exponent?_of_ends hrest]

/-! ## Values -/

/-- the text of the value is read as the value, from the front of any text where it ends -/
def Reads (v : Value) : Prop :=
  ∀ fuel rest, (write v).length ≤ fuel → Ends rest → value? (fuel + 1) (write v ++ rest) = some (v, rest)

/-- a value that can be read back: its integers fit a word, and it has no other numbers -/
inductive Value.Plain : Value → Prop
  | null : Plain .null
  | bool (b : Bool) : Plain (.bool b)
  | int {n : Int} : -(2 ^ 63) ≤ n → n < 2 ^ 64 → Plain (.int n)
  | string (s : String) : Plain (.string s)
  | array {items : List Value} : (∀ v ∈ items, Plain v) → Plain (.array items)
  | object {members : List (String × Value)} : (∀ k v, (k, v) ∈ members → Plain v) → Plain (.object members)

theorem reads_null : Reads .null := by
  intro fuel rest _ _
  rfl

theorem reads_bool (b : Bool) : Reads (.bool b) := by
  intro fuel rest _ _
  cases b <;> rfl

theorem reads_string (s : String) : Reads (.string s) := by
  intro fuel rest _ _
  have htext : write (.string s) ++ rest = '"' :: (s.toList.flatMap escape ++ '"' :: rest) := by
    simp [write, quote]
  rw [htext, value?, skip_cons rfl]
  exact stringRest?_quoted s rest

theorem isSpace_of_isDigit (hc : c.isDigit = true) : isSpace c = false := by
  by_contra h
  simp only [isSpace, Bool.not_eq_false, Bool.or_eq_true, beq_iff_eq] at h
  rcases h with ((rfl | rfl) | rfl) | rfl <;> cases hc

theorem exists_digit (n : Nat) : ∃ d ds, Nat.toDigits 10 n = d :: ds ∧ d.isDigit = true := by
  obtain ⟨d, ds, hds⟩ := List.exists_cons_of_ne_nil (List.ne_nil_of_length_pos (@Nat.length_toDigits_pos 10 n))
  exact ⟨d, ds, hds, isDigit_of_mem_toDigits (by rw [hds]; simp)⟩

/-- a value that starts with a digit is a number -/
theorem value?_digit (fuel : Nat) (hc : c.isDigit = true) : value? (fuel + 1) (c :: r) = number? false (c :: r) := by
  rw [value?, skip_cons (isSpace_of_isDigit hc)]
  -- no other kind of value starts with a digit
  split
  all_goals first
    | rfl
    | rename_i heq
      cases heq
      cases hc

theorem reads_nat {n : Nat} (hn : n < UInt64.size) (fuel : Nat) (hrest : Ends rest) :
    value? (fuel + 1) (Nat.toDigits 10 n ++ rest) = some (.int n, rest) := by
  obtain ⟨d, ds, hds, hd⟩ := exists_digit n
  calc value? (fuel + 1) (Nat.toDigits 10 n ++ rest)
    _ = number? false (Nat.toDigits 10 n ++ rest) := by rw [hds, List.cons_append, value?_digit fuel hd]
    _ = some (ofInteger false n, rest) := number?_digits false hn hrest

theorem reads_neg {n : Nat} (hpos : 0 < n) (hn : n ≤ 2 ^ 63) (fuel : Nat) (hrest : Ends rest) :
    value? (fuel + 1) ('-' :: (Nat.toDigits 10 n ++ rest)) = some (.int (-n), rest) := by
  have hsmall : ¬ (n = 0 ∨ 1 <<< 63 < n) := by
    rw [Nat.shiftLeft_eq]
    omega
  have hword : n < UInt64.size := by
    unfold UInt64.size
    omega
  calc value? (fuel + 1) ('-' :: (Nat.toDigits 10 n ++ rest))
    _ = number? true (Nat.toDigits 10 n ++ rest) := by
      rw [value?, skip_cons rfl]
      rfl
    _ = some (ofInteger true n, rest) := number?_digits true hword hrest
    _ = some (.int (-n), rest) := by rw [ofInteger, if_pos rfl, if_neg hsmall]

theorem write_ofNat (n : Nat) : write (.int (.ofNat n)) = Nat.toDigits 10 n := by
  simp [write, Int.toString_eq_repr, Int.repr]

theorem write_negSucc (n : Nat) : write (.int (.negSucc n)) = '-' :: Nat.toDigits 10 (n + 1) := by
  simp [write, Int.toString_eq_repr, Int.repr]

theorem reads_int {n : Int} (hlo : -(2 ^ 63) ≤ n) (hhi : n < 2 ^ 64) : Reads (.int n) := by
  intro fuel rest _ hrest
  cases n with
  | ofNat n =>
    have hn : n < UInt64.size := by
      have hcast : (n : Int) < 2 ^ 64 := hhi
      unfold UInt64.size
      omega
    rw [write_ofNat]
    exact reads_nat hn fuel hrest
  | negSucc n =>
    have hn : n + 1 ≤ 2 ^ 63 := by omega
    rw [write_negSucc, List.cons_append]
    exact reads_neg (Nat.succ_pos n) hn fuel hrest

/-- a plain value begins with a character that is seen, and that does not close an array -/
theorem Value.Plain.begins {v : Value} (h : v.Plain) : ∃ c r, write v = c :: r ∧ isSpace c = false ∧ c ≠ ']' := by
  cases h with
  | null => exact ⟨_, _, rfl, rfl, by decide⟩
  | bool b => cases b <;> exact ⟨_, _, rfl, rfl, by decide⟩
  | @int n =>
    cases n with
    | ofNat n =>
      obtain ⟨d, ds, hds, hd⟩ := exists_digit n
      refine ⟨d, ds, by rw [write_ofNat, hds], isSpace_of_isDigit hd, ?_⟩
      intro h
      rw [h] at hd
      cases hd
    | negSucc n => exact ⟨_, _, write_negSucc n, rfl, by decide⟩
  | string s => exact ⟨_, _, rfl, rfl, by decide⟩
  | array => exact ⟨_, _, rfl, rfl, by decide⟩
  | object => exact ⟨_, _, rfl, rfl, by decide⟩

/-- one item, up to what comes after it -/
theorem items?_step {v : Value} (hv : Reads v) {fuel : Nat} (hfuel : (write v).length ≤ fuel) (acc : List Value)
    (s : List Char) :
    Ends s → items? (fuel + 2) acc (write v ++ s) =
      match s with
      | ',' :: r => items? (fuel + 1) (v :: acc) r
      | ']' :: r => some (.array (v :: acc).reverse, r)
      | _ => none := by
  intro hs
  rw [items?, hv fuel s hfuel hs]
  cases hs <;> rfl

/-- the items of an array that is not empty, after those that were read before them -/
theorem items?_write {vs : List Value} (hne : vs ≠ []) (h : ∀ v ∈ vs, Reads v) (fuel : Nat) (acc : List Value)
    (rest : List Char) (hfuel : (commaSeparated (writeItems vs)).length ≤ fuel) :
    items? (fuel + 2) acc (commaSeparated (writeItems vs) ++ ']' :: rest) = some (.array (acc.reverse ++ vs), rest) := by
  induction vs generalizing fuel acc with
  | nil => exact absurd rfl hne
  | cons v vs ih =>
    have hv : Reads v := h v (by simp)
    cases vs with
    | nil =>
      have htext : commaSeparated (writeItems [v]) = write v := rfl
      rw [htext] at hfuel ⊢
      calc items? (fuel + 2) acc (write v ++ ']' :: rest)
        _ = some (.array (v :: acc).reverse, rest) := items?_step hv (by omega) acc _ (.bracket rest)
        _ = some (.array (acc.reverse ++ [v]), rest) := by rw [List.reverse_cons]
    | cons v' vs =>
      have htext : commaSeparated (writeItems (v :: v' :: vs)) =
          write v ++ ',' :: commaSeparated (writeItems (v' :: vs)) := rfl
      rw [htext] at hfuel ⊢
      rw [List.length_append, List.length_cons] at hfuel
      rw [List.append_assoc, List.cons_append]
      obtain ⟨fuel, rfl⟩ : ∃ f, fuel = f + 1 := ⟨fuel - 1, by omega⟩
      calc items? (fuel + 3) acc (write v ++ ',' :: (commaSeparated (writeItems (v' :: vs)) ++ ']' :: rest))
        _ = items? (fuel + 2) (v :: acc) (commaSeparated (writeItems (v' :: vs)) ++ ']' :: rest) :=
          items?_step hv (by omega) acc _ (.comma _)
        _ = some (.array ((v :: acc).reverse ++ v' :: vs), rest) :=
          ih (by simp) (fun w hw => h w (by simp [hw])) fuel (v :: acc) (by omega)
        _ = some (.array (acc.reverse ++ v :: v' :: vs), rest) := by simp

theorem exists_commaSeparated (x : List Char) (xs : List (List Char)) : ∃ t, commaSeparated (x :: xs) = x ++ t := by
  cases xs with
  | nil => exact ⟨[], (List.append_nil x).symm⟩
  | cons y ys => exact ⟨_, rfl⟩

/-- an array that does not close at once -/
theorem value?_bracket (fuel : Nat) (h : ∀ r', skip r ≠ ']' :: r') : value? (fuel + 1) ('[' :: r) = items? fuel [] r := by
  -- `h` rules out the branch for an empty array
  simp only [value?, skip_cons (show isSpace '[' = false from rfl)]

theorem reads_array {items : List Value} (hplain : ∀ v ∈ items, v.Plain) (h : ∀ v ∈ items, Reads v) :
    Reads (.array items) := by
  intro fuel rest hfuel _
  have htext : write (.array items) ++ rest = '[' :: (commaSeparated (writeItems items) ++ ']' :: rest) := by
    simp [write]
  rw [htext]
  cases items with
  | nil => rfl
  | cons v vs =>
    -- the first item is seen not to be the closing bracket
    have hopen : ∀ r', skip (commaSeparated (writeItems (v :: vs)) ++ ']' :: rest) ≠ ']' :: r' := by
      intro r'
      obtain ⟨c, r, hc, hspace, hclose⟩ := (hplain v (by simp)).begins
      obtain ⟨t, ht⟩ := exists_commaSeparated (write v) (writeItems vs)
      rw [writeItems, ht, hc, List.cons_append, List.cons_append, skip_cons hspace]
      intro heq
      exact hclose (List.cons.inj heq).1
    simp only [write, List.length_cons, List.length_append, List.length_nil] at hfuel
    obtain ⟨fuel, rfl⟩ : ∃ f, fuel = f + 2 := ⟨fuel - 2, by omega⟩
    rw [value?_bracket _ hopen]
    exact items?_write (by simp) h fuel [] rest (by omega)

/-- a member of an object, as it is read before it is known that its name is one -/
def member (m : String × Value) : Value × Value := (.string m.1, m.2)

theorem ofMembers_map (ms : List (String × Value)) : ofMembers (ms.map member) = .object ms := by
  have hnamed (f : Value × Value → Option (String × Value)) (hf : ∀ m, f (member m) = some m) :
      (ms.map member).mapM f = some ms := by
    induction ms with
    | nil => rfl
    | cons m ms ih => simp [ih, hf]
  simp only [ofMembers]
  rw [hnamed _ fun m => rfl]

/-- one member, up to what comes after it -/
theorem members?_step (k : String) {v : Value} (hv : Reads v) {fuel : Nat} (hfuel : (write v).length ≤ fuel)
    (acc : List (Value × Value)) (s : List Char) :
    Ends s → members? (fuel + 2) acc (quote k ++ ':' :: (write v ++ s)) =
      match s with
      | ',' :: r => members? (fuel + 1) (member (k, v) :: acc) r
      | '\x7d' :: r => some (ofMembers (member (k, v) :: acc).reverse, r)
      | _ => none := by
  intro hs
  have htext : quote k ++ ':' :: (write v ++ s) = '"' :: (k.toList.flatMap escape ++ '"' :: ':' :: (write v ++ s)) := by
    simp [quote]
  rw [htext, members?, skip_cons rfl]
  simp only [stringRest?_quoted, skip_cons (show isSpace ':' = false from rfl), hv fuel s hfuel hs]
  cases hs <;> rfl

/-- the members of an object that is not empty, after those that were read before them -/
theorem members?_write {ms : List (String × Value)} (hne : ms ≠ []) (h : ∀ k v, (k, v) ∈ ms → Reads v) (fuel : Nat)
    (acc : List (Value × Value)) (rest : List Char) (hfuel : (commaSeparated (writeMembers ms)).length ≤ fuel) :
    members? (fuel + 2) acc (commaSeparated (writeMembers ms) ++ '\x7d' :: rest) =
      some (ofMembers (acc.reverse ++ ms.map member), rest) := by
  induction ms generalizing fuel acc with
  | nil => exact absurd rfl hne
  | cons m ms ih =>
    obtain ⟨k, v⟩ := m
    have hv : Reads v := h k v (by simp)
    cases ms with
    | nil =>
      have htext : commaSeparated (writeMembers [(k, v)]) = quote k ++ ':' :: write v := rfl
      rw [htext] at hfuel ⊢
      rw [List.length_append, List.length_cons] at hfuel
      rw [List.append_assoc, List.cons_append]
      calc members? (fuel + 2) acc (quote k ++ ':' :: (write v ++ '\x7d' :: rest))
        _ = some (ofMembers (member (k, v) :: acc).reverse, rest) :=
          members?_step k hv (by omega) acc _ (.brace rest)
        _ = some (ofMembers (acc.reverse ++ [(k, v)].map member), rest) := by simp
    | cons m' ms =>
      have htext : commaSeparated (writeMembers ((k, v) :: m' :: ms)) =
          quote k ++ ':' :: write v ++ ',' :: commaSeparated (writeMembers (m' :: ms)) := rfl
      rw [htext] at hfuel ⊢
      rw [List.length_append, List.length_append, List.length_cons, List.length_cons] at hfuel
      rw [List.append_assoc, List.append_assoc, List.cons_append, List.cons_append]
      obtain ⟨fuel, rfl⟩ : ∃ f, fuel = f + 1 := ⟨fuel - 1, by omega⟩
      calc members? (fuel + 3) acc
            (quote k ++ ':' :: (write v ++ ',' :: (commaSeparated (writeMembers (m' :: ms)) ++ '\x7d' :: rest)))
        _ = members? (fuel + 2) (member (k, v) :: acc) (commaSeparated (writeMembers (m' :: ms)) ++ '\x7d' :: rest) :=
          members?_step k hv (by omega) acc _ (.comma _)
        _ = some (ofMembers ((member (k, v) :: acc).reverse ++ (m' :: ms).map member), rest) :=
          ih (by simp) (fun k' w hw => h k' w (by simp [hw])) fuel _ (by omega)
        _ = some (ofMembers (acc.reverse ++ ((k, v) :: m' :: ms).map member), rest) := by simp

theorem reads_object {members : List (String × Value)} (h : ∀ k v, (k, v) ∈ members → Reads v) :
    Reads (.object members) := by
  intro fuel rest hfuel _
  have htext : write (.object members) ++ rest =
      '\x7b' :: (commaSeparated (writeMembers members) ++ '\x7d' :: rest) := by
    simp [write]
  rw [htext, value?, skip_cons rfl]
  cases members with
  | nil => rfl
  | cons m ms =>
    simp only [write, List.length_cons, List.length_append, List.length_nil] at hfuel
    obtain ⟨fuel, rfl⟩ : ∃ f, fuel = f + 2 := ⟨fuel - 2, by omega⟩
    have hmembers := members?_write (by simp) h fuel [] rest (by omega)
    rw [List.reverse_nil, List.nil_append, ofMembers_map] at hmembers
    -- the text of the first member begins with a quote
    obtain ⟨t, ht⟩ := exists_commaSeparated (quote m.1 ++ ':' :: write m.2) (writeMembers ms)
    have hopen : ∃ r, commaSeparated (writeMembers (m :: ms)) ++ '\x7d' :: rest = '"' :: r := ⟨_, by
      rw [writeMembers, ht]
      rfl⟩
    obtain ⟨r, hr⟩ := hopen
    rw [hr] at hmembers ⊢
    exact hmembers

/-- **a plain value is read from the front of a text** -/
theorem Value.Plain.reads {v : Value} (h : v.Plain) : Reads v := by
  induction h with
  | null => exact reads_null
  | bool b => exact reads_bool b
  | int hlo hhi => exact reads_int hlo hhi
  | string s => exact reads_string s
  | array hplain ih => exact reads_array hplain ih
  | object _ ih => exact reads_object ih

/-- a plain value is read from its own text -/
theorem readText_text {v : Value} (h : v.Plain) : readText v.text = some v := by
  have hread := h.reads (write v).length [] (Nat.le_refl _) .text
  rw [List.append_nil] at hread
  rw [readText, Value.text, String.toList_ofList, readChars, hread]
  rfl

end Redeploy.Json
