/-
Where the reader of filter directives comes back.

The reader finds the parts of a directive in the text without the white space around it, and cuts them out of the text as it
is given. A position that lies between two characters of the one may lie inside a character of the other, and nothing comes
back from cutting there. That takes white space in front of the directive, which shifts the two against each other, and a
character of several bytes: texts that lack either are always read, well formed or not.

Results:
- `inside?_byteCount`, `inside?_of_narrow`: positions at which a text can be cut;
- `step_gives`, `run_gives`: the machine only asks for pieces between positions it has passed;
- **`parse_comes_back`**: a text without white space in front of it, or with no character of several bytes, is read.
-/
import Redeploy.Logging.Directive

namespace Redeploy

namespace Text

variable {text : List Char} {start stop i n : Nat}

/-- length in UTF-8 -/
def byteCount : List Char → Nat
  | [] => 0
  | c :: r => c.utf8Size + byteCount r

/-- the position is not inside a character -/
def CutsAt (text : List Char) (n : Nat) : Prop := inside? n 0 text = none

theorem inside?_byteCount (p r : List Char) (i : Nat) : inside? (i + byteCount p) i (p ++ r) = none := by
  induction p generalizing i with
  | nil => cases r <;> simp [inside?, byteCount]
  | cons c p ih =>
    have hsize : 0 < c.utf8Size := c.utf8Size_pos
    have hpast : i + byteCount (c :: p) = i + c.utf8Size + byteCount p := by rw [byteCount, Nat.add_assoc]
    rw [hpast, List.cons_append, inside?, if_neg (by omega), if_neg (by omega)]
    exact ih (i + c.utf8Size)

/-- a text can be cut behind any of its prefixes -/
theorem cutsAt_of_isPrefix {p : List Char} (h : p <+: text) : CutsAt text (byteCount p) := by
  obtain ⟨r, rfl⟩ := h
  have hcut := inside?_byteCount p r 0
  rwa [Nat.zero_add] at hcut

/-- there is no inside of a character of one byte -/
theorem inside?_of_narrow (h : text.all (·.utf8Size == 1) = true) (n i : Nat) : inside? n i text = none := by
  induction text generalizing i with
  | nil => rfl
  | cons c r ih =>
    rw [List.all_cons, Bool.and_eq_true, beq_iff_eq] at h
    obtain ⟨hsize, hrest⟩ := h
    rw [inside?, hsize]
    split
    · rfl
    · rw [if_neg (by omega)]
      exact ih hrest (i + 1)

theorem pieceFrom_cutsAt (h : CutsAt text start) : pieceFrom text start = .ok (dropBytes start text) := by
  rw [pieceFrom, h]

theorem piece_cutsAt (hstart : CutsAt text start) (hstop : CutsAt text stop) :
    piece text start stop = .ok (takeBytes (stop - start) (dropBytes start text)) := by
  have hnone : inside? stop 0 text = none := hstop
  simp only [piece, pieceFrom_cutsAt hstart, hnone]
  rfl

/-- trimming a text that does not begin with white space only shortens it at its end -/
theorem trim_isPrefix (h : text.head?.any isBlank = false) : trim text <+: text := by
  have hfront : text.dropWhile isBlank = text := by
    cases text with
    | nil => rfl
    | cons c r => exact List.dropWhile_cons_of_neg (by simpa using h)
  rw [trim, hfront, ← List.reverse_suffix, List.reverse_reverse]
  exact List.dropWhile_suffix isBlank

end Text

namespace Logging.Directive

open Text

/-- no white space is in front of the directive, or all its characters have one byte -/
def Tidy (s : String) : Prop := s.toList.head?.any isBlank = false ∨ s.toList.all (·.utf8Size == 1) = true

instance (s : String) : Decidable (Tidy s) := inferInstanceAs (Decidable (_ ∨ _))

variable {α β : Type} {P : α → Prop} {Q : β → Prop}

/-- the reading comes back, and what was read, if anything was, has the property -/
def Gives (x : Reading α) (P : α → Prop) : Prop := ∃ result, x.run = .ok result ∧ ∀ a, result = .ok a → P a

theorem gives_pure {a : α} (h : P a) : Gives (pure a) P := by
  refine ⟨.ok a, rfl, ?_⟩
  intro a' ha'
  cases ha'
  exact h

theorem gives_throw (e : DirectiveError) : Gives (throw e : Reading α) P := by
  refine ⟨.error e, rfl, ?_⟩
  intro a ha
  cases ha

theorem Gives.bind {x : Reading α} {f : α → Reading β} (hx : Gives x P) (hf : ∀ a, P a → Gives (f a) Q) :
    Gives (x >>= f) Q := by
  obtain ⟨result, hresult, hP⟩ := hx
  cases result with
  | error e =>
    refine ⟨.error e, by rw [ExceptT.run_bind, hresult]; rfl, ?_⟩
    intro b hb
    cases hb
  | ok a =>
    obtain ⟨result', hresult', hQ⟩ := hf a (hP a rfl)
    exact ⟨result', by rw [ExceptT.run_bind, hresult]; exact hresult', hQ⟩

/-! ## Pieces -/

variable {text : List Char} {i start : Nat} {d : Directive} {p : Part}

theorem gives_pieceFrom (h : CutsAt text start) : Gives (pieceFrom text start : Reading (List Char)) fun _ => True :=
  ⟨.ok (dropBytes start text), by rw [pieceFrom_cutsAt h]; rfl, fun _ _ => trivial⟩

theorem gives_piece (hstart : CutsAt text start) (hi : CutsAt text i) :
    Gives (piece text start i : Reading (List Char)) fun _ => True :=
  ⟨.ok (takeBytes (i - start) (dropBytes start text)), by rw [piece_cutsAt hstart hi]; rfl, fun _ _ => trivial⟩

theorem gives_cut (hstart : CutsAt text start) (hi : CutsAt text i) : Gives (step.cut text i start) fun _ => True :=
  (gives_piece hstart hi).bind fun _ _ => gives_pure trivial

theorem gives_withLevel (d : Directive) (s : List Char) : Gives (d.withLevel s) fun _ => True := by
  unfold withLevel
  split
  · exact gives_pure trivial
  · split
    · exact gives_pure trivial
    · exact gives_throw _

theorem gives_withField (d : Directive) (s : List Char) : Gives (d.withField s) fun _ => True := by
  simp only [withField]
  split
  · exact Gives.bind (gives_throw .malformed : Gives _ fun _ => False) fun _ => False.elim
  · split
    · exact gives_pure trivial
    · exact gives_throw _

/-! ## The machine -/

/-- the part that is being read starts at a position at which the text can be cut -/
def Part.Cuts (text : List Char) : Part → Prop
  | .levelOrTarget start | .span start | .field start | .level start => CutsAt text start
  | _ => True

/-- every character that a part starts behind has one byte -/
theorem utf8Size_of_mark {c : Char} (h : c ∈ ['=', '[', '\x7b', ',']) : c.utf8Size = 1 := by
  simp only [List.mem_cons, List.not_mem_nil, or_false] at h
  rcases h with rfl | rfl | rfl | rfl <;> rfl

theorem step_gives {c : Char} (hi : CutsAt text i) (hnext : CutsAt text (i + c.utf8Size)) (hp : p.Cuts text) :
    Gives (step text i c d p) fun q => q.2.Cuts text := by
  have hmark (h : c ∈ ['=', '[', '\x7b', ',']) : CutsAt text (i + 1) := by rwa [utf8Size_of_mark h] at hnext
  have hcomma (h : c = ',') : CutsAt text (i + 1) := hmark (by simp [h])
  cases p with
  | start =>
    simp only [step]
    split
    · rename_i hc
      exact gives_pure (hmark (by simp [hc]))
    · split
      · exact gives_pure hi
      · exact gives_throw _
  | levelOrTarget start =>
    simp only [step]
    split
    · rename_i hc
      exact (gives_cut hp hi).bind fun _ _ => gives_pure (hmark (by simp [hc]))
    · split
      · rename_i hc
        exact (gives_cut hp hi).bind fun _ _ => gives_pure (hmark (by simp [hc]))
      · split
        · exact (gives_pieceFrom hp).bind fun _ _ => gives_pure trivial
        · exact gives_pure hp
  | target =>
    simp only [step]
    split
    · rename_i hc
      exact gives_pure (hmark (by simp [hc]))
    · exact gives_throw _
  | span start =>
    simp only [step]
    split
    · exact (gives_cut hp hi).bind fun _ _ => gives_pure trivial
    · split
      · rename_i hc
        exact (gives_cut hp hi).bind fun _ _ => gives_pure (hmark (by simp [hc]))
      · exact gives_pure hp
  | field start =>
    simp only [step]
    split
    · exact (gives_piece hp hi).bind fun s _ => (gives_withField d s).bind fun _ _ => gives_pure trivial
    · split
      · rename_i hc
        exact (gives_piece hp hi).bind fun s _ => (gives_withField d s).bind fun _ _ => gives_pure (hcomma hc)
      · exact gives_pure hp
  | fields =>
    simp only [step]
    split
    · exact gives_pure trivial
    · exact gives_throw _
  | level start =>
    simp only [step]
    split
    · exact (gives_piece hp hi).bind fun s _ => (gives_withLevel d s).bind fun _ _ => gives_pure trivial
    · exact gives_pure hp
  | complete => exact gives_throw _

theorem finish_gives (hp : p.Cuts text) : Gives (finish text d p) fun _ => True := by
  cases p with
  | levelOrTarget start => exact (gives_pieceFrom hp).bind fun _ _ => gives_pure trivial
  | level start => exact (gives_pieceFrom hp).bind fun s _ => gives_withLevel d s
  | target => exact gives_pure trivial
  | complete => exact gives_pure trivial
  | start => exact gives_throw _
  | span start => exact gives_throw _
  | field start => exact gives_throw _
  | fields => exact gives_throw _

/-- the machine comes back if the text can be cut at every position it reaches -/
theorem run_gives {rest : List Char} (hcut : ∀ q, q <+: rest → CutsAt text (i + byteCount q)) (hp : p.Cuts text) :
    Gives (run text i d p rest) fun _ => True := by
  induction rest generalizing i d p with
  | nil => exact finish_gives hp
  | cons c r ih =>
    have hi : CutsAt text i := hcut [] List.nil_prefix
    have hnext : CutsAt text (i + c.utf8Size) := hcut [c] ⟨r, rfl⟩
    refine (step_gives hi hnext hp).bind fun next hcuts => ih (fun q hq => ?_) hcuts
    have hlater : CutsAt text (i + (c.utf8Size + byteCount q)) := hcut (c :: q) ((List.prefix_cons_inj c).2 hq)
    rwa [← Nat.add_assoc] at hlater

/-- **a tidy text is read**: the reader comes back from it with a directive or an error -/
theorem parse_comes_back {s : String} (h : Tidy s) : ∃ result, (parse s).run = .ok result := by
  have hcut (q : List Char) (hq : q <+: trim s.toList) : CutsAt s.toList (0 + byteCount q) := by
    rw [Nat.zero_add]
    rcases h with hfront | hnarrow
    · exact cutsAt_of_isPrefix (hq.trans (trim_isPrefix hfront))
    · exact inside?_of_narrow hnarrow _ 0
  obtain ⟨result, hresult, -⟩ := run_gives hcut (d := {}) (p := .start) trivial
  exact ⟨result, hresult⟩

/-- the directive begins behind a space of three bytes, so the span, two bytes long, would end inside that space -/
example : ¬Tidy "\u2003ab[x]" ∧ (parse "\u2003ab[x]").run.toOption = none := by decide +kernel

end Logging.Directive

end Redeploy
