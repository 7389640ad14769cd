import Kelpflux.Framework.Text

/-!
# Words before separators

What Python's text functions read of a word that a separator follows: its
digits, its pieces, and whether it is the one that is looked for, in any case of
its letters (`afterPrefix_word`).
-/

namespace Kelpflux.Framework.Python

/-- A letter, a digit, or one of three signs. -/
def isWordChar (c : Char) : Bool := c.isAlphanum || c = '_' || c = '-' || c = '.'

/-- A text of such characters that is not empty. -/
structure Word where
  chars : List Char
  ne_nil : chars ≠ []
  word : ∀ c ∈ chars, isWordChar c = true

/-- The number that digits write. -/
def digitsNat (ds : List Char) : Nat := ds.foldl (fun n d => 10 * n + (d.toNat - '0'.toNat)) 0

/-- A text of digits that is not empty. -/
structure Digits where
  chars : List Char
  ne_nil : chars ≠ []
  digits : ∀ c ∈ chars, c.isDigit = true

/-! ## Characters -/

theorem isWordChar_iff (c : Char) : isWordChar c = true ↔
    65 ≤ c.toNat ∧ c.toNat ≤ 90 ∨ 97 ≤ c.toNat ∧ c.toNat ≤ 122 ∨ 48 ≤ c.toNat ∧ c.toNat ≤ 57 ∨
      c.toNat = 95 ∨ c.toNat = 45 ∨ c.toNat = 46 := by
  have heq : ∀ d : Char, c = d ↔ c.toNat = d.toNat := fun d => Char.toNat_inj.symm
  show ((((decide (c.val ≥ 'A'.val ∧ c.val ≤ 'Z'.val) ||
    (decide (c.val ≥ 'a'.val) && decide (c.val ≤ 'z'.val))) ||
    (decide (c.val ≥ '0'.val) && decide (c.val ≤ '9'.val))) || decide (c = '_') ||
    decide (c = '-') || decide (c = '.')) = true) ↔ _
  simp only [Bool.or_eq_true, Bool.and_eq_true, decide_eq_true_eq, heq, ge_iff_le,
    UInt32.le_iff_toNat_le]
  show (((((65 ≤ c.toNat ∧ c.toNat ≤ 90) ∨ (97 ≤ c.toNat ∧ c.toNat ≤ 122)) ∨
    (48 ≤ c.toNat ∧ c.toNat ≤ 57)) ∨ c.toNat = 95) ∨ c.toNat = 45) ∨ c.toNat = 46 ↔ _
  omega

theorem isWordChar_toLower (c : Char) : isWordChar c.toLower = isWordChar c := by
  rw [Bool.eq_iff_iff, isWordChar_iff, isWordChar_iff, toNat_toLower]
  split <;> omega

theorem toLower_of_not_word {c : Char} (h : isWordChar c = false) : c.toLower = c := by
  rw [← Char.toNat_inj, toNat_toLower, if_neg]
  intro hupper
  exact absurd ((isWordChar_iff c).mpr (.inl hupper)) (by rw [h]; exact Bool.false_ne_true)

theorem isWordChar_of_isDigit {c : Char} (h : c.isDigit = true) : isWordChar c = true := by
  show (c.isAlpha || c.isDigit || decide (c = '_') || decide (c = '-') || decide (c = '.')) = true
  rw [h, Bool.or_true]
  rfl

theorem isDigit_of_not_word {c : Char} (h : isWordChar c = false) : c.isDigit = false := by
  cases hc : c.isDigit with
  | false => rfl
  | true => exact absurd (isWordChar_of_isDigit hc) (by rw [h]; exact Bool.false_ne_true)

theorem Digits.word (d : Digits) : ∀ c ∈ d.chars, isWordChar c = true :=
  fun c hc => isWordChar_of_isDigit (d.digits c hc)

/-! ## Words -/

section Words

variable {w : List Char} {c : Char} {rest : List Char}

theorem takeWhile_append_cons {p : Char → Bool} (hc : p c = false) :
    (w ++ c :: rest).takeWhile p = w.takeWhile p := by
  induction w with
  | nil => exact List.takeWhile_cons_of_neg (by rw [hc]; exact Bool.false_ne_true)
  | cons x w ih => rw [List.cons_append, List.takeWhile_cons, List.takeWhile_cons, ih]

/-- The digits at the start of a word. -/
theorem leadingDigits_append (hc : c.isDigit = false) :
    leadingDigits (w ++ c :: rest) = leadingDigits w := by
  unfold leadingDigits
  rw [takeWhile_append_cons hc]

theorem leadingDigits_digits (d : Digits) : leadingDigits d.chars = some (digitsNat d.chars) := by
  unfold leadingDigits
  rw [List.takeWhile_eq_self_iff.mpr d.digits]
  split
  · rename_i hnil
    exact absurd hnil d.ne_nil
  · rfl

theorem pieces_append {p : Char → Bool} (hw : ∀ x ∈ w, p x = false) (hc : p c = true) :
    pieces p (w ++ c :: rest) = w :: pieces p rest := by
  rw [pieces_eq_splitOnP, pieces_eq_splitOnP]
  exact List.splitOnP_append_cons_of_forall_mem hw c hc rest

theorem pieces_of_none {p : Char → Bool} (hw : ∀ x ∈ w, p x = false) : pieces p w = [w] := by
  rw [pieces_eq_splitOnP]
  exact List.splitOnP_eq_singleton hw

theorem all_ne (hw : c ∉ w) : ∀ x ∈ w, (x != c) = true := fun x hx => by
  rw [bne_iff_ne]
  rintro rfl
  exact hw hx

theorem span_ne (hw : c ∉ w) : (w ++ c :: rest).span (· != c) = (w, c :: rest) := by
  rw [List.span_eq_takeWhile_dropWhile]
  have htake : (w ++ c :: rest).takeWhile (· != c) = w := by
    rw [takeWhile_append_cons (by simp), List.takeWhile_eq_self_iff]
    exact all_ne hw
  have hall := List.takeWhile_append_dropWhile (p := (· != c)) (l := w ++ c :: rest)
  rw [htake] at hall ⊢
  rw [List.append_cancel_left hall]

theorem span_none (hw : c ∉ w) : w.span (· != c) = (w, []) := by
  rw [List.span_eq_takeWhile_dropWhile, List.takeWhile_eq_self_iff.mpr (all_ne hw),
    List.dropWhile_eq_nil_iff.mpr (all_ne hw)]

/-- The text that is looked for ends in a separator: it is the word before one,
and that separator. -/
theorem afterPrefix_word {p : String} {q : List Char} {s : Char} (hp : p.toList = q ++ [s])
    (hs : isWordChar s = false) (hq : ∀ x ∈ q, isWordChar x = true)
    (hw : ∀ x ∈ w, isWordChar x = true) (hc : isWordChar c = false) :
    afterPrefix p (w ++ c :: rest) =
      if w.map Char.toLower = q.map Char.toLower ∧ c = s then some rest else none := by
  have hlen : p.length = q.length + 1 := by
    rw [← String.length_toList, hp, List.length_append, List.length_singleton]
  have hsep : ∀ x y : Char, isWordChar x = true → isWordChar y = false → x.toLower ≠ y := by
    intro x y hx hy h
    rw [← isWordChar_toLower, h, hy] at hx
    cases hx
  have hsame : ((w ++ c :: rest).take (q.length + 1)).map Char.toLower =
      (q ++ [s]).map Char.toLower ↔ w.map Char.toLower = q.map Char.toLower ∧ c = s := by
    clear hlen hp
    induction q generalizing w with
    | nil =>
      cases w with
      | nil => simp [toLower_of_not_word hc, toLower_of_not_word hs]
      | cons x w =>
        have hne := hsep x s (hw x List.mem_cons_self) hs
        simp [toLower_of_not_word hs, hne]
    | cons y q ih =>
      cases w with
      | nil =>
        have hne := hsep y c (hq y List.mem_cons_self) hc
        simp [toLower_of_not_word hc, hne.symm]
      | cons x w =>
        have hrest := ih (fun z hz => hq z (List.mem_cons_of_mem _ hz))
          fun z hz => hw z (List.mem_cons_of_mem _ hz)
        rw [List.cons_append, List.length_cons, List.take_succ_cons, List.map_cons,
          List.cons_append, List.map_cons, List.cons.injEq, hrest, List.map_cons, List.map_cons, List.cons.injEq,
          and_assoc]
  unfold afterPrefix
  rw [hlen, hp]
  by_cases h : w.map Char.toLower = q.map Char.toLower ∧ c = s
  · have hwq : w.length = q.length := by simpa using congrArg List.length h.1
    rw [if_pos (hsame.mpr h), if_pos h, ← hwq, List.drop_length_add_append]
    rfl
  · rw [if_neg (mt hsame.mp h), if_neg h]

theorem afterPrefix_append (p q : String) (cs : List Char) :
    afterPrefix (p ++ q) cs = (afterPrefix p cs).bind (afterPrefix q) := by
  unfold afterPrefix
  rw [String.length_append, String.toList_append, List.take_add, List.map_append, List.map_append]
  by_cases hp : (cs.take p.length).map Char.toLower = p.toList.map Char.toLower
  · rw [hp, if_pos rfl, Option.bind_some, List.drop_drop,
      if_congr (List.append_right_inj _) rfl rfl]
  · rw [if_neg hp, Option.bind_none, if_neg]
    intro hall
    have hlen := congrArg List.length hall
    simp only [List.length_append, List.length_map, List.length_take, List.length_drop,
      String.length_toList] at hlen
    refine hp (List.append_inj hall ?_).1
    rw [List.length_map, List.length_map, List.length_take, String.length_toList]
    omega

end Words

end Kelpflux.Framework.Python
