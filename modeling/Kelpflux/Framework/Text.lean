import Kelpflux.Framework.Python

/-!
# Texts that join tokens

A text joins tokens with separators (`joinTokens`). Cut at some of the
separators only, its pieces are the tokens between two of these (`lone`), and
texts that still join several tokens (`exists_piece`).
-/

namespace Kelpflux.Framework.Python

/-! ## Pieces -/

theorem pieces_eq_splitOnP (p : Char → Bool) (cs : List Char) : pieces p cs = cs.splitOnP p := by
  induction cs with
  | nil => rfl
  | cons c cs ih =>
    rw [pieces, List.splitOnP_cons_eq_if_modifyHead, ih]
    split
    · rfl
    · split
      · exact absurd ‹_› (List.splitOnP_ne_nil p cs)
      · rename_i hcs
        rw [hcs]
        rfl

/-- Cut after a rewriting of its characters, a text has the rewritten pieces. -/
theorem pieces_map (p : Char → Bool) (f : Char → Char) (cs : List Char) :
    pieces p (cs.map f) = (pieces (fun c => p (f c)) cs).map (List.map f) := by
  induction cs with
  | nil => rfl
  | cons c cs ih =>
    rw [List.map_cons, pieces, pieces, ih]
    by_cases hc : p (f c) = true
    · rw [if_pos hc, if_pos hc, List.map_cons, List.map_nil]
    · rw [if_neg hc, if_neg hc]
      cases pieces (fun c => p (f c)) cs with
      | nil => rfl
      | cons x xs => rfl

/-- What is not cut goes to the first piece. -/
theorem splitOnP_append {p : Char → Bool} {xs : List Char} (h : ∀ c ∈ xs, p c = false)
    (ys : List Char) : (xs ++ ys).splitOnP p = (ys.splitOnP p).modifyHead (xs ++ ·) := by
  induction xs with
  | nil => exact (congrFun List.modifyHead_id _).symm
  | cons x xs ih =>
    rw [List.cons_append, List.splitOnP_cons_eq_if_modifyHead, h x List.mem_cons_self,
      ih fun c hc => h c (List.mem_cons_of_mem _ hc)]
    exact List.modifyHead_modifyHead

/-! ## Lines -/

theorem splitlines_cons {c : Char} {cs : List Char} (h : isLineBreak c = false) :
    splitlines (c :: cs) = match splitlines cs with
      | [] => [[c]]
      | line :: lines => (c :: line) :: lines := by
  have hcr : ∀ cs', c = '\r' → cs = '\n' :: cs' → False := by
    rintro cs' rfl
    cases h
  exact (splitlines.eq_3 c cs hcr).trans (if_neg (Bool.not_eq_true _ ▸ h))

theorem splitlines_ne_nil {cs : List Char} (h : cs ≠ []) : splitlines cs ≠ [] := by
  cases cs with
  | nil => exact absurd rfl h
  | cons c cs =>
    by_cases hbreak : isLineBreak c = true
    · rw [splitlines.eq_def]
      split
      · rename_i hnil
        cases hnil
      · exact List.cons_ne_nil _ _
      · rename_i hcons
        obtain ⟨rfl, rfl⟩ := List.cons.inj hcons
        rw [if_pos hbreak]
        exact List.cons_ne_nil _ _
    · rw [splitlines_cons (Bool.eq_false_of_not_eq_true hbreak)]
      split <;> exact List.cons_ne_nil _ _

/-- A character that ends no line is on the first. -/
theorem splitlines_cons_append {c : Char} {cs ys : List Char} (h : isLineBreak c = false)
    (ih : splitlines (cs ++ '\n' :: ys) = splitlines (cs ++ ['\n']) ++ splitlines ys) :
    splitlines (c :: cs ++ '\n' :: ys) = splitlines (c :: cs ++ ['\n']) ++ splitlines ys := by
  rw [List.cons_append, List.cons_append, splitlines_cons h, splitlines_cons h, ih]
  cases hline : splitlines (cs ++ ['\n']) with
  | nil => exact absurd hline (splitlines_ne_nil (List.append_ne_nil_of_right_ne_nil _ nofun))
  | cons line lines => rfl

/-- The lines up to a newline, and those after it. -/
theorem splitlines_append (xs ys : List Char) :
    splitlines (xs ++ '\n' :: ys) = splitlines (xs ++ ['\n']) ++ splitlines ys := by
  induction xs using splitlines.induct with
  | case1 => rfl
  | case2 cs ih =>
    show [] :: splitlines (cs ++ '\n' :: ys) = ([] :: splitlines (cs ++ ['\n'])) ++ splitlines ys
    rw [ih, List.cons_append]
  | case3 c cs hne hbreak ih =>
    by_cases hcr : c = '\r' ∧ cs = []
    · obtain ⟨rfl, rfl⟩ := hcr
      rfl
    · have hcons : ∀ tail, splitlines (c :: (cs ++ '\n' :: tail)) =
          [] :: splitlines (cs ++ '\n' :: tail) := by
        intro tail
        rw [splitlines, if_pos hbreak]
        intro cs' hc hcs
        cases cs with
        | nil => exact hcr ⟨hc, rfl⟩
        | cons d cs =>
          obtain ⟨rfl, -⟩ := List.cons.inj hcs
          exact hne cs hc rfl
      rw [List.cons_append, List.cons_append, hcons, hcons, ih, List.cons_append]
  | case4 c cs hne hbreak hlines ih =>
    exact splitlines_cons_append (Bool.eq_false_of_not_eq_true hbreak) ih
  | case5 c cs hne hbreak line lines hlines ih =>
    exact splitlines_cons_append (Bool.eq_false_of_not_eq_true hbreak) ih

/-- A line of its own. -/
theorem splitlines_line {xs : List Char} (h : ∀ c ∈ xs, isLineBreak c = false) :
    splitlines (xs ++ ['\n']) = [xs] := by
  induction xs with
  | nil => rfl
  | cons c xs ih =>
    rw [List.cons_append, splitlines_cons (h c List.mem_cons_self),
      ih fun c hc => h c (List.mem_cons_of_mem _ hc)]

theorem splitlines_flatMap {α : Type} (line : α → List Char) (xs : List α) :
    splitlines (xs.flatMap fun x => line x ++ ['\n']) =
      xs.flatMap fun x => splitlines (line x ++ ['\n']) := by
  induction xs with
  | nil => rfl
  | cons x xs ih =>
    rw [List.flatMap_cons, List.flatMap_cons, List.append_assoc, List.singleton_append,
      splitlines_append, ih]

/-! ## Case -/

theorem toNat_toUpper (c : Char) :
    c.toUpper.toNat = if 97 ≤ c.toNat ∧ c.toNat ≤ 122 then c.toNat - 32 else c.toNat := by
  unfold Char.toUpper Char.toNat
  by_cases h : 'a'.val ≤ c.val ∧ c.val ≤ 'z'.val
  · rw [dif_pos h]
    have h1 : 97 ≤ c.val.toNat := UInt32.le_iff_toNat_le.mp h.1
    have h2 : c.val.toNat ≤ 122 := UInt32.le_iff_toNat_le.mp h.2
    rw [if_pos ⟨h1, h2⟩]
    show (c.val + ('A'.val - 'a'.val)).toNat = _
    rw [UInt32.toNat_add]
    have : ('A'.val - 'a'.val).toNat = 4294967264 := by decide
    rw [this]
    omega
  · rw [dif_neg h, if_neg]
    rintro ⟨h1, h2⟩
    exact h ⟨UInt32.le_iff_toNat_le.mpr h1, UInt32.le_iff_toNat_le.mpr h2⟩

theorem toNat_toLower (c : Char) :
    c.toLower.toNat = if 65 ≤ c.toNat ∧ c.toNat ≤ 90 then c.toNat + 32 else c.toNat := by
  unfold Char.toLower Char.toNat
  by_cases h : c.val ≥ 'A'.val ∧ c.val ≤ 'Z'.val
  · rw [dif_pos h]
    have h1 : 65 ≤ c.val.toNat := UInt32.le_iff_toNat_le.mp h.1
    have h2 : c.val.toNat ≤ 90 := UInt32.le_iff_toNat_le.mp h.2
    rw [if_pos ⟨h1, h2⟩]
    show (c.val + ('a'.val - 'A'.val)).toNat = _
    rw [UInt32.toNat_add]
    have : ('a'.val - 'A'.val).toNat = 32 := by decide
    rw [this]
    omega
  · rw [dif_neg h, if_neg]
    rintro ⟨h1, h2⟩
    exact h ⟨UInt32.le_iff_toNat_le.mpr h1, UInt32.le_iff_toNat_le.mpr h2⟩

theorem toUpper_eq_iff (c d : Char) : c.toUpper = d.toUpper ↔ c.toLower = d.toLower := by
  rw [← Char.toNat_inj, ← Char.toNat_inj, toNat_toUpper, toNat_toUpper, toNat_toLower, toNat_toLower]
  split <;> split <;> split <;> split <;> omega

theorem upper_eq_iff (s t : String) : upper s = upper t ↔ lower s = lower t := by
  unfold upper lower
  rw [String.ofList_inj, String.ofList_inj]
  generalize s.toList = cs
  generalize t.toList = ds
  induction cs generalizing ds with
  | nil => simp [eq_comm]
  | cons c cs ih =>
    cases ds with
    | nil => simp
    | cons d ds =>
      rw [List.map_cons, List.map_cons, List.map_cons, List.map_cons, List.cons.injEq,
        List.cons.injEq, toUpper_eq_iff, ih]

/-! ## Parts of a text -/

/-- What is without `c` is not across it. -/
theorem infix_append_cons {c : Char} {n xs ys : List Char} (hc : c ∉ n) :
    n <:+: xs ++ c :: ys ↔ n <:+: xs ∨ n <:+: ys := by
  constructor
  · rintro ⟨pre, post, h⟩
    rw [List.append_assoc, List.append_eq_append_iff] at h
    rcases h with ⟨mid, rfl, h⟩ | ⟨mid, rfl, h⟩
    · rw [List.append_eq_append_iff] at h
      rcases h with ⟨mid', rfl, -⟩ | ⟨mid', rfl, h⟩
      · exact .inl ⟨pre, mid', by simp⟩
      · cases mid' with
        | nil => exact .inl ⟨pre, [], by simp⟩
        | cons c' mid' =>
          obtain ⟨rfl, -⟩ := List.cons.inj h
          exact absurd (List.mem_append_right _ List.mem_cons_self) hc
    · cases mid with
      | nil =>
        rw [List.nil_append] at h
        cases n with
        | nil => exact .inr (List.nil_infix)
        | cons c' n =>
          obtain ⟨rfl, -⟩ := List.cons.inj h
          exact absurd List.mem_cons_self hc
      | cons c' mid =>
        obtain ⟨-, rfl⟩ := List.cons.inj h
        exact .inr ⟨mid, post, by simp⟩
  · rintro (h | h)
    · exact h.trans (List.prefix_append _ _).isInfix
    · exact h.trans ((List.suffix_cons c ys).isInfix.trans (List.suffix_append _ _).isInfix)

/-- What is without commas is in one of the texts that commas join. -/
theorem contains_joinComma {needle : String} (hc : ',' ∉ needle.toList) (xs : List String)
    (s : String) : contains (lower (joinComma xs ++ "," ++ s)) needle ↔
      (∃ x ∈ xs, contains (lower x) needle) ∨ contains (lower s) needle := by
  have hlower : ∀ x y : String, (lower (x ++ "," ++ y)).toList =
      (lower x).toList ++ ',' :: (lower y).toList := by
    intro x y
    simp [lower]
  simp only [contains, decide_eq_true_eq]
  induction xs with
  | nil =>
    rw [hlower, infix_append_cons hc]
    have hempty : needle.toList <:+: (lower (joinComma [])).toList →
      needle.toList <:+: (lower s).toList := by
      intro h
      rw [List.infix_nil.mp h]
      exact List.nil_infix
    simp only [List.not_mem_nil, false_and, exists_false, false_or]
    exact or_iff_right_of_imp hempty
  | cons x xs ih =>
    rw [List.exists_mem_cons_iff, or_assoc]
    refine Iff.trans ?_ (or_congr_right ih)
    cases xs with
    | nil =>
      rw [hlower, infix_append_cons hc, hlower, infix_append_cons hc]
      have hjoin : joinComma [x] = x := by simp [joinComma]
      have hempty : needle.toList <:+: (lower (joinComma [])).toList →
          needle.toList <:+: (lower s).toList := by
        intro h
        rw [List.infix_nil.mp h]
        exact List.nil_infix
      rw [hjoin, or_iff_right_of_imp hempty]
    | cons y ys =>
      have hjoin : joinComma (x :: y :: ys) ++ "," ++ s =
          x ++ "," ++ (joinComma (y :: ys) ++ "," ++ s) := by
        simp [joinComma, String.intercalate_cons_cons, String.append_assoc]
      rw [hjoin, hlower, infix_append_cons hc]

/-! ## Tokens -/

/-- A text that is not empty, and has no separators. -/
structure Token (sep : Char → Prop) where
  chars : List Char
  ne_nil : chars ≠ []
  not_sep : ∀ c ∈ chars, ¬ sep c

section Tokens

variable {sep : Char → Prop} {p : Char → Bool} {t : Token sep}
  {rest : List ({c // sep c} × Token sep)}

/-- A token, and more with a separator before each. -/
def joinTokens (t : Token sep) : List ({c // sep c} × Token sep) → List Char
  | [] => t.chars
  | (c, t') :: rest => t.chars ++ (c : Char) :: joinTokens t' rest

/-- The tokens that a cut at the separators in `p` leaves together. -/
def groups (p : Char → Bool) (t : Token sep) : List ({c // sep c} × Token sep) →
    List (Token sep × List ({c // sep c} × Token sep))
  | [] => [(t, [])]
  | (c, t') :: rest =>
    if p c then (t, []) :: groups p t' rest
    else match groups p t' rest with
      | [] => []
      | (first, run) :: gs => (t, (c, first) :: run) :: gs

theorem pieces_joinTokens (hp : ∀ c, p c = true → sep c) :
    pieces p (joinTokens t rest) = (groups p t rest).map fun g => joinTokens g.1 g.2 := by
  rw [pieces_eq_splitOnP]
  have hchars : ∀ t : Token sep, ∀ c ∈ t.chars, p c = false := fun t c hc =>
    Bool.eq_false_of_not_eq_true fun hpc => t.not_sep c hc (hp c hpc)
  induction rest generalizing t with
  | nil => exact List.splitOnP_eq_singleton (hchars t)
  | cons e rest ih =>
    obtain ⟨c, t'⟩ := e
    rw [joinTokens, groups]
    split
    · rename_i hc
      rw [List.splitOnP_append_cons_of_forall_mem (hchars t) _ hc, ih, List.map_cons, joinTokens]
    · rename_i hc
      rw [splitOnP_append (hchars t), List.splitOnP_cons_eq_if_modifyHead, if_neg hc, ih]
      cases groups p t' rest with
      | nil => rfl
      | cons g gs => rfl

/-- A token, and what stands on its two sides. -/
structure Placed (sep : Char → Prop) where
  left : Option Char
  token : Token sep
  right : Option Char

/-- The tokens of a text, of which the first has `left` before it. -/
def sides (left : Option Char) (t : Token sep) : List ({c // sep c} × Token sep) → List (Placed sep)
  | [] => [⟨left, t, none⟩]
  | (c, t') :: rest => ⟨left, t, some c⟩ :: sides (some c) t' rest

/-- A token between two separators in `p`, or an end of the text. -/
def Placed.isLone (p : Char → Bool) (e : Placed sep) : Bool := e.left.all p && e.right.all p

/-- The tokens that stand alone between the separators in `p`. -/
def lone (p : Char → Bool) (t : Token sep) (rest : List ({c // sep c} × Token sep)) :
    List (Token sep) :=
  ((sides none t rest).filter (Placed.isLone p)).map Placed.token

theorem sides_token (left : Option Char) (t : Token sep) (rest : List ({c // sep c} × Token sep)) :
    (sides left t rest).map Placed.token = t :: rest.map Prod.snd := by
  induction rest generalizing left t with
  | nil => rfl
  | cons e rest ih => rw [sides, List.map_cons, ih, List.map_cons]

theorem lone_subset (p : Char → Bool) (t : Token sep) (rest : List ({c // sep c} × Token sep)) :
    lone p t rest ⊆ t :: rest.map Prod.snd := by
  rw [← sides_token none t rest]
  exact List.map_subset _ List.filter_sublist.subset

/-- The tokens alone in their group, where the first group goes on to the left
unless `left` cuts it off. -/
theorem lone_groups (p : Char → Bool) (left : Option Char) (t : Token sep)
    (rest : List ({c // sep c} × Token sep)) :
    ((sides left t rest).filter (Placed.isLone p)).map Placed.token =
      ((if left.all p then groups p t rest else (groups p t rest).tail).filter
        fun g => g.2.isEmpty).map Prod.fst := by
  induction rest generalizing left t with
  | nil =>
    rw [sides, groups]
    by_cases hl : left.all p = true
    · simp [Placed.isLone, hl]
    · simp [Placed.isLone, hl]
  | cons e rest ih =>
    obtain ⟨c, t'⟩ := e
    rw [sides, groups]
    by_cases hc : p c = true
    · have ih := ih (some c) t'
      rw [if_pos (by exact hc)] at ih
      by_cases hl : left.all p = true
      · simp [Placed.isLone, hl, hc, ih]
      · simp [Placed.isLone, hl, hc, ih]
    · have ih := ih (some c) t'
      rw [if_neg (by exact hc)] at ih
      have hlone : Placed.isLone p ⟨left, t, some (c : Char)⟩ = false := by
        simp [Placed.isLone, hc]
      rw [List.filter_cons, hlone, if_neg Bool.false_ne_true, ih, if_neg hc]
      cases groups p t' rest with
      | nil => simp
      | cons g gs =>
        by_cases hl : left.all p = true
        · simp [hl]
        · simp [hl]

/-- Cut at the separators in `p ∘ f`, once its characters are rewritten by `f`, a
text has a piece for which `Q` holds just if it has such a lone token. -/
theorem exists_piece (t : Token sep) (rest : List ({c // sep c} × Token sep)) {f : Char → Char}
    {Q : List Char → Prop} (hp : ∀ c, p (f c) = true → sep c)
    (hf : ∀ c, ¬ sep c → f c = c)
    (hQ : ∀ (t : Token sep) c t' rest, ¬ Q ((joinTokens t ((c, t') :: rest)).map f)) :
    (∃ x ∈ pieces p ((joinTokens t rest).map f), Q x) ↔
      ∃ t' ∈ lone (fun c => p (f c)) t rest, Q t'.chars := by
  have hmap : ∀ t : Token sep, t.chars.map f = t.chars := fun t =>
    (List.map_congr_left fun c hc => hf c (t.not_sep c hc)).trans (List.map_id _)
  have hlone : lone (fun c => p (f c)) t rest =
      ((groups (fun c => p (f c)) t rest).filter fun g => g.2.isEmpty).map Prod.fst :=
    lone_groups _ none t rest
  rw [pieces_map, pieces_joinTokens hp, hlone]
  constructor
  · rintro ⟨x, hx, hq⟩
    obtain ⟨y, hy, rfl⟩ := List.mem_map.mp hx
    obtain ⟨⟨t', run⟩, hg, rfl⟩ := List.mem_map.mp hy
    cases run with
    | cons e run => exact absurd hq (hQ _ _ _ _)
    | nil =>
      refine ⟨t', List.mem_map.mpr ⟨_, List.mem_filter.mpr ⟨hg, rfl⟩, rfl⟩, ?_⟩
      rwa [joinTokens, hmap] at hq
  · rintro ⟨t', ht', hq⟩
    obtain ⟨⟨t', run⟩, hg, rfl⟩ := List.mem_map.mp ht'
    obtain ⟨hg, hrun⟩ := List.mem_filter.mp hg
    obtain rfl := List.isEmpty_iff.mp hrun
    refine ⟨_, List.mem_map.mpr ⟨_, List.mem_map.mpr ⟨_, hg, rfl⟩, rfl⟩, ?_⟩
    rwa [joinTokens, hmap]

end Tokens

end Kelpflux.Framework.Python
