import Kelpflux.Framework.Word

/-!
# Host lists

The text that names a list of hosts: items between commas, each a name that may be
followed by groups of numbers and ranges in brackets (`render`), and the names
that it stands for (`denote`). A range has the width of its first number, so that
`n[08-10]` is `n08`, `n09` and `n10`.
-/

namespace Kelpflux.Framework.HostList

open Framework.Python

/-- A character that no host name has. -/
def isMark (c : Char) : Bool := isSpace c || c ∈ [',', '[', ']', '(', ')', '/']

/-- A text that is not empty, of characters of names. -/
abbrev Name := Token fun c => isMark c = true

/-- A number, or the numbers from one to another. -/
inductive Range where
  | one (n : Digits)
  | span (lo hi : Digits)

/-- A bracketed group, and the characters of names after it. -/
structure Group where
  ranges : List Range
  ne_nil : ranges ≠ []
  tail : List Char
  not_mark : ∀ c ∈ tail, isMark c = false

structure Item where
  start : Name
  groups : List Group

/-! ## The text -/

def Range.chars : Range → List Char
  | .one n => n.chars
  | .span lo hi => lo.chars ++ '-' :: hi.chars

/-- What stands between the brackets of a group. -/
def Group.inner (g : Group) : List Char := [','].intercalate (g.ranges.map Range.chars)

def Group.chars (g : Group) : List Char := '[' :: (g.inner ++ ']' :: g.tail)

def Item.chars (item : Item) : List Char := item.start.chars ++ item.groups.flatMap Group.chars

def chars (items : List Item) : List Char := [','].intercalate (items.map Item.chars)

def render (items : List Item) : String := String.ofList (chars items)

/-! ## The hosts -/

/-- A number in a width, with zeros in front. -/
def padded (width n : Nat) : List Char := (Nat.toDigits 10 n).leftpad width '0'

def Range.denote : Range → List (List Char)
  | .one n => [n.chars]
  | .span lo hi =>
    (List.range (digitsNat hi.chars + 1 - digitsNat lo.chars)).map fun i =>
      padded lo.chars.length (digitsNat lo.chars + i)

/-- The names so far, each with each number of the group. -/
def Group.extend (names : List (List Char)) (g : Group) : List (List Char) :=
  names.flatMap fun name => (g.ranges.flatMap Range.denote).map fun n => name ++ n ++ g.tail

def Item.denote (item : Item) : List (List Char) :=
  item.groups.foldl Group.extend [item.start.chars]

def denote (items : List Item) : List String := (items.flatMap Item.denote).map String.ofList

/-! ## Characters -/

theorem Name.not_mark (n : Name) : ∀ c ∈ n.chars, isMark c = false := fun c hc =>
  Bool.eq_false_of_not_eq_true (n.not_sep c hc)

theorem not_mark_of_isDigit {c : Char} (h : c.isDigit = true) : isMark c = false := by
  have hne : ∀ x : Char, x.isDigit = false → c ≠ x := by
    rintro x hx rfl
    exact absurd h (by rw [hx]; exact Bool.false_ne_true)
  have hrange : 48 ≤ c.toNat ∧ c.toNat ≤ 57 := by
    obtain ⟨hlo, hhi⟩ := (Bool.and_eq_true _ _).mp h
    exact ⟨UInt32.le_iff_toNat_le.mp (of_decide_eq_true hlo),
      UInt32.le_iff_toNat_le.mp (of_decide_eq_true hhi)⟩
  have hspace : isSpace c = false := by
    simp only [isSpace, Bool.or_eq_false_iff, Bool.and_eq_false_iff, decide_eq_false_iff_not]
    omega
  unfold isMark
  rw [hspace, Bool.false_or, decide_eq_false_iff_not]
  simp [hne ',' rfl, hne '[' rfl, hne ']' rfl, hne '(' rfl, hne ')' rfl, hne '/' rfl]

theorem Range.not_mark (r : Range) : ∀ c ∈ r.chars, isMark c = false := by
  intro c h
  cases r with
  | one n => exact not_mark_of_isDigit (n.digits c h)
  | span lo hi =>
    rcases List.mem_append.mp h with h | h
    · exact not_mark_of_isDigit (lo.digits c h)
    · rcases List.mem_cons.mp h with rfl | h
      · rfl
      · exact not_mark_of_isDigit (hi.digits c h)

theorem Range.ne_nil (r : Range) : r.chars ≠ [] := by
  cases r with
  | one n => exact n.ne_nil
  | span lo hi => exact List.append_ne_nil_of_left_ne_nil lo.ne_nil _

/-- A mark is in none of the texts of characters of names. -/
theorem not_mem_of_mark {xs : List Char} (h : ∀ c ∈ xs, isMark c = false) {s : Char}
    (hs : isMark s = true) : s ∉ xs := by
  intro hmem
  exact Bool.false_ne_true ((h s hmem).symm.trans hs)

theorem mem_intercalate {xs : List (List Char)} {c s : Char} (h : c ∈ [s].intercalate xs) :
    c = s ∨ ∃ x ∈ xs, c ∈ x := by
  induction xs with
  | nil => cases h
  | cons x xs ih =>
    cases xs with
    | nil =>
      rw [List.intercalate_singleton] at h
      exact .inr ⟨x, List.mem_cons_self, h⟩
    | cons y ys =>
      rw [List.intercalate_cons_cons, List.append_assoc] at h
      rcases List.mem_append.mp h with h | h
      · exact .inr ⟨x, List.mem_cons_self, h⟩
      · rcases List.mem_append.mp h with h | h
        · exact .inl (List.mem_singleton.mp h)
        · rcases ih h with h | ⟨z, hz, hc⟩
          · exact .inl h
          · exact .inr ⟨z, List.mem_cons_of_mem _ hz, hc⟩

theorem Group.mem_inner {g : Group} {c : Char} (h : c ∈ g.inner) : c = ',' ∨ isMark c = false := by
  rcases mem_intercalate h with h | ⟨x, hx, hc⟩
  · exact .inl h
  · obtain ⟨r, -, rfl⟩ := List.mem_map.mp hx
    exact .inr (r.not_mark c hc)

theorem Group.bracket_not_mem (g : Group) : ']' ∉ g.inner := by
  intro h
  rcases g.mem_inner h with h | h
  · exact absurd h (by decide)
  · cases h

theorem Group.inner_ne_nil (g : Group) : g.inner ≠ [] := by
  obtain ⟨r, rs, hranges⟩ := List.exists_cons_of_ne_nil g.ne_nil
  unfold Group.inner
  rw [hranges, List.map_cons]
  cases rs with
  | nil =>
    rw [List.map_nil, List.intercalate_singleton]
    exact r.ne_nil
  | cons r' rs =>
    rw [List.map_cons, List.intercalate_cons_cons, List.append_assoc]
    exact List.append_ne_nil_of_left_ne_nil r.ne_nil _

/-- The marks of a text of items. -/
theorem mem_chars {items : List Item} {c : Char} (h : c ∈ chars items) :
    c ∈ [',', '[', ']'] ∨ isMark c = false := by
  rcases mem_intercalate h with rfl | ⟨x, hx, hc⟩
  · exact .inl List.mem_cons_self
  · obtain ⟨item, -, rfl⟩ := List.mem_map.mp hx
    rcases List.mem_append.mp hc with hc | hc
    · exact .inr (item.start.not_mark c hc)
    · obtain ⟨g, -, hc⟩ := List.mem_flatMap.mp hc
      rcases List.mem_cons.mp hc with rfl | hc
      · exact .inl (by decide)
      · rcases List.mem_append.mp hc with hc | hc
        · rcases g.mem_inner hc with rfl | hc
          · exact .inl (by decide)
          · exact .inr hc
        · rcases List.mem_cons.mp hc with rfl | hc
          · exact .inl (by decide)
          · exact .inr (g.not_mark c hc)

/-- Of the marks, only commas and brackets are in the text of items. -/
theorem not_mem_chars {c : Char} (hmark : isMark c = true) (hc : c ∉ [',', '[', ']'])
    (items : List Item) : c ∉ chars items := by
  intro h
  rcases mem_chars h with h | h
  · exact hc h
  · exact Bool.false_ne_true (h.symm.trans hmark)

/-! ## The parts of the text -/

/-- What stands after an item. -/
def more : List Item → List Char
  | [] => []
  | items => ',' :: chars items

theorem chars_cons (item : Item) (items : List Item) :
    chars (item :: items) = item.chars ++ more items := by
  unfold chars
  cases items with
  | nil => rw [List.map_singleton, List.intercalate_singleton, more, List.append_nil]
  | cons item' items =>
    rw [List.map_cons, List.map_cons, List.intercalate_cons_cons, List.append_assoc]
    rfl

theorem Group.pieces_inner (g : Group) : pieces (· == ',') g.inner = g.ranges.map Range.chars := by
  rw [pieces_eq_splitOnP, ← List.splitOn_eq_splitOnP]
  refine List.splitOn_intercalate ',' (fun x hx => ?_) fun h => g.ne_nil (List.map_eq_nil_iff.mp h)
  obtain ⟨r, -, rfl⟩ := List.mem_map.mp hx
  exact not_mem_of_mark r.not_mark rfl

section

variable {items plain : List Item} {item : Item} {g : Group} {gs : List Group}

theorem plain_chars (h : item.groups = []) : item.chars = item.start.chars := by
  unfold Item.chars
  rw [h, List.flatMap_nil, List.append_nil]

theorem pieces_plain (h : ∀ item ∈ items, item.groups = []) (hne : items ≠ []) :
    pieces (· == ',') (chars items) = items.map fun item => item.start.chars := by
  have hchars : items.map Item.chars = items.map fun item => item.start.chars :=
    List.map_congr_left fun item hitem => plain_chars (h item hitem)
  unfold chars
  rw [pieces_eq_splitOnP, ← List.splitOn_eq_splitOnP, hchars]
  refine List.splitOn_intercalate ',' (fun x hx => ?_) fun h => hne (List.map_eq_nil_iff.mp h)
  obtain ⟨item, -, rfl⟩ := List.mem_map.mp hx
  exact not_mem_of_mark item.start.not_mark rfl

/-- Plain names have no brackets. -/
theorem bracket_not_mem (h : ∀ item ∈ items, item.groups = []) : '[' ∉ chars items := by
  intro hmem
  rcases mem_intercalate hmem with hc | ⟨x, hx, hc⟩
  · exact absurd hc (by decide)
  · obtain ⟨item, hitem, rfl⟩ := List.mem_map.mp hx
    rw [plain_chars (h item hitem)] at hc
    exact not_mem_of_mark item.start.not_mark rfl hc

/-- The text, cut at its first group. -/
theorem chars_cut (hplain : ∀ item ∈ plain, item.groups = []) (hgroups : item.groups = g :: gs)
    (later : List Item) :
    ∃ before rest, '[' ∉ before ∧
      chars (plain ++ item :: later) = before ++ '[' :: (g.inner ++ ']' :: rest) ∧
      (rest = [] → g.tail = [] ∧ gs = [] ∧ later = []) := by
  induction plain with
  | nil =>
    refine ⟨item.start.chars, g.tail ++ (gs.flatMap Group.chars ++ more later),
      not_mem_of_mark item.start.not_mark rfl, ?_, fun hnil => ?_⟩
    · rw [List.nil_append, chars_cons, Item.chars, hgroups, List.flatMap_cons, Group.chars]
      simp
    · obtain ⟨htail, hrest⟩ := List.append_eq_nil_iff.mp hnil
      obtain ⟨hgs, hmore⟩ := List.append_eq_nil_iff.mp hrest
      refine ⟨htail, ?_, ?_⟩
      · cases gs with
        | nil => rfl
        | cons g' gs => cases hgs
      · cases later with
        | nil => rfl
        | cons item' later => cases hmore
  | cons item' plain ih =>
    obtain ⟨before, rest, hbefore, hcut, hrest⟩ := ih fun i hi => hplain i (List.mem_cons_of_mem _ hi)
    refine ⟨item'.start.chars ++ ',' :: before, rest, ?_, ?_, hrest⟩
    · rw [List.mem_append, List.mem_cons]
      rintro (hc | hc | hc)
      · exact not_mem_of_mark item'.start.not_mark rfl hc
      · exact absurd hc (by decide)
      · exact hbefore hc
    · have hmore : more (plain ++ item :: later) = ',' :: chars (plain ++ item :: later) := by
        cases plain <;> rfl
      rw [List.cons_append, chars_cons, plain_chars (hplain item' List.mem_cons_self), hmore, hcut,
        List.append_assoc, List.cons_append]

end

end Kelpflux.Framework.HostList
