import Kelpflux.Framework.HostList
import Kelpflux.Impl.Operator.Fragmentation

/-!
# The node list of a job

`_parse_node_list` against host lists: it returns the hosts of a list of plain
names, and of one name with one group of numbers at its end, where no range is
padded. A list that goes on after its first group comes back as a single entry:
`parseNodeList_render`.
-/

namespace Kelpflux.Proof.Fragmentation

open Framework Framework.Python Framework.HostList Impl.Fragmentation

variable {rt : Runtime} {items : List Item}

/-- The first number of a range is written without zeros in front. -/
def Unpadded : Range → Prop
  | .one _ => True
  | .span lo _ => Nat.toDigits 10 (digitsNat lo.chars) = lo.chars

/-- The forms that `_parse_node_list` expands. -/
inductive Expands : List Item → Prop where
  | names {items : List Item} : (∀ item ∈ items, item.groups = []) → Expands items
  | group {start : Name} {g : Group} : g.tail = [] → (∀ r ∈ g.ranges, Unpadded r) →
    Expands [⟨start, [g]⟩]

/-- The list goes on after its first group. -/
inductive GoesOn : List Item → Prop where
  | intro {plain later : List Item} {item : Item} {g : Group} {gs : List Group} :
    (∀ item ∈ plain, item.groups = []) → item.groups = g :: gs →
    (g.tail ≠ [] ∨ gs ≠ [] ∨ later ≠ []) → GoesOn (plain ++ item :: later)

/-- `int` reads the numbers of a range. -/
def ReadsRange (rt : Runtime) : Range → Prop
  | .one _ => True
  | .span lo hi => rt.int (String.ofList lo.chars) = some ↑(digitsNat lo.chars) ∧
    rt.int (String.ofList hi.chars) = some ↑(digitsNat hi.chars)

/-- And those of a list. -/
def ReadsNumbers (rt : Runtime) (items : List Item) : Prop :=
  ∀ item ∈ items, ∀ g ∈ item.groups, ∀ r ∈ g.ranges, ReadsRange rt r

/-! ## Texts -/

theorem ne_eq_bne (c : Char) : (fun x => decide (x ≠ c)) = (· != c) := by
  funext x
  rw [Bool.eq_iff_iff, bne_iff_ne, decide_eq_true_eq]

theorem span_until {w : List Char} {c : Char} (hw : c ∉ w) (rest : List Char) :
    (w ++ c :: rest).span (· ≠ c) = (w, c :: rest) := by
  rw [ne_eq_bne]
  exact span_ne hw

theorem span_all {w : List Char} {c : Char} (hw : c ∉ w) : w.span (· ≠ c) = (w, []) := by
  rw [ne_eq_bne]
  exact span_none hw

/-- `strip` keeps a name. -/
theorem strip_name (n : Name) : strip (String.ofList n.chars) = String.ofList n.chars := by
  have hspace : ∀ c ∈ n.chars, ¬ isSpace c = true := fun c hc h =>
    n.not_sep c hc (by unfold isMark; rw [h, Bool.true_or])
  have hlast : n.chars = n.chars.dropLast ++ [n.chars.getLast n.ne_nil] :=
    (List.dropLast_concat_getLast n.ne_nil).symm
  obtain ⟨c, cs, hcs⟩ := List.exists_cons_of_ne_nil n.ne_nil
  have hdrop : n.chars.dropWhile isSpace = n.chars := by
    rw [hcs]
    exact List.dropWhile_cons_of_neg (hspace c (hcs ▸ List.mem_cons_self))
  unfold strip
  rw [String.toList_ofList, hdrop, hlast,
    List.rdropWhile_concat_neg _ _ _ (hspace _ (List.getLast_mem _))]

theorem render_ne (hne : items ≠ []) : render items ∉ ["", "(null)", "N/A"] := by
  have hparen : '(' ∉ chars items := not_mem_chars rfl (by decide) items
  have hslash : '/' ∉ chars items := not_mem_chars rfl (by decide) items
  obtain ⟨item, items, rfl⟩ := List.exists_cons_of_ne_nil hne
  intro h
  have hchars : ∀ s, render (item :: items) = s → chars (item :: items) = s.toList := by
    rintro s rfl
    exact String.toList_ofList.symm
  rcases List.mem_cons.mp h with h | h
  · have hnil := hchars _ h
    rw [chars_cons, Item.chars, List.append_assoc] at hnil
    exact item.start.ne_nil (List.append_eq_nil_iff.mp hnil).1
  · rcases List.mem_cons.mp h with h | h
    · rw [hchars _ h] at hparen
      exact hparen (by decide)
    · rw [hchars _ (List.mem_singleton.mp h)] at hslash
      exact hslash (by decide)

/-! ## Plain names -/

theorem denote_names (h : ∀ item ∈ items, item.groups = []) :
    denote items = items.map fun item => String.ofList item.start.chars := by
  have hitem : ∀ item ∈ items, item.denote = [item.start.chars] := by
    intro item hitem
    rw [Item.denote, h item hitem]
    rfl
  unfold denote
  rw [List.flatMap_congr hitem, ← List.map_eq_flatMap, List.map_map]
  rfl

theorem parseNodeList_names (h : ∀ item ∈ items, item.groups = []) :
    parseNodeList rt (render items) = denote items := by
  by_cases hne : items = []
  · subst hne
    rfl
  have hstrip : ((items.map fun item => item.start.chars).map String.ofList).map strip =
      items.map fun item => String.ofList item.start.chars := by
    rw [List.map_map, List.map_map]
    exact List.map_congr_left fun item _ => strip_name item.start
  unfold parseNodeList
  rw [if_neg (render_ne hne), render, String.toList_ofList, span_all (bracket_not_mem h)]
  dsimp only
  rw [splitComma, String.toList_ofList, pieces_plain h hne, hstrip, denote_names h,
    List.filter_eq_self]
  intro name hname
  obtain ⟨item, -, rfl⟩ := List.mem_map.mp hname
  have hname : String.ofList item.start.chars ≠ "" := fun hnil =>
    item.start.ne_nil (String.ofList_injective hnil)
  exact decide_eq_true hname

/-! ## One group -/

/-- Numbers from an unpadded one on have its width. -/
theorem padded_unpadded {lo : List Char} (h : Nat.toDigits 10 (digitsNat lo) = lo)
    (i : Nat) : padded lo.length (digitsNat lo + i) = Nat.toDigits 10 (digitsNat lo + i) := by
  have hlength : lo.length ≤ (Nat.toDigits 10 (digitsNat lo + i)).length := by
    have hlarge : digitsNat lo + i < 10 ^ (Nat.toDigits 10 (digitsNat lo + i)).length :=
      (Nat.length_toDigits_le_iff (by decide) Nat.length_toDigits_pos).mp le_rfl
    have hlo : (Nat.toDigits 10 (digitsNat lo)).length ≤
        (Nat.toDigits 10 (digitsNat lo + i)).length :=
      (Nat.length_toDigits_le_iff (by decide) Nat.length_toDigits_pos).mpr (by omega)
    rwa [h] at hlo
  unfold padded
  rw [List.leftpad, Nat.sub_eq_zero_of_le hlength, List.replicate_zero, List.nil_append]

/-- A range, as `int` reads its ends. -/
theorem rangeNodes_span {start part : String} {lo hi : List Char} {a b : Int}
    (hspan : part.toList.span (· ≠ '-') = (lo, '-' :: hi))
    (hlo : rt.int (String.ofList lo) = some a) (hhi : rt.int (String.ofList hi) = some b) :
    rangeNodes rt start part =
      (List.range (b + 1 - a).toNat).map fun i : Nat => start ++ toString (a + i) := by
  unfold rangeNodes
  rw [hspan]
  simp only [hlo, hhi]
  show ((List.range (b + 1 - a).toNat).flatMap fun i : Nat => [(i : Int)]).map
    (fun i => start ++ toString (a + i)) = _
  rw [← List.map_eq_flatMap, List.map_map]
  rfl

theorem rangeNodes_eq {r : Range} (hr : Unpadded r) (hread : ReadsRange rt r) (start : List Char) :
    rangeNodes rt (String.ofList start) (String.ofList r.chars) =
      r.denote.map fun n => String.ofList (start ++ n) := by
  have hminus : ∀ ds : Digits, '-' ∉ ds.chars := fun ds h => by
    cases ds.digits '-' h
  cases r with
  | one n =>
    unfold rangeNodes
    rw [String.toList_ofList, Range.chars, span_all (hminus n)]
    dsimp only
    rw [← String.ofList_append]
    rfl
  | span lo hi =>
    have hspan : (String.ofList (Range.span lo hi).chars).toList.span (· ≠ '-') =
        (lo.chars, '-' :: hi.chars) := by
      rw [String.toList_ofList]
      exact span_until (hminus lo) hi.chars
    rw [rangeNodes_span hspan hread.1 hread.2, Range.denote, List.map_map]
    have hcount : ((digitsNat hi.chars : Int) + 1 - digitsNat lo.chars).toNat =
        digitsNat hi.chars + 1 - digitsNat lo.chars := by
      omega
    rw [hcount]
    refine List.map_congr_left fun i _ => ?_
    rw [Function.comp_apply, padded_unpadded hr, String.ofList_append,
      ← Nat.toString_eq_ofList_toDigits, ← Nat.cast_add]
    rfl

theorem chars_group {start : Name} {g : Group} (htail : g.tail = []) :
    chars [⟨start, [g]⟩] = start.chars ++ '[' :: (g.inner ++ [']']) := by
  rw [chars, List.map_singleton, List.intercalate_singleton, Item.chars, List.flatMap_singleton,
    Group.chars, htail]

theorem denote_group {start : Name} {g : Group} (htail : g.tail = []) :
    denote [⟨start, [g]⟩] =
      (g.ranges.flatMap Range.denote).map fun n => String.ofList (start.chars ++ n) := by
  rw [denote, List.flatMap_singleton, Item.denote, List.foldl_cons, List.foldl_nil, Group.extend,
    List.flatMap_singleton, htail, List.map_map]
  refine List.map_congr_left fun n _ => ?_
  rw [Function.comp_apply, List.append_nil]

theorem parseNodeList_group {start : Name} {g : Group} (htail : g.tail = [])
    (hranges : ∀ r ∈ g.ranges, Unpadded r) (hread : ∀ r ∈ g.ranges, ReadsRange rt r) :
    parseNodeList rt (render [⟨start, [g]⟩]) = denote [⟨start, [g]⟩] := by
  have hstart : '[' ∉ start.chars := not_mem_of_mark start.not_mark rfl
  unfold parseNodeList
  rw [if_neg (render_ne (List.cons_ne_nil _ _)), render, String.toList_ofList, chars_group htail,
    span_until hstart]
  dsimp only
  rw [span_until g.bracket_not_mem]
  show (if start.chars = [] ∨ g.inner = [] ∨ [] ∉ [[], ['\n']] then _ else
    (splitComma (String.ofList g.inner)).flatMap (rangeNodes rt (String.ofList start.chars))) = _
  rw [if_neg, splitComma, String.toList_ofList, g.pieces_inner, denote_group htail,
    List.map_map, List.flatMap_map, List.map_flatMap]
  · exact List.flatMap_congr fun r hr => rangeNodes_eq (hranges r hr) (hread r hr) start.chars
  · rintro (h | h | h)
    · exact start.ne_nil h
    · exact g.inner_ne_nil h
    · exact h List.mem_cons_self

/-! ## The other lists -/

theorem parseNodeList_goesOn (h : GoesOn items) :
    parseNodeList rt (render items) = [render items] := by
  obtain ⟨hplain, hgroups, hmore⟩ := h
  rename_i plain later item g gs
  obtain ⟨before, rest, hbefore, hcut, hrest⟩ := chars_cut hplain hgroups later
  have hend : rest ∉ [[], ['\n']] := by
    intro h
    rcases List.mem_cons.mp h with h | h
    · obtain ⟨htail, hgs, hlater⟩ := hrest h
      rcases hmore with hne | hne | hne
      · exact hne htail
      · exact hne hgs
      · exact hne hlater
    · have hnewline : '\n' ∈ chars (plain ++ item :: later) := by
        rw [hcut, List.mem_singleton.mp h]
        simp
      exact not_mem_chars rfl (by decide) _ hnewline
  unfold parseNodeList
  rw [if_neg (render_ne (List.append_ne_nil_of_right_ne_nil _ (List.cons_ne_nil _ _)))]
  have htext : (render (plain ++ item :: later)).toList =
      before ++ '[' :: (g.inner ++ ']' :: rest) := by
    rw [render, String.toList_ofList, hcut]
  rw [htext, span_until hbefore]
  dsimp only
  rw [span_until g.bracket_not_mem]
  show (if before = [] ∨ g.inner = [] ∨ rest ∉ [[], ['\n']] then [render _] else _) = _
  rw [if_pos (.inr (.inr hend))]

/-- `_parse_node_list` returns the hosts of the lists that it expands, and a
list that goes on after its first group as a single entry. -/
theorem parseNodeList_render (rt : Runtime) (items : List Item) :
    (Expands items → ReadsNumbers rt items → parseNodeList rt (render items) = denote items) ∧
      (GoesOn items → parseNodeList rt (render items) = [render items]) := by
  refine ⟨fun hexpands hread => ?_, parseNodeList_goesOn⟩
  cases hexpands with
  | names h => exact parseNodeList_names h
  | group htail hranges =>
    exact parseNodeList_group htail hranges
      (hread _ List.mem_cons_self _ List.mem_cons_self)

/-- An interpreter whose `int` reads digits. -/
def digitsRuntime : Runtime where
  repr _ := ""
  int s := if s.toList.all Char.isDigit then (leadingDigits s.toList).map Nat.cast else none
  float _ := none
  loads _ := .error .jsonDecodeError

theorem int_digits (ds : Digits) :
    digitsRuntime.int (String.ofList ds.chars) = some ↑(digitsNat ds.chars) := by
  unfold digitsRuntime
  dsimp only
  rw [String.toList_ofList, if_pos (List.all_eq_true.mpr ds.digits), leadingDigits_digits]
  rfl

theorem readsNumbers_digits (items : List Item) : ReadsNumbers digitsRuntime items := by
  intro item _ g _ r _
  cases r with
  | one n => exact trivial
  | span lo hi => exact ⟨int_digits lo, int_digits hi⟩

/-- A letter, as a name. -/
def letter (c : Char) (h : isMark c = false) : Name :=
  ⟨[c], List.cons_ne_nil _ _, fun x hx => by
    rw [List.mem_singleton.mp hx, h]
    exact Bool.false_ne_true⟩

/-- `[0-1]` -/
def zeroOne : HostList.Group :=
  ⟨[.span ⟨['0'], List.cons_ne_nil _ _, List.all_eq_true.mp rfl⟩
    ⟨['1'], List.cons_ne_nil _ _, List.all_eq_true.mp rfl⟩], List.cons_ne_nil _ _, [], nofun⟩

/-- `a[0-1]` -/
def oneGroup : List Item := [⟨letter 'a' rfl, [zeroOne]⟩]

/-- `a[0-1],b[0-1]` -/
def twoGroups : List Item := oneGroup ++ [⟨letter 'b' rfl, [zeroOne]⟩]

theorem parseNodeList_render_groups :
    parseNodeList digitsRuntime (render oneGroup) = ["a0", "a1"] ∧
      parseNodeList digitsRuntime (render twoGroups) = ["a[0-1],b[0-1]"] := by
  have hone := (parseNodeList_render digitsRuntime oneGroup).1
    (.group rfl (List.forall_mem_singleton.mpr rfl)) (readsNumbers_digits _)
  have htwo := (parseNodeList_render digitsRuntime twoGroups).2
    (@GoesOn.intro [] _ _ _ _ nofun rfl (.inr (.inr (List.cons_ne_nil _ _))))
  exact ⟨hone, htwo⟩

theorem two_groups_kept : ReadsNumbers digitsRuntime twoGroups ∧
    render twoGroups = "a[0-1],b[0-1]" ∧ denote twoGroups = ["a0", "a1", "b0", "b1"] ∧
      parseNodeList digitsRuntime (render twoGroups) ≠ denote twoGroups :=
  ⟨readsNumbers_digits _, rfl, rfl, by decide⟩

end Kelpflux.Proof.Fragmentation
