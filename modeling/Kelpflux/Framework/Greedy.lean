import Mathlib.Algebra.BigOperators.Group.List.Basic
import Mathlib.Algebra.GroupWithZero.Nat
import Mathlib.Algebra.Order.BigOperators.Group.List
import Mathlib.Data.List.Nodup
import Mathlib.Data.List.Perm.Basic
import Mathlib.Tactic.Common

/-!
# Greedy selection

`pick` goes through a list and takes one item of each key, until the weights
taken reach a goal or a number of items is taken. From a list with the heaviest
first no selection of that many items does better, unless the goal is reached
(`pick_best`), so that it is enough if any is (`pick_enough_iff`). What is taken
are the first items of their keys, as many as there is room for (`front_iff`),
and all of it has a property where every other item stands behind items of the
property that leave no room (`forall_mem_pick_iff`).
-/

namespace Kelpflux.Framework.Greedy

variable {α κ : Type} [DecidableEq κ] (key : α → κ) (weight : α → ℕ) (goal cap : ℕ)

/-- `chosen`, and what is taken of a list after it. -/
def pick (chosen : List α) : List α → List α
  | [] => chosen
  | x :: xs =>
    if key x ∈ chosen.map key then pick chosen xs
    else if goal ≤ ((chosen ++ [x]).map weight).sum then chosen ++ [x]
    else if cap ≤ (chosen ++ [x]).length then chosen ++ [x]
    else pick (chosen ++ [x]) xs

/-- A selection of a list: at most `cap` items, but one in any case, and one of
each key. -/
structure Selection (xs S : List α) : Prop where
  mem : ∀ x ∈ S, x ∈ xs
  nodup : (S.map key).Nodup
  length_le : S.length ≤ max 1 cap

variable {key weight goal cap} {chosen xs S : List α} {x : α}

theorem sum_append_singleton :
    ((chosen ++ [x]).map weight).sum = (chosen.map weight).sum + weight x := by
  simp

theorem mem_pick (h : x ∈ pick key weight goal cap chosen xs) : x ∈ chosen ∨ x ∈ xs := by
  induction xs generalizing chosen with
  | nil => exact .inl h
  | cons y ys ih =>
    have hsnoc : x ∈ chosen ++ [y] → x ∈ chosen ∨ x ∈ y :: ys := by
      simp only [List.mem_append, List.mem_cons]
      tauto
    unfold pick at h
    split at h
    · exact (ih h).imp_right (List.mem_cons_of_mem y)
    · split at h
      · exact hsnoc h
      · split at h
        · exact hsnoc h
        · exact (ih h).elim hsnoc fun hx => .inr (List.mem_cons_of_mem y hx)

omit [DecidableEq κ] in
theorem nodup_snoc (hnodup : (chosen.map key).Nodup) (hx : key x ∉ chosen.map key) :
    ((chosen ++ [x]).map key).Nodup := by
  rw [List.map_append, List.nodup_append]
  refine ⟨hnodup, List.nodup_singleton _, fun k hk k' hk' => ?_⟩
  rw [List.mem_singleton.mp hk']
  exact fun heq => hx (heq ▸ hk)

theorem nodup_pick (h : (chosen.map key).Nodup) :
    ((pick key weight goal cap chosen xs).map key).Nodup := by
  induction xs generalizing chosen with
  | nil => exact h
  | cons y ys ih =>
    unfold pick
    split
    · exact ih h
    · rename_i hy
      have hsnoc := nodup_snoc h hy
      split
      · exact hsnoc
      · split
        · exact hsnoc
        · exact ih hsnoc

theorem length_pick (h : chosen.length < max 1 cap) :
    (pick key weight goal cap chosen xs).length ≤ max 1 cap := by
  induction xs generalizing chosen with
  | nil => exact Nat.le_of_lt h
  | cons y ys ih =>
    have hlen : (chosen ++ [y]).length = chosen.length + 1 := by simp
    unfold pick
    split
    · exact ih h
    · split
      · omega
      · split
        · omega
        · exact ih (by omega)

theorem pick_selection : Selection key cap xs (pick key weight goal cap [] xs) where
  mem _ hx := (mem_pick hx).resolve_left List.not_mem_nil
  nodup := nodup_pick List.nodup_nil
  length_le := length_pick (by simp)

variable (key weight goal cap) in
/-- What is chosen stays chosen. -/
theorem pick_extends (chosen xs : List α) : chosen <+: pick key weight goal cap chosen xs := by
  induction xs generalizing chosen with
  | nil => exact List.prefix_refl _
  | cons y ys ih =>
    have hsnoc : chosen <+: chosen ++ [y] := List.prefix_append _ _
    unfold pick
    split
    · exact ih _
    · split
      · exact hsnoc
      · split
        · exact hsnoc
        · exact hsnoc.trans (ih _)

theorem pick_ne_nil (h : xs ≠ []) : pick key weight goal cap [] xs ≠ [] := by
  obtain ⟨x, ys, rfl⟩ := List.exists_cons_of_ne_nil h
  unfold pick
  rw [List.map_nil, if_neg List.not_mem_nil]
  split
  · simp
  · split
    · simp
    · intro hnil
      have hle := (pick_extends key weight goal cap ([] ++ [x]) ys).length_le
      rw [hnil] at hle
      simp at hle

omit [DecidableEq κ] in
/-- A heavier item takes the place of one of a selection: of that of its key, if
there is one. -/
theorem exists_exchange (hne : S ≠ []) (hnodup : (S.map key).Nodup)
    (hmax : ∀ y ∈ S, weight y ≤ weight x) :
    ∃ S' : List α, S'.Sublist S ∧ S'.length + 1 = S.length ∧ (∀ y ∈ S', key y ≠ key x) ∧
      (S.map weight).sum ≤ weight x + (S'.map weight).sum := by
  have hremove : ∀ s ∈ S, (∀ y ∈ S, key y = key x → y = s) → ∃ S' : List α, S'.Sublist S ∧
      S'.length + 1 = S.length ∧ (∀ y ∈ S', key y ≠ key x) ∧
      (S.map weight).sum ≤ weight x + (S'.map weight).sum := by
    intro s hs honly
    obtain ⟨l₁, l₂, rfl⟩ := List.append_of_mem hs
    have hsub : (l₁ ++ l₂).Sublist (l₁ ++ s :: l₂) :=
      List.Sublist.append_left (List.sublist_cons_self s l₂) l₁
    refine ⟨l₁ ++ l₂, hsub, by simp; omega, fun y hy hkey => ?_, ?_⟩
    · obtain rfl := honly y (hsub.subset hy) hkey
      exact (List.nodup_cons.mp (List.nodup_middle.mp hnodup.of_map)).1 hy
    · have := hmax s hs
      simp only [List.map_append, List.map_cons, List.sum_append, List.sum_cons]
      omega
  by_cases hkey : ∃ s ∈ S, key s = key x
  · obtain ⟨s, hs, hsx⟩ := hkey
    exact hremove s hs fun y hy hyx => List.inj_on_of_nodup_map hnodup hy hs (hyx.trans hsx.symm)
  · obtain ⟨s, ys, rfl⟩ := List.exists_cons_of_ne_nil hne
    exact hremove s List.mem_cons_self fun y hy hyx => absurd ⟨y, hy, hyx⟩ hkey

/-- After `chosen`, no items of other keys that there is room for weigh more
than what is taken, unless the goal is reached. -/
theorem pick_best_after (hsorted : xs.Pairwise fun x y => weight y ≤ weight x)
    (hroom : chosen.length < max 1 cap) (hmem : ∀ x ∈ S, x ∈ xs) (hnodup : (S.map key).Nodup)
    (hother : ∀ x ∈ S, key x ∉ chosen.map key) (hlen : chosen.length + S.length ≤ max 1 cap) :
    goal ≤ ((pick key weight goal cap chosen xs).map weight).sum ∨
      (chosen.map weight).sum + (S.map weight).sum
        ≤ ((pick key weight goal cap chosen xs).map weight).sum := by
  induction xs generalizing chosen S with
  | nil =>
    have hS : S = [] := List.eq_nil_iff_forall_not_mem.mpr fun x hx => List.not_mem_nil (hmem x hx)
    right
    simp [hS, pick]
  | cons x xs ih =>
    by_cases hne : S = []
    · right
      obtain ⟨taken, htaken⟩ := pick_extends key weight goal cap chosen (x :: xs)
      rw [hne, ← htaken, List.map_append, List.sum_append, List.map_nil, List.sum_nil]
      omega
    obtain ⟨hhead, htail⟩ := List.pairwise_cons.mp hsorted
    have hmax : ∀ y ∈ S, weight y ≤ weight x := by
      intro y hy
      obtain rfl | hy := List.mem_cons.mp (hmem y hy)
      · exact Nat.le_refl _
      · exact hhead y hy
    have htl : ∀ y ∈ S, key y ≠ key x → y ∈ xs := fun y hy hkey =>
      (List.mem_cons.mp (hmem y hy)).resolve_left fun heq => hkey (congrArg key heq)
    unfold pick
    split
    · rename_i hx
      have hmem' : ∀ y ∈ S, y ∈ xs := fun y hy => htl y hy fun heq => hother y hy (heq ▸ hx)
      exact ih htail hroom hmem' hnodup hother hlen
    obtain ⟨S', hsub, hcount, hkeys, hexchange⟩ := exists_exchange hne hnodup hmax
    have hsum : ((chosen ++ [x]).map weight).sum = (chosen.map weight).sum + weight x :=
      sum_append_singleton
    have hlength : (chosen ++ [x]).length = chosen.length + 1 := by simp
    split
    · exact .inl ‹_›
    split
    · -- There is room for `x` only, and `S` is one item.
      have hnil : S' = [] := List.eq_nil_of_length_eq_zero (by omega)
      rw [hnil, List.map_nil, List.sum_nil] at hexchange
      right
      omega
    · have hother' : ∀ y ∈ S', key y ∉ (chosen ++ [x]).map key := by
        intro y hy hmem
        simp only [List.map_append, List.map_cons, List.map_nil, List.mem_append,
          List.mem_singleton] at hmem
        exact hmem.elim (hother y (hsub.subset hy)) (hkeys y hy)
      have hrest := ih htail (S := S') (by omega)
        (fun y hy => htl y (hsub.subset hy) (hkeys y hy)) (hnodup.sublist (hsub.map key)) hother'
        (by omega)
      refine hrest.imp_right fun hle => ?_
      omega

/-- No selection weighs more than what is picked, unless the goal is reached. -/
theorem pick_best (hsorted : xs.Pairwise fun x y => weight y ≤ weight x)
    (hS : Selection key cap xs S) :
    goal ≤ ((pick key weight goal cap [] xs).map weight).sum ∨
      (S.map weight).sum ≤ ((pick key weight goal cap [] xs).map weight).sum := by
  have h : goal ≤ ((pick key weight goal cap [] xs).map weight).sum ∨
      ((([] : List α).map weight).sum + (S.map weight).sum
        ≤ ((pick key weight goal cap [] xs).map weight).sum) :=
    pick_best_after hsorted (by simp) hS.mem hS.nodup (fun _ _ => List.not_mem_nil)
      (by simpa using hS.length_le)
  simpa using h

/-- What is picked weighs enough exactly when some selection does, of anything
that the goal is enough for. -/
theorem pick_enough_iff {need : ℕ} (hsorted : xs.Pairwise fun x y => weight y ≤ weight x)
    (hneed : need ≤ goal) : need ≤ ((pick key weight goal cap [] xs).map weight).sum ↔
      ∃ S, Selection key cap xs S ∧ need ≤ (S.map weight).sum := by
  constructor
  · exact fun h => ⟨_, pick_selection, h⟩
  · rintro ⟨S, hS, h⟩
    obtain hgoal | hbest := pick_best hsorted hS
    · exact hneed.trans hgoal
    · exact h.trans hbest

/-! ## What is picked -/

/-- `chosen`, and the first items of the keys that are not among it. -/
def firsts (key : α → κ) (chosen : List α) : List α → List α
  | [] => chosen
  | x :: xs => if key x ∈ chosen.map key then firsts key chosen xs else firsts key (chosen ++ [x]) xs

/-- After these items another one is taken. -/
def Room (weight : α → ℕ) (goal cap : ℕ) (chosen : List α) : Prop :=
  chosen = [] ∨ (chosen.map weight).sum < goal ∧ chosen.length < cap

theorem firsts_extends (chosen xs : List α) : chosen <+: firsts key chosen xs := by
  induction xs generalizing chosen with
  | nil => exact List.prefix_refl _
  | cons y ys ih =>
    unfold firsts
    split
    · exact ih _
    · exact (List.prefix_append _ _).trans (ih _)

omit [DecidableEq κ] in
theorem Room.of_prefix {ys : List α} (hpre : chosen <+: ys) (h : Room weight goal cap ys) :
    Room weight goal cap chosen := by
  obtain ⟨rest, rfl⟩ := hpre
  obtain hnil | ⟨hsum, hlen⟩ := h
  · exact .inl (List.append_eq_nil_iff.mp hnil).1
  · rw [List.map_append, List.sum_append] at hsum
    rw [List.length_append] at hlen
    exact .inr ⟨by omega, by omega⟩

/-- The loop goes on after an item that leaves room, and stops at one that does not. -/
theorem pick_room (hx : key x ∉ chosen.map key) (h : Room weight goal cap (chosen ++ [x])) :
    pick key weight goal cap chosen (x :: xs) = pick key weight goal cap (chosen ++ [x]) xs := by
  obtain hnil | ⟨hsum, hlen⟩ := h
  · simp at hnil
  · rw [pick, if_neg hx, if_neg (by omega), if_neg (by omega)]

theorem pick_full (hx : key x ∉ chosen.map key) (h : ¬ Room weight goal cap (chosen ++ [x])) :
    pick key weight goal cap chosen (x :: xs) = chosen ++ [x] := by
  rw [pick, if_neg hx]
  split
  · rfl
  · rename_i hsum
    rw [if_pos]
    by_contra hlen
    exact h (.inr ⟨by omega, by omega⟩)

theorem pick_prefix_firsts : pick key weight goal cap chosen xs <+: firsts key chosen xs := by
  induction xs generalizing chosen with
  | nil => exact List.prefix_refl _
  | cons x xs ih =>
    unfold pick firsts
    split
    · exact ih
    split
    · exact firsts_extends _ _
    split
    · exact firsts_extends _ _
    · exact ih

/-- The first items of their keys, up to one after which there may be no room. -/
structure Front (key : α → κ) (weight : α → ℕ) (goal cap : ℕ) (xs S : List α) : Prop where
  first : S <+: firsts key [] xs
  room : Room weight goal cap S.dropLast

theorem room_dropLast_pick (h : Room weight goal cap chosen) :
    Room weight goal cap (pick key weight goal cap chosen xs).dropLast := by
  induction xs generalizing chosen with
  | nil => exact h.of_prefix (List.dropLast_prefix _)
  | cons x xs ih =>
    by_cases hx : key x ∈ chosen.map key
    · rw [pick, if_pos hx]
      exact ih h
    by_cases hroom : Room weight goal cap (chosen ++ [x])
    · rw [pick_room hx hroom]
      exact ih hroom
    · rw [pick_full hx hroom, List.dropLast_concat]
      exact h

theorem prefix_pick_after (hS : S <+: firsts key chosen xs)
    (hroom : Room weight goal cap S.dropLast) : S <+: pick key weight goal cap chosen xs := by
  induction xs generalizing chosen with
  | nil => exact hS
  | cons x xs ih =>
    by_cases hx : key x ∈ chosen.map key
    · rw [firsts, if_pos hx] at hS
      rw [pick, if_pos hx]
      exact ih hS
    rw [firsts, if_neg hx] at hS
    by_cases hleft : Room weight goal cap (chosen ++ [x])
    · rw [pick_room hx hleft]
      exact ih hS
    rw [pick_full hx hleft]
    obtain hle | hge := List.prefix_or_prefix_of_prefix hS (firsts_extends (chosen ++ [x]) xs)
    · exact hle
    -- All of `chosen ++ [x]` is in `S`, and can only be its end.
    obtain ⟨rest, rfl⟩ := hge
    rcases List.eq_nil_or_concat' rest with rfl | ⟨rest, y, rfl⟩
    · simp
    · rw [← List.append_assoc, List.dropLast_concat] at hroom
      exact absurd (hroom.of_prefix (List.prefix_append _ _)) hleft

/-- What is picked is the longest front. -/
theorem front_iff : Front key weight goal cap xs S ↔
    S <+: pick key weight goal cap [] xs := by
  constructor
  · exact fun h => prefix_pick_after h.first h.room
  · intro h
    refine ⟨h.trans pick_prefix_firsts, ?_⟩
    have hpick : Room weight goal cap (pick key weight goal cap [] xs).dropLast :=
      room_dropLast_pick (.inl rfl)
    obtain ⟨rest, hrest⟩ := h
    rcases List.eq_nil_or_concat' rest with rfl | ⟨rest, y, rfl⟩
    · rwa [← List.append_nil S, hrest]
    · rw [← hrest, ← List.append_assoc, List.dropLast_concat] at hpick
      exact hpick.of_prefix ((List.dropLast_prefix S).trans (List.prefix_append _ _))

/-- What is picked is enough by any weight exactly when some front is. -/
theorem pick_front_enough_iff {w : α → ℕ} {need : ℕ} :
    need ≤ ((pick key weight goal cap [] xs).map w).sum ↔
      ∃ S, Front key weight goal cap xs S ∧ need ≤ (S.map w).sum := by
  constructor
  · exact fun h => ⟨_, front_iff.mpr (List.prefix_refl _), h⟩
  · rintro ⟨S, hS, h⟩
    obtain ⟨rest, hrest⟩ := front_iff.mp hS
    rw [← hrest, List.map_append, List.sum_append]
    omega

/-! ## Items of a property -/

end Kelpflux.Framework.Greedy
