import Kelpflux.Framework.ImplicitTree
import Kelpflux.Impl.Scheduler.Prioritized
import Mathlib.Algebra.Order.Group.Defs

/-!
# Sampling by priority

The tree of the prioritized buffer is one of sums after any updates
(`updateAll_sums`), with the leaf of every slot as it was last set
(`update_priority`). A descent for a value keeps to the subtree whose leaves'
interval has it (`descend_spec`), so that it ends at the leaf that has:
`sampleOne_interval`.
-/

namespace Kelpflux.Proof.Scheduler

open Framework Impl.Scheduler.Replay

/-! ## An update -/

section Leaves

variable {K : Type} {capacity idx : ℕ} {tree : ℕ → K} {t : SumTree K} {dataIdx : ℕ} {p : K}

@[simp] theorem new_capacity [Zero K] : (SumTree.new capacity : SumTree K).capacity = capacity := rfl

@[simp] theorem new_priority [Zero K] (j : ℕ) :
    (SumTree.new capacity : SumTree K).priority j = 0 := rfl

variable [Add K]

/-- The climb sets no leaf. -/
theorem climb_leaf (capacity : ℕ) (hidx : idx < 2 * capacity) {i : ℕ} (hi : capacity ≤ i) :
    SumTree.climb tree idx i = tree i := by
  induction tree, idx using SumTree.climb.induct with
  | case1 tree idx h parent ih =>
    have hparent : parent = idx / 2 := Nat.shiftRight_one idx
    rw [SumTree.climb, if_pos h]
    refine (ih (by omega)).trans (Function.update_of_ne ?_ _ _)
    omega
  | case2 tree idx h => rw [SumTree.climb, if_neg h]

@[simp] theorem update_capacity : (t.update dataIdx p).capacity = t.capacity := rfl

theorem update_priority (hidx : dataIdx < t.capacity) (j : ℕ) :
    (t.update dataIdx p).priority j = if j = dataIdx then p else t.priority j := by
  unfold SumTree.priority
  refine (climb_leaf t.capacity (by omega) (by simp)).trans ?_
  by_cases h : j = dataIdx
  · rw [if_pos h, h, update_capacity, Function.update_self]
  · rw [if_neg h, update_capacity, Function.update_of_ne (by omega)]

theorem foldl_update_capacity (t : SumTree K) (updates : List (ℕ × K)) :
    (updates.foldl (fun t u => t.update u.1 u.2) t).capacity = t.capacity := by
  induction updates generalizing t with
  | nil => rfl
  | cons u updates ih => exact ih (t.update u.1 u.2)

theorem foldl_update_priority {updates : List (ℕ × K)} {t : SumTree K}
    (hidx : ∀ u ∈ updates, u.1 < t.capacity) (j : ℕ) :
    (updates.foldl (fun t u => t.update u.1 u.2) t).priority j =
      updates.foldl (fun p u => if j = u.1 then u.2 else p) (t.priority j) := by
  induction updates generalizing t with
  | nil => rfl
  | cons u updates ih =>
    rw [List.foldl_cons, List.foldl_cons, ← update_priority (hidx u List.mem_cons_self)]
    exact ih (t := t.update u.1 u.2) fun v hv => hidx v (List.mem_cons_of_mem _ hv)

end Leaves

section Sums

variable {K : Type} [AddCommMonoid K] {capacity idx : ℕ} {tree : ℕ → K} {t : SumTree K}
  {dataIdx : ℕ} {p : K}

/-- The climb restores the one sum that a change of its first node breaks. -/
theorem climb_sums (h : ∀ i, 1 ≤ i → i < capacity → i ≠ idx / 2 →
      tree i = tree (2 * i) + tree (2 * i + 1)) :
    NodeSums capacity (SumTree.climb tree idx) := by
  induction tree, idx using SumTree.climb.induct with
  | case1 tree idx hidx parent ih =>
    have hparent : parent = idx / 2 := Nat.shiftRight_one idx
    rw [SumTree.climb, if_pos hidx]
    refine ih fun i hpos hcap hne => ?_
    by_cases hi : i = parent
    · rw [hi, Function.update_self, Function.update_of_ne (by omega), Function.update_of_ne (by omega)]
    · rw [Function.update_of_ne hi, Function.update_of_ne (by omega), Function.update_of_ne (by omega)]
      exact h i hpos hcap (hparent ▸ hi)
  | case2 tree idx hidx =>
    rw [SumTree.climb, if_neg hidx]
    exact fun i hpos hcap => h i hpos hcap (by omega)

theorem update_sums (h : NodeSums t.capacity t.tree) :
    NodeSums t.capacity (t.update dataIdx p).tree := by
  refine climb_sums fun i hpos hcap hne => ?_
  rw [Function.update_of_ne (by omega), Function.update_of_ne (by omega),
    Function.update_of_ne (by omega)]
  exact h i hpos hcap

/-- The tree after updates, from one of no priorities. -/
def updateAll (capacity : ℕ) (updates : List (ℕ × K)) : SumTree K :=
  updates.foldl (fun t u => t.update u.1 u.2) (.new capacity)

theorem foldl_update_sums {t : SumTree K} (h : NodeSums t.capacity t.tree) (updates : List (ℕ × K)) :
    NodeSums t.capacity (updates.foldl (fun t u => t.update u.1 u.2) t).tree := by
  induction updates generalizing t with
  | nil => exact h
  | cons u updates ih => exact ih (t := t.update u.1 u.2) (update_sums h)

theorem updateAll_sums (updates : List (ℕ × K)) :
    (updateAll capacity updates).capacity = capacity ∧
      NodeSums capacity (updateAll capacity updates).tree :=
  ⟨foldl_update_capacity (.new capacity) updates,
    foldl_update_sums (t := .new capacity) (fun _ _ _ => (add_zero (0 : K)).symm) updates⟩

end Sums

/-! ## The order of the slots -/

/-- The slots in the order of their leaves, from left to right. -/
def slotOrder (capacity : ℕ) : List ℕ := (leavesOf capacity 1).map (· - capacity)

theorem slotOrder_perm {capacity : ℕ} (h : 1 ≤ capacity) :
    (slotOrder capacity).Perm (List.range capacity) := by
  refine ((leavesOf_perm h).map (· - capacity)).trans (List.Perm.of_eq ?_)
  rw [List.map_sub_range', Nat.sub_self, ← List.range_eq_range']
  exact Nat.le_refl capacity

/-- The slots' priorities are what the leaves have. -/
theorem map_priority {K : Type} {t : SumTree K} {capacity : ℕ} (hcapacity : t.capacity = capacity)
    {leaves : List ℕ}
    (h : ∀ leaf ∈ leaves, capacity ≤ leaf) :
    (leaves.map (· - capacity)).map t.priority = leaves.map t.tree := by
  rw [List.map_map]
  refine List.map_congr_left fun leaf hleaf => ?_
  show t.tree (leaf - capacity + t.capacity) = t.tree leaf
  rw [hcapacity, Nat.sub_add_cancel (h leaf hleaf)]

theorem capacity_le_of_mem_leavesOf {capacity : ℕ} (h : 1 ≤ capacity) :
    ∀ leaf ∈ leavesOf capacity 1, capacity ≤ leaf := fun _ hleaf =>
  (List.mem_range'_1.mp ((leavesOf_perm h).mem_iff.mp hleaf)).1

/-! ## A descent -/

section Descent

variable {K : Type} [AddCommGroup K] [LinearOrder K] [IsOrderedAddMonoid K] {t : SumTree K}

/-- A value that is in the interval of a node's leaves is in that of one of them,
where the descent ends. -/
theorem descend_spec (h : NodeSums t.capacity t.tree) {fuel idx : ℕ} {val : K} (hidx : 1 ≤ idx)
    (hfuel : 1 ≤ fuel) (hcap : t.capacity < fuel + idx) (hpos : 0 < val) (hval : val ≤ t.tree idx) :
    ∃ before leaf after, leavesOf t.capacity idx = before ++ leaf :: after ∧
      t.descend fuel idx val = some (leaf - t.capacity) ∧
      (before.map t.tree).sum < val ∧ val ≤ (before.map t.tree).sum + t.tree leaf := by
  induction fuel generalizing idx val with
  | zero => exact absurd hfuel (by omega)
  | succ fuel ih =>
    rw [SumTree.descend]
    by_cases hinner : idx < t.capacity
    · have hsum := h idx hidx hinner
      rw [if_pos hinner, leavesOf_inner hidx hinner]
      dsimp only
      by_cases hleft : val ≤ t.tree (2 * idx)
      · obtain ⟨before, leaf, after, hleaves, hend, hlow, hhigh⟩ :=
          @ih (2 * idx) val (by omega) (by omega) (by omega) hpos hleft
        refine ⟨before, leaf, after ++ leavesOf t.capacity (2 * idx + 1), ?_, ?_, hlow, hhigh⟩
        · rw [hleaves, List.append_assoc, List.cons_append]
        · rw [if_pos hleft, hend]
      · -- the leaves on the left all come before, and make up what is taken off
        have hright : val - t.tree (2 * idx) ≤ t.tree (2 * idx + 1) :=
          sub_le_iff_le_add'.mpr (hsum ▸ hval)
        obtain ⟨before, leaf, after, hleaves, hend, hlow, hhigh⟩ :=
          @ih (2 * idx + 1) (val - t.tree (2 * idx)) (by omega) (by omega) (by omega)
            (sub_pos.mpr (lt_of_not_ge hleft)) hright
        have hbefore : (((leavesOf t.capacity (2 * idx)) ++ before).map t.tree).sum =
            t.tree (2 * idx) + (before.map t.tree).sum := by
          rw [List.map_append, List.sum_append, sum_leavesOf h (by omega)]
        refine ⟨leavesOf t.capacity (2 * idx) ++ before, leaf, after, ?_, ?_, ?_, ?_⟩
        · rw [hleaves, List.append_assoc]
        · rw [if_neg hleft, hend]
        · rw [hbefore]
          exact lt_sub_iff_add_lt'.mp hlow
        · rw [hbefore, add_assoc]
          exact sub_le_iff_le_add'.mp hhigh
    · rw [if_neg hinner, leavesOf_leaf (by omega)]
      exact ⟨[], idx, [], rfl, rfl, hpos, by simpa using hval⟩

/-- After any updates the root is the sum of the leaves, and a value up to that
is sampled at the one leaf whose interval has it. -/
theorem sampleOne_interval {capacity : ℕ} (hcap : 1 ≤ capacity) (updates : List (ℕ × K)) :
    (slotOrder capacity).Perm (List.range capacity) ∧
      let t := updateAll capacity updates
      t.total = ((List.range capacity).map t.priority).sum ∧
        ∀ val, 0 < val → val ≤ t.total →
          ∃ before slot after, slotOrder capacity = before ++ slot :: after ∧
            t.sampleOne val = some slot ∧ 0 < t.priority slot ∧
            (before.map t.priority).sum < val ∧
            val ≤ (before.map t.priority).sum + t.priority slot := by
  refine ⟨slotOrder_perm hcap, ?_⟩
  intro t
  obtain ⟨hcapacity, hsums⟩ : t.capacity = capacity ∧ NodeSums capacity t.tree :=
    updateAll_sums updates
  refine ⟨?_, fun val hpos hval => ?_⟩
  · have hleaf : ∀ j, t.tree (capacity + j) = t.priority j := by
      intro j
      rw [SumTree.priority, hcapacity, Nat.add_comm]
    rw [SumTree.total, root_eq_sum hsums hcap, List.range'_eq_map_range, List.map_map]
    exact congrArg List.sum (List.map_congr_left fun j _ => hleaf j)
  · obtain ⟨before, leaf, after, hleaves, hend, hlow, hhigh⟩ :=
      descend_spec (hcapacity.symm ▸ hsums) (Nat.le_refl 1) (hcapacity.symm ▸ hcap) (by omega)
        hpos hval
    rw [hcapacity] at hleaves hend
    have hge := hleaves ▸ capacity_le_of_mem_leavesOf hcap
    have hbefore := map_priority hcapacity fun l hl => hge l (List.mem_append_left _ hl)
    have hslot : t.priority (leaf - capacity) = t.tree leaf := by
      show t.tree (leaf - capacity + t.capacity) = t.tree leaf
      rw [hcapacity, Nat.sub_add_cancel (hge leaf (by simp))]
    refine ⟨before.map (· - capacity), leaf - capacity, after.map (· - capacity), ?_, ?_, ?_, ?_, ?_⟩
    · rw [slotOrder, hleaves, List.map_append, List.map_cons]
    · rw [SumTree.sampleOne, hcapacity, ← hend]
    · rw [hslot]
      exact pos_of_lt_add_right (hlow.trans_le hhigh)
    · rwa [hbefore]
    · rwa [hbefore, hslot]

end Descent

/-- In a tree of three slots the second and the third come before the first. -/
def threeUpdates : List (ℕ × ℤ) := [(0, 2), (1, 7), (2, 5), (1, 3)]

theorem priorities_three :
    (List.range 3).map (updateAll 3 threeUpdates).priority = [2, 3, 5] := by
  have hidx : ∀ u ∈ threeUpdates, u.1 < (SumTree.new 3 : SumTree ℤ).capacity := by decide
  exact List.map_congr_left fun j _ => foldl_update_priority hidx j

theorem sampleOne_interval_three :
    let t := updateAll 3 threeUpdates
    1 ≤ 3 ∧ t.total = ((List.range 3).map t.priority).sum ∧
      (slotOrder 3).Perm (List.range 3) ∧ 0 < (4 : ℤ) ∧ 4 ≤ t.total ∧
        ∃ before slot after, slotOrder 3 = before ++ slot :: after ∧
          t.sampleOne 4 = some slot ∧ 0 < t.priority slot ∧
          (before.map t.priority).sum < 4 ∧ 4 ≤ (before.map t.priority).sum + t.priority slot := by
  intro t
  obtain ⟨horder, htotal, hsample⟩ := sampleOne_interval (by decide : 1 ≤ 3) threeUpdates
  have hval : 4 ≤ t.total := by
    rw [htotal, priorities_three]
    decide
  exact ⟨by decide, htotal, horder, by decide, hval, hsample 4 (by decide) hval⟩

end Kelpflux.Proof.Scheduler
