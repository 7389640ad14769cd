import Mathlib.Algebra.BigOperators.Group.List.Basic
import Mathlib.Data.List.Range
import Mathlib.Tactic.Abel
import Mathlib.Tactic.Ring

/-!
# Binary trees in an array

Node `i` has the children `2 * i` and `2 * i + 1`, the root is node 1, and the
nodes from `capacity` on are leaves. Unless `capacity` is a power of two the
leaves are on two levels, so that their order from left to right
(`leavesOf`) is not that of the array; it has each of them once
(`leavesOf_perm`). In a tree of sums (`NodeSums`) a node is the sum of the
leaves below it (`sum_leavesOf`).
-/

namespace Kelpflux.Framework

/-- The leaves below a node, from left to right. -/
def leavesOf (capacity node : ℕ) : List ℕ :=
  if 0 < node ∧ node < capacity then
    leavesOf capacity (2 * node) ++ leavesOf capacity (2 * node + 1)
  else [node]
termination_by capacity - node

variable {capacity node : ℕ}

theorem leavesOf_leaf (h : capacity ≤ node) : leavesOf capacity node = [node] := by
  rw [leavesOf, if_neg (by omega)]

theorem leavesOf_inner (hpos : 0 < node) (h : node < capacity) :
    leavesOf capacity node = leavesOf capacity (2 * node) ++ leavesOf capacity (2 * node + 1) := by
  rw [leavesOf, if_pos ⟨hpos, h⟩]

/-- The leaves below the root are those below the nodes from `n` to `2 * n - 1`. -/
theorem leavesOf_root_perm {n : ℕ} (hpos : 1 ≤ n) (hle : n ≤ capacity) :
    (leavesOf capacity 1).Perm ((List.range' n n).flatMap (leavesOf capacity)) := by
  induction n, hpos using Nat.le_induction with
  | base => simp
  | succ n hpos ih =>
    have htwo : List.range' n (n + 2) = n :: List.range' (n + 1) (n + 1) := List.range'_succ
    have hlast : List.range' n (n + 2) = List.range' n n ++ [2 * n, 2 * n + 1] := by
      rw [← List.range'_append_1, Nat.two_mul]
      rfl
    have hsplit : ((List.range' n n).flatMap (leavesOf capacity) ++ leavesOf capacity n).Perm
        (leavesOf capacity n ++ (List.range' (n + 1) (n + 1)).flatMap (leavesOf capacity)) := by
      rw [← List.flatMap_cons, ← htwo, hlast, List.flatMap_append,
        leavesOf_inner (by omega) (by omega : n < capacity)]
      simp
    exact (ih (by omega)).trans ((List.perm_append_left_iff _).mp (List.perm_append_comm.trans hsplit))

/-- Every leaf is below the root once. -/
theorem leavesOf_perm (h : 1 ≤ capacity) :
    (leavesOf capacity 1).Perm (List.range' capacity capacity) := by
  refine (leavesOf_root_perm h (Nat.le_refl _)).trans (List.Perm.of_eq ?_)
  have hleaf : ∀ i ∈ List.range' capacity capacity, leavesOf capacity i = [i] := fun i hi =>
    leavesOf_leaf (List.mem_range'_1.mp hi).1
  rw [List.flatMap_congr hleaf, List.flatMap_singleton']

variable {K : Type*} [AddCommMonoid K] {tree : ℕ → K}

/-- Every inner node is the sum of its children. -/
def NodeSums (capacity : ℕ) (tree : ℕ → K) : Prop :=
  ∀ i, 1 ≤ i → i < capacity → tree i = tree (2 * i) + tree (2 * i + 1)

theorem sum_leavesOf (h : NodeSums capacity tree) (hpos : 1 ≤ node) :
    ((leavesOf capacity node).map tree).sum = tree node := by
  induction node using leavesOf.induct capacity with
  | case1 node hinner hleft hright =>
    rw [leavesOf_inner hinner.1 hinner.2, List.map_append, List.sum_append, hleft (by omega),
      hright (by omega), h node hpos hinner.2]
  | case2 node hleaf =>
    rw [leavesOf_leaf (by omega), List.map_singleton, List.sum_singleton]

/-- The root is the sum of the leaves. -/
theorem root_eq_sum (h : NodeSums capacity tree) (hcap : 1 ≤ capacity) :
    tree 1 = ((List.range' capacity capacity).map tree).sum := by
  rw [← sum_leavesOf h (Nat.le_refl 1)]
  exact ((leavesOf_perm hcap).map tree).sum_eq

end Kelpflux.Framework
