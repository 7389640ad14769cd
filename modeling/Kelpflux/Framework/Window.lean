import Mathlib.Algebra.Order.Group.Defs
import Mathlib.Data.List.Basic
import Mathlib.Tactic.Abel

/-!
# Rate limits

Of the times at which something happens, in order: how many there are in a
window that slides over them (`Capped`). To keep a cap on every window it is
enough to look at the window that ends with each new time (`Capped.concat`).
-/

namespace Kelpflux.Framework

variable {K : Type} [AddCommGroup K] [LinearOrder K] [IsOrderedAddMonoid K]

/-- Every closed window of the width has at most `cap` of the times. -/
def Capped (width : K) (cap : ℕ) (times : List K) : Prop :=
  ∀ a, (times.countP fun t => a ≤ t ∧ t ≤ a + width) ≤ cap

variable {width : K} {cap : ℕ} {times : List K}

theorem Capped.concat {now : K} (h : Capped width cap times)
    (hroom : (times.countP fun t => now - width ≤ t) < cap) : Capped width cap (times ++ [now]) := by
  intro a
  rw [List.countP_append, List.countP_singleton]
  split
  · rename_i hnow
    obtain ⟨-, hnow⟩ := of_decide_eq_true hnow
    have hle : (times.countP fun t => a ≤ t ∧ t ≤ a + width) ≤
        times.countP fun t => now - width ≤ t := by
      refine List.countP_mono_left fun t _ ht => decide_eq_true ?_
      exact (sub_le_iff_le_add.mpr hnow).trans (of_decide_eq_true ht).1
    omega
  · exact h a

end Kelpflux.Framework
