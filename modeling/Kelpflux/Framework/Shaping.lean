import Kelpflux.Framework.Run
import Mathlib.Algebra.BigOperators.Group.List.Basic
import Mathlib.Algebra.BigOperators.Ring.List
import Mathlib.Tactic.Ring

/-!
# Potential-based shaping

A reward that is shaped by a potential `φ` gains `γ * φ s' - φ s` at a step from
`s` to `s'`. Discounted over a run, what it gains is known from the potentials
of the two states that the run joins, whatever its steps are:
`discounted_shaping`.
-/

namespace Kelpflux.Framework

variable {σ ι R : Type} {step : σ → ι → σ}

/-- What `f` gives at each step of a run. -/
def gains (step : σ → ι → σ) (f : σ → ι → R) : σ → List ι → List R
  | _, [] => []
  | s, x :: xs => f s x :: gains step f (step s x) xs

/-- `Σ γ^k r_k` -/
def discounted [Semiring R] (γ : R) (rews : List R) : R :=
  (rews.mapIdx fun k r => γ ^ k * r).sum

theorem discounted_cons [Semiring R] (γ r : R) (rews : List R) :
    discounted γ (r :: rews) = r + γ * discounted γ rews := by
  simp only [discounted, List.mapIdx_cons, List.sum_cons, pow_zero, one_mul, pow_succ', mul_assoc]
  have hmul : rews.mapIdx (fun k r => γ * (γ ^ k * r))
      = (rews.mapIdx fun k r => γ ^ k * r).map (γ * ·) :=
    List.ext_getElem (by simp) fun i _ _ => by simp
  rw [hmul, List.sum_map_mul_left, List.map_id']

variable [CommRing R]

/-- Gains that are zero. -/
theorem discounted_zero (γ : R) (s : σ) (xs : List ι) :
    discounted γ (gains step (fun _ _ => (0 : R)) s xs) = 0 := by
  induction xs generalizing s with
  | nil => rfl
  | cons x xs ih => rw [gains, discounted_cons, ih, mul_zero, add_zero]

/-- Each step's potential cancels that of the step before it. -/
theorem discounted_shaping (γ : R) (φ : σ → R) (s : σ) (xs : List ι) :
    discounted γ (gains step (fun s x => γ * φ (step s x) - φ s) s xs)
      = γ ^ xs.length * φ (run step s xs) - φ s := by
  induction xs generalizing s with
  | nil => simp [gains, discounted]
  | cons x xs ih =>
    rw [gains, discounted_cons, ih, run_cons, List.length_cons]
    ring

end Kelpflux.Framework
