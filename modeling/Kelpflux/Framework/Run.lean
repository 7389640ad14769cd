import Mathlib.Data.List.Basic

/-!
# Runs of a step function

A run of `step` from a state takes one input after another (`run`). `Along P`
says that `P` holds of each step of a run, of the state before it and the
step's input. What one step preserves under a condition on it, a run whose
steps all meet the condition preserves (`Along.invariant`).
-/

namespace Kelpflux.Framework

variable {σ ι : Type} {step : σ → ι → σ}

/-- The state a run ends in. -/
def run (step : σ → ι → σ) (s : σ) (xs : List ι) : σ := xs.foldl step s

@[simp] theorem run_nil (s : σ) : run step s [] = s := rfl

@[simp] theorem run_cons (s : σ) (x : ι) (xs : List ι) :
    run step s (x :: xs) = run step (step s x) xs := rfl

/-- What every step keeps, a run keeps. -/
theorem run_keeps (Inv : σ → Prop) (hstep : ∀ s x, Inv s → Inv (step s x)) {s : σ} (hs : Inv s)
    (xs : List ι) : Inv (run step s xs) := by
  induction xs generalizing s with
  | nil => exact hs
  | cons x xs ih => exact ih (hstep s x hs)

/-- `P` holds of every step of the run. -/
def Along (step : σ → ι → σ) (P : σ → ι → Prop) : σ → List ι → Prop
  | _, [] => True
  | s, x :: xs => P s x ∧ Along step P (step s x) xs

instance Along.decidable {P : σ → ι → Prop} [∀ s x, Decidable (P s x)] :
    ∀ (s : σ) (xs : List ι), Decidable (Along step P s xs)
  | _, [] => inferInstanceAs (Decidable True)
  | s, x :: xs =>
    have := Along.decidable (P := P) (step s x) xs
    inferInstanceAs (Decidable (P s x ∧ Along step P (step s x) xs))

theorem Along.mono {P Q : σ → ι → Prop} (h : ∀ s x, P s x → Q s x) :
    ∀ {xs : List ι} {s : σ}, Along step P s xs → Along step Q s xs
  | [], _, _ => trivial
  | _ :: _, _, hp => ⟨h _ _ hp.1, hp.2.mono h⟩

theorem Along.and {P Q : σ → ι → Prop} :
    ∀ {xs : List ι} {s : σ}, Along step P s xs → Along step Q s xs →
      Along step (fun s x => P s x ∧ Q s x) s xs
  | [], _, _, _ => trivial
  | _ :: _, _, hp, hq => ⟨⟨hp.1, hq.1⟩, hp.2.and hq.2⟩

theorem Along.congr {P Q : σ → ι → Prop} (h : ∀ s x, P s x ↔ Q s x) (s : σ) (xs : List ι) :
    Along step P s xs ↔ Along step Q s xs :=
  ⟨.mono fun s x => (h s x).mp, .mono fun s x => (h s x).mpr⟩

/-- An invariant that steps meeting `P` keep holds before every step of a run
of such steps. -/
theorem Along.invariant {P : σ → ι → Prop} {Inv : σ → Prop}
    (hstep : ∀ s x, Inv s → P s x → Inv (step s x)) :
    ∀ {xs : List ι} {s : σ}, Inv s → Along step P s xs →
      Along step (fun s x => Inv s ∧ P s x) s xs
  | [], _, _, _ => trivial
  | _ :: _, _, hs, hp => ⟨⟨hs, hp.1⟩, Along.invariant hstep (hstep _ _ hs hp.1) hp.2⟩

/-- And in the state the run ends in. -/
theorem Along.reach {P : σ → ι → Prop} {Inv : σ → Prop}
    (hstep : ∀ s x, Inv s → P s x → Inv (step s x)) :
    ∀ {xs : List ι} {s : σ}, Inv s → Along step P s xs → Inv (run step s xs)
  | [], _, hs, _ => hs
  | _ :: _, _, hs, hp => by rw [run_cons]; exact Along.reach hstep (hstep _ _ hs hp.1) hp.2

end Kelpflux.Framework
