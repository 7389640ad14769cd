import Kelpflux.Framework.Run

/-!
# Two machines in lockstep

Machines that answer each input, one beside the other. Where one step keeps a
relation between their states and gives equal answers, as long as it meets a
condition, a run whose steps all meet the condition gives equal answers
(`replies_eq`).
-/

namespace Kelpflux.Framework

variable {σ τ ι ο : Type}

/-- The answers to inputs, one after another. -/
def replies (step : σ → ι → σ × ο) : σ → List ι → List ο
  | _, [] => []
  | s, x :: xs => (step s x).2 :: replies step (step s x).1 xs

/-- The states of both machines after an input. -/
def both (f : σ → ι → σ × ο) (g : τ → ι → τ × ο) (st : σ × τ) (x : ι) : σ × τ :=
  ((f st.1 x).1, (g st.2 x).1)

theorem replies_eq {f : σ → ι → σ × ο} {g : τ → ι → τ × ο} {R : σ → τ → Prop}
    {P : σ × τ → ι → Prop}
    (hstep : ∀ s t x, R s t → P (s, t) x → R (f s x).1 (g t x).1 ∧ (f s x).2 = (g t x).2)
    {xs : List ι} {s : σ} {t : τ} (hR : R s t) (hP : Along (both f g) P (s, t) xs) :
    replies f s xs = replies g t xs := by
  induction xs generalizing s t with
  | nil => rfl
  | cons x xs ih =>
    obtain ⟨hnext, hreply⟩ := hstep s t x hR hP.1
    rw [replies, replies, hreply, ih hnext hP.2]

end Kelpflux.Framework
