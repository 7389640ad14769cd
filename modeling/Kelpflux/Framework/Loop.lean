import Kelpflux.Framework.Prog
import Mathlib.Data.List.Chain

/-!
# Loops without a list

`Prog.iterate` runs a body again and again, each round from what the round
before left, until one is done. A run's rounds (`Prog.rounds`) are what each of
them started from. A variant bounds their number (`WP.iterate`); what holds
from one round to the next holds of consecutive rounds
(`Prog.rounds_isChain`), and an invariant of the body of every round
(`Prog.rounds_invariant`). A loop raises what the body of one of its rounds
raises, and no more (`Prog.iterate_error_iff`).
-/

namespace Kelpflux.Framework

variable {I : Interface} {ε σ α β : Type}

namespace Prog

/-- A computation that calls nothing. -/
def ofExcept (r : Except ε α) : Prog I ε σ α := done r

/-- `while True: body`, for at most `fuel` rounds: `none` if that was not
enough. A round ends with what the next starts from, or with the result. -/
def iterate (body : α → Prog I ε σ (α ⊕ β)) : Nat → α → Prog I ε σ (Option β)
  | 0, _ => pure none
  | fuel + 1, a => do
    match ← body a with
    | .inl a' => iterate body fuel a'
    | .inr b => pure (some b)

/-- What each round of a run starts from, the first round first. -/
def rounds (env : Env I ε) (body : α → Prog I ε σ (α ⊕ β)) :
    Nat → α → State I ε σ → List (α × State I ε σ)
  | 0, _, _ => []
  | fuel + 1, a, s => (a, s) ::
    match (body a).run env s with
    | (.ok (.inl a'), s') => rounds env body fuel a' s'
    | _ => []

variable {env : Env I ε} {body : α → Prog I ε σ (α ⊕ β)}

theorem run_iterate_succ (fuel : Nat) (a : α) (s : State I ε σ) :
    (iterate body (fuel + 1) a).run env s =
      match (body a).run env s with
      | (.ok (.inl a'), s') => (iterate body fuel a').run env s'
      | (.ok (.inr b), s') => (.ok (some b), s')
      | (.error e, s') => (.error e, s') := by
  simp only [iterate, bind, run_andThen]
  rcases (body a).run env s with ⟨_ | _ | _, s'⟩ <;> rfl

/-- `y` is the round after `x`. -/
def Next (env : Env I ε) (body : α → Prog I ε σ (α ⊕ β)) (x y : α × State I ε σ) : Prop :=
  (body x.1).run env x.2 = (.ok (.inl y.1), y.2)

theorem rounds_isChain (fuel : Nat) (a : α) (s : State I ε σ) :
    (rounds env body fuel a s).IsChain (Next env body) := by
  induction fuel generalizing a s with
  | zero => exact List.isChain_nil
  | succ fuel ih =>
    rw [rounds]
    split
    · rename_i a' s' h
      refine List.isChain_cons.mpr ⟨fun y hy => ?_, ih a' s'⟩
      cases fuel with
      | zero => cases hy
      | succ fuel =>
        obtain rfl : (a', s') = y := Option.some.inj hy
        exact h
    · exact List.isChain_singleton _

/-- What holds of the first round, and of each round after one it holds of,
holds of every round. -/
theorem rounds_invariant (Inv : α → State I ε σ → Prop)
    (hstep : ∀ x y : α × State I ε σ, Inv x.1 x.2 → Next env body x y → Inv y.1 y.2)
    (fuel : Nat) {a : α} {s : State I ε σ} (h0 : Inv a s) :
    ∀ x ∈ rounds env body fuel a s, Inv x.1 x.2 := by
  induction fuel generalizing a s with
  | zero => simp [rounds]
  | succ fuel ih =>
    intro x hx
    rw [rounds, List.mem_cons] at hx
    rcases hx with rfl | hx
    · exact h0
    · split at hx
      · rename_i a' s' h
        exact ih (hstep (a, s) (a', s') h0 h) x hx
      · cases hx

/-- A loop raises what the body of one of its rounds raises. -/
theorem iterate_error_iff {fuel : Nat} {a : α} {s s' : State I ε σ} {e : ε} :
    (iterate body fuel a).run env s = (.error e, s') ↔
      ∃ x ∈ rounds env body fuel a s, (body x.1).run env x.2 = (.error e, s') := by
  induction fuel generalizing a s with
  | zero =>
    constructor
    · intro h
      cases congrArg Prod.fst h
    · simp [rounds]
  | succ fuel ih =>
    rw [run_iterate_succ, rounds]
    rcases hb : (body a).run env s with ⟨e' | a' | b, s₁⟩
    · simp [hb]
    · simp [hb, ih]
    · simp [hb]

/-- More fuel changes nothing where it was enough. -/
theorem iterate_fuel {fuel fuel' : Nat} (hle : fuel ≤ fuel') {a : α} {s : State I ε σ}
    (h : ((iterate body fuel a).run env s).1 ≠ .ok none) :
    (iterate body fuel' a).run env s = (iterate body fuel a).run env s := by
  induction fuel generalizing a s fuel' with
  | zero => exact absurd rfl h
  | succ fuel ih =>
    obtain ⟨fuel', rfl⟩ := Nat.exists_eq_add_of_le' (Nat.le_trans (Nat.succ_pos fuel) hle)
    rw [run_iterate_succ] at h
    rw [run_iterate_succ, run_iterate_succ]
    split at h
    · exact ih (Nat.le_of_succ_le_succ hle) h
    all_goals rfl

/-- A loop can make the calls that its body can. -/
theorem Only.iterate {P : I.Call → Prop} (h : ∀ a, (body a).Only P) :
    ∀ fuel a, (iterate body fuel a).Only P
  | 0, _ => trivial
  | fuel + 1, a => Only.bind (h a) fun r =>
    match r with
    | .inl a' => Only.iterate h fuel a'
    | .inr _ => trivial

theorem Only.ofExcept {P : I.Call → Prop} (r : Except ε α) :
    (ofExcept r : Prog I ε σ α).Only P := trivial

end Prog

namespace WP

variable {env : Env I ε} {s : State I ε σ}

@[simp] theorem ofExcept_iff {r : Except ε α} {Q : Except ε α → State I ε σ → Prop} :
    WP env (Prog.ofExcept r) s Q ↔ Q r s := Iff.rfl

/-- A loop with a variant: each round that is not the last one keeps the
invariant and makes the variant smaller. -/
theorem iterate {body : α → Prog I ε σ (α ⊕ β)} (Inv : α → State I ε σ → Prop) (variant : α → Nat)
    {Q : Except ε (Option β) → State I ε σ → Prop} {fuel : Nat} {a : α} (h0 : Inv a s)
    (hfuel : variant a < fuel)
    (hstep : ∀ a s, Inv a s → WP env (body a) s fun r s' =>
      match r with
      | .ok (.inl a') => Inv a' s' ∧ variant a' < variant a
      | .ok (.inr b) => Q (.ok (some b)) s'
      | .error e => Q (.error e) s') :
    WP env (Prog.iterate body fuel a) s Q := by
  induction fuel generalizing a s with
  | zero => exact absurd hfuel (Nat.not_lt_zero _)
  | succ fuel ih =>
    show Q _ _
    rw [Prog.run_iterate_succ]
    have h := hstep a s h0
    unfold WP at h
    rcases hb : (body a).run env s with ⟨e | a' | b, s'⟩
    · rw [hb] at h
      exact h
    · rw [hb] at h
      exact ih h.1 (by have := h.2; omega)
    · rw [hb] at h
      exact h

end WP

end Kelpflux.Framework
