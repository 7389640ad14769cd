import Mathlib.Algebra.BigOperators.Group.List.Basic
import Mathlib.Data.List.Forall2

/-!
# Lists

What a comprehension gives, it gives of its elements, one after the other
(`forall₂_of_mapM`), whatever the computations that may fail are; and the length of
rows of one length (`length_flatten_const`).
-/

namespace Kelpflux.Framework

section MapM

variable {α β : Type}

/-- `R x a` says that the computation `x` ends with `a`, as the bind of `m` has it. -/
structure EndsWith (m : Type → Type) [Monad m] (R : ∀ {α : Type}, m α → α → Prop) : Prop where
  of_pure : ∀ {α : Type} {a b : α}, R (pure a : m α) b → a = b
  of_bind : ∀ {α β : Type} {x : m α} {f : α → m β} {b : β}, R (x >>= f) b → ∃ a, R x a ∧ R (f a) b

theorem forall₂_of_mapM {m : Type → Type} [Monad m] [LawfulMonad m]
    {R : ∀ {α : Type}, m α → α → Prop} (hR : EndsWith m R) {f : α → m β} {xs : List α} {ys : List β}
    (h : R (xs.mapM f) ys) : List.Forall₂ (fun x y => R (f x) y) xs ys := by
  induction xs generalizing ys with
  | nil =>
    rw [List.mapM_nil] at h
    rw [← hR.of_pure h]
    exact .nil
  | cons x xs ih =>
    rw [List.mapM_cons] at h
    obtain ⟨y, hy, h⟩ := hR.of_bind h
    obtain ⟨ys', hys, h⟩ := hR.of_bind h
    rw [← hR.of_pure h]
    exact .cons hy (ih hys)

theorem endsWith_ok (ε : Type) : EndsWith (Except ε) fun x a => x = .ok a where
  of_pure := Except.ok.inj
  of_bind {_ _ x _ _} h := by
    cases x with
    | error e => cases h
    | ok a => exact ⟨a, rfl, h⟩

theorem endsWith_some : EndsWith Option fun x a => x = some a where
  of_pure := Option.some.inj
  of_bind := Option.bind_eq_some_iff.mp

theorem forall₂_of_mapM_ok {ε : Type} {f : α → Except ε β} {xs : List α} {ys : List β}
    (h : xs.mapM f = .ok ys) : List.Forall₂ (fun x y => f x = .ok y) xs ys :=
  forall₂_of_mapM (endsWith_ok ε) h

theorem forall₂_of_mapM_some {f : α → Option β} {xs : List α} {ys : List β}
    (h : xs.mapM f = some ys) : List.Forall₂ (fun x y => f x = some y) xs ys :=
  forall₂_of_mapM endsWith_some h

/-- Each of the elements on the right is of one on the left. -/
theorem exists_of_forall₂ {R : α → β → Prop} {xs : List α} {ys : List β} (h : List.Forall₂ R xs ys) :
    ∀ y ∈ ys, ∃ x ∈ xs, R x y := by
  induction h with
  | nil => exact fun y hy => absurd hy List.not_mem_nil
  | @cons x y xs ys hxy _ ih =>
    intro z hz
    rcases List.mem_cons.mp hz with rfl | hz
    · exact ⟨x, List.mem_cons_self, hxy⟩
    · obtain ⟨x', hx', hz⟩ := ih z hz
      exact ⟨x', List.mem_cons_of_mem x hx', hz⟩

end MapM

theorem length_flatten_const {α : Type} {d : ℕ} {rows : List (List α)}
    (h : ∀ row ∈ rows, row.length = d) : rows.flatten.length = rows.length * d := by
  rw [List.length_flatten, List.map_congr_left h, List.map_const', List.sum_replicate_nat]

end Kelpflux.Framework
