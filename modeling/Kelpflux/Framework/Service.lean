import Kelpflux.Framework.Run
import Mathlib.Algebra.BigOperators.Group.List.Basic

/-!
# Services

A service answers each request or refuses it, and may change its state
(`Service`). The log of a run (`Service.log`) keeps the requests with what came
back. What each step makes of a part of the state is said of the whole run by
its log: a part that only some requests write holds what the last of them wrote
(`Service.lastWritten`), and a counter holds the sum of what was added
(`Service.counted`). A service that changes nothing when it refuses is left by
a run as it is by the requests it answered (`Service.run_answered`).
-/

namespace Kelpflux.Framework

/-- A state and a request, to a reply and the next state. -/
abbrev Service (σ ι ε ρ : Type) := σ → ι → Except ε ρ × σ

namespace Service

variable {σ ι ε ρ τ : Type} (S : Service σ ι ε ρ)

/-- The state after a request. -/
def next (s : σ) (x : ι) : σ := (S s x).2

/-- The requests of a run, each with its reply. -/
def log : σ → List ι → List (ι × Except ε ρ)
  | _, [] => []
  | s, x :: xs => (x, (S s x).1) :: log (S.next s x) xs

/-- The requests of a run that were answered. -/
def answered : σ → List ι → List ι
  | _, [] => []
  | s, x :: xs =>
    match (S s x).1 with
    | .ok _ => x :: answered (S.next s x) xs
    | .error _ => answered (S.next s x) xs

/-- What the last entry of a log that writes wrote. -/
def lastWrite (write : ι × Except ε ρ → Option τ) (entries : List (ι × Except ε ρ)) : Option τ :=
  entries.reverse.findSome? write

variable {S}

@[simp] theorem log_nil (s : σ) : S.log s [] = [] := rfl

@[simp] theorem log_cons (s : σ) (x : ι) (xs : List ι) :
    S.log s (x :: xs) = (x, (S s x).1) :: S.log (S.next s x) xs := rfl

theorem map_fst_log (s : σ) (xs : List ι) : (S.log s xs).map Prod.fst = xs := by
  induction xs generalizing s with
  | nil => rfl
  | cons x xs ih => exact congrArg _ (ih (S.next s x))

/-- A part of the state that a step writes or leaves as it is, is left by a run
as the last entry that writes left it. -/
theorem lastWritten (part : σ → τ) (write : ι × Except ε ρ → Option τ)
    (hstep : ∀ s x, part (S.next s x) = (write (x, (S s x).1)).getD (part s)) (s : σ)
    (xs : List ι) : part (run S.next s xs) = (lastWrite write (S.log s xs)).getD (part s) := by
  induction xs generalizing s with
  | nil => rfl
  | cons x xs ih =>
    rw [run_cons, ih, hstep, log_cons, lastWrite, lastWrite, List.reverse_cons,
      List.findSome?_append]
    cases (S.log (S.next s x) xs).reverse.findSome? write with
    | some t => rfl
    | none =>
      show _ = (List.findSome? write [(x, (S s x).1)]).getD (part s)
      rw [List.findSome?_singleton]
      rfl

/-- Where it is the request alone that says what is written. -/
theorem lastWrite_fst (write : ι → Option τ) (s : σ) (xs : List ι) :
    lastWrite (fun e => write e.1) (S.log s xs) = xs.reverse.findSome? write := by
  rw [lastWrite, ← map_fst_log (S := S) s xs, ← List.map_reverse, List.findSome?_map,
    map_fst_log]
  rfl

/-- A counter that a step adds to, holds after a run the sum of what was added. -/
theorem counted {M : Type} [AddCommMonoid M] (part : σ → M) (count : ι × Except ε ρ → M)
    (hstep : ∀ s x, part (S.next s x) = part s + count (x, (S s x).1)) (s : σ) (xs : List ι) :
    part (run S.next s xs) = part s + ((S.log s xs).map count).sum := by
  induction xs generalizing s with
  | nil => exact (add_zero _).symm
  | cons x xs ih => rw [run_cons, ih, hstep, log_cons, List.map_cons, List.sum_cons, add_assoc]

/-- A counter of the replies that meet `p` holds their number after a run. -/
theorem countedReplies (part : σ → ℕ) (get : ι × Except ε ρ → Option τ) (p : τ → Bool)
    (hstep : ∀ s x, part (S.next s x) = part s + (get (x, (S s x).1)).toList.countP p) (s : σ)
    (xs : List ι) :
    part (run S.next s xs) = part s + ((S.log s xs).filterMap get).countP p := by
  rw [counted part (fun e => (get e).toList.countP p) hstep]
  congr 1
  induction S.log s xs with
  | nil => rfl
  | cons e es ih =>
    rw [List.map_cons, List.sum_cons, ih, List.filterMap_cons]
    cases get e with
    | none => exact Nat.zero_add _
    | some r => rw [Option.toList_some, ← List.countP_append, List.singleton_append]

/-- Where a refusal leaves the state as it is, a run ends as the run of the
requests that it answered. -/
theorem run_answered (hrefused : ∀ s x e, (S s x).1 = .error e → S.next s x = s) (s : σ)
    (xs : List ι) : run S.next s xs = run S.next s (S.answered s xs) := by
  induction xs generalizing s with
  | nil => rfl
  | cons x xs ih =>
    rw [run_cons, answered]
    cases h : (S s x).1 with
    | ok r => exact ih _
    | error e =>
      have hs := hrefused s x e h
      rw [ih, hs]

/-- And each of these is answered in that run too, with the same reply. -/
theorem log_answered (hrefused : ∀ s x e, (S s x).1 = .error e → S.next s x = s) (s : σ)
    (xs : List ι) : S.log s (S.answered s xs) = (S.log s xs).filter fun e => e.2.isOk := by
  induction xs generalizing s with
  | nil => rfl
  | cons x xs ih =>
    rw [answered, log_cons]
    cases h : (S s x).1 with
    | ok r =>
      rw [List.filter_cons_of_pos rfl, log_cons, ih, h]
    | error e =>
      rw [List.filter_cons_of_neg Bool.false_ne_true, hrefused s x e h, ih]

end Service

end Kelpflux.Framework
