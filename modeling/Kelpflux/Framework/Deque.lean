import Mathlib.Data.List.DropRight
import Mathlib.Tactic.Common

/-!
# Bounded deques

`collections.deque(maxlen=n)`: appending to a full one drops its oldest item,
so that it holds the last `n` items appended since it was cleared.
-/

namespace Kelpflux.Framework

/-- `deque(maxlen=n)`, the oldest item first. -/
structure Deque (α : Type) (maxlen : ℕ) where
  items : List α
  le : items.length ≤ maxlen

namespace Deque

variable {α : Type} {n : ℕ}

def empty : Deque α n := ⟨[], Nat.zero_le n⟩

/-- `append`, which drops from the left what no longer fits. -/
def append (d : Deque α n) (x : α) : Deque α n where
  items := (d.items ++ [x]).rtake n
  le := by
    simp only [List.rtake, List.length_drop]
    omega

/-- What a deque holds after `xs` was appended to an empty one. -/
def Holds (d : Deque α n) (xs : List α) : Prop := d.items = xs.rtake n

@[simp] theorem empty_items : (empty : Deque α n).items = [] := rfl

theorem empty_holds : (empty : Deque α n).Holds [] := by simp [Holds, List.rtake]

theorem Holds.append {d : Deque α n} {xs : List α} (h : d.Holds xs) (x : α) :
    (d.append x).Holds (xs ++ [x]) := by
  unfold Holds Deque.append at *
  dsimp only
  rw [h]
  simp only [List.rtake, List.length_append, List.length_drop, List.length_singleton]
  -- what the first cut dropped is among what the second drops
  have hcut : (xs ++ [x]).drop (xs.length + 1 - n)
      = ((xs ++ [x]).drop (xs.length - n)).drop (xs.length - (xs.length - n) + 1 - n) := by
    rw [List.drop_drop]
    congr 1
    omega
  have hfit : (xs ++ [x]).drop (xs.length - n) = xs.drop (xs.length - n) ++ [x] :=
    List.drop_append_of_le_length (by omega)
  rw [hcut, hfit]

theorem Holds.length {d : Deque α n} {xs : List α} (h : d.Holds xs) :
    d.items.length = min n xs.length := by
  rw [h, List.rtake, List.length_drop]
  omega

end Deque

end Kelpflux.Framework
