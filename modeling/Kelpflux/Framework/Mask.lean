import Mathlib.Data.List.Range
import Mathlib.Tactic.Ring

/-!
# Masks of flat actions

A policy that puts one of its items on a GPU of a node has one action for each
of the three together (`slot`), and a last one for nothing. `slot_decode` takes
an action apart again, and a mask is known by what it says of each slot
(`maskOf_eq_iff`).
-/

namespace Kelpflux.Framework

/-- A mask of so many actions, the last the no-op. -/
def maskOf (size : ℕ) (legal : List ℕ) : List Bool :=
  (List.range size).map fun a => a = size - 1 || a ∈ legal

/-- The action that places job `i` on a GPU. -/
def slot {n g : ℕ} (i : ℕ) (nj : Fin n) (gk : Fin g) : ℕ := i * (n * g) + nj * g + gk

/-- The quotients and remainders of an action are what it was made of. -/
theorem slot_decode {n g : ℕ} (i : ℕ) (nj : Fin n) (gk : Fin g) :
    slot i nj gk / (n * g) = i ∧ slot i nj gk % (n * g) / g = nj
      ∧ slot i nj gk % (n * g) % g = gk := by
  have hg := gk.2
  have hlt : nj * g + gk < n * g := by
    calc nj * g + gk < nj * g + g := by omega
      _ = (nj + 1) * g := by ring
      _ ≤ n * g := Nat.mul_le_mul_right g nj.2
  have hslot : slot i nj gk = nj * g + gk + i * (n * g) := by
    unfold slot
    ring
  have hquot : slot i nj gk / (n * g) = i := by
    rw [hslot, Nat.add_mul_div_right _ _ (by omega), Nat.div_eq_of_lt hlt, zero_add]
  have hrem : slot i nj gk % (n * g) = gk + nj * g := by
    rw [hslot, Nat.add_mul_mod_self_right, Nat.mod_eq_of_lt hlt, Nat.add_comm]
  refine ⟨hquot, ?_, ?_⟩
  · rw [hrem, Nat.add_mul_div_right _ _ (by omega), Nat.div_eq_of_lt hg, zero_add]
  · rw [hrem, Nat.add_mul_mod_self_right, Nat.mod_eq_of_lt hg]

theorem slot_inj {n g i i' : ℕ} {nj nj' : Fin n} {gk gk' : Fin g}
    (h : slot i nj gk = slot i' nj' gk') : i = i' ∧ nj = nj' ∧ gk = gk' := by
  obtain ⟨hi, hn, hg⟩ := slot_decode i nj gk
  obtain ⟨hi', hn', hg'⟩ := slot_decode i' nj' gk'
  rw [h] at hi hn hg
  exact ⟨hi.symm.trans hi', Fin.ext (hn.symm.trans hn'), Fin.ext (hg.symm.trans hg')⟩

theorem slot_lt {n g i k : ℕ} (hi : i < k) (nj : Fin n) (gk : Fin g) :
    slot i nj gk < k * (n * g) := by
  unfold slot
  calc i * (n * g) + nj * g + gk < i * (n * g) + (nj * g + g) := by
        have := gk.2
        omega
    _ = i * (n * g) + (nj + 1) * g := by ring
    _ ≤ i * (n * g) + n * g := Nat.add_le_add_left (Nat.mul_le_mul_right g nj.2) _
    _ = (i + 1) * (n * g) := by ring
    _ ≤ k * (n * g) := Nat.mul_le_mul_right _ hi

/-- Every action is of a slot, where there are GPUs. -/
theorem exists_slot {n g : ℕ} (h : 0 < n * g) (a : ℕ) :
    ∃ (i : ℕ) (nj : Fin n) (gk : Fin g), a = slot i nj gk := by
  have hg : 0 < g := Nat.pos_of_mul_pos_left h
  have hrem : a % (n * g) < n * g := Nat.mod_lt _ h
  refine ⟨a / (n * g), ⟨a % (n * g) / g, ?_⟩, ⟨a % (n * g) % g, Nat.mod_lt _ hg⟩, ?_⟩
  · exact Nat.div_lt_of_lt_mul (hrem.trans_eq (Nat.mul_comm n g))
  · have hquot := Nat.div_add_mod a (n * g)
    have hrest := Nat.div_add_mod (a % (n * g)) g
    unfold slot
    dsimp only
    rw [Nat.mul_comm (a / (n * g)), Nat.mul_comm (a % (n * g) / g)]
    omega

/-- A list of actions is that of the jobs and GPUs of a relation. -/
def Encodes {n g : ℕ} (legal : List ℕ) (rel : ℕ → Fin n → Fin g → Prop) : Prop :=
  ∀ a, a ∈ legal ↔ ∃ i nj gk, rel i nj gk ∧ a = slot i nj gk

theorem Encodes.slot_mem {n g : ℕ} {legal : List ℕ} {rel : ℕ → Fin n → Fin g → Prop}
    (h : Encodes legal rel) (i : ℕ) (nj : Fin n) (gk : Fin g) :
    slot i nj gk ∈ legal ↔ rel i nj gk := by
  rw [h]
  constructor
  · rintro ⟨i', nj', gk', hrel, heq⟩
    obtain ⟨rfl, rfl, rfl⟩ := slot_inj heq
    exact hrel
  · intro hrel
    exact ⟨i, nj, gk, hrel, rfl⟩

theorem mem_maskOf {size a : ℕ} {legal : List ℕ} (ha : a < size) :
    (maskOf size legal)[a]? = some (a = size - 1 || a ∈ legal) := by
  simp [maskOf, ha]

/-- A bit of a mask that stands for a job and a GPU. -/
theorem maskOf_slot {n g k i : ℕ} {legal : List ℕ} {rel : ℕ → Fin n → Fin g → Prop}
    (h : Encodes legal rel) (hi : i < k) (nj : Fin n) (gk : Fin g) :
    (maskOf (k * (n * g) + 1) legal)[slot i nj gk]? = some true ↔ rel i nj gk := by
  have hlt := slot_lt hi nj gk
  rw [mem_maskOf (by omega), ← h.slot_mem]
  have hne : slot i nj gk ≠ k * (n * g) := by omega
  simp [hne]

theorem maskOf_eq_iff {n g k k' : ℕ} {legal legal' : List ℕ} {rel rel' : ℕ → Fin n → Fin g → Prop}
    (h : Encodes legal rel) (h' : Encodes legal' rel') (hk : ∀ i nj gk, rel i nj gk → i < k)
    (hk' : ∀ i nj gk, rel' i nj gk → i < k') :
    maskOf (k * (n * g) + 1) legal = maskOf (k' * (n * g) + 1) legal' ↔
      k * (n * g) = k' * (n * g) ∧ ∀ i nj gk, rel i nj gk ↔ rel' i nj gk := by
  constructor
  · intro heq
    have hsize : k * (n * g) = k' * (n * g) := by
      have := congrArg List.length heq
      simpa [maskOf] using this
    refine ⟨hsize, fun i nj gk => ?_⟩
    have hpos : 0 < n * g := Nat.mul_pos (Fin.pos nj) (Fin.pos gk)
    have hkk : k = k' := Nat.eq_of_mul_eq_mul_right hpos hsize
    subst hkk
    constructor
    · intro hrel
      have hi := hk i nj gk hrel
      rw [← maskOf_slot h' hi, ← heq, maskOf_slot h hi]
      exact hrel
    · intro hrel
      have hi := hk' i nj gk hrel
      rw [← maskOf_slot h hi, heq, maskOf_slot h' hi]
      exact hrel
  · rintro ⟨hsize, hrel⟩
    rw [hsize]
    unfold maskOf
    apply List.map_congr_left
    intro a _
    have hmem : a ∈ legal ↔ a ∈ legal' := by
      rw [h a, h' a]
      simp only [hrel]
    simp only [hmem]

end Kelpflux.Framework
