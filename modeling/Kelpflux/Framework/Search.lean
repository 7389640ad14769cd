import Mathlib.Data.List.MinMax
import Mathlib.Data.List.Sort
import Mathlib.Order.MinMax
import Mathlib.Order.WithBot

/-!
# Searching for the least cost

The least of the costs that a search sees (`least`), where each has one, and a
fold whose steps may fail. An order by a key is an order by ranks: where the
keys of a sorted list are distinct, they compare as their places do
(`key_le_iff`). Of equal maxima the first is taken (`argmax_least`).
-/

namespace Kelpflux.Framework

variable {α β ρ : Type}

/-- A fold whose steps keep an invariant, and do not fail while it holds. -/
theorem foldlM_keeps {f : β → α → Option β} (Inv : β → Prop) {xs : List α}
    (h : ∀ b, ∀ x ∈ xs, Inv b → ∃ b', f b x = some b' ∧ Inv b') {b : β} (hb : Inv b) :
    ∃ b', xs.foldlM f b = some b' ∧ Inv b' := by
  induction xs generalizing b with
  | nil => exact ⟨b, rfl, hb⟩
  | cons x xs ih =>
    obtain ⟨b₁, hstep, hb₁⟩ := h b x List.mem_cons_self hb
    obtain ⟨b', hrest, hb'⟩ := ih (fun b y hy => h b y (List.mem_cons_of_mem x hy)) hb₁
    refine ⟨b', ?_, hb'⟩
    rw [List.foldlM_cons, hstep]
    exact hrest

/-- The least of `best` and the costs of `xs`; `none` if one has no cost. -/
def least [LinearOrder ρ] (cost : α → Option ρ) (best : WithTop ρ) (xs : List α) :
    Option (WithTop ρ) :=
  xs.foldlM (fun best x => do
    let c ← cost x
    return min best c) best

theorem least_cons [LinearOrder ρ] {cost : α → Option ρ} {best : WithTop ρ} {x : α} {xs : List α}
    {c : ρ} (h : cost x = some c) : least cost best (x :: xs) = least cost (min best c) xs := by
  unfold least
  rw [List.foldlM_cons, h]
  rfl

/-- What the least is: no more than any, and one of them. -/
theorem least_spec [LinearOrder ρ] {cost : α → Option ρ} {xs : List α}
    (h : ∀ x ∈ xs, ∃ c, cost x = some c) (best : WithTop ρ) : ∃ m, least cost best xs = some m ∧
      m ≤ best ∧ (∀ x ∈ xs, ∀ c, cost x = some c → m ≤ c) ∧
      (m = best ∨ ∃ x ∈ xs, ∃ c : ρ, cost x = some c ∧ m = c) := by
  induction xs generalizing best with
  | nil => exact ⟨best, rfl, le_rfl, by simp, .inl rfl⟩
  | cons x xs ih =>
    obtain ⟨c, hc⟩ := h x List.mem_cons_self
    obtain ⟨m, hm, hbest, hall, hone⟩ := ih (fun y hy => h y (List.mem_cons_of_mem x hy)) (min best c)
    refine ⟨m, (least_cons hc).trans hm, hbest.trans (min_le_left _ _), fun y hy d hd => ?_, ?_⟩
    · rcases List.mem_cons.mp hy with rfl | hy
      · obtain rfl := Option.some.inj (hc.symm.trans hd)
        exact hbest.trans (min_le_right _ _)
      · exact hall y hy d hd
    · rcases hone with rfl | ⟨y, hy, d, hd, rfl⟩
      · rcases min_choice best c with hmin | hmin
        · exact .inl hmin
        · exact .inr ⟨x, List.mem_cons_self, c, hc, hmin⟩
      · exact .inr ⟨y, List.mem_cons_of_mem x hy, d, hd, rfl⟩

/-- Relations that agree on a list sort it the same. -/
theorem insertionSort_congr {r s : α → α → Prop} [DecidableRel r] [DecidableRel s] {xs : List α}
    (h : ∀ a ∈ xs, ∀ b ∈ xs, r a b ↔ s a b) : xs.insertionSort r = xs.insertionSort s := by
  have hmap := List.map_insertionSort r s id xs h
  rwa [List.map_id, List.map_id] at hmap

/-- In a sorted list of distinct keys, keys compare as their places. -/
theorem key_le_iff [LinearOrder ρ] {key : α → ρ} {xs : List α}
    (hsorted : xs.Pairwise fun a b => key a ≤ key b) (hnodup : (xs.map key).Nodup) {i k : ℕ}
    (hi : i < xs.length) (hk : k < xs.length) : key xs[i] ≤ key xs[k] ↔ i ≤ k := by
  have hle {i k : ℕ} (hi : i < xs.length) (hk : k < xs.length) (h : i ≤ k) :
      key xs[i] ≤ key xs[k] := by
    rcases h.lt_or_eq with hlt | rfl
    · exact List.pairwise_iff_getElem.mp hsorted i k hi hk hlt
    · exact le_rfl
  refine ⟨fun h => ?_, hle hi hk⟩
  by_contra hlt
  have heq : key xs[i] = key xs[k] := h.antisymm (hle hk hi (Nat.le_of_not_le hlt))
  have hsame : xs[i] = xs[k] :=
    List.inj_on_of_nodup_map hnodup (List.getElem_mem hi) (List.getElem_mem hk) heq
  have hindex : i = k := (List.Nodup.of_map key hnodup).getElem_inj_iff.mp hsame
  exact hlt hindex.le

/-- In a list that ascends in `g`, the argument of the maximum is the least in `g`. -/
theorem argmax_least [DecidableEq α] [LinearOrder β] {f : α → β} {g : α → ℕ} {xs : List α}
    (hsorted : xs.Pairwise fun x y => g x < g y) {m a : α} (hm : m ∈ xs.argmax f) (ha : a ∈ xs)
    (hle : f m ≤ f a) : g m ≤ g a := by
  have hmem := List.argmax_mem hm
  rcases (List.index_of_argmax hm ha hle).lt_or_eq with hlt | heq
  · have hlt' := List.pairwise_iff_getElem.mp hsorted _ _ (List.idxOf_lt_length_of_mem hmem)
      (List.idxOf_lt_length_of_mem ha) hlt
    rw [List.getElem_idxOf, List.getElem_idxOf] at hlt'
    exact hlt'.le
  · rw [(List.idxOf_inj hmem).mp heq]

end Kelpflux.Framework
