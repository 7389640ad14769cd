import Kelpflux.Framework.Dict
import Mathlib.Algebra.BigOperators.Group.List.Basic
import Mathlib.Algebra.Order.BigOperators.Group.List
import Mathlib.Tactic.Abel

/-!
# Ledgers

A budget of each resource, of which the entries of a dictionary take a part and
leave the rest free (`Balanced`). A new entry takes its part from what is free
(`Balanced.take`) and gives it back when it is erased (`Balanced.give`), in any
order; with no entries left all of the budget is free (`Balanced.nil`).
-/

namespace Kelpflux.Framework

variable {κ ν ρ M : Type} [DecidableEq κ] [AddCommGroup M] {amount : ν → ρ → M}

/-- What the entries take of a resource. -/
def taken (amount : ν → ρ → M) (d : Dict κ ν) (r : ρ) : M := (d.map fun kv => amount kv.2 r).sum

theorem taken_set {d : Dict κ ν} {k : κ} (h : k ∉ d.keys) (v : ν) (r : ρ) :
    taken amount (d.set k v) r = taken amount d r + amount v r := by
  simp [taken, Dict.set_of_notMem h]

theorem taken_erase {d : Dict κ ν} {k : κ} {v : ν} (hd : d.keys.Nodup) (h : d.get? k = some v)
    (r : ρ) : taken amount (d.erase k) r + amount v r = taken amount d r := by
  induction d with
  | nil => cases h
  | cons kv d ih =>
    obtain ⟨hnot, hd⟩ := List.nodup_cons.mp hd
    by_cases hk : kv.1 = k
    · obtain rfl : kv.2 = v := by simpa [Dict.get?, hk] using h
      have herase : Dict.erase (kv :: d) k = d := by
        rw [Dict.erase, List.filter_cons_of_neg (by simpa using hk), List.filter_eq_self]
        intro kv' hmem
        simp only [ne_eq, decide_not, Bool.not_eq_true', decide_eq_false_iff_not]
        rintro rfl
        exact hnot (hk ▸ List.mem_map_of_mem hmem)
      rw [herase, taken, taken, List.map_cons, List.sum_cons, add_comm]
    · have herase : Dict.erase (kv :: d) k = kv :: Dict.erase d k :=
        List.filter_cons_of_pos (by simpa using hk)
      have hget : Dict.get? d k = some v := by simpa [Dict.get?, hk] using h
      have hrec := ih hd hget
      simp only [taken] at hrec ⊢
      rw [herase, List.map_cons, List.map_cons, List.sum_cons, List.sum_cons, add_assoc, hrec]

omit [AddCommGroup M] in
/-- An entry that is set takes at most its amount more. -/
theorem taken_set_le [AddCommGroup M] [PartialOrder M] [IsOrderedAddMonoid M] {amount : ν → ρ → M}
    {d : Dict κ ν} (hd : d.keys.Nodup) (k : κ) (v : ν) (r : ρ) (h : ∀ kv ∈ d, 0 ≤ amount kv.2 r) :
    taken amount (d.set k v) r ≤ taken amount d r + amount v r := by
  have hget : (d.set k v).get? k = some v := by
    rw [Dict.get?_set, if_pos rfl]
  rw [← taken_erase (Dict.nodup_set hd k v) hget, Dict.erase_set]
  refine add_le_add_left ?_ _
  cases hold : d.get? k with
  | none => rw [Dict.erase_of_notMem (Dict.get?_eq_none.mp hold)]
  | some w =>
    rw [← taken_erase hd hold r]
    exact le_add_of_nonneg_right (h _ (Dict.get?_mem hold))

omit [DecidableEq κ] [AddCommGroup M] in
theorem taken_nonneg [AddCommGroup M] [PartialOrder M] [IsOrderedAddMonoid M] {d : Dict κ ν}
    {r : ρ} (h : ∀ kv ∈ d, 0 ≤ amount kv.2 r) : 0 ≤ taken amount d r :=
  List.sum_nonneg fun x hx => by
    obtain ⟨kv, hkv, rfl⟩ := List.mem_map.mp hx
    exact h kv hkv

/-- What the entries take and what is free add up to the budget. -/
structure Balanced (amount : ν → ρ → M) (budget free : ρ → M) (d : Dict κ ν) : Prop where
  nodup : d.keys.Nodup
  sum : ∀ r, free r + taken amount d r = budget r

namespace Balanced

variable {budget free free' : ρ → M} {d : Dict κ ν} {k : κ} {v : ν}

omit [DecidableEq κ] in
theorem start (amount : ν → ρ → M) (budget : ρ → M) : Balanced amount budget budget ([] : Dict κ ν) :=
  ⟨List.nodup_nil, fun _ => add_zero _⟩

theorem take (h : Balanced amount budget free d) (hk : k ∉ d.keys)
    (hfree : ∀ r, free' r = free r - amount v r) : Balanced amount budget free' (d.set k v) := by
  refine ⟨?_, fun r => ?_⟩
  · rw [Dict.set_of_notMem hk, Dict.keys, List.map_append, List.map_singleton,
      ← List.concat_eq_append]
    exact h.nodup.concat hk
  · rw [taken_set hk, hfree, ← h.sum r]
    abel

theorem give (h : Balanced amount budget free d) (hv : d.get? k = some v)
    (hfree : ∀ r, free' r = free r + amount v r) : Balanced amount budget free' (d.erase k) := by
  refine ⟨?_, fun r => ?_⟩
  · rw [Dict.keys_erase]
    exact h.nodup.filter _
  · rw [← h.sum r, ← taken_erase h.nodup hv r, hfree]
    abel

omit [DecidableEq κ] in
theorem nil (h : Balanced amount budget free ([] : Dict κ ν)) : free = budget :=
  funext fun r => (add_zero _).symm.trans (h.sum r)

end Balanced

end Kelpflux.Framework
