import Mathlib.Data.List.Basic
import Mathlib.Data.List.Induction
import Mathlib.Data.List.Nodup
import Mathlib.Tactic.Common

/-!
# Insertion-ordered dictionaries

A dictionary that remembers the order its keys were first set in, as the list
of its items: setting a key that is there changes its value in place.
-/

namespace Kelpflux.Framework

abbrev Dict (κ ν : Type) := List (κ × ν)

namespace Dict

variable {κ ν : Type} [DecidableEq κ]

def keys (d : Dict κ ν) : List κ := d.map Prod.fst

def get? (d : Dict κ ν) (k : κ) : Option ν := (d.find? fun kv => kv.1 = k).map Prod.snd

def set (d : Dict κ ν) (k : κ) (v : ν) : Dict κ ν :=
  if k ∈ d.keys then d.map fun kv => if kv.1 = k then (k, v) else kv else d ++ [(k, v)]

/-- `d.pop(k, None)`, without the value. -/
def erase (d : Dict κ ν) (k : κ) : Dict κ ν := d.filter fun kv => kv.1 ≠ k

def values (d : Dict κ ν) : List ν := d.map Prod.snd

/-- `{k: v for k, v in xs}`: of two values for one key the last. -/
def ofList (xs : List (κ × ν)) : Dict κ ν := xs.foldl (fun d kv => set d kv.1 kv.2) []

/-- `d.setdefault(k, []).append(v)` for each item of `xs`, from the empty
dictionary. -/
def group (xs : List (κ × ν)) : Dict κ (List ν) :=
  xs.foldl (fun d kv => set d kv.1 ((get? d kv.1).getD [] ++ [kv.2])) []

/-- The dictionary of the values' images. -/
def mapVal {ν' : Type} (g : ν → ν') (d : Dict κ ν) : Dict κ ν' := d.map fun kv => (kv.1, g kv.2)

theorem set_of_notMem {d : Dict κ ν} {k : κ} (h : k ∉ d.keys) (v : ν) : d.set k v = d ++ [(k, v)] :=
  if_neg h

theorem keys_erase (d : Dict κ ν) (k : κ) : (d.erase k).keys = d.keys.filter (· != k) := by
  simp [keys, erase, List.filter_map, Function.comp_def, bne, beq_eq_decide]

theorem erase_set (d : Dict κ ν) (k : κ) (v : ν) : (d.set k v).erase k = d.erase k := by
  unfold set
  split
  · clear * -
    induction d with
    | nil => rfl
    | cons kv d ih =>
      by_cases hk : kv.1 = k
      · simpa [erase, hk] using ih
      · simpa [erase, hk] using ih
  · simp [erase]

theorem erase_of_notMem {d : Dict κ ν} {k : κ} (h : k ∉ d.keys) : d.erase k = d :=
  List.filter_eq_self.mpr fun _ hkv => decide_eq_true fun hk => h (hk ▸ List.mem_map_of_mem hkv)

section mapVal

variable {ν' : Type} (g : ν → ν') (d : Dict κ ν)

omit [DecidableEq κ] in
@[simp] theorem keys_mapVal : (d.mapVal g).keys = d.keys := by simp [keys, mapVal]

theorem mapVal_set {k : κ} (h : k ∉ d.keys) (v : ν) :
    (d.set k v).mapVal g = (d.mapVal g).set k (g v) := by
  rw [set_of_notMem h, set_of_notMem (by rwa [keys_mapVal])]
  simp [mapVal]

theorem mapVal_erase (k : κ) : (d.erase k).mapVal g = (d.mapVal g).erase k := by
  simp [mapVal, erase, List.filter_map, Function.comp_def]

theorem get?_mapVal (k : κ) : (d.mapVal g).get? k = (d.get? k).map g := by
  simp only [get?, mapVal, List.find?_map, Option.map_map, Function.comp_def]

end mapVal

theorem get?_map {ks : List κ} (g : κ → ν) {k : κ} (h : k ∈ ks) :
    get? (ks.map fun k => (k, g k)) k = some (g k) := by
  induction ks with
  | nil => cases h
  | cons k' ks ih =>
    by_cases hk : k' = k
    · simp [get?, hk]
    · rw [← ih ((List.mem_cons.mp h).resolve_left (Ne.symm hk))]
      simp [get?, hk]

theorem get?_eq_none {d : Dict κ ν} {k : κ} : get? d k = none ↔ k ∉ d.keys := by
  simp only [get?, keys, Option.map_eq_none_iff, List.find?_eq_none, decide_eq_true_eq,
    List.mem_map, not_exists, not_and]

theorem get?_mem {d : Dict κ ν} {k : κ} {v : ν} (h : d.get? k = some v) : (k, v) ∈ d := by
  obtain ⟨kv, hkv, rfl⟩ := Option.map_eq_some_iff.mp h
  have hk : kv.1 = k := by simpa using List.find?_some hkv
  exact hk ▸ List.mem_of_find?_eq_some hkv

theorem get?_set (d : Dict κ ν) (k k' : κ) (v : ν) :
    get? (set d k v) k' = if k' = k then some v else get? d k' := by
  unfold set
  split
  · rename_i hk
    have hkey : ∀ kv : κ × ν, (if kv.1 = k then (k, v) else kv).1 = kv.1 := fun kv => by
      split
      · exact Eq.symm ‹_›
      · rfl
    simp only [get?, List.find?_map, Function.comp_def, hkey, Option.map_map]
    cases hfind : d.find? fun kv => kv.1 = k' with
    | none =>
      rw [if_neg]
      · rfl
      · rintro rfl
        exact get?_eq_none.mp (by rw [get?, hfind]; rfl) hk
    | some kv =>
      have hkv : kv.1 = k' := by simpa using List.find?_some hfind
      by_cases h : k' = k <;> simp [hkv, h]
  · rename_i hk
    simp only [get?, List.find?_append, Option.map_or]
    by_cases h : k' = k
    · rw [h, show (d.find? fun kv => kv.1 = k).map Prod.snd = none from get?_eq_none.mpr hk]
      simp
    · simp [h, Ne.symm h]

theorem keys_set (d : Dict κ ν) (k : κ) (v : ν) :
    (set d k v).keys = if k ∈ d.keys then d.keys else d.keys ++ [k] := by
  unfold set
  split
  · rw [keys, keys, List.map_map]
    refine List.map_congr_left fun kv _ => ?_
    by_cases h : kv.1 = k
    · simp [h]
    · simp [h]
  · simp [keys]

theorem mem_keys_set {d : Dict κ ν} {k k' : κ} {v : ν} :
    k' ∈ (set d k v).keys ↔ k' ∈ d.keys ∨ k' = k := by
  rw [keys_set]
  split
  · constructor
    · exact Or.inl
    · rintro (h | rfl)
      · exact h
      · assumption
  · simp

theorem mem_set {d : Dict κ ν} {k : κ} {v : ν} {kv : κ × ν} (h : kv ∈ set d k v) :
    kv = (k, v) ∨ kv ∈ d := by
  unfold set at h
  split at h
  · obtain ⟨kv', hkv', rfl⟩ := List.mem_map.mp h
    by_cases hk : kv'.1 = k
    · exact .inl (if_pos hk)
    · exact .inr ((if_neg hk).symm ▸ hkv')
  · exact (List.mem_append.mp h).symm.imp_left List.mem_singleton.mp

theorem nodup_set {d : Dict κ ν} (h : d.keys.Nodup) (k : κ) (v : ν) : (set d k v).keys.Nodup := by
  rw [keys_set]
  split
  · exact h
  · rename_i hk
    exact List.nodup_append.mpr ⟨h, List.nodup_singleton k, fun a ha b hb => by
      rw [List.mem_singleton.mp hb]
      exact fun hab => hk (hab ▸ ha)⟩

theorem get?_of_mem {d : Dict κ ν} (hd : d.keys.Nodup) {k : κ} {v : ν} (h : (k, v) ∈ d) :
    d.get? k = some v := by
  cases hg : d.get? k with
  | none => exact absurd (List.mem_map_of_mem h) (get?_eq_none.mp hg)
  | some w =>
    have := List.inj_on_of_nodup_map hd (get?_mem hg) h rfl
    rw [(Prod.mk.inj this).2]

theorem mem_keys_of_get? {d : Dict κ ν} {k : κ} {v : ν} (h : d.get? k = some v) : k ∈ d.keys :=
  List.mem_map_of_mem (get?_mem h)

theorem get?_of_mem_keys {d : Dict κ ν} {k : κ} (h : k ∈ d.keys) : ∃ v, d.get? k = some v := by
  cases hg : d.get? k with
  | none => exact absurd h (get?_eq_none.mp hg)
  | some v => exact ⟨v, rfl⟩

/-- Popping a key leaves the others. -/
theorem perm_erase {d : Dict κ ν} (hd : d.keys.Nodup) {k : κ} (h : k ∈ d.keys) :
    (k :: (d.erase k).keys).Perm d.keys := by
  rw [keys_erase, ← hd.erase_eq_filter]
  exact (List.perm_cons_erase h).symm

section ofList

theorem foldl_set (xs : List (κ × ν)) (d : Dict κ ν) (hd : d.keys.Nodup) :
    (xs.foldl (fun d kv => set d kv.1 kv.2) d).keys.Nodup ∧
      (∀ kv ∈ xs.foldl (fun d kv => set d kv.1 kv.2) d, kv ∈ d ∨ kv ∈ xs) ∧
      (∀ k, k ∈ (xs.foldl (fun d kv => set d kv.1 kv.2) d).keys ↔
        k ∈ d.keys ∨ k ∈ xs.map Prod.fst) ∧
      (xs.foldl (fun d kv => set d kv.1 kv.2) d).length ≤ d.length + xs.length := by
  induction xs generalizing d with
  | nil => exact ⟨hd, fun kv h => .inl h, by simp, by simp⟩
  | cons x xs ih =>
    obtain ⟨h1, h2, h3, h4⟩ := ih (set d x.1 x.2) (nodup_set hd _ _)
    refine ⟨h1, fun kv hkv => ?_, fun k => ?_, ?_⟩
    · rcases h2 kv hkv with h | h
      · exact (mem_set h).symm.imp_right fun h => List.mem_cons.mpr (.inl h)
      · exact .inr (List.mem_cons_of_mem _ h)
    · rw [List.foldl_cons, h3, mem_keys_set, List.map_cons, List.mem_cons, or_assoc]
    · have hlen : (set d x.1 x.2).length ≤ d.length + 1 := by
        unfold set
        split <;> simp
      rw [List.foldl_cons, List.length_cons]
      omega

theorem nodup_ofList (xs : List (κ × ν)) : (ofList xs).keys.Nodup :=
  (foldl_set xs [] List.nodup_nil).1

theorem mem_of_mem_ofList {xs : List (κ × ν)} {kv : κ × ν} (h : kv ∈ ofList xs) : kv ∈ xs :=
  ((foldl_set xs [] List.nodup_nil).2.1 kv h).resolve_left List.not_mem_nil

theorem mem_keys_ofList {xs : List (κ × ν)} {k : κ} : k ∈ (ofList xs).keys ↔ k ∈ xs.map Prod.fst := by
  refine ((foldl_set xs [] List.nodup_nil).2.2.1 k).trans ?_
  simp [keys]

/-- The last item of a key counts. -/
theorem get?_ofList (xs : List (κ × ν)) (k : κ) :
    (ofList xs).get? k = (xs.reverse.find? fun kv => kv.1 = k).map Prod.snd := by
  induction xs using List.reverseRecOn with
  | nil => rfl
  | append_singleton xs x ih =>
    have hlast : ofList (xs ++ [x]) = (ofList xs).set x.1 x.2 := by
      unfold ofList
      rw [List.foldl_append, List.foldl_cons, List.foldl_nil]
    rw [hlast, get?_set, List.reverse_append, List.reverse_singleton, List.singleton_append,
      List.find?_cons]
    by_cases hk : k = x.1
    · simp [hk]
    · simp [hk, Ne.symm hk, ih]

theorem length_ofList_le (xs : List (κ × ν)) : (ofList xs).length ≤ xs.length := by
  have := (foldl_set xs [] List.nodup_nil).2.2.2
  simpa [ofList] using this

/-- Of distinct keys nothing is lost. -/
theorem ofList_eq {xs : List (κ × ν)} (h : (xs.map Prod.fst).Nodup) : ofList xs = xs := by
  have key : ∀ (ys : List (κ × ν)) (d : Dict κ ν), ((d ++ ys).map Prod.fst).Nodup →
      ys.foldl (fun d kv => set d kv.1 kv.2) d = d ++ ys := by
    intro ys
    induction ys with
    | nil => exact fun d _ => (List.append_nil d).symm
    | cons y ys ih =>
      intro d hd
      have hy : y.1 ∉ keys d := by
        rw [List.map_append, List.map_cons] at hd
        exact fun hmem => (List.nodup_append.mp hd).2.2 y.1 hmem y.1 List.mem_cons_self rfl
      rw [List.foldl_cons, set_of_notMem hy, ih _ (by simpa using hd)]
      simp
  exact (key xs [] (by simpa using h)).trans (List.nil_append xs)

end ofList

section group

theorem foldl_group (xs : List (κ × ν)) (d : Dict κ (List ν)) (hd : d.keys.Nodup) (k : κ) :
    ((xs.foldl (fun d kv => set d kv.1 ((get? d kv.1).getD [] ++ [kv.2])) d).keys.Nodup) ∧
    (get? (xs.foldl (fun d kv => set d kv.1 ((get? d kv.1).getD [] ++ [kv.2])) d) k).getD []
      = (get? d k).getD [] ++ (xs.filter fun kv => kv.1 = k).map Prod.snd := by
  induction xs generalizing d with
  | nil => exact ⟨hd, by simp⟩
  | cons x xs ih =>
    obtain ⟨hnodup, hget⟩ := ih (set d x.1 ((get? d x.1).getD [] ++ [x.2])) (nodup_set hd _ _)
    refine ⟨hnodup, hget.trans ?_⟩
    rw [get?_set]
    by_cases hk : k = x.1
    · simp [hk]
    · simp [hk, Ne.symm hk]

/-- A key's group is its values, in their order. -/
theorem get?_group (xs : List (κ × ν)) (k : κ) : (group xs).keys.Nodup ∧
    ((group xs).get? k).getD [] = (xs.filter fun kv => kv.1 = k).map Prod.snd :=
  foldl_group xs [] List.nodup_nil k

theorem mem_group {xs : List (κ × ν)} {k : κ} {vs : List ν} (h : (k, vs) ∈ group xs) :
    vs = (xs.filter fun kv => kv.1 = k).map Prod.snd := by
  obtain ⟨hnodup, hget⟩ := get?_group xs k
  rwa [get?_of_mem hnodup h] at hget

/-- Which values the groups have. -/
theorem exists_mem_group {xs : List (κ × ν)} {k : κ} {v : ν} :
    (∃ vs, (k, vs) ∈ group xs ∧ v ∈ vs) ↔ (k, v) ∈ xs := by
  have hfilter : v ∈ (xs.filter fun kv => kv.1 = k).map Prod.snd ↔ (k, v) ∈ xs := by simp
  rw [← hfilter]
  constructor
  · rintro ⟨vs, hmem, hv⟩
    rwa [mem_group hmem] at hv
  · intro hv
    rw [← (get?_group xs k).2] at hv
    cases hvs : (group xs).get? k with
    | none =>
      rw [hvs] at hv
      exact absurd hv List.not_mem_nil
    | some vs =>
      rw [hvs] at hv
      exact ⟨vs, get?_mem hvs, hv⟩

end group

end Dict

end Kelpflux.Framework
