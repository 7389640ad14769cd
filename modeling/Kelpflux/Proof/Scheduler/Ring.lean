import Kelpflux.Impl.Scheduler.Prioritized
import Kelpflux.Proof.Scheduler.ShadowLog
import Mathlib.Data.Nat.ModEq

/-!
# What the replay buffers hold

After any adds a buffer of either kind holds the last ones, the `k`-th in slot
`k % capacity` (`addAll_held`), but for the masks: an add without one leaves
the slot's as it was, so that it has the last that was given for the slot
(`Latest`), and all actions only where that one, if any, has them too:
`holdsLast_iff`.
-/

namespace Kelpflux.Proof.Scheduler

open Framework Framework.Python Impl.Scheduler.Replay

/-- A transition and its discount. -/
abbrev AddArgs := Transition × PyFloat

/-- A transition has a row's entries. -/
structure RowShaped (obsDim nActions : ℕ) (t : Transition) : Prop where
  obs : t.obs.length = obsDim
  nextObs : t.nextObs.length = obsDim
  mask : ∀ m ∈ t.mask, m.length = nActions
  nextMask : ∀ m ∈ t.nextMask, m.length = nActions

/-- A slot has a transition, with all actions legal where it has no mask. -/
structure SlotHolds (f32 : PyFloat → PyFloat) (b : ReplayBuffer) (i : ℕ) (a : AddArgs) : Prop where
  obs : b.obs i = a.1.obs
  act : b.acts i = a.1.act
  rew : b.rews i = f32 a.1.rew
  nextObs : b.nextObs i = a.1.nextObs
  done : b.dones i = a.1.done
  gamma : b.gammas i = f32 a.2
  mask : b.masks i = a.1.mask.getD (List.replicate b.nActions true)
  nextMask : b.nextMasks i = a.1.nextMask.getD (List.replicate b.nActions true)

/-- The buffer holds the last of `adds`, in ring order. -/
structure HoldsLast (f32 : PyFloat → PyFloat) (adds : List AddArgs) (b : ReplayBuffer) : Prop where
  size : b.size = min adds.length b.capacity
  idx : b.idx = adds.length % b.capacity
  holds : ∀ k a, adds[k]? = some a → adds.length ≤ k + b.capacity → SlotHolds f32 b (k % b.capacity) a

/-- Add `j` is the last one into slot `i` that came with a mask, which is `mask`. -/
def Latest (given : Transition → Option (List Bool)) (capacity : ℕ) (adds : List AddArgs) (i j : ℕ)
    (mask : List Bool) : Prop :=
  j % capacity = i ∧ (∃ a, adds[j]? = some a ∧ given a.1 = some mask) ∧
    ∀ k a, j < k → k % capacity = i → adds[k]? = some a → given a.1 = none

/-- No add that the buffer still holds came without a mask into a slot whose
last mask forbids an action. -/
def NoneStale (given : Transition → Option (List Bool)) (nActions capacity : ℕ)
    (adds : List AddArgs) : Prop :=
  ∀ k a, adds[k]? = some a → adds.length ≤ k + capacity → given a.1 = none →
    ∀ j mask, Latest given capacity adds (k % capacity) j mask → mask = List.replicate nActions true

variable {f32 : PyFloat → PyFloat} {given : Transition → Option (List Bool)}
  {obsDim nActions capacity : ℕ} {adds : List AddArgs} {a : AddArgs} {b b' : ReplayBuffer}

/-! ## One add -/

/-- The buffer with rows in its next slot. -/
def put (f32 : PyFloat → PyFloat) (b : ReplayBuffer) (a : AddArgs) (obs nextObs : List PyFloat)
    (mask nextMask : List Bool) : ReplayBuffer :=
  { b with
    obs := Function.update b.obs b.idx obs
    acts := Function.update b.acts b.idx a.1.act
    rews := Function.update b.rews b.idx (f32 a.1.rew)
    nextObs := Function.update b.nextObs b.idx nextObs
    dones := Function.update b.dones b.idx a.1.done
    gammas := Function.update b.gammas b.idx (f32 a.2)
    masks := Function.update b.masks b.idx mask
    nextMasks := Function.update b.nextMasks b.idx nextMask
    idx := (b.idx + 1) % b.capacity
    size := min (b.size + 1) b.capacity }

/-- The row that a slot has after an add with mask `m`, where it had `old`. -/
def maskRow (nActions : ℕ) (old : List Bool) : Option (List Bool) → Except Exc (List Bool)
  | none => .ok old
  | some mask => assignRow nActions mask

theorem maskRow_ok {m : Option (List Bool)} {old : List Bool} (h : ∀ x ∈ m, x.length = nActions) :
    maskRow nActions old m = .ok (m.getD old) := by
  cases m with
  | none => rfl
  | some mask => exact assignRow_length (h mask rfl)

theorem add_eq (hidx : b.idx < b.capacity) :
    b.add f32 a.1 a.2 = (do
      let obs ← assignRow b.obsDim a.1.obs
      let nextObs ← assignRow b.obsDim a.1.nextObs
      let mask ← maskRow b.nActions (b.masks b.idx) a.1.mask
      let nextMask ← maskRow b.nActions (b.nextMasks b.idx) a.1.nextMask
      return put f32 b a obs nextObs mask nextMask) := by
  unfold ReplayBuffer.add
  rw [if_neg (Nat.not_le.mpr hidx)]
  cases a.1.mask <;> cases a.1.nextMask <;> rfl

/-- An add that raises nothing fills the next slot. -/
theorem add_ok (h : b.add f32 a.1 a.2 = .ok b') :
    b.idx < b.capacity ∧ ∃ obs nextObs mask nextMask, b' = put f32 b a obs nextObs mask nextMask := by
  by_cases hidx : b.idx < b.capacity
  · rw [add_eq hidx] at h
    obtain ⟨obs, -, h⟩ := bind_eq_ok.mp h
    obtain ⟨nextObs, -, h⟩ := bind_eq_ok.mp h
    obtain ⟨mask, -, h⟩ := bind_eq_ok.mp h
    obtain ⟨nextMask, -, h⟩ := bind_eq_ok.mp h
    exact ⟨hidx, obs, nextObs, mask, nextMask, (Except.ok.inj h).symm⟩
  · unfold ReplayBuffer.add at h
    rw [if_pos (Nat.not_lt.mp hidx)] at h
    cases h

/-- A transition of the right shape fills the next slot. -/
theorem add_shaped (hshaped : RowShaped b.obsDim b.nActions a.1) (hidx : b.idx < b.capacity) :
    b.add f32 a.1 a.2 = .ok (put f32 b a a.1.obs a.1.nextObs (a.1.mask.getD (b.masks b.idx))
      (a.1.nextMask.getD (b.nextMasks b.idx))) := by
  rw [add_eq hidx, assignRow_length hshaped.obs, assignRow_length hshaped.nextObs,
    maskRow_ok hshaped.mask, maskRow_ok hshaped.nextMask]
  rfl

/-! ## Masks that were given -/

theorem latest_append {i j : ℕ} {mask : List Bool} :
    Latest given capacity (adds ++ [a]) i j mask ↔
      if adds.length % capacity = i ∧ given a.1 ≠ none then j = adds.length ∧ given a.1 = some mask
      else Latest given capacity adds i j mask := by
  have hlast : (adds ++ [a])[adds.length]? = some a := List.getElem?_concat_length
  have hbefore : ∀ {k}, k < adds.length → (adds ++ [a])[k]? = adds[k]? := fun h =>
    List.getElem?_append_left h
  have hlt : ∀ {k c}, adds[k]? = some c → k < adds.length := fun h =>
    (List.getElem?_eq_some_iff.mp h).1
  have hcases : ∀ {k c}, (adds ++ [a])[k]? = some c → adds[k]? = some c ∨ k = adds.length ∧ c = a := by
    intro k c h
    rcases Nat.lt_trichotomy k adds.length with hk | hk | hk
    · exact .inl (hbefore hk ▸ h)
    · subst hk
      exact .inr ⟨rfl, Option.some.inj (h.symm.trans hlast)⟩
    · rw [List.getElem?_eq_none (by simp; omega)] at h
      cases h
  split
  · rename_i hnew
    constructor
    · rintro ⟨hj, ⟨c, hc, hmask⟩, hafter⟩
      rcases hcases hc with hc | ⟨rfl, rfl⟩
      · exact absurd (hafter _ _ (hlt hc) hnew.1 hlast) hnew.2
      · exact ⟨rfl, hmask⟩
    · rintro ⟨rfl, hmask⟩
      refine ⟨hnew.1, ⟨a, hlast, hmask⟩, fun k c hk _ hc => ?_⟩
      rcases hcases hc with hc | ⟨rfl, -⟩
      · exact absurd (hlt hc) (by omega)
      · exact absurd hk (Nat.lt_irrefl _)
  · rename_i hold
    rw [not_and_not_right] at hold
    constructor
    · rintro ⟨hj, ⟨c, hc, hmask⟩, hafter⟩
      rcases hcases hc with hc | ⟨rfl, rfl⟩
      · exact ⟨hj, ⟨c, hc, hmask⟩, fun k d hk hi hd =>
          hafter k d hk hi (hbefore (hlt hd) ▸ hd)⟩
      · rw [hold hj] at hmask
        cases hmask
    · rintro ⟨hj, ⟨c, hc, hmask⟩, hafter⟩
      refine ⟨hj, ⟨c, hbefore (hlt hc) ▸ hc, hmask⟩, fun k d hk hi hd => ?_⟩
      rcases hcases hd with hd | ⟨rfl, rfl⟩
      · exact hafter k d hk hi hd
      · exact hold hi

/-- The masks of the slots are the last that were given for each. -/
structure LastGiven (given : Transition → Option (List Bool)) (nActions capacity : ℕ)
    (adds : List AddArgs) (masks : ℕ → List Bool) : Prop where
  latest : ∀ i j mask, Latest given capacity adds i j mask → masks i = mask
  never : ∀ i, (∀ j mask, ¬ Latest given capacity adds i j mask) →
    masks i = List.replicate nActions true

variable {masks : ℕ → List Bool}

theorem lastGiven_new :
    LastGiven given nActions capacity [] fun _ => List.replicate nActions true where
  latest := by
    rintro i j mask ⟨-, ⟨c, hc, -⟩, -⟩
    cases hc
  never := fun _ _ => rfl

theorem LastGiven.append (h : LastGiven given nActions capacity adds masks) :
    LastGiven given nActions capacity (adds ++ [a])
      (Function.update masks (adds.length % capacity)
        ((given a.1).getD (masks (adds.length % capacity)))) where
  latest := by
    intro i j mask hlatest
    rw [latest_append] at hlatest
    split at hlatest
    · rename_i hnew
      rw [← hnew.1, Function.update_self, hlatest.2]
      rfl
    · rename_i hold
      rw [not_and_not_right] at hold
      by_cases hi : i = adds.length % capacity
      · subst hi
        rw [Function.update_self, hold rfl]
        exact h.latest _ _ _ hlatest
      · rw [Function.update_of_ne hi]
        exact h.latest _ _ _ hlatest
  never := by
    intro i hnone
    by_cases hi : i = adds.length % capacity
    · subst hi
      rw [Function.update_self]
      cases hgiven : given a.1 with
      | none =>
        refine h.never _ fun j mask hlatest => hnone j mask ?_
        rwa [latest_append, if_neg (by simp [hgiven])]
      | some mask =>
        refine absurd ?_ (hnone adds.length mask)
        rw [latest_append, if_pos (by simp [hgiven])]
        exact ⟨rfl, hgiven⟩
    · rw [Function.update_of_ne hi]
      refine h.never _ fun j mask hlatest => hnone j mask ?_
      rwa [latest_append, if_neg fun hnew => hi hnew.1.symm]

/-- Adds less than a turn apart go to different slots. -/
theorem slot_ne {k n : ℕ} (hlt : k < n) (hn : n < k + capacity) : k % capacity ≠ n % capacity := by
  intro h
  have hdvd : capacity ∣ n - k := (Nat.modEq_iff_dvd' hlt.le).mp h
  have hle := Nat.le_of_dvd (by omega) hdvd
  omega

/-- The slots that are still held have the mask that came with the add, or all
actions, exactly when none of them has a stale one. -/
theorem LastGiven.held_iff (h : LastGiven given nActions capacity adds masks) :
    (∀ k a, adds[k]? = some a → adds.length ≤ k + capacity →
      masks (k % capacity) = (given a.1).getD (List.replicate nActions true)) ↔
    NoneStale given nActions capacity adds := by
  constructor
  · intro hheld k a hk hlast hgiven j mask hlatest
    have hmask := hheld k a hk hlast
    rw [hgiven] at hmask
    exact (h.latest _ _ _ hlatest).symm.trans hmask
  · intro hfresh k a hk hlast
    cases hgiven : given a.1 with
    | some mask =>
      refine h.latest _ k mask ⟨rfl, ⟨a, hk, hgiven⟩, fun n c hn hslot hc => ?_⟩
      -- a later add into the slot would be a turn later, past the last one
      have hlt := (List.getElem?_eq_some_iff.mp hc).1
      exact absurd hslot.symm (slot_ne hn (by omega))
    | none =>
      by_cases hever : ∃ j mask, Latest given capacity adds (k % capacity) j mask
      · obtain ⟨j, mask, hlatest⟩ := hever
        exact (h.latest _ _ _ hlatest).trans (hfresh k a hk hlast hgiven j mask hlatest)
      · exact h.never _ fun j mask hlatest => hever ⟨j, mask, hlatest⟩

/-! ## All adds -/

/-- What a slot has of a transition, the masks apart. -/
structure RowHolds (f32 : PyFloat → PyFloat) (b : ReplayBuffer) (i : ℕ) (a : AddArgs) : Prop where
  obs : b.obs i = a.1.obs
  act : b.acts i = a.1.act
  rew : b.rews i = f32 a.1.rew
  nextObs : b.nextObs i = a.1.nextObs
  done : b.dones i = a.1.done
  gamma : b.gammas i = f32 a.2

/-- The invariant of the adds. -/
structure Held (f32 : PyFloat → PyFloat) (obsDim nActions capacity : ℕ) (adds : List AddArgs)
    (b : ReplayBuffer) : Prop where
  capacity_eq : b.capacity = capacity
  obsDim_eq : b.obsDim = obsDim
  nActions_eq : b.nActions = nActions
  size : b.size = min adds.length capacity
  idx : b.idx = adds.length % capacity
  rows : ∀ k a, adds[k]? = some a → adds.length ≤ k + capacity → RowHolds f32 b (k % capacity) a
  masks : LastGiven Transition.mask nActions capacity adds b.masks
  nextMasks : LastGiven Transition.nextMask nActions capacity adds b.nextMasks

theorem new_held : Held f32 obsDim nActions capacity [] (.new f32 capacity obsDim nActions) where
  capacity_eq := rfl
  obsDim_eq := rfl
  nActions_eq := rfl
  size := (Nat.zero_min capacity).symm
  idx := (Nat.zero_mod capacity).symm
  rows := fun _ _ h => by cases h
  masks := lastGiven_new
  nextMasks := lastGiven_new

theorem put_row (obs nextObs : List PyFloat) (mask nextMask : List Bool)
    (hobs : obs = a.1.obs) (hnext : nextObs = a.1.nextObs) :
    RowHolds f32 (put f32 b a obs nextObs mask nextMask) b.idx a where
  obs := (Function.update_self ..).trans hobs
  act := Function.update_self ..
  rew := Function.update_self ..
  nextObs := (Function.update_self ..).trans hnext
  done := Function.update_self ..
  gamma := Function.update_self ..

theorem RowHolds.put_of_ne {i : ℕ} {c : AddArgs} {obs nextObs : List PyFloat}
    {mask nextMask : List Bool} (h : RowHolds f32 b i c) (hne : i ≠ b.idx) :
    RowHolds f32 (put f32 b a obs nextObs mask nextMask) i c where
  obs := (Function.update_of_ne hne _ _).trans h.obs
  act := (Function.update_of_ne hne _ _).trans h.act
  rew := (Function.update_of_ne hne _ _).trans h.rew
  nextObs := (Function.update_of_ne hne _ _).trans h.nextObs
  done := (Function.update_of_ne hne _ _).trans h.done
  gamma := (Function.update_of_ne hne _ _).trans h.gamma

/-- One more add. -/
theorem Held.add (h : Held f32 obsDim nActions capacity adds b) (hcap : 1 ≤ capacity)
    (hshaped : RowShaped obsDim nActions a.1) :
    ∃ b', b.add f32 a.1 a.2 = .ok b' ∧ Held f32 obsDim nActions capacity (adds ++ [a]) b' := by
  have hidx : b.idx < b.capacity := by
    rw [h.idx, h.capacity_eq]
    exact Nat.mod_lt _ hcap
  refine ⟨_, add_shaped (by rwa [h.obsDim_eq, h.nActions_eq]) hidx, ?_⟩
  constructor
  case capacity_eq => exact h.capacity_eq
  case obsDim_eq => exact h.obsDim_eq
  case nActions_eq => exact h.nActions_eq
  case size =>
    show min (b.size + 1) b.capacity = _
    rw [h.size, h.capacity_eq, List.length_append, List.length_singleton]
    omega
  case idx =>
    show (b.idx + 1) % b.capacity = _
    rw [h.idx, h.capacity_eq, Nat.mod_add_mod, List.length_append, List.length_singleton]
  case rows =>
    intro k c hk hlast
    rw [List.length_append, List.length_singleton] at hlast
    rcases Nat.lt_trichotomy k adds.length with hlt | rfl | hgt
    · rw [List.getElem?_append_left hlt] at hk
      refine (h.rows k c hk (by omega)).put_of_ne ?_
      rw [h.idx]
      exact slot_ne hlt (by omega)
    · obtain rfl : a = c := Option.some.inj (List.getElem?_concat_length.symm.trans hk)
      rw [← h.idx]
      exact put_row _ _ _ _ rfl rfl
    · rw [List.getElem?_eq_none (by simp; omega)] at hk
      cases hk
  case masks =>
    have hmasks := h.masks.append (a := a)
    rwa [← h.idx] at hmasks
  case nextMasks =>
    have hmasks := h.nextMasks.append (a := a)
    rwa [← h.idx] at hmasks

/-- `add` of each in turn. -/
def addAll (f32 : PyFloat → PyFloat) (b : ReplayBuffer) (adds : List AddArgs) :
    Except Exc ReplayBuffer := adds.foldlM (fun b a => b.add f32 a.1 a.2) b

theorem addAll_held (hcap : 1 ≤ capacity) {later : List AddArgs}
    (hshaped : ∀ a ∈ later, RowShaped obsDim nActions a.1)
    (h : Held f32 obsDim nActions capacity adds b) :
    ∃ b', addAll f32 b later = .ok b' ∧ Held f32 obsDim nActions capacity (adds ++ later) b' := by
  induction later generalizing adds b with
  | nil => exact ⟨b, rfl, by rwa [List.append_nil]⟩
  | cons a later ih =>
    obtain ⟨b₁, hadd, hheld⟩ := h.add hcap (hshaped a List.mem_cons_self)
    obtain ⟨b₂, hrest, hheld₂⟩ := ih (fun c hc => hshaped c (List.mem_cons_of_mem _ hc)) hheld
    refine ⟨b₂, ?_, by rwa [List.append_assoc, List.singleton_append] at hheld₂⟩
    rw [addAll, List.foldlM_cons, hadd]
    exact hrest

theorem Held.holds_iff_omitted (h : Held f32 obsDim nActions capacity adds b) :
    HoldsLast f32 adds b ↔ NoneStale Transition.mask nActions capacity adds ∧
      NoneStale Transition.nextMask nActions capacity adds := by
  have hcapacity := h.capacity_eq
  have hnActions := h.nActions_eq
  subst hcapacity hnActions
  rw [← h.masks.held_iff, ← h.nextMasks.held_iff]
  constructor
  · intro hlast
    exact ⟨fun k a hk hge => (hlast.holds k a hk hge).mask,
      fun k a hk hge => (hlast.holds k a hk hge).nextMask⟩
  · rintro ⟨hmask, hnext⟩
    refine ⟨h.size, h.idx, fun k a hk hge => ?_⟩
    have hrow := h.rows k a hk hge
    exact ⟨hrow.obs, hrow.act, hrow.rew, hrow.nextObs, hrow.done, hrow.gamma, hmask k a hk hge,
      hnext k a hk hge⟩

/-! ## Both buffers -/

section Prioritized

variable {K : Type} [Field K] [LinearOrder K]

/-- `add` of each in turn. -/
def addAllPrioritized (f32 : PyFloat → PyFloat) (pow : K → K → K) (b : PrioritizedReplayBuffer K)
    (adds : List AddArgs) : Except Exc (PrioritizedReplayBuffer K) :=
  adds.foldlM (fun b a => b.add f32 pow a.1 a.2) b

/-- The arrays of a prioritized buffer are those of a uniform one. -/
theorem addAllPrioritized_arrays (pow : K → K → K) {p : PrioritizedReplayBuffer K}
    (h : addAll f32 p.toReplayBuffer adds = .ok b) :
    ∃ p', addAllPrioritized f32 pow p adds = .ok p' ∧ p'.toReplayBuffer = b := by
  induction adds generalizing p with
  | nil => exact ⟨p, rfl, Except.ok.inj h⟩
  | cons a adds ih =>
    rw [addAll, List.foldlM_cons] at h
    obtain ⟨arrays, hadd, hrest⟩ := bind_eq_ok.mp h
    let p' : PrioritizedReplayBuffer K := { p with
      toReplayBuffer := arrays
      priorities := p.priorities.update p.idx (pow p.priorities.maxPriority p.alpha) }
    have hadd' : p.add f32 pow a.1 a.2 = .ok p' := by
      unfold PrioritizedReplayBuffer.add
      rw [hadd]
      rfl
    obtain ⟨p'', hall, harrays⟩ := ih (p := p') hrest
    refine ⟨p'', ?_, harrays⟩
    rw [addAllPrioritized, List.foldlM_cons, hadd']
    exact hall

/-- Each buffer holds the last transitions as they were added, exactly when no
stale mask stands in for one that was left out. -/
theorem holdsLast_iff (f32 : PyFloat → PyFloat) (pow : K → K → K) (alpha betaStart betaEnd : K)
    (betaSteps obsDim nActions : ℕ) {capacity : ℕ} (hcap : 1 ≤ capacity) {adds : List AddArgs}
    (hshaped : ∀ a ∈ adds, RowShaped obsDim nActions a.1) :
    ∃ b p, addAll f32 (.new f32 capacity obsDim nActions) adds = .ok b ∧
      addAllPrioritized f32 pow
        (.new f32 capacity obsDim nActions alpha betaStart betaEnd betaSteps) adds = .ok p ∧
      b.capacity = capacity ∧ b.nActions = nActions ∧ p.toReplayBuffer = b ∧
      (HoldsLast f32 adds b ↔ NoneStale Transition.mask nActions capacity adds ∧
        NoneStale Transition.nextMask nActions capacity adds) := by
  obtain ⟨b, hall, hheld⟩ := addAll_held hcap hshaped
    (new_held : Held f32 obsDim nActions capacity [] _)
  obtain ⟨p, hall', harrays⟩ := addAllPrioritized_arrays pow
    (p := .new f32 capacity obsDim nActions alpha betaStart betaEnd betaSteps) hall
  exact ⟨b, p, hall, hall', hheld.capacity_eq, hheld.nActions_eq, harrays, hheld.holds_iff_omitted⟩

end Prioritized

/-- Two adds into one slot: the second comes without a mask. -/
def staleAdds : List AddArgs :=
  [({ obs := [.fin 0], act := 0, rew := .fin 1, nextObs := [.fin 0], done := false,
      mask := some [false, true], nextMask := some [true, true] }, .fin (99 / 100)),
    ({ obs := [.fin 1], act := 1, rew := .fin 2, nextObs := [.fin 1], done := true },
      .fin (99 / 100))]

theorem staleAdds_shaped : ∀ a ∈ staleAdds, RowShaped 1 2 a.1 := by
  intro a ha
  rcases List.mem_pair.mp ha with rfl | rfl <;> constructor <;> simp

theorem holdsLast_iff_stale :
    1 ≤ 1 ∧ (∀ a ∈ staleAdds, RowShaped 1 2 a.1) ∧
      ∃ (b : ReplayBuffer) (p : PrioritizedReplayBuffer ℚ),
        addAll id (.new id 1 1 2) staleAdds = .ok b ∧
        addAllPrioritized id (fun x _ => x) (.new id 1 1 2 1 1 1 1) staleAdds = .ok p ∧
        b.capacity = 1 ∧ b.nActions = 2 ∧ p.toReplayBuffer = b ∧
        (HoldsLast id staleAdds b ↔ NoneStale Transition.mask 2 1 staleAdds ∧
          NoneStale Transition.nextMask 2 1 staleAdds) :=
  ⟨by decide, staleAdds_shaped,
    holdsLast_iff id (fun x _ => x) 1 1 1 1 1 2 (by decide) staleAdds_shaped⟩

/-- The slot keeps the mask of the transition that was in it before. -/
theorem stale_mask_kept :
    ∃ (b : ReplayBuffer) (p : PrioritizedReplayBuffer ℚ),
      addAll id (.new id 1 1 2) staleAdds = .ok b ∧
      addAllPrioritized id (fun x _ => x) (.new id 1 1 2 1 1 1 1) staleAdds = .ok p ∧
      ¬ HoldsLast id staleAdds b ∧ ¬ HoldsLast id staleAdds p.toReplayBuffer := by
  obtain ⟨b, hall, hcap, hn, hmask⟩ : ∃ b, addAll id (.new id 1 1 2) staleAdds = .ok b ∧
      b.capacity = 1 ∧ b.nActions = 2 ∧ b.masks 0 = [false, true] := ⟨_, rfl, rfl, rfl, rfl⟩
  have hnot : ¬ HoldsLast id staleAdds b := by
    intro hlast
    have hlength : staleAdds.length ≤ 1 + b.capacity := by
      rw [hcap]
      decide
    have hslot := (hlast.holds 1 _ rfl hlength).mask
    rw [hcap, Nat.mod_one, hmask, hn] at hslot
    cases hslot
  obtain ⟨p, hall', harrays⟩ := addAllPrioritized_arrays (fun (x _ : ℚ) => x)
    (p := .new id 1 1 2 1 1 1 1) hall
  exact ⟨b, p, hall, hall', hnot, harrays ▸ hnot⟩

end Kelpflux.Proof.Scheduler
