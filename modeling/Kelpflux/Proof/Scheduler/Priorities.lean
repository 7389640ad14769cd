import Kelpflux.Framework.Lists
import Kelpflux.Framework.Run
import Kelpflux.Proof.Scheduler.Ring
import Kelpflux.Proof.Scheduler.SumTree
import Mathlib.Analysis.SpecialFunctions.Pow.Real

/-!
# The priority of a new transition

The prioritized buffer raises a priority to `alpha` twice: `updatePriorities`
stores powers, and `add` raises the largest of them again. A run of the buffer
(`step`) keeps the leaves as the stored transitions' priorities (`Leaves`). In
exact arithmetic a new transition comes first then exactly where no power is
taken, or where no priority is more than one, or where the transition that goes
had a priority so large that its power is still the largest: `newest_first_iff`.
-/

namespace Kelpflux.Proof.Scheduler

open Framework Framework.Python Impl.Scheduler.Replay

/-- The calls of the buffer. -/
inductive BufferOp where
  | add (a : AddArgs)
  | sample (n : ℕ) (uniform : ℕ → ℝ → ℝ → ℝ)
  | updatePriorities (indices : List ℕ) (tdErrors : List ℝ)

/-- One call. A call that raises changes no priority. -/
noncomputable def bufferStep (f32 : PyFloat → PyFloat) (b : PrioritizedReplayBuffer ℝ) :
    BufferOp → PrioritizedReplayBuffer ℝ
  | .add a => match b.add f32 (· ^ ·) a.1 a.2 with
    | .ok b' => b'
    | .error _ => b
  | .sample n uniform => match b.sample (· ^ ·) n uniform with
    | .ok (some (_, b')) => b'
    | _ => b
  | .updatePriorities indices tdErrors => b.updatePriorities (· ^ ·) indices tdErrors

/-- The indices of an update are of stored transitions, as those of `sample` are. -/
def OfStored (b : PrioritizedReplayBuffer ℝ) : BufferOp → Prop
  | .updatePriorities indices _ => ∀ i ∈ indices, i < b.size
  | _ => True

/-- A transition that is added has no smaller priority than those that stay. -/
def NewestFirst (f32 : PyFloat → PyFloat) (b : PrioritizedReplayBuffer ℝ) : BufferOp → Prop
  | .add a => ∀ b', b.add f32 (· ^ ·) a.1 a.2 = .ok b' → ∀ j < b.size, j ≠ b.idx →
      b'.priorities.priority j ≤ b'.priorities.priority b.idx
  | _ => True

/-- No power is taken, or those that stay have priorities of at most one, or of
at most the power of the one that goes. -/
def PowersHarmless (f32 : PyFloat → PyFloat) (b : PrioritizedReplayBuffer ℝ) : BufferOp → Prop
  | .add a => (∃ b', b.add f32 (· ^ ·) a.1 a.2 = .ok b') →
      b.alpha = 1 ∨ (∀ j < b.size, j ≠ b.idx → b.priorities.priority j ≤ 1) ∨
        ∀ j < b.size, j ≠ b.idx →
          b.priorities.priority j ≤ b.priorities.priority b.idx ^ b.alpha
  | _ => True

variable {f32 : PyFloat → PyFloat} {alpha : ℝ} {b b' : PrioritizedReplayBuffer ℝ} {a : AddArgs}

/-- The leaves of slots without a transition are 0, and none is negative. -/
structure Leaves (alpha : ℝ) (b : PrioritizedReplayBuffer ℝ) : Prop where
  alpha_eq : b.alpha = alpha
  capacity_eq : b.priorities.capacity = b.capacity
  size_le : b.size ≤ b.capacity
  idx : b.size < b.capacity → b.idx = b.size
  nonneg : ∀ j, 0 ≤ b.priorities.priority j
  empty : ∀ j, b.size ≤ j → j < b.capacity → b.priorities.priority j = 0

theorem new_leaves {capacity obsDim nActions betaSteps : ℕ} {betaStart betaEnd : ℝ} :
    Leaves alpha (.new f32 capacity obsDim nActions alpha betaStart betaEnd betaSteps) where
  alpha_eq := rfl
  capacity_eq := rfl
  size_le := Nat.zero_le _
  idx := fun _ => rfl
  nonneg := fun _ => le_refl 0
  empty := fun _ _ _ => rfl

/-! ## The largest priority -/

theorem maxPriority_pos (t : SumTree ℝ) : 0 < t.maxPriority := by
  unfold SumTree.maxPriority
  split
  · split
    · assumption
    · exact one_pos
  · exact one_pos

theorem priority_le_maxPriority {t : SumTree ℝ} {j : ℕ} (hj : j < t.capacity) :
    t.priority j ≤ t.maxPriority := by
  have hmem : t.priority j ∈ (List.range t.capacity).map t.priority :=
    List.mem_map_of_mem (List.mem_range.mpr hj)
  unfold SumTree.maxPriority
  split
  · rename_i leafMax h
    have hle := (List.max?_eq_some_iff.mp h).2 _ hmem
    split
    · exact hle
    · exact hle.trans ((not_lt.mp ‹_›).trans zero_le_one)
  · rename_i h
    rw [List.max?_eq_none_iff.mp h] at hmem
    cases hmem

/-- A largest priority that is not the default is a slot's. -/
theorem exists_priority_eq {t : SumTree ℝ} (h : t.maxPriority ≠ 1) :
    ∃ j < t.capacity, t.priority j = t.maxPriority := by
  unfold SumTree.maxPriority at h ⊢
  split at h
  · rename_i leafMax hmax
    obtain ⟨j, hj, hleaf⟩ := List.mem_map.mp (List.max?_eq_some_iff.mp hmax).1
    split at h
    · rename_i hpos
      rw [if_pos hpos]
      exact ⟨j, List.mem_range.mp hj, hleaf⟩
    · exact absurd rfl h
  · exact absurd rfl h

/-! ## One call -/

/-- What an add does to the priorities. -/
theorem prioritized_add_ok (h : b.add f32 (· ^ ·) a.1 a.2 = .ok b') :
    b.idx < b.capacity ∧ b'.alpha = b.alpha ∧ b'.capacity = b.capacity ∧
      b'.idx = (b.idx + 1) % b.capacity ∧ b'.size = min (b.size + 1) b.capacity ∧
      (b'.obsDim = b.obsDim ∧ b'.nActions = b.nActions) ∧
      b'.priorities = b.priorities.update b.idx (b.priorities.maxPriority ^ b.alpha) := by
  unfold PrioritizedReplayBuffer.add at h
  obtain ⟨arrays, hadd, h⟩ := bind_eq_ok.mp h
  obtain ⟨hidx, obs, nextObs, mask, nextMask, rfl⟩ := add_ok hadd
  obtain rfl := Except.ok.inj h
  exact ⟨hidx, rfl, rfl, rfl, rfl, ⟨rfl, rfl⟩, rfl⟩

/-- A leaf after an add. -/
theorem add_priority (hleaves : Leaves alpha b) (h : b.add f32 (· ^ ·) a.1 a.2 = .ok b') (j : ℕ) :
    b'.priorities.priority j =
      if j = b.idx then b.priorities.maxPriority ^ alpha else b.priorities.priority j := by
  obtain ⟨hidx, -, -, -, -, -, hpriorities⟩ := prioritized_add_ok h
  rw [hpriorities, update_priority (hleaves.capacity_eq ▸ hidx), hleaves.alpha_eq]

theorem Leaves.add (hleaves : Leaves alpha b) (h : b.add f32 (· ^ ·) a.1 a.2 = .ok b') :
    Leaves alpha b' := by
  obtain ⟨hidx, halpha, hcapacity, hidx', hsize, -, hpriorities⟩ := prioritized_add_ok h
  have hle := hleaves.size_le
  constructor
  case alpha_eq => exact halpha.trans hleaves.alpha_eq
  case capacity_eq =>
    rw [hpriorities, update_capacity, hcapacity]
    exact hleaves.capacity_eq
  case size_le =>
    rw [hsize, hcapacity]
    exact Nat.min_le_right _ _
  case idx =>
    intro hlt
    rw [hsize, hcapacity] at hlt
    rw [hidx', hsize, hleaves.idx (by omega), Nat.mod_eq_of_lt (by omega)]
    omega
  case nonneg =>
    intro j
    rw [add_priority hleaves h]
    split
    · exact Real.rpow_nonneg (maxPriority_pos _).le _
    · exact hleaves.nonneg j
  case empty =>
    intro j hj hlt
    rw [hsize] at hj
    rw [hcapacity] at hlt
    -- the slot that was filled has a smaller index than an empty one
    have hne : j ≠ b.idx := by
      rw [hleaves.idx (by omega)]
      omega
    rw [add_priority hleaves h, if_neg hne]
    exact hleaves.empty j (by omega) hlt

theorem sample_leaves {n : ℕ} {uniform : ℕ → ℝ → ℝ → ℝ} {batch : Batch ℝ}
    (hleaves : Leaves alpha b) (h : b.sample (· ^ ·) n uniform = .ok (some (batch, b'))) :
    Leaves alpha b' := by
  unfold PrioritizedReplayBuffer.sample at h
  split at h
  · cases h
  · obtain ⟨indices, -, hret⟩ := Option.bind_eq_some_iff.mp (Except.ok.inj h)
    obtain rfl : { b with betaStep := b.betaStep + 1 } = b' :=
      congrArg Prod.snd (Option.some.inj hret)
    exact ⟨hleaves.alpha_eq, hleaves.capacity_eq, hleaves.size_le, hleaves.idx, hleaves.nonneg,
      hleaves.empty⟩

/-- The indices of a batch are below the size, unless nothing is stored. -/
theorem sample_indices {n : ℕ} {uniform : ℕ → ℝ → ℝ → ℝ} {batch : Batch ℝ} (hsize : 0 < b.size)
    (h : b.sample (· ^ ·) n uniform = .ok (some (batch, b'))) : ∀ i ∈ batch.indices, i < b.size := by
  unfold PrioritizedReplayBuffer.sample at h
  split at h
  · cases h
  · obtain ⟨indices, hdraws, hret⟩ := Option.bind_eq_some_iff.mp (Except.ok.inj h)
    obtain rfl := congrArg Prod.fst (Option.some.inj hret)
    intro i hi
    obtain ⟨k, -, hdraw⟩ := exists_of_forall₂ (forall₂_of_mapM_some hdraws) i hi
    obtain ⟨dataIdx, -, hmin⟩ := Option.bind_eq_some_iff.mp hdraw
    obtain rfl : min dataIdx (b.size - 1) = i := Option.some.inj hmin
    omega

theorem foldl_set_nonneg {updates : List (ℕ × ℝ)} (h : ∀ u ∈ updates, 0 ≤ u.2) {p : ℝ} (hp : 0 ≤ p)
    (j : ℕ) : 0 ≤ updates.foldl (fun p u => if j = u.1 then u.2 else p) p := by
  induction updates generalizing p with
  | nil => exact hp
  | cons u updates ih =>
    refine ih (fun v hv => h v (List.mem_cons_of_mem _ hv)) ?_
    dsimp only
    split
    · exact h u List.mem_cons_self
    · exact hp

theorem foldl_set_of_ne {updates : List (ℕ × ℝ)} {j : ℕ} (h : ∀ u ∈ updates, j ≠ u.1) (p : ℝ) :
    updates.foldl (fun p u => if j = u.1 then u.2 else p) p = p := by
  induction updates with
  | nil => rfl
  | cons u updates ih =>
    rw [List.foldl_cons, if_neg (h u List.mem_cons_self)]
    exact ih fun v hv => h v (List.mem_cons_of_mem _ hv)

theorem Leaves.updatePriorities (hleaves : Leaves alpha b) {indices : List ℕ} {tdErrors : List ℝ}
    (hstored : ∀ i ∈ indices, i < b.size) :
    Leaves alpha (b.updatePriorities (· ^ ·) indices tdErrors) := by
  let updates := indices.zip (tdErrors.map fun td => (|td| + 1 / 1000000) ^ b.alpha)
  have hmem : ∀ u ∈ updates, u.1 < b.size ∧ 0 ≤ u.2 := by
    rintro ⟨i, p⟩ hu
    obtain ⟨hi, hp⟩ := List.of_mem_zip hu
    obtain ⟨td, -, rfl⟩ := List.mem_map.mp hp
    exact ⟨hstored i hi, Real.rpow_nonneg (by positivity) _⟩
  have hidx : ∀ u ∈ updates, u.1 < b.priorities.capacity := fun u hu =>
    hleaves.capacity_eq ▸ (hmem u hu).1.trans_le hleaves.size_le
  have hleaf := foldl_update_priority hidx
  constructor
  case alpha_eq => exact hleaves.alpha_eq
  case capacity_eq => exact (foldl_update_capacity _ updates).trans hleaves.capacity_eq
  case size_le => exact hleaves.size_le
  case idx => exact hleaves.idx
  case nonneg =>
    intro j
    exact (hleaf j).symm ▸ foldl_set_nonneg (fun u hu => (hmem u hu).2) (hleaves.nonneg j) j
  case empty =>
    intro j hj hlt
    refine (hleaf j).trans ((foldl_set_of_ne (fun u hu => ?_) _).trans (hleaves.empty j hj hlt))
    exact ((hmem u hu).1.trans_le hj).ne'

/-- One call keeps the leaves those of what is stored. -/
theorem step_leaves (op : BufferOp) (hleaves : Leaves alpha b) (hstored : OfStored b op) :
    Leaves alpha (bufferStep f32 b op) := by
  cases op with
  | add a =>
    unfold bufferStep
    dsimp only
    split
    · exact hleaves.add ‹_›
    · exact hleaves
  | sample n uniform =>
    unfold bufferStep
    dsimp only
    split
    · exact sample_leaves hleaves ‹_›
    · exact hleaves
  | updatePriorities indices tdErrors => exact hleaves.updatePriorities hstored

/-! ## A run -/

/-- An add puts the new transition first, exactly when the powers do no harm. -/
theorem newestFirst_iff (h0 : 0 < alpha) (h1 : alpha ≤ 1) (hleaves : Leaves alpha b)
    (op : BufferOp) : NewestFirst f32 b op ↔ PowersHarmless f32 b op := by
  cases op with
  | sample => exact Iff.rfl
  | updatePriorities => exact Iff.rfl
  | add a =>
    unfold NewestFirst PowersHarmless
    dsimp only
    have hpow : ∀ {x y : ℝ}, 0 ≤ x → x ≤ y → x ^ alpha ≤ y ^ alpha := fun hx hxy =>
      Real.rpow_le_rpow hx hxy h0.le
    rw [hleaves.alpha_eq]
    constructor
    · rintro hfirst ⟨b', hadd⟩
      obtain ⟨hidx, -⟩ := prioritized_add_ok hadd
      by_contra hharm
      push Not at hharm
      obtain ⟨halpha, ⟨k, hk, hkne, hkone⟩, l, hl, hlne, hlpow⟩ := hharm
      have hcap : ∀ {j}, j < b.size → j < b.priorities.capacity := fun hj =>
        hleaves.capacity_eq ▸ hj.trans_le hleaves.size_le
      have hbig : 1 < b.priorities.maxPriority :=
        hkone.trans_le (priority_le_maxPriority (hcap hk))
      obtain ⟨j, hj, hmax⟩ := exists_priority_eq hbig.ne'
      have hstays : ∀ i < b.size, i ≠ b.idx →
          b.priorities.priority i ≤ b.priorities.maxPriority ^ alpha := fun i hi hne => by
        have hle := hfirst b' hadd i hi hne
        rwa [add_priority hleaves hadd, add_priority hleaves hadd, if_neg hne, if_pos rfl] at hle
      -- the largest priority is one that goes, or one that stays and is larger than its power
      by_cases hjidx : j = b.idx
      · exact absurd (hstays l hl hlne) (not_le.mpr (by rwa [← hmax, hjidx]))
      · by_cases hjsize : j < b.size
        · refine absurd (hstays j hjsize hjidx) (not_le.mpr ?_)
          rw [hmax]
          exact Real.rpow_lt_self_of_one_lt hbig (lt_of_le_of_ne h1 halpha)
        · have hzero := hleaves.empty j (not_lt.mp hjsize) (hleaves.capacity_eq ▸ hj)
          rw [← hmax, hzero] at hbig
          exact absurd hbig (not_lt.mpr zero_le_one)
    · intro hharmless b' hadd j hj hne
      obtain ⟨hidx, -⟩ := prioritized_add_ok hadd
      rw [add_priority hleaves hadd, add_priority hleaves hadd, if_neg hne, if_pos rfl]
      have hle : b.priorities.priority j ≤ b.priorities.maxPriority :=
        priority_le_maxPriority (hleaves.capacity_eq ▸ hj.trans_le hleaves.size_le)
      rcases hharmless ⟨b', hadd⟩ with halpha | hone | hgoes
      · rwa [halpha, Real.rpow_one]
      · exact (Real.self_le_rpow_of_le_one (hleaves.nonneg j) (hone j hj hne) h1).trans
          (hpow (hleaves.nonneg j) hle)
      · exact (hgoes j hj hne).trans
          (hpow (hleaves.nonneg _) (priority_le_maxPriority (hleaves.capacity_eq ▸ hidx)))

/-- In a run from an empty buffer every new transition comes first, exactly
when the powers do no harm in any of its adds. -/
theorem newest_first_iff (f32 : PyFloat → PyFloat) (capacity obsDim nActions betaSteps : ℕ)
    {alpha : ℝ} (betaStart betaEnd : ℝ) (h0 : 0 < alpha) (h1 : alpha ≤ 1) (ops : List BufferOp)
    (hstored : Along (bufferStep f32) OfStored
      (.new f32 capacity obsDim nActions alpha betaStart betaEnd betaSteps) ops) :
    Along (bufferStep f32) (NewestFirst f32)
        (.new f32 capacity obsDim nActions alpha betaStart betaEnd betaSteps) ops ↔
      Along (bufferStep f32) (PowersHarmless f32)
        (.new f32 capacity obsDim nActions alpha betaStart betaEnd betaSteps) ops := by
  have hleaves : Along (bufferStep f32) (fun b op => Leaves alpha b ∧ OfStored b op) _ ops :=
    Along.invariant (fun b op hleaves hstored => step_leaves op hleaves hstored) new_leaves hstored
  constructor
  · intro hfirst
    exact (hleaves.and hfirst).mono fun b op h => (newestFirst_iff h0 h1 h.1.1 op).mp h.2
  · intro hharmless
    exact (hleaves.and hharmless).mono fun b op h => (newestFirst_iff h0 h1 h.1.1 op).mpr h.2

/-! ## A large error -/

/-- Two adds, and between them an error of more than one for the first. -/
def raisedAdd : AddArgs :=
  ({ obs := [.fin 0], act := 0, rew := .fin 1, nextObs := [.fin 0], done := false }, .fin (99 / 100))

noncomputable def raisedOps : List BufferOp :=
  [.add raisedAdd, .updatePriorities [0] [1], .add raisedAdd]

/-- The buffer of two slots that they start from. -/
noncomputable def raisedStart : PrioritizedReplayBuffer ℝ := .new id 2 1 1 (3 / 5) (2 / 5) 1 100

theorem prioritized_add_shaped (f32 : PyFloat → PyFloat)
    (hshaped : RowShaped b.obsDim b.nActions a.1)
    (hidx : b.idx < b.capacity) : ∃ b', b.add f32 (· ^ ·) a.1 a.2 = .ok b' := by
  unfold PrioritizedReplayBuffer.add
  rw [add_shaped hshaped hidx]
  exact ⟨_, rfl⟩

theorem raisedAdd_shaped : RowShaped 1 1 raisedAdd.1 := by
  constructor <;> simp [raisedAdd]

/-- One transition is stored, in the first slot. -/
theorem raised_first : (bufferStep id raisedStart (.add raisedAdd)).size = 1 ∧
    (bufferStep id raisedStart (.add raisedAdd)).capacity = 2 ∧
    (bufferStep id raisedStart (.add raisedAdd)).obsDim = 1 ∧
    (bufferStep id raisedStart (.add raisedAdd)).nActions = 1 := by
  obtain ⟨b, hadd⟩ := prioritized_add_shaped id (b := raisedStart) raisedAdd_shaped
    (by decide : 0 < 2)
  obtain ⟨-, -, hcapacity, -, hsize, hdims, -⟩ := prioritized_add_ok hadd
  unfold bufferStep
  dsimp only
  rw [hadd]
  exact ⟨hsize, hcapacity, hdims⟩

theorem raisedOps_stored : Along (bufferStep id) OfStored raisedStart raisedOps := by
  refine ⟨trivial, fun i hi => ?_, trivial, trivial⟩
  rw [List.mem_singleton.mp hi, raised_first.1]
  exact Nat.one_pos

theorem newest_first_iff_raised :
    (0 : ℝ) < 3 / 5 ∧ (3 / 5 : ℝ) ≤ 1 ∧ Along (bufferStep id) OfStored raisedStart raisedOps ∧
      (Along (bufferStep id) (NewestFirst id) raisedStart raisedOps ↔
        Along (bufferStep id) (PowersHarmless id) raisedStart raisedOps) :=
  ⟨by norm_num, by norm_num, raisedOps_stored,
    newest_first_iff id 2 1 1 100 (2 / 5) 1 (by norm_num) (by norm_num) raisedOps raisedOps_stored⟩

/-- The second transition comes after the first. -/
theorem raised_not_first : Along (bufferStep id) OfStored raisedStart raisedOps ∧
    ¬ Along (bufferStep id) (NewestFirst id) raisedStart raisedOps := by
  refine ⟨raisedOps_stored, fun hfirst => ?_⟩
  let b₁ := bufferStep id raisedStart (.add raisedAdd)
  let b₂ := bufferStep id b₁ (.updatePriorities [0] [1])
  obtain ⟨hsize, hcapacity, hobsDim, hnActions⟩ :
      b₁.size = 1 ∧ b₁.capacity = 2 ∧ b₁.obsDim = 1 ∧ b₁.nActions = 1 := raised_first
  have hleaves₁ : Leaves (3 / 5) b₁ := step_leaves (.add raisedAdd) new_leaves trivial
  have hleaves₂ : Leaves (3 / 5) b₂ := step_leaves _ hleaves₁ raisedOps_stored.2.1
  have hidx : b₂.idx = 1 := hsize ▸ hleaves₁.idx (by omega)
  have hroom : 0 < b₁.priorities.capacity := by
    rw [hleaves₁.capacity_eq, hcapacity]
    exact Nat.two_pos
  have hlarge : 1 < b₂.priorities.priority 0 := by
    show 1 < (b₁.priorities.update 0 ((|1| + 1 / 1000000) ^ b₁.alpha)).priority 0
    rw [update_priority hroom, if_pos rfl, hleaves₁.alpha_eq]
    exact Real.one_lt_rpow (by norm_num) (by norm_num)
  have hslot : 1 < b₂.capacity := by
    show 1 < b₁.capacity
    rw [hcapacity]
    exact Nat.one_lt_two
  have hempty : b₂.priorities.priority 1 = 0 := hleaves₂.empty 1 hsize.le hslot
  have hshaped : RowShaped b₂.obsDim b₂.nActions raisedAdd.1 := by
    show RowShaped b₁.obsDim b₁.nActions raisedAdd.1
    rw [hobsDim, hnActions]
    exact raisedAdd_shaped
  have hharmless := (newestFirst_iff (by norm_num) (by norm_num) hleaves₂ _).mp hfirst.2.2.1
  have h0 : 0 < b₂.size ∧ 0 ≠ b₂.idx := by
    rw [hidx]
    exact ⟨hsize ▸ Nat.one_pos, Nat.zero_ne_one⟩
  rcases hharmless (prioritized_add_shaped id hshaped (hidx ▸ hslot)) with halpha | hone | hgoes
  · rw [hleaves₂.alpha_eq] at halpha
    norm_num at halpha
  · exact absurd (hone 0 h0.1 h0.2) (not_le.mpr hlarge)
  · have hle := hgoes 0 h0.1 h0.2
    rw [hidx, hempty, hleaves₂.alpha_eq, Real.zero_rpow (by norm_num)] at hle
    exact absurd (hlarge.trans_le hle) (not_lt.mpr zero_le_one)

end Kelpflux.Proof.Scheduler
