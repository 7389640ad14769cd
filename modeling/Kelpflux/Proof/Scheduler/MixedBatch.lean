import Kelpflux.Impl.Scheduler.MixedBatch
import Kelpflux.Proof.Scheduler.Rollouts

/-!
# What the trainer's batches hold

Every slot below the size of a buffer has one of its last adds (`exists_last`), so
that what is sampled are adds (`sample_drawn`). A batch has the rows of adds to the
online buffer first, as many as its share, and then of adds to the offline one:
`training_batches`, for every batch of a training run.
-/

namespace Kelpflux.Proof.Scheduler

open Framework Framework.Python Impl.Scheduler Impl.Scheduler.Replay Impl.Scheduler.MixedBatch

section Batches

variable {f32 : PyFloat → PyFloat} {adds : List AddArgs} {b : ReplayBuffer} {nActions : ℕ}

/-- The batch has the rows of these adds. -/
structure RowsOf (f32 : PyFloat → PyFloat) (nActions : ℕ) (args : List AddArgs) (batch : Columns) :
    Prop where
  obs : batch.obs = args.map fun a => a.1.obs
  acts : batch.acts = args.map fun a => a.1.act
  rews : batch.rews = args.map fun a => f32 a.1.rew
  nextObs : batch.nextObs = args.map fun a => a.1.nextObs
  dones : batch.dones = args.map fun a => a.1.done
  masks : batch.masks = args.map fun a => a.1.mask.getD (List.replicate nActions true)
  nextMasks : batch.nextMasks = args.map fun a =>
    a.1.nextMask.getD (List.replicate nActions true)
  gammas : batch.gammas = args.map fun a => f32 a.2

theorem RowsOf.concatenate {args args' : List AddArgs} {batch batch' : Columns}
    (h : RowsOf f32 nActions args batch) (h' : RowsOf f32 nActions args' batch') :
    RowsOf f32 nActions (args ++ args') (batch.concatenate batch') where
  obs := by rw [List.map_append, ← h.obs, ← h'.obs]; rfl
  acts := by rw [List.map_append, ← h.acts, ← h'.acts]; rfl
  rews := by rw [List.map_append, ← h.rews, ← h'.rews]; rfl
  nextObs := by rw [List.map_append, ← h.nextObs, ← h'.nextObs]; rfl
  dones := by rw [List.map_append, ← h.dones, ← h'.dones]; rfl
  masks := by rw [List.map_append, ← h.masks, ← h'.masks]; rfl
  nextMasks := by rw [List.map_append, ← h.nextMasks, ← h'.nextMasks]; rfl
  gammas := by rw [List.map_append, ← h.gammas, ← h'.gammas]; rfl

/-- Each slot that is in use has one of the last adds. -/
theorem exists_last (h : HoldsLast f32 adds b) {i : ℕ} (hi : i < b.size) :
    ∃ a ∈ adds.drop (adds.length - b.capacity), SlotHolds f32 b i a := by
  have hsize := h.size
  have hlength : i < adds.length := by omega
  have hcapacity : i < b.capacity := by omega
  -- The last add into the slot is the last one that is congruent to it.
  obtain ⟨k, hk⟩ : ∃ k, k = i + b.capacity * ((adds.length - 1 - i) / b.capacity) := ⟨_, rfl⟩
  have hdiv := Nat.div_add_mod (adds.length - 1 - i) b.capacity
  have hmod := Nat.mod_lt (adds.length - 1 - i) (Nat.zero_lt_of_lt hcapacity)
  have hlast : k < adds.length := by omega
  have hlate : adds.length ≤ k + b.capacity := by omega
  have hslot : k % b.capacity = i := by
    rw [hk, Nat.add_mul_mod_self_left, Nat.mod_eq_of_lt hcapacity]
  refine ⟨adds[k], ?_, hslot ▸ h.holds k adds[k] (List.getElem?_eq_getElem hlast) hlate⟩
  refine List.mem_iff_getElem.mpr ⟨k - (adds.length - b.capacity), ?_, ?_⟩
  · rw [List.length_drop]
    omega
  · rw [List.getElem_drop]
    congr 1
    omega

theorem rowsAt_rows (h : HoldsLast f32 adds b) (idx : List ℕ) (hidx : ∀ i ∈ idx, i < b.size) :
    ∃ args, args.length = idx.length ∧
      (∀ a ∈ args, a ∈ adds.drop (adds.length - b.capacity)) ∧
      RowsOf f32 b.nActions args (rowsAt b idx) := by
  induction idx with
  | nil =>
    exact ⟨[], rfl, fun a ha => absurd ha List.not_mem_nil,
      ⟨rfl, rfl, rfl, rfl, rfl, rfl, rfl, rfl⟩⟩
  | cons i idx ih =>
    obtain ⟨hi, hidx⟩ := List.forall_mem_cons.mp hidx
    obtain ⟨a, ha, hslot⟩ := exists_last h hi
    obtain ⟨args, hlength, hargs, hrows⟩ := ih hidx
    refine ⟨a :: args, congrArg (· + 1) hlength, List.forall_mem_cons.mpr ⟨ha, hargs⟩, ?_⟩
    constructor
    case obs => exact congrArg₂ List.cons hslot.obs hrows.obs
    case acts => exact congrArg₂ List.cons hslot.act hrows.acts
    case rews => exact congrArg₂ List.cons hslot.rew hrows.rews
    case nextObs => exact congrArg₂ List.cons hslot.nextObs hrows.nextObs
    case dones => exact congrArg₂ List.cons hslot.done hrows.dones
    case masks => exact congrArg₂ List.cons hslot.mask hrows.masks
    case nextMasks => exact congrArg₂ List.cons hslot.nextMask hrows.nextMasks
    case gammas => exact congrArg₂ List.cons hslot.gamma hrows.gammas

variable {H : Type} (integers : Integers H)

/-- What is sampled are adds that the buffer still has. -/
theorem sample_drawn (h : HoldsLast f32 adds b) (n : ℕ) (hn : n = 0 ∨ 1 ≤ b.size) (rng : H) :
    ∃ args batch rng', sample integers b n rng = .ok (batch, rng') ∧ args.length = n ∧
      (∀ a ∈ args, a ∈ adds.drop (adds.length - b.capacity)) ∧
      RowsOf f32 b.nActions args batch := by
  by_cases hzero : n = 0
  · subst hzero
    obtain ⟨args, hlength, hargs, hrows⟩ := rowsAt_rows h [] nofun
    exact ⟨args, _, rng, rfl, hlength, hargs, hrows⟩
  have hsize : 0 < b.size := hn.resolve_left hzero
  obtain ⟨args, hlength, hargs, hrows⟩ := rowsAt_rows h _ (integers.draw_lt b.size n rng)
  refine ⟨args, _, (integers.draw b.size n rng).2, ?_,
    hlength.trans (integers.draw_length b.size n rng hsize), hargs, hrows⟩
  rw [sample, if_neg (by omega), if_neg (by omega), if_neg (by omega)]
  rfl

end Batches

section Training

variable {H : Type} (f32 : PyFloat → PyFloat) (integers : Integers H)
  {offline online : ReplayBuffer} {offlineAdds onlineAdds : List AddArgs} (batchSize : ℕ)
  (onlineRatio : ℚ)

/-- The rows of a batch: first of the online buffer, as many as its share, then of
the offline one. -/
def Mixed (offlineAdds onlineAdds : List AddArgs) (offline online : ReplayBuffer)
    (batch : Columns) : Prop :=
  ∃ fresh old : List AddArgs, RowsOf f32 offline.nActions (fresh ++ old) batch ∧
    (fresh.length : ℤ) = (if online.size = 0 then 0 else nOnline batchSize onlineRatio) ∧
    fresh.length + old.length = batchSize ∧
    (∀ a ∈ fresh, a ∈ onlineAdds.drop (onlineAdds.length - online.capacity)) ∧
    ∀ a ∈ old, a ∈ offlineAdds.drop (offlineAdds.length - offline.capacity)

variable {f32 batchSize onlineRatio}

theorem mixedBatch_mixed (hoffline : HoldsLast f32 offlineAdds offline)
    (honline : HoldsLast f32 onlineAdds online) (hsome : 1 ≤ offline.size)
    (hobs : online.obsDim = offline.obsDim) (hactions : online.nActions = offline.nActions)
    (hshare : online.size = 0 ∨ nOnline batchSize onlineRatio ≤ batchSize) (rng : H) :
    ∃ batch rng', mixedBatch integers offline online batchSize onlineRatio rng =
        .ok (batch, rng') ∧
      Mixed f32 batchSize onlineRatio offlineAdds onlineAdds offline online batch := by
  unfold mixedBatch Mixed
  split
  · obtain ⟨old, batch, rng', hsample, hlength, hold, hrows⟩ :=
      sample_drawn integers hoffline batchSize (.inr hsome) rng
    exact ⟨batch, rng', hsample, [], old, hrows, rfl,
      by rw [List.length_nil, Nat.zero_add, hlength], nofun, hold⟩
  rename_i hlive
  have hshare := hshare.resolve_left hlive
  obtain ⟨k, hk⟩ : ∃ k : ℕ, nOnline batchSize onlineRatio = k :=
    Int.eq_ofNat_of_zero_le (le_trans (by decide) (le_max_left 1 _))
  obtain ⟨l, hl⟩ : ∃ l : ℕ, (batchSize : ℤ) - k = l := Int.eq_ofNat_of_zero_le (by omega)
  obtain ⟨fresh, a, rng₁, ha, hfreshLength, hfresh, hfreshRows⟩ :=
    sample_drawn integers honline k (.inr (Nat.pos_of_ne_zero hlive)) rng
  obtain ⟨old, c, rng₂, hc, holdLength, hold, holdRows⟩ :=
    sample_drawn integers hoffline l (.inr hsome) rng₁
  rw [hactions] at hfreshRows
  refine ⟨a.concatenate c, rng₂, ?_, fresh, old, hfreshRows.concatenate holdRows, ?_, ?_, hfresh,
    hold⟩
  · dsimp only
    rw [hk, hl, ha]
    show (sample integers offline l rng₁ >>= _) = _
    rw [hc]
    show (sameWidth online.obsDim offline.obsDim >>= fun _ =>
      sameWidth online.nActions offline.nActions >>= _) = _
    rw [hobs, hactions, sameWidth, if_pos rfl, sameWidth, if_pos rfl]
    rfl
  · rw [hfreshLength, hk]
  · omega

theorem batches_mixed (hoffline : HoldsLast f32 offlineAdds offline)
    (honline : HoldsLast f32 onlineAdds online) (hsome : 1 ≤ offline.size)
    (hobs : online.obsDim = offline.obsDim) (hactions : online.nActions = offline.nActions)
    (hshare : online.size = 0 ∨ nOnline batchSize onlineRatio ≤ batchSize) (n : ℕ) (rng : H) :
    ∃ bs rng', batches integers offline online batchSize onlineRatio n rng = .ok (bs, rng') ∧
      bs.length = n ∧ ∀ batch ∈ bs,
        Mixed f32 batchSize onlineRatio offlineAdds onlineAdds offline online batch := by
  induction n generalizing rng with
  | zero => exact ⟨[], rng, rfl, rfl, nofun⟩
  | succ n ih =>
    obtain ⟨batch, rng₁, hbatch, hmixed⟩ :=
      mixedBatch_mixed integers hoffline honline hsome hobs hactions hshare rng
    obtain ⟨bs, rng₂, hrest, hlength, hall⟩ := ih rng₁
    refine ⟨batch :: bs, rng₂, ?_, congrArg (· + 1) hlength,
      List.forall_mem_cons.mpr ⟨hmixed, hall⟩⟩
    rw [batches, hbatch]
    show (batches integers offline online batchSize onlineRatio n rng₁ >>= _) = _
    rw [hrest]
    rfl

/-- A share above the size of a batch leaves a negative number to the offline buffer. -/
theorem mixedBatch_raises (hsome : 1 ≤ offline.size) (hlive : online.size ≠ 0)
    (hshare : batchSize < nOnline batchSize onlineRatio) (rng : H) :
    mixedBatch integers offline online batchSize onlineRatio rng =
      .error (.valueError "negative dimensions are not allowed") := by
  have hpos : 0 < nOnline batchSize onlineRatio := lt_of_lt_of_le one_pos (le_max_left 1 _)
  rw [mixedBatch, if_neg hlive]
  dsimp only
  rw [sample, if_neg hpos.ne', if_neg hlive, if_neg (not_lt.mpr hpos.le)]
  show (sample integers offline _ _ >>= _) = _
  rw [sample, if_neg (by omega), if_neg (by omega), if_pos (by omega)]
  rfl

/-- Of two buffers of one shape, every batch of a training run has its size: rows of adds that the online buffer
still has, as many as its share, and then of such adds to the offline buffer. Where
the share is above the size, the first draw raises. -/
theorem training_batches (f32 : PyFloat → PyFloat) (integers : Integers H)
    (hoffline : HoldsLast f32 offlineAdds offline) (honline : HoldsLast f32 onlineAdds online)
    (hsome : 1 ≤ offline.size) (hobs : online.obsDim = offline.obsDim)
    (hactions : online.nActions = offline.nActions) (batchSize : ℕ) (onlineRatio : ℚ) (n : ℕ)
    (rng : H) :
    (online.size = 0 ∨ nOnline batchSize onlineRatio ≤ batchSize →
      ∃ bs rng', batches integers offline online batchSize onlineRatio n rng = .ok (bs, rng') ∧
        bs.length = n ∧ ∀ batch ∈ bs,
          Mixed f32 batchSize onlineRatio offlineAdds onlineAdds offline online batch) ∧
      (online.size ≠ 0 → batchSize < nOnline batchSize onlineRatio → 1 ≤ n →
        batches integers offline online batchSize onlineRatio n rng =
          .error (.valueError "negative dimensions are not allowed")) := by
  refine ⟨fun hshare => batches_mixed integers hoffline honline hsome hobs hactions hshare n rng,
    fun hlive hshare hn => ?_⟩
  obtain ⟨n, rfl⟩ : ∃ m, n = m + 1 := ⟨n - 1, by omega⟩
  rw [batches, mixedBatch_raises integers hsome hlive hshare]
  rfl

end Training

/-- A step of a bandit. -/
def oneRow (act : ℤ) : List AddArgs :=
  [({ obs := [.fin 0], act := act, rew := .fin 1, nextObs := [.fin 0], done := true,
      mask := some [true, true], nextMask := some [true, true] }, .fin (99 / 100))]

theorem oneRow_held (act : ℤ) :
    ∃ b : ReplayBuffer, HoldsLast id (oneRow act) b ∧ b.size = 1 ∧ b.obsDim = 1 ∧
      b.nActions = 2 := by
  have hshaped : ∀ a ∈ oneRow act, RowShaped 1 2 a.1 ∧ Masked a.1 := by
    intro a ha
    rw [List.mem_singleton.mp ha]
    refine ⟨⟨rfl, rfl, fun m hm => ?_, fun m hm => ?_⟩, nofun, nofun⟩
    · obtain rfl := Option.some.inj hm
      rfl
    · obtain rfl := Option.some.inj hm
      rfl
  obtain ⟨b, -, hheld⟩ := (new_held : Held id 1 2 1 [] _).add (le_refl 1)
    (hshaped _ List.mem_cons_self).1
  exact ⟨b, hheld.holdsLast fun a ha => (hshaped a ha).2, hheld.size, hheld.obsDim_eq,
    hheld.nActions_eq⟩

def firstSlot : Integers Unit where
  draw high n rng := (if high = 0 then [] else List.replicate n 0, rng)
  draw_length high n _ h := by
    rw [if_neg (Nat.pos_iff_ne_zero.mp h), List.length_replicate]
  draw_lt high n _ i hi := by
    dsimp only at hi
    split at hi
    · exact absurd hi List.not_mem_nil
    · rw [List.eq_of_mem_replicate hi]
      omega

theorem training_batches_oneRow : ∃ offline online : ReplayBuffer,
    HoldsLast id (oneRow 0) offline ∧ HoldsLast id (oneRow 1) online ∧ 1 ≤ offline.size ∧
      online.obsDim = offline.obsDim ∧ online.nActions = offline.nActions ∧
      (online.size = 0 ∨ nOnline 4 (1 / 2) ≤ (4 : ℕ) →
        ∃ bs rng', batches firstSlot offline online 4 (1 / 2) 3 () = .ok (bs, rng') ∧
          bs.length = 3 ∧ ∀ batch ∈ bs,
            Mixed id 4 (1 / 2) (oneRow 0) (oneRow 1) offline online batch) ∧
      (online.size ≠ 0 → (4 : ℕ) < nOnline 4 (1 / 2) → 1 ≤ 3 →
        batches firstSlot offline online 4 (1 / 2) 3 () =
          .error (.valueError "negative dimensions are not allowed")) := by
  obtain ⟨offline, hoffline, hsize, hobs, hactions⟩ := oneRow_held 0
  obtain ⟨online, honline, -, hobs', hactions'⟩ := oneRow_held 1
  have hwidth : online.obsDim = offline.obsDim := hobs'.trans hobs.symm
  have hsame : online.nActions = offline.nActions := hactions'.trans hactions.symm
  exact ⟨offline, online, hoffline, honline, hsize.ge, hwidth, hsame,
    training_batches id firstSlot hoffline honline hsize.ge hwidth hsame 4 (1 / 2) 3 ()⟩

end Kelpflux.Proof.Scheduler
