import Kelpflux.Framework.Mask
import Kelpflux.Impl.Scheduler.Serve

/-!
# What the policy server answers

An action that the mask allows is the no-op or stands for a job shown and a GPU
that has the slots for it (`mem_feasible`), and the response takes that action
apart into the same job and GPU (`respond_legal`).
-/

namespace Kelpflux.Proof.Scheduler

open Framework Impl.Sim Impl.Scheduler.Serve

variable {F : Type} {lt : F → F → Bool} {req : ActRequest F}

/-- Job `i` of those shown, of which the view is `j`, may go to a GPU. -/
structure Offers (lt : F → F → Bool) (req : ActRequest F) (i : ℕ) (nj : Fin req.nNodes)
    (gk : Fin req.gpusPerNode) (j : JobView F) (gpu : GpuView F) : Prop where
  job : (req.pendingSorted lt)[i]? = some j
  canFit : j.canFit = true
  eligible : ∀ is ∈ j.eligibleNodeIndices, (nj : Int) ∈ is
  listed : req.gpu? nj gk = some gpu
  slots : j.mpsReq ≤ gpu.freeMps

/-- The test of the eligible nodes, where there are any. -/
theorem not_any_notMem {e : Option (List Int)} {x : Int} :
    ¬ (e.any fun is => x ∉ is) = true ↔ ∀ is ∈ e, x ∈ is := by
  cases e with
  | none => simp
  | some is => simp

theorem mem_feasible {a : ℕ} : a ∈ req.feasible lt ↔
    ∃ i nj gk j gpu, Offers lt req i nj gk j gpu ∧ a = slot i nj gk := by
  unfold ActRequest.feasible
  simp only [List.mem_flatMap, List.mem_range]
  constructor
  · rintro ⟨i, -, h⟩
    cases hj : (req.pendingSorted lt)[i]? with
    | none =>
      rw [hj] at h
      exact absurd h List.not_mem_nil
    | some j =>
      rw [hj] at h
      dsimp only at h
      split at h
      · exact absurd h List.not_mem_nil
      rename_i hcan
      obtain ⟨nj, hnj, h⟩ := List.mem_flatMap.mp h
      rw [List.mem_range] at hnj
      split at h
      · exact absurd h List.not_mem_nil
      rename_i helig
      obtain ⟨gk, hgk, h⟩ := List.mem_filterMap.mp h
      rw [List.mem_range] at hgk
      cases hgpu : req.gpu? nj gk with
      | none =>
        rw [hgpu] at h
        cases h
      | some gpu =>
        rw [hgpu] at h
        dsimp only at h
        split at h
        · rename_i hslots
          refine ⟨i, ⟨nj, hnj⟩, ⟨gk, hgk⟩, j, gpu, ⟨hj, ?_, ?_, hgpu, hslots⟩, ?_⟩
          · simpa using hcan
          · exact not_any_notMem.mp helig
          · exact (Option.some.inj h).symm
        · cases h
  · rintro ⟨i, nj, gk, j, gpu, h, rfl⟩
    obtain ⟨hlt, -⟩ := List.getElem?_eq_some_iff.mp h.job
    refine ⟨i, hlt, ?_⟩
    have helig := not_any_notMem.mpr h.eligible
    rw [h.job]
    dsimp only
    rw [h.canFit, Bool.not_true, if_neg (by decide)]
    refine List.mem_flatMap.mpr ⟨nj, List.mem_range.mpr nj.2, ?_⟩
    rw [if_neg helig]
    refine List.mem_filterMap.mpr ⟨gk, List.mem_range.mpr gk.2, ?_⟩
    rw [h.listed]
    dsimp only
    rw [if_pos h.slots]
    rfl

/-- No job is shown from `TOP_K` on. -/
theorem lt_topK_of_getElem? {i : ℕ} {j : JobView F} (h : (req.pendingSorted lt)[i]? = some j) :
    i < Impl.Sim.topK := by
  obtain ⟨hlt, -⟩ := List.getElem?_eq_some_iff.mp h
  unfold ActRequest.pendingSorted at hlt
  rw [List.length_take] at hlt
  omega

/-- The id at an index is that of the job shown there. -/
theorem topIds_eq {i : ℕ} {jobId : String} : ((req.topIds lt)[i]?).join = some jobId ↔
    ∃ j, (req.pendingSorted lt)[i]? = some j ∧ j.jobId = jobId := by
  unfold ActRequest.topIds
  rw [List.getElem?_map]
  by_cases hi : i < Impl.Sim.topK
  · rw [List.getElem?_range hi]
    show ((req.pendingSorted lt)[i]?.map fun j => j.jobId) = some jobId ↔ _
    exact Option.map_eq_some_iff
  · have hrange : (List.range Impl.Sim.topK)[i]? = none := List.getElem?_eq_none (by simpa using hi)
    rw [hrange]
    refine iff_of_false nofun fun ⟨j, hj, _⟩ => hi (lt_topK_of_getElem? hj)

theorem offers_lt {i : ℕ} {nj : Fin req.nNodes} {gk : Fin req.gpusPerNode} {j : JobView F}
    {gpu : GpuView F} (h : Offers lt req i nj gk j gpu) :
    slot i nj gk < Impl.Sim.topK * req.nPlacements :=
  slot_lt (lt_topK_of_getElem? h.job) nj gk

/-- The response to the action of what is offered. -/
theorem respond_offered {i : ℕ} {nj : Fin req.nNodes} {gk : Fin req.gpusPerNode} {j : JobView F}
    {gpu : GpuView F} (h : Offers lt req i nj gk j gpu) (value entropy : F) :
    req.respond lt (slot i nj gk) value entropy
      = ⟨slot i nj gk, some i, some nj, some gk, some j.jobId, value, entropy⟩ := by
  have hnoOp := (offers_lt h).ne
  obtain ⟨hi, hn, hg⟩ := slot_decode i nj gk
  have hid : ((req.topIds lt)[i]?).join = some j.jobId := topIds_eq.mpr ⟨j, h.job, rfl⟩
  rw [ActRequest.respond, if_neg hnoOp]
  unfold ActRequest.nPlacements
  dsimp only
  rw [hi, hn, hg, hid]

theorem mask_noOp : (req.mask lt)[req.noOp]? = some true := by
  have hlt : req.noOp < req.nActions := Nat.sub_lt (Nat.succ_pos _) Nat.one_pos
  rw [ActRequest.mask, List.getElem?_map, List.getElem?_range hlt]
  simp

theorem mask_offered {i : ℕ} {nj : Fin req.nNodes} {gk : Fin req.gpusPerNode} {j : JobView F}
    {gpu : GpuView F} (h : Offers lt req i nj gk j gpu) :
    (req.mask lt)[slot i nj gk]? = some true := by
  have hlt : slot i nj gk < req.nActions := Nat.lt_succ_of_lt (offers_lt h)
  have hmem : slot i nj gk ∈ req.feasible lt := mem_feasible.mpr ⟨i, nj, gk, j, gpu, h, rfl⟩
  rw [ActRequest.mask, List.getElem?_map, List.getElem?_range hlt]
  simp [hmem]

/-- The response to an action that the mask allows. -/
theorem respond_legal {action : ℕ} (hlegal : (req.mask lt)[action]? = some true) (value entropy : F) :
    req.respond lt action value entropy = ⟨action, none, none, none, none, value, entropy⟩ ∨
    ∃ (i : ℕ) (nj : Fin req.nNodes) (gk : Fin req.gpusPerNode) (j : JobView F) (gpu : GpuView F),
      Offers lt req i nj gk j gpu ∧ req.respond lt action value entropy
        = ⟨action, some i, some nj, some gk, some j.jobId, value, entropy⟩ := by
  by_cases hnoOp : action = Impl.Sim.topK * req.nPlacements
  · left
    rw [ActRequest.respond, if_pos hnoOp]
  · right
    have hmem : action ∈ req.feasible lt := by
      obtain ⟨hlt, hbit⟩ := List.getElem?_eq_some_iff.mp hlegal
      have hne : action ≠ req.noOp := hnoOp
      simpa [ActRequest.mask, hne] using hbit
    obtain ⟨i, nj, gk, j, gpu, hoffers, rfl⟩ := mem_feasible.mp hmem
    exact ⟨i, nj, gk, j, gpu, hoffers, respond_offered hoffers value entropy⟩

end Kelpflux.Proof.Scheduler
