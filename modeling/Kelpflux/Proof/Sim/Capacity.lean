import Kelpflux.Proof.Sim.Pin

/-!
# When a job can be placed

A fill gets all the GPUs that a job needs just where the nodes with the RAM for
it have that many wholly free (`fill_needed`). So a job of whole GPUs can be
placed from every GPU or from none, and a part of a GPU where that GPU has the
slots and its node the RAM (`canAllocateOn_iff`); the cluster's own plan is not
pinned to a GPU and finds one where there is one (`canAllocate_iff`,
`allocatable_iff`).
-/

namespace Kelpflux.Proof.Sim

open Framework Kelpflux.Impl.Sim

variable {cfg : Config} {c : Cluster cfg} {job : Job}

theorem canAllocateOn_iff (n : Fin cfg.nNodes) (g : Fin cfg.gpusPerNode) :
    c.canAllocateOn job n g ↔
      if Cluster.fractional cfg job then
        job.mpsReq ≤ (c.nodes n).gpus g ∧ c.ramOk n job.ramReq
      else job.gpuCount ≤ wholeGpus c job := by
  unfold Cluster.canAllocateOn
  rw [planOn_eq]
  by_cases hfrac : Cluster.fractional cfg job
  · rw [if_pos hfrac, if_pos hfrac]
    split <;> simp_all
  · rw [if_neg hfrac, if_neg hfrac, ← pinned_needed n g]
    split <;> simp_all

theorem betterGpu_isSome (node : Node cfg) (mpsReq : Int) (best : Option (Fin cfg.gpusPerNode × Int))
    (g : Fin cfg.gpusPerNode) :
    (Cluster.betterGpu node mpsReq best g).isSome ↔ best.isSome ∨ mpsReq ≤ node.gpus g := by
  unfold Cluster.betterGpu
  split
  · rename_i hfit
    split
    · simp [hfit]
    · dsimp only
      split <;> simp
  · rename_i hfit
    simp [hfit]

/-- There is a best GPU where one of them has the slots. -/
theorem bestGpu_isSome (node : Node cfg) (mpsReq : Int) :
    (Cluster.bestGpu node mpsReq).isSome ↔ ∃ g, mpsReq ≤ node.gpus g := by
  have hfold : ∀ (gs : List (Fin cfg.gpusPerNode)) (best : Option (Fin cfg.gpusPerNode × Int)),
      (gs.foldl (Cluster.betterGpu node mpsReq) best).isSome ↔
        best.isSome ∨ ∃ g ∈ gs, mpsReq ≤ node.gpus g := by
    intro gs
    induction gs with
    | nil => simp
    | cons g gs ih =>
      intro best
      rw [List.foldl_cons, ih, betterGpu_isSome, or_assoc]
      simp
  unfold Cluster.bestGpu
  rw [hfold]
  simp

theorem canAllocate_iff :
    c.canAllocate job ↔
      if Cluster.fractional cfg job then
        ∃ n g, job.mpsReq ≤ (c.nodes n).gpus g ∧ c.ramOk n job.ramReq
      else job.gpuCount ≤ wholeGpus c job := by
  unfold Cluster.canAllocate Cluster.plan
  by_cases hfrac : Cluster.fractional cfg job
  · rw [if_pos hfrac, if_pos hfrac, List.findSome?_isSome_iff]
    apply exists_congr
    intro n
    by_cases hram : c.ramOk n job.ramReq
    · simp [hram, bestGpu_isSome]
    · simp [hram]
  · rw [if_neg hfrac, if_neg hfrac]
    dsimp only
    have hperm := List.perm_insertionSort
      (fun i j => (c.nodes j).freeWholeGpus.length ≤ (c.nodes i).freeWholeGpus.length)
      (List.finRange cfg.nNodes)
    have henough : (c.fill job (fun i => (c.nodes i).freeWholeGpus)
        ((List.finRange cfg.nNodes).insertionSort fun i j =>
          (c.nodes j).freeWholeGpus.length ≤ (c.nodes i).freeWholeGpus.length)
        job.gpuCount).2 ≤ 0 ↔ job.gpuCount ≤ wholeGpus c job := by
      rw [wholeGpus, ← (hperm.map (freeFor c job)).sum_eq]
      exact fill_needed _ _
    rw [← henough]
    split
    · rename_i hleft
      simp [hleft]
    · rename_i hleft
      simpa using hleft

/-- A job that can be placed at all can be placed from one of the GPUs. -/
theorem canAllocate_on (hgpus : 0 < cfg.nNodes * cfg.gpusPerNode) :
    c.canAllocate job ↔
      ∃ (n : Fin cfg.nNodes) (g : Fin cfg.gpusPerNode), c.canAllocateOn job n g := by
  simp only [canAllocateOn_iff]
  rw [canAllocate_iff]
  split
  · rfl
  · have n : Fin cfg.nNodes := ⟨0, Nat.pos_of_mul_pos_right hgpus⟩
    have g : Fin cfg.gpusPerNode := ⟨0, Nat.pos_of_mul_pos_left hgpus⟩
    constructor
    · intro h
      exact ⟨n, g, h⟩
    · intro h
      obtain ⟨-, -, h⟩ := h
      exact h

/-- The cluster's own search finds a placement of a job exactly when it can be
placed from a node and a GPU of the cluster. -/
theorem allocatable_iff (c : Cluster cfg) (job : Job) (hnodes : 0 < cfg.nNodes)
    (hgpus : 0 < cfg.gpusPerNode) :
    c.canAllocate job = true ↔ ∃ nodeI gpuI : ℕ, nodeI < cfg.nNodes ∧ gpuI < cfg.gpusPerNode ∧
      c.canAllocateOn job nodeI gpuI = true := by
  rw [canAllocate_on (Nat.mul_pos hnodes hgpus)]
  constructor
  · rintro ⟨n, g, h⟩
    exact ⟨n, g, n.2, g.2, h⟩
  · rintro ⟨nodeI, gpuI, hn, hg, h⟩
    exact ⟨⟨nodeI, hn⟩, ⟨gpuI, hg⟩, h⟩

/-- Two nodes of one GPU each, and a gang of both. -/
theorem allocatable_gang :
    let cfg : Config := { nNodes := 2, gpusPerNode := 1, ram_given := Config.none_given _,
                          ram_nonneg := Config.no_ram_nonneg,
                          overcommit_nonneg := Config.one_nonneg }
    (Cluster.init cfg).canAllocate ⟨"gang", 2, 100, 0⟩ = true ↔
      ∃ nodeI gpuI : ℕ, nodeI < 2 ∧ gpuI < 1 ∧
        (Cluster.init cfg).canAllocateOn ⟨"gang", 2, 100, 0⟩ nodeI gpuI = true :=
  allocatable_iff _ _ (by decide) (by decide)

end Kelpflux.Proof.Sim
