import Kelpflux.Proof.Sim.Cluster

/-!
# Where a pinned job runs

What the greedy fill of `_plan_on` does with the GPU that it starts from: it
takes the GPU if that is wholly free and its node has the RAM (`mem_fill_first`),
and takes none but wholly free GPUs of nodes with the RAM (`mem_fill`). It finds
a plan if there are enough of these (`fill_needed`), pinned or not, so that a
job of whole GPUs can be placed beside its pin (`pin_honoured_iff`).
-/

namespace Kelpflux.Proof.Sim

open Framework Kelpflux.Impl.Sim

variable {cfg : Config} {c : Cluster cfg} {job : Job}

/-- The plan takes the GPU. -/
def Includes (plan : Plan cfg) (n : Fin cfg.nNodes) (g : Fin cfg.gpusPerNode) : Prop :=
  ∃ a ∈ plan, a.nodeId = n ∧ g ∈ a.gpuIndices

instance (plan : Plan cfg) (n : Fin cfg.nNodes) (g : Fin cfg.gpusPerNode) :
    Decidable (Includes plan n g) := by
  unfold Includes; infer_instance

/-- The wholly free GPUs of a node, where it has the RAM for the job. -/
def freeFor (c : Cluster cfg) (job : Job) (n : Fin cfg.nNodes) : ℕ :=
  if c.ramOk n job.ramReq then (c.nodes n).freeWholeGpus.length else 0

/-- Those of all nodes. -/
def wholeGpus (c : Cluster cfg) (job : Job) : ℕ :=
  ((List.finRange cfg.nNodes).map (freeFor c job)).sum

/-- The job asks for a part of a GPU; or the GPU is wholly free, on a node with
the RAM for the job; or fewer such GPUs are wholly free than it asks for. -/
def PinHonoured (c : Cluster cfg) (job : Job) (n : Fin cfg.nNodes) (g : Fin cfg.gpusPerNode) :
    Prop :=
  Cluster.fractional cfg job ∨ (g ∈ (c.nodes n).freeWholeGpus ∧ c.ramOk n job.ramReq) ∨
    wholeGpus c job < job.gpuCount

instance (c : Cluster cfg) (job : Job) (n : Fin cfg.nNodes) (g : Fin cfg.gpusPerNode) :
    Decidable (PinHonoured c job n g) := by
  unfold PinHonoured; infer_instance

/-! ## The fill -/

section Fill

variable {ordered : Fin cfg.nNodes → List (Fin cfg.gpusPerNode)}

theorem mem_fill :
    ∀ (nis : List (Fin cfg.nNodes)) (needed : Int), ∀ a ∈ (c.fill job ordered nis needed).1,
      c.ramOk a.nodeId job.ramReq ∧ a.gpuIndices ⊆ ordered a.nodeId
  | [], needed => by simp [Cluster.fill]
  | ni :: nis, needed => by
    unfold Cluster.fill
    split
    · simp
    split
    · exact mem_fill nis needed
    rename_i hram
    dsimp only
    split
    · exact mem_fill nis needed
    intro a ha
    rcases List.mem_cons.mp ha with rfl | ha
    · exact ⟨not_not.mp hram, fun g hg => List.mem_of_mem_take hg⟩
    · exact mem_fill nis _ a ha

/-- It takes the first GPU of the first node. -/
theorem mem_fill_first {ni : Fin cfg.nNodes} {nis : List (Fin cfg.nNodes)} {needed : Int}
    {g : Fin cfg.gpusPerNode} {gs : List (Fin cfg.gpusPerNode)} (hneeded : 0 < needed)
    (hram : c.ramOk ni job.ramReq) (hg : ordered ni = g :: gs) :
    Includes (c.fill job ordered (ni :: nis) needed).1 ni g := by
  obtain ⟨k, hk⟩ : ∃ k, needed.toNat = k + 1 := ⟨needed.toNat - 1, by omega⟩
  have htake : (ordered ni).take needed.toNat = g :: gs.take k := by
    rw [hg, hk, List.take_succ_cons]
  unfold Cluster.fill
  rw [if_neg (not_le.mpr hneeded), if_neg (not_not.mpr hram)]
  dsimp only
  rw [htake, if_neg (List.cons_ne_nil _ _)]
  exact ⟨_, List.mem_cons_self, rfl, List.mem_cons_self⟩

/-- What is still needed in the end. -/
theorem fill_needed :
    ∀ (nis : List (Fin cfg.nNodes)) (needed : Int), (c.fill job ordered nis needed).2 ≤ 0 ↔
      needed ≤ (nis.map fun n => if c.ramOk n job.ramReq then (ordered n).length else 0).sum
  | [], needed => by simp [Cluster.fill]
  | ni :: nis, needed => by
    have ih := fill_needed nis
    rw [List.map_cons, List.sum_cons]
    unfold Cluster.fill
    split
    · simp only
      omega
    split
    · rw [ih, zero_add]
    rename_i hram
    rw [if_pos (not_not.mp hram)]
    dsimp only
    split
    · rename_i htake
      have hnil : ordered ni = [] := by
        rcases List.take_eq_nil_iff.mp htake with h | h
        · omega
        · exact h
      rw [ih, hnil, List.length_nil, zero_add]
    · rw [ih, List.length_take]
      omega

end Fill

/-! ## The pinned plan -/

/-- The GPUs of a node, in the order of `_plan_on`. -/
def pinned (c : Cluster cfg) (n : Fin cfg.nNodes) (g : Fin cfg.gpusPerNode) (ni : Fin cfg.nNodes) :
    List (Fin cfg.gpusPerNode) :=
  let free := (c.nodes ni).freeWholeGpus
  if ni = n ∧ g ∈ free then g :: free.filter fun g' => g' ≠ g else free

/-- The nodes in its order. -/
def nodeOrder (n : Fin cfg.nNodes) : List (Fin cfg.nNodes) :=
  n :: (List.finRange cfg.nNodes).filter fun n' => n' ≠ n

theorem planOn_eq (n : Fin cfg.nNodes) (g : Fin cfg.gpusPerNode) : c.planOn job n g =
    if Cluster.fractional cfg job then
      if (c.nodes n).gpus g ≥ job.mpsReq ∧ c.ramOk n job.ramReq then
        some [⟨job.jobId, n, [g], job.mpsReq⟩]
      else none
    else if (c.fill job (pinned c n g) (nodeOrder n) job.gpuCount).2 ≤ 0 then
      some (c.fill job (pinned c n g) (nodeOrder n) job.gpuCount).1
    else none := by
  unfold Cluster.planOn
  rw [dif_pos ⟨n.2, g.2⟩]
  rfl

theorem mem_pinned {n ni : Fin cfg.nNodes} {g g' : Fin cfg.gpusPerNode}
    (h : g' ∈ pinned c n g ni) : g' ∈ (c.nodes ni).freeWholeGpus := by
  unfold pinned at h
  dsimp only at h
  split at h
  · rename_i hpin
    rcases List.mem_cons.mp h with rfl | h
    · exact hpin.2
    · exact List.mem_of_mem_filter h
  · exact h

theorem filter_ne_eq_erase {α : Type} [DecidableEq α] {xs : List α} (h : xs.Nodup) (x : α) :
    (xs.filter fun y => y ≠ x) = xs.erase x := by
  rw [h.erase_eq_filter]
  exact List.filter_congr fun y _ => by rw [bne, decide_not, beq_eq_decide]

theorem length_pinned (n ni : Fin cfg.nNodes) (g : Fin cfg.gpusPerNode) :
    (pinned c n g ni).length = (c.nodes ni).freeWholeGpus.length := by
  unfold pinned
  dsimp only
  split
  · rename_i hpin
    have hnodup : (c.nodes ni).freeWholeGpus.Nodup := (List.nodup_finRange _).filter _
    rw [filter_ne_eq_erase hnodup, List.length_cons, List.length_erase_of_mem hpin.2]
    have := List.length_pos_of_mem hpin.2
    omega
  · rfl

theorem nodeOrder_perm (n : Fin cfg.nNodes) : (nodeOrder n).Perm (List.finRange cfg.nNodes) := by
  unfold nodeOrder
  rw [filter_ne_eq_erase (List.nodup_finRange _)]
  exact (List.perm_cons_erase (List.mem_finRange n)).symm

/-- There is a plan for whole GPUs if enough are wholly free. -/
theorem pinned_needed (n : Fin cfg.nNodes) (g : Fin cfg.gpusPerNode) :
    (c.fill job (pinned c n g) (nodeOrder n) job.gpuCount).2 ≤ 0 ↔
      job.gpuCount ≤ wholeGpus c job := by
  rw [fill_needed, wholeGpus, ← ((nodeOrder_perm n).map (freeFor c job)).sum_eq]
  simp only [length_pinned]
  rfl

/-- A job that is placed on a GPU runs there, if and only if it asks for a part
of the GPU, or the GPU is wholly free on a node with the RAM, or it cannot be
placed at all for want of such GPUs. -/
theorem pin_honoured_iff (hcount : 1 ≤ job.gpuCount) (n : Fin cfg.nNodes)
    (g : Fin cfg.gpusPerNode) :
    (∀ plan, (c.tryAllocateOn job n g).1 = some plan → Includes plan n g) ↔
      PinHonoured c job n g := by
  have hresult : (c.tryAllocateOn job n g).1 = c.planOn job n g := by
    unfold Cluster.tryAllocateOn
    cases c.planOn job n g <;> rfl
  rw [hresult, planOn_eq]
  unfold PinHonoured
  by_cases hfrac : Cluster.fractional cfg job
  · rw [if_pos hfrac]
    refine iff_of_true (fun plan hplan => ?_) (.inl hfrac)
    split at hplan
    · obtain rfl := Option.some.inj hplan
      exact ⟨_, List.mem_singleton_self _, rfl, List.mem_singleton_self _⟩
    · cases hplan
  rw [if_neg hfrac, or_iff_right hfrac]
  constructor
  · intro h
    by_cases hplan : (c.fill job (pinned c n g) (nodeOrder n) job.gpuCount).2 ≤ 0
    · obtain ⟨a, ha, rfl, hg⟩ := h _ (if_pos hplan)
      obtain ⟨hram, hsub⟩ := mem_fill _ _ a ha
      exact .inl ⟨mem_pinned (hsub hg), hram⟩
    · rw [pinned_needed, not_le] at hplan
      exact .inr hplan
  · rintro (⟨hfree, hram⟩ | hfew) plan hplan
    · split at hplan
      swap
      · cases hplan
      obtain rfl := Option.some.inj hplan
      have hfirst : pinned c n g n = g :: (c.nodes n).freeWholeGpus.filter fun g' => g' ≠ g :=
        if_pos ⟨rfl, hfree⟩
      exact mem_fill_first (by omega) hram hfirst
    · rw [if_neg (by rw [pinned_needed]; omega)] at hplan
      cases hplan

/-- A job of one whole GPU, on a cluster as it was constructed. -/
theorem pin_honoured_iff_empty :
    let cfg : Config := { nNodes := 1, gpusPerNode := 2, ram_given := by decide,
                          ram_nonneg := by decide, overcommit_nonneg := by decide }
    ∀ plan, ((Cluster.init cfg).tryAllocateOn ⟨"1", 1, 100, 1⟩ (0 : Fin 1) (1 : Fin 2)).1 =
      some plan → Includes plan (0 : Fin 1) (1 : Fin 2) := by
  intro cfg
  have hcount : 1 ≤ (⟨"1", 1, 100, 1⟩ : Job).gpuCount := by decide
  have hfree : PinHonoured (Cluster.init cfg) ⟨"1", 1, 100, 1⟩ (0 : Fin 1) (1 : Fin 2) := by
    decide +kernel
  exact (pin_honoured_iff (c := Cluster.init cfg) hcount (0 : Fin 1) (1 : Fin 2)).mpr hfree

/-- A part of a GPU is taken; a job of a whole GPU, pinned to it, is placed on the
other one. -/
theorem pin_not_honoured :
    let cfg : Config := { nNodes := 1, gpusPerNode := 2, ram_given := by decide,
                          ram_nonneg := by decide, overcommit_nonneg := by decide }
    let c := ((Cluster.init cfg).tryAllocateOn ⟨"1", 1, 25, 1⟩ 0 0).2
    ¬ ∀ plan, (c.tryAllocateOn ⟨"2", 1, 100, 1⟩ 0 0).1 = some plan →
      Includes plan (0 : Fin 1) (0 : Fin 2) := by
  intro cfg c h
  have hplan : (c.tryAllocateOn ⟨"2", 1, 100, 1⟩ 0 0).1 =
      some [⟨"2", (0 : Fin 1), [(1 : Fin 2)], 100⟩] := by
    decide +kernel
  exact absurd (h _ hplan) (by decide)

end Kelpflux.Proof.Sim
