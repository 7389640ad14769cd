import Kelpflux.Impl.Scheduler.Serve
import Mathlib.Tactic.FieldSimp
import Mathlib.Tactic.NormNum
import Mathlib.Tactic.Push

/-!
# The policy server's observation against the environment's

A simulator state, mirrored field by field into a request (`mirror`), gives the
server the observation that the policy was trained on, but for the topology
features: the server takes its shares over the jobs it shows and counts no
allocation as one that spans nodes.

* `jobFeats_eq`, `gpuFeats_eq`, `globalFeat_eq`: the parts that agree;
* `topoFeat_eq_iff`: when the topology features do.
-/

namespace Kelpflux.Proof.Scheduler

open Framework Impl.Sim Impl.Scheduler

/-! ## The mirrored request -/

def jobView (j : TraceJob) : Serve.JobView ℚ where
  jobId := j.jobId
  mpsReq := j.mpsReq
  gpuCount := j.gpuCount
  gpuType := j.gpuType
  runtime := j.runtime
  submitTs := j.submitTs
  ramReq := j.ramReq
  sloS := j.sloS
  jobClass := j.jobClass

variable (env : EnvConfig)

def gpuView (c : Cluster env.toConfig) (i : Fin env.nNodes) (g : Fin env.gpusPerNode) :
    Serve.GpuView ℚ where
  freeMps := (c.nodes i).gpus g
  runningJobs := runningOnGpu c i g
  gpuType := env.gpuType i
  freeRamRatio := (c.nodes i).freeRamRatio

def nodeView (c : Cluster env.toConfig) (i : Fin env.nNodes) : Serve.NodeView ℚ :=
  ⟨(List.finRange env.gpusPerNode).map (gpuView env c i)⟩

def mirror (c : Cluster env.toConfig) (pending : List TraceJob) (now : ℚ) :
    Serve.ActRequest ℚ where
  now := now
  pendingJobs := pending.map jobView
  nodes := (List.finRange env.nNodes).map (nodeView env c)
  nNodes := env.nNodes
  gpusPerNode := env.gpusPerNode
  mpsPerGpu := env.mpsPerGpu

variable {env}

/-! ## The parts that agree -/

theorem pendingSorted_mirror (c : Cluster env.toConfig) (pending : List TraceJob) (now : ℚ) :
    (mirror env c pending now).pendingSorted Serve.ltRat
      = ((bySubmitTs pending).take Impl.Sim.topK).map jobView := by
  have hle : ∀ a ∈ pending, ∀ b ∈ pending, a.submitTs ≤ b.submitTs ↔
      ¬ Serve.ltRat (jobView b).submitTs (jobView a).submitTs := by
    intro a _ b _
    rw [Serve.ltRat, decide_eq_true_iff, not_lt]
    exact Iff.rfl
  unfold Serve.ActRequest.pendingSorted bySubmitTs mirror Python.sortedLt
  dsimp only
  rw [List.map_take, List.map_insertionSort _ (fun a b => ¬ Serve.ltRat b.submitTs a.submitTs)
    jobView pending hle]

/-- The listing has the GPUs of the cluster and no others. -/
theorem gpu?_mirror (c : Cluster env.toConfig) (pending : List TraceJob) (now : ℚ)
    (i : Fin env.nNodes) (g : Fin env.gpusPerNode) :
    (mirror env c pending now).gpu? i g = some (gpuView env c i g) := by
  simp [Serve.ActRequest.gpu?, mirror, nodeView]

theorem jobFeat_jobView (num : Numeric) (j : TraceJob) (now : ℚ) (mpsPerGpu : ℕ) :
    Serve.jobFeat num (jobView j) now mpsPerGpu = jobFeat num j now mpsPerGpu := by
  unfold Serve.jobFeat jobFeat
  rw [Int.cast_natCast]
  rfl

theorem gpuFeat_gpuView (c : Cluster env.toConfig) (i : Fin env.nNodes)
    (g : Fin env.gpusPerNode) :
    Serve.gpuFeat (gpuView env c i g) env.mpsPerGpu = gpuFeat env c i g := by
  have hfree : (if (env.mpsPerGpu : ℤ) > 0 then ((c.nodes i).gpus g : ℚ) / env.mpsPerGpu else 0)
      = (c.nodes i).gpus g / env.mpsPerGpu := by
    split
    · rfl
    · rename_i hzero
      have hzero : env.mpsPerGpu = 0 := by omega
      rw [hzero, Nat.cast_zero, div_zero]
  simp only [Serve.gpuFeat, gpuFeat, gpuView, hfree, Int.cast_natCast]
  rfl

/-- The features of the jobs shown, and the zeros after them. -/
def jobFeats (num : Numeric) (k : ℕ) (env : EnvConfig) (pending : List TraceJob) (now : ℚ) :
    List ℚ :=
  ((List.range k).map fun i =>
    match ((bySubmitTs pending).take k)[i]? with
    | some j => jobFeat num j now env.mpsPerGpu
    | none => List.replicate jobFeatDim 0).flatten

def gpuFeats (c : Cluster env.toConfig) : List ℚ :=
  ((List.finRange env.nNodes).flatMap fun ni =>
    (List.finRange env.gpusPerNode).map fun gi => gpuFeat env c ni gi).flatten

theorem buildObs_eq (num : Numeric) (c : Cluster env.toConfig) (pending : List TraceJob)
    (now : ℚ) :
    buildObs num env c pending now = jobFeats num env.topK env pending now ++ gpuFeats c
      ++ topoFeat pending c ++ globalFeat num pending c now := rfl

theorem jobFeats_eq (num : Numeric) (c : Cluster env.toConfig) (pending : List TraceJob)
    (now : ℚ) :
    ((List.range Impl.Sim.topK).map fun i =>
      match ((mirror env c pending now).pendingSorted Serve.ltRat)[i]? with
      | some j => Serve.jobFeat num j now env.mpsPerGpu
      | none => List.replicate jobFeatDim 0).flatten = jobFeats num Impl.Sim.topK env pending now := by
  unfold jobFeats
  congr 2
  funext i
  rw [pendingSorted_mirror, List.getElem?_map]
  cases ((bySubmitTs pending).take Impl.Sim.topK)[i]? with
  | none => rfl
  | some j => exact jobFeat_jobView num j now env.mpsPerGpu

theorem gpuFeats_eq (c : Cluster env.toConfig) (pending : List TraceJob) (now : ℚ) :
    ((List.range env.nNodes).flatMap fun ni =>
      (List.range env.gpusPerNode).map fun gi =>
        match (mirror env c pending now).gpu? ni gi with
        | some g => Serve.gpuFeat g env.mpsPerGpu
        | none => List.replicate gpuFeatDim 0).flatten = gpuFeats c := by
  unfold gpuFeats
  rw [← List.map_coe_finRange_eq_range, ← List.map_coe_finRange_eq_range, List.flatMap_map]
  congr 2
  funext i
  rw [List.map_map]
  congr 1
  funext g
  simp only [Function.comp_apply, gpu?_mirror, gpuFeat_gpuView]

theorem globalFeat_eq (num : Numeric) (c : Cluster env.toConfig) (pending : List TraceJob)
    (now : ℚ) :
    Serve.globalFeat num (pending.map jobView) (mirror env c pending now).nodes now
      = globalFeat num pending c now := by
  have hfree : ((List.finRange env.nNodes).map (nodeView env c)).map
      (fun nd => (nd.gpus.map fun g => g.freeMps).sum) = freeMpsPerNode c := by
    simp only [List.map_map, freeMpsPerNode, Node.freeMpsTotal]
    congr 1
    funext i
    simp only [Function.comp_apply, nodeView, List.map_map]
    rfl
  have hfrag : (let free := if (mirror env c pending now).nodes = [] then [0]
        else (mirror env c pending now).nodes.map fun nd => (nd.gpus.map fun g => g.freeMps).sum
      if free.length > 1 then fragmentation num free else 0)
      = if env.nNodes > 1 then fragmentation num (freeMpsPerNode c) else 0 := by
    dsimp only [mirror]
    rw [hfree]
    by_cases hzero : env.nNodes = 0
    · simp [hzero]
    · simp [hzero, freeMpsPerNode]
  have hruntimes : (pending.map jobView).map (fun j => j.runtime)
      = pending.map fun j => j.runtime := by
    rw [List.map_map]
    rfl
  simp only [Serve.globalFeat, globalFeat, hruntimes, List.length_map] at hfrag ⊢
  rw [hfrag]

/-! ## The topology features -/

/-- The lowest free-RAM ratio of the nodes. -/
def minFreeRam (c : Cluster env.toConfig) : ℚ :=
  minWithDefault ((List.finRange env.nNodes).map fun i => (c.nodes i).freeRamRatio) 1

theorem minWithDefault_or (xs : List ℚ) :
    minWithDefault (if xs = [] then [1] else xs) 1 = minWithDefault xs 1 := by
  cases xs with
  | nil => rfl
  | cons x xs => rfl

/-- The server reads a node's RAM off its first GPU. -/
theorem minFreeRam_mirror (c : Cluster env.toConfig) (pending : List TraceJob) (now : ℚ) :
    minWithDefault ((mirror env c pending now).nodes.filterMap fun nd =>
        nd.gpus.head?.map fun g => g.freeRamRatio) 1
      = if env.gpusPerNode = 0 then 1 else minFreeRam c := by
  have hhead : ∀ i, ((nodeView env c i).gpus.head?.map fun g => g.freeRamRatio)
      = if env.gpusPerNode = 0 then none else some (c.nodes i).freeRamRatio := by
    intro i
    unfold nodeView
    rw [List.head?_map, Option.map_map]
    split
    · rename_i hzero
      have hnil : List.finRange env.gpusPerNode = [] := by simp [hzero]
      rw [hnil]
      rfl
    · rename_i hpos
      have hne : List.finRange env.gpusPerNode ≠ [] := by simp [hpos]
      rw [List.head?_eq_some_head hne]
      rfl
  unfold mirror minFreeRam
  dsimp only
  rw [List.filterMap_map, funext (f := _ ∘ _) hhead]
  split
  · simp [minWithDefault]
  · rw [List.filterMap_eq_map']

theorem share_jobView {p : Serve.JobView ℚ → Bool} {q : TraceJob → Bool}
    (h : ∀ j, p (jobView j) = q j) (jobs : List TraceJob) :
    Serve.share p (jobs.map jobView) = share q jobs := by
  have hcount : (jobs.map jobView).countP p = jobs.countP q := by
    rw [List.countP_map]
    congr 1
    exact funext h
  rw [Serve.share, share, hcount, List.length_map]

/-- A predicate holds of the same share of the jobs shown as of the queue. -/
def SameShare (p : TraceJob → Bool) (top pending : List TraceJob) : Prop :=
  top.countP p * pending.length = pending.countP p * top.length

theorem share_eq_iff (p : TraceJob → Bool) {top pending : List TraceJob}
    (h : top.length = 0 ↔ pending.length = 0) :
    share p top = share p pending ↔ SameShare p top pending := by
  by_cases hzero : pending.length = 0
  · have htop := List.length_eq_zero_iff.mp (h.mpr hzero)
    have hpending := List.length_eq_zero_iff.mp hzero
    simp [htop, hpending, SameShare]
  · have htop : top.length ≠ 0 := fun ht => hzero (h.mp ht)
    have hmax : ∀ n : ℕ, n ≠ 0 → max 1 n = n := by
      intro n hn
      omega
    unfold share SameShare
    rw [hmax _ htop, hmax _ hzero, div_eq_div_iff (by exact_mod_cast htop) (by exact_mod_cast hzero)]
    exact_mod_cast Iff.rfl

theorem topoFeat_eq_iff (c : Cluster env.toConfig) (pending : List TraceJob) (now : ℚ) :
    let top := (bySubmitTs pending).take Impl.Sim.topK
    Serve.topoFeat (top.map jobView) (mirror env c pending now).nodes = topoFeat pending c ↔
      (env.gpusPerNode = 0 → minFreeRam c = 1) ∧ SameShare heavy top pending
        ∧ SameShare ddp top pending ∧ crossNode c = 0 := by
  intro top
  have hlen : top.length = 0 ↔ pending.length = 0 := by
    simp only [top, List.length_take, bySubmitTs, List.length_insertionSort, Impl.Sim.topK]
    omega
  have hmin := minFreeRam_mirror c pending now
  have hheavy : Serve.share (fun j => j.ramReq ≥ 2) (top.map jobView) = share heavy top :=
    share_jobView (fun _ => rfl) top
  have hddp : Serve.share (fun j => j.gpuCount > 1) (top.map jobView) = share ddp top :=
    share_jobView (fun _ => rfl) top
  have hgpus : (if env.gpusPerNode = 0 then 1 else minFreeRam c) = minFreeRam c
      ↔ (env.gpusPerNode = 0 → minFreeRam c = 1) := by
    split
    · rename_i hzero
      exact ⟨fun h _ => h.symm, fun h => (h hzero).symm⟩
    · rename_i hpos
      exact ⟨fun _ h => absurd h hpos, fun _ => rfl⟩
  have hcross : (0 : ℚ) = crossNode c ↔ crossNode c = 0 :=
    eq_comm.trans Nat.cast_eq_zero
  simp only [Serve.topoFeat, topoFeat, minWithDefault_or, hmin, hheavy, hddp, List.cons.injEq,
    and_true, share_eq_iff _ hlen, hcross]
  rw [show minWithDefault ((List.finRange env.nNodes).map fun i => (c.nodes i).freeRamRatio) 1
    = minFreeRam c from rfl, hgpus]

/-! ## The observation -/

theorem jobFeats_length (num : Numeric) (k : ℕ) (pending : List TraceJob) (now : ℚ) :
    (jobFeats num k env pending now).length = k * jobFeatDim := by
  unfold jobFeats
  rw [List.length_flatten, List.map_map]
  have hconst : ∀ i ∈ List.range k, (List.length ∘ fun i =>
      match ((bySubmitTs pending).take k)[i]? with
      | some j => jobFeat num j now env.mpsPerGpu
      | none => List.replicate jobFeatDim 0) i = jobFeatDim := by
    intro i _
    simp only [Function.comp_apply]
    split <;> simp [jobFeat, Impl.Sim.gpuTypes, jobFeatDim]
  rw [List.map_congr_left hconst, List.map_const', List.sum_replicate, List.length_range,
    nsmul_eq_mul, Nat.cast_id]

/-- Where the two observations agree. -/
structure Aligned (c : Cluster env.toConfig) (pending : List TraceJob) : Prop where
  /-- The environment shows as many jobs as the server. -/
  window : env.topK = Impl.Sim.topK
  /-- Without GPUs the server takes the nodes' RAM to be free. -/
  gpus : env.gpusPerNode = 0 → minFreeRam c = 1
  heavy : SameShare heavy ((bySubmitTs pending).take Impl.Sim.topK) pending
  ddp : SameShare ddp ((bySubmitTs pending).take Impl.Sim.topK) pending
  /-- No running allocation spans nodes. -/
  local_ : crossNode c = 0

theorem serve_obs_eq_iff (num : Numeric) (env : EnvConfig) (c : Cluster env.toConfig)
    (pending : List TraceJob) (now : ℚ) :
    (mirror env c pending now).obs num = buildObs num env c pending now
      ↔ Aligned c pending := by
  have hserve : (mirror env c pending now).obs num = jobFeats num Impl.Sim.topK env pending now
      ++ gpuFeats c ++ Serve.topoFeat (((bySubmitTs pending).take Impl.Sim.topK).map jobView)
        (mirror env c pending now).nodes ++ globalFeat num pending c now := by
    rw [← jobFeats_eq num c, ← gpuFeats_eq c pending now, ← pendingSorted_mirror c pending now,
      ← globalFeat_eq num c pending now]
    rfl
  have htopo := topoFeat_eq_iff c pending now
  rw [hserve, buildObs_eq]
  constructor
  · intro h
    have hwindow : env.topK = Impl.Sim.topK := by
      have hlen := congrArg List.length h
      simp only [List.length_append, jobFeats_length, jobFeatDim, Serve.topoFeat, topoFeat,
        List.length_cons, List.length_nil] at hlen
      omega
    rw [hwindow, List.append_left_inj, List.append_assoc, List.append_assoc,
      List.append_right_inj, List.append_right_inj] at h
    obtain ⟨hgpus, hheavy, hddp, hlocal⟩ := htopo.mp h
    exact ⟨hwindow, hgpus, hheavy, hddp, hlocal⟩
  · intro h
    rw [h.window, htopo.mpr ⟨h.gpus, h.heavy, h.ddp, h.local_⟩]

/-! ## A queue longer than the window -/

/-- One node with one GPU. -/
def oneGpu : EnvConfig where
  nNodes := 1
  gpusPerNode := 1
  ram_given := Or.inl rfl
  ram_nonneg := by simp
  overcommit_nonneg := Config.one_nonneg
  speeds_given := Or.inl rfl
  types_given := Or.inl rfl

/-- Seventeen jobs, of which the last alone needs much RAM. -/
def seventeen : List TraceJob :=
  (List.range 17).map fun i =>
    { jobId := "job-" ++ toString i, gpuCount := 1, mpsReq := 10, ramReq := if i = 16 then 4 else 1
      gpuType := "rtx4070", submitTs := i, runtime := 60 }

def zeros : Numeric := ⟨fun _ => 0, fun _ => 0, fun _ => 0, fun _ => 0, fun _ => 0, 0⟩

/-- The environment counts the last job's RAM, and the server does not. -/
theorem long_queue_differs :
    (mirror oneGpu (Cluster.init _) seventeen 100).obs zeros
      ≠ buildObs zeros oneGpu (Cluster.init _) seventeen 100 := by
  decide +kernel

end Kelpflux.Proof.Scheduler
