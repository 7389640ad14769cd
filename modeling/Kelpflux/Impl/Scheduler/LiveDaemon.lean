import Kelpflux.Framework.Word
import Kelpflux.Impl.Sim.GymEnv

/-!
# The live daemon's observation (`rl_scheduler/live_daemon.py`)

The daemon builds a simulator cluster from the running jobs of Slurm, and the
observation and the mask from that cluster.
-/

namespace Kelpflux.Impl.Scheduler.LiveDaemon

open Framework Framework.Python Sim

structure LiveJob where
  jobId : String
  mpsReq : Int
  gpuCount : Int
  gpuType : String
  runtime : ℚ
  submitTs : ℚ
  state : String
  nodelist : String
  jobClass : String := "batch"
  sloS : ℚ := 0
  ramReq : ℚ := 0
deriving DecidableEq

/-- `[int(x) for x in part.split(":") if x.isdigit()]` -/
def partNums (part : String) : List Nat :=
  ((pieces (· == ':') part.toList).filter fun x => x ≠ [] && x.all Char.isDigit).map digitsNat

/-- The loop of `_parse_squeue` over the parts of a job's TRES text. -/
def tresMps (tres : String) : Nat :=
  (splitComma tres).foldl (fun mpsReq part =>
    if contains (lower part) "mps" then (partNums part).getLast?.getD mpsReq else mpsReq) 0

/-- `NODE_RAM_GB` -/
def nodeRamGb : Dict String ℚ := [("rtx4070", 62), ("rtx3080", 5)]

/-- `NODE_RAM_GB_DEFAULT` -/
def nodeRamGbDefault : ℚ := 62

/-- `_node_gpu_type` -/
def nodeGpuType (nodeName : String) : String :=
  if contains (lower nodeName) "3080" then "rtx3080" else "rtx4070"

/-- The budget of a card's node. -/
def ramOf (gpuType : String) : ℚ := (nodeRamGb.get? gpuType).getD nodeRamGbDefault

theorem ramOf_nonneg (nodeName : String) : 0 ≤ ramOf (nodeGpuType nodeName) := by
  unfold nodeGpuType
  split <;> decide +kernel

/-- `_live_to_sim_job` -/
def liveToSimJob (j : LiveJob) : TraceJob where
  jobId := j.jobId
  gpuCount := j.gpuCount
  mpsReq := j.mpsReq
  ramReq := j.ramReq
  gpuType := j.gpuType
  submitTs := j.submitTs
  runtime := j.runtime
  jobClass := j.jobClass
  sloS := j.sloS

section

variable {n : Nat} (nodeNames : Fin n → String) (nGpus mpsPerGpu : Nat)

/-- The configuration of the cluster that `_reconstruct_sim_cluster` makes. -/
def simConfig : EnvConfig where
  nNodes := n
  gpusPerNode := nGpus
  mpsPerGpu := mpsPerGpu
  nodeRamGb := List.ofFn fun i => ramOf (nodeGpuType (nodeNames i))
  nodeGpuTypes := List.ofFn fun i => nodeGpuType (nodeNames i)
  ram_given := by simp
  ram_nonneg := by
    intro r hr
    obtain ⟨i, rfl⟩ := List.mem_ofFn.mp hr
    exact ramOf_nonneg _
  overcommit_nonneg := by decide
  speeds_given := Or.inl rfl
  types_given := by simp

/-- The test of `hit`: the job's node list names the node. -/
def named (rj : LiveJob) (nodeName : String) : Bool :=
  nodeName ≠ "" && contains rj.nodelist nodeName

/-- One turn of the loop over the running jobs. -/
def addRunning (c : Cluster (simConfig nodeNames nGpus mpsPerGpu).toConfig) (rj : LiveJob) :
    Cluster (simConfig nodeNames nGpus mpsPerGpu).toConfig :=
  let hit := (List.finRange n).filter fun k => named rj (nodeNames k)
  if hit = [] then c
  else
    { nodes := fun (ni : Fin n) =>
        if ni ∈ hit then
          { c.nodes ni with
            gpus := fun gi => max 0 ((c.nodes ni).gpus gi - rj.mpsReq)
            usedRamGb := (c.nodes ni).usedRamGb + rj.ramReq }
        else c.nodes ni
      active := c.active.set rj.jobId
        (hit.map fun ni => ⟨rj.jobId, ni, List.finRange nGpus, rj.mpsReq⟩)
      activeRam := c.activeRam.set rj.jobId rj.ramReq }

/-- `_reconstruct_sim_cluster` -/
def reconstructSimCluster (running : List LiveJob) :
    Cluster (simConfig nodeNames nGpus mpsPerGpu).toConfig :=
  running.foldl (addRunning nodeNames nGpus mpsPerGpu) (.init _)

/-- `top` of `build_obs_and_mask` -/
def top (pending : List LiveJob) : List TraceJob :=
  (bySubmitTs (pending.map liveToSimJob)).take Sim.topK

def obs (num : Numeric) (pending running : List LiveJob) (now : ℚ) : List ℚ :=
  let cl := reconstructSimCluster nodeNames nGpus mpsPerGpu running
  let simPending := pending.map liveToSimJob
  let jobFeats := (List.range Sim.topK).map fun i =>
    match (top pending)[i]? with
    | some j => jobFeat num j now mpsPerGpu
    | none => List.replicate jobFeatDim 0
  let gpuFeats := (List.finRange n).flatMap fun ni =>
    (List.finRange nGpus).map fun gi => gpuFeat (simConfig nodeNames nGpus mpsPerGpu) cl ni gi
  jobFeats.flatten ++ gpuFeats.flatten ++ topoFeat simPending cl ++ globalFeat num simPending cl now

def nActions (n nGpus : Nat) : Nat := Sim.topK * (n * nGpus) + 1

/-- The actions that the loops over jobs, nodes and GPUs set in the mask. -/
def feasible (pending running : List LiveJob) : List Nat :=
  let cl := reconstructSimCluster nodeNames nGpus mpsPerGpu running
  (List.range (top pending).length).flatMap fun i =>
    match (top pending)[i]? with
    | none => []
    | some jb => (List.finRange n).flatMap fun nj =>
      (List.finRange nGpus).filterMap fun gk =>
        if (cl.nodes nj).gpus gk ≥ jb.mpsReq then some (i * (n * nGpus) + nj * nGpus + gk)
        else none

def mask (pending running : List LiveJob) : List Bool :=
  (List.range (nActions n nGpus)).map fun a =>
    a = nActions n nGpus - 1 || a ∈ feasible nodeNames nGpus mpsPerGpu pending running

/-- `build_obs_and_mask` -/
def buildObsAndMask (num : Numeric) (pending running : List LiveJob) (now : ℚ) :
    List ℚ × List Bool × List (Option String) :=
  (obs nodeNames nGpus mpsPerGpu num pending running now,
    mask nodeNames nGpus mpsPerGpu pending running,
    (List.range Sim.topK).map fun i => (top pending)[i]?.map fun j => j.jobId)

end

end Kelpflux.Impl.Scheduler.LiveDaemon
