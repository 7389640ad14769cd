import Kelpflux.Framework.Dict
import Mathlib.Algebra.Order.Ring.Rat
import Mathlib.Data.List.FinRange
import Mathlib.Data.List.Sort

/-!
# The simulator's cluster (`sim/cluster.py`)

GPUs with MPS slots and hosts with a RAM budget, in exact arithmetic. A node is
named by its index, and a node's GPUs by theirs; the indices of a cluster's
nodes and GPUs are bounded by its configuration. Card types and speeds, which
no allocation reads, are left out.
-/

namespace Kelpflux.Impl.Sim

open Framework

/-- The fields of `loader.Job` that an allocation reads. -/
structure Job where
  jobId : String
  gpuCount : Int
  mpsReq : Int
  ramReq : ℚ
deriving DecidableEq

/-- What a `Cluster` is constructed with. -/
structure Config where
  nNodes : Nat
  gpusPerNode : Nat
  mpsPerGpu : Nat := 100
  /-- Empty for no RAM budgets. -/
  nodeRamGb : List ℚ := []
  ramOvercommit : ℚ := 1
  ram_given : nodeRamGb = [] ∨ nNodes ≤ nodeRamGb.length
  ram_nonneg : ∀ r ∈ nodeRamGb, 0 ≤ r
  overcommit_nonneg : 0 ≤ ramOvercommit

theorem Config.one_nonneg : (0 : ℚ) ≤ 1 := by decide

theorem Config.no_ram_nonneg : ∀ r ∈ ([] : List ℚ), 0 ≤ r := by simp

theorem Config.none_given {α : Type} (n : Nat) : ([] : List α) = [] ∨ n ≤ ([] : List α).length :=
  Or.inl rfl

scoped instance decidableMemFin (n : Nat) (g : Fin n) (gs : List (Fin n)) : Decidable (g ∈ gs) :=
  List.instDecidableMemOfLawfulBEq g gs

/-- `_Node`: the free MPS slots of its GPUs, and its host RAM. -/
@[ext]
structure Node (cfg : Config) where
  gpus : Fin cfg.gpusPerNode → Int
  ramGb : ℚ
  usedRamGb : ℚ

structure Allocation (cfg : Config) where
  jobId : String
  nodeId : Fin cfg.nNodes
  gpuIndices : List (Fin cfg.gpusPerNode)
  mpsPerGpu : Int
deriving DecidableEq

abbrev Plan (cfg : Config) := List (Allocation cfg)

@[ext]
structure Cluster (cfg : Config) where
  nodes : Fin cfg.nNodes → Node cfg
  active : Dict String (Plan cfg)
  activeRam : Dict String ℚ

variable {cfg : Config}

/-- `free_whole_gpus`. -/
def Node.freeWholeGpus (node : Node cfg) : List (Fin cfg.gpusPerNode) :=
  (List.finRange cfg.gpusPerNode).filter fun g => node.gpus g = cfg.mpsPerGpu

/-- `free_mps += d` on a GPU. -/
def Node.addMps (node : Node cfg) (d : Int) (g : Fin cfg.gpusPerNode) : Node cfg :=
  { node with gpus := Function.update node.gpus g (node.gpus g + d) }

namespace Cluster

/-- `__post_init__`. -/
def init (cfg : Config) : Cluster cfg where
  nodes i :=
    { gpus := fun _ => cfg.mpsPerGpu
      ramGb := if cfg.nodeRamGb = [] then 10 ^ 9 else cfg.nodeRamGb.getD i 0
      usedRamGb := 0 }
  active := []
  activeRam := []

/-- `_ram_ok`. -/
def ramOk (c : Cluster cfg) (i : Fin cfg.nNodes) (ramReq : ℚ) : Prop :=
  (c.nodes i).usedRamGb + ramReq ≤ (c.nodes i).ramGb * cfg.ramOvercommit + 1 / 10 ^ 9

instance (c : Cluster cfg) (i : Fin cfg.nNodes) (ramReq : ℚ) : Decidable (c.ramOk i ramReq) := by
  unfold ramOk; infer_instance

/-! ## Planners -/

/-- The job asks for a part of one GPU. -/
def fractional (cfg : Config) (job : Job) : Prop := job.gpuCount = 1 ∧ job.mpsReq < cfg.mpsPerGpu

instance (job : Job) : Decidable (fractional cfg job) := by unfold fractional; infer_instance

/-- One turn of the loop over a node's GPUs: a GPU, and its residual. -/
def betterGpu (node : Node cfg) (mpsReq : Int) (best : Option (Fin cfg.gpusPerNode × Int))
    (g : Fin cfg.gpusPerNode) : Option (Fin cfg.gpusPerNode × Int) :=
  if node.gpus g ≥ mpsReq then
    let residual := node.gpus g - mpsReq
    match best with
    | none => some (g, residual)
    | some b => if residual < b.2 then some (g, residual) else some b
  else best

/-- The GPU with the smallest residual. -/
def bestGpu (node : Node cfg) (mpsReq : Int) : Option (Fin cfg.gpusPerNode × Int) :=
  (List.finRange cfg.gpusPerNode).foldl (betterGpu node mpsReq) none

/-- The loops over nodes for a job of whole GPUs: `ordered` are a node's free
GPUs in the order to take them in. It ends with the plan and the GPUs still
needed. -/
def fill (c : Cluster cfg) (job : Job) (ordered : Fin cfg.nNodes → List (Fin cfg.gpusPerNode)) :
    List (Fin cfg.nNodes) → Int → Plan cfg × Int
  | [], needed => ([], needed)
  | ni :: nis, needed =>
    if needed ≤ 0 then ([], needed)
    else if ¬ c.ramOk ni job.ramReq then c.fill job ordered nis needed
    else
      let take := (ordered ni).take needed.toNat
      if take = [] then c.fill job ordered nis needed
      else
        let rest := c.fill job ordered nis (needed - take.length)
        (⟨job.jobId, ni, take, cfg.mpsPerGpu⟩ :: rest.1, rest.2)

/-- `_plan`. -/
def plan (c : Cluster cfg) (job : Job) : Option (Plan cfg) :=
  if fractional cfg job then
    (List.finRange cfg.nNodes).findSome? fun ni =>
      if c.ramOk ni job.ramReq then
        (bestGpu (c.nodes ni) job.mpsReq).map fun best => [⟨job.jobId, ni, [best.1], job.mpsReq⟩]
      else none
  else
    let free := fun i => (c.nodes i).freeWholeGpus
    let ranked := (List.finRange cfg.nNodes).insertionSort fun i j =>
      (free j).length ≤ (free i).length
    let r := c.fill job free ranked job.gpuCount
    if r.2 > 0 then none else some r.1

/-- `_plan_on`. -/
def planOn (c : Cluster cfg) (job : Job) (nodeI gpuI : Nat) : Option (Plan cfg) :=
  if h : nodeI < cfg.nNodes ∧ gpuI < cfg.gpusPerNode then
    let nodeI : Fin cfg.nNodes := ⟨nodeI, h.1⟩
    let gpuI : Fin cfg.gpusPerNode := ⟨gpuI, h.2⟩
    if fractional cfg job then
      if (c.nodes nodeI).gpus gpuI ≥ job.mpsReq ∧ c.ramOk nodeI job.ramReq then
        some [⟨job.jobId, nodeI, [gpuI], job.mpsReq⟩]
      else none
    else
      let ordered := fun ni =>
        let free := (c.nodes ni).freeWholeGpus
        if ni = nodeI ∧ gpuI ∈ free then gpuI :: free.filter fun g => g ≠ gpuI else free
      let nodeOrder := nodeI :: (List.finRange cfg.nNodes).filter fun n => n ≠ nodeI
      let r := c.fill job ordered nodeOrder job.gpuCount
      if r.2 ≤ 0 then some r.1 else none
  else none

def canAllocate (c : Cluster cfg) (job : Job) : Bool := (c.plan job).isSome

def canAllocateOn (c : Cluster cfg) (job : Job) (nodeI gpuI : Nat) : Bool :=
  (c.planOn job nodeI gpuI).isSome

/-! ## Allocation -/

/-- `free_mps += sign * mps_per_gpu` on the GPUs of a plan. -/
def addMps (nodes : Fin cfg.nNodes → Node cfg) (sign : Int) (plan : Plan cfg) :
    Fin cfg.nNodes → Node cfg :=
  plan.foldl (fun nodes alloc => alloc.gpuIndices.foldl (fun nodes g =>
    Function.update nodes alloc.nodeId ((nodes alloc.nodeId).addMps (sign * alloc.mpsPerGpu) g))
    nodes) nodes

/-- `{a.node_id for a in plan}`. -/
def hosts (plan : Plan cfg) : List (Fin cfg.nNodes) := (plan.map fun a => a.nodeId).dedup

/-- An update of the used RAM of each of the hosts. -/
def updateRam (nodes : Fin cfg.nNodes → Node cfg) (f : ℚ → ℚ) (hosts : List (Fin cfg.nNodes)) :
    Fin cfg.nNodes → Node cfg :=
  hosts.foldl (fun nodes ni =>
    Function.update nodes ni { nodes ni with usedRamGb := f (nodes ni).usedRamGb }) nodes

/-- What `try_allocate` and `try_allocate_on` do with a plan, `_reserve_ram`
included. -/
def reserve (c : Cluster cfg) (job : Job) (plan : Plan cfg) : Cluster cfg where
  nodes := updateRam (addMps c.nodes (-1) plan) (· + job.ramReq) (hosts plan)
  active := c.active.set job.jobId plan
  activeRam := c.activeRam.set job.jobId job.ramReq

/-- The two of them, given their planner's answer. -/
def allocate (c : Cluster cfg) (job : Job) : Option (Plan cfg) → Option (Plan cfg) × Cluster cfg
  | none => (none, c)
  | some plan => (some plan, c.reserve job plan)

def tryAllocate (c : Cluster cfg) (job : Job) : Option (Plan cfg) × Cluster cfg :=
  c.allocate job (c.plan job)

def tryAllocateOn (c : Cluster cfg) (job : Job) (nodeI gpuI : Nat) :
    Option (Plan cfg) × Cluster cfg :=
  c.allocate job (c.planOn job nodeI gpuI)

def release (c : Cluster cfg) (jobId : String) : Cluster cfg :=
  match c.active.get? jobId with
  | none => c
  | some plan =>
    let ram := (c.activeRam.get? jobId).getD 0
    { nodes := updateRam (addMps c.nodes 1 plan) (fun used => max 0 (used - ram)) (hosts plan)
      active := c.active.erase jobId
      activeRam := c.activeRam.erase jobId }

end Cluster

end Kelpflux.Impl.Sim
