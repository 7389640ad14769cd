import Kelpflux.Framework.Python
import Kelpflux.Impl.Sim.GymEnv
import Mathlib.Data.List.FinRange
import Mathlib.Data.List.MinMax

/-!
# The policy server's observation (`rl_scheduler/serve.py`)

The request of `/act`, and what the server makes of it: the observation, the
action mask, the ids of the jobs in the observation and the response. The mask
and the response take the floats as they come (`F`, with Python's `<`); the
observation and the agent calculate with them, in exact arithmetic. `/decide`
makes a request of the last snapshot and the job that is submitted.
-/

namespace Kelpflux.Impl.Scheduler.Serve

open Framework.Python Sim

structure JobView (F : Type) where
  jobId : String
  mpsReq : Int
  gpuCount : Int
  gpuType : String := "rtx4070"
  runtime : F
  submitTs : F
  canFit : Bool := true
  /-- 0.0 by default, and so `slo_s`. -/
  ramReq : F
  sloS : F
  jobClass : String := "batch"
  eligibleNodeIndices : Option (List Int) := none
deriving DecidableEq

structure GpuView (F : Type) where
  freeMps : Int
  runningJobs : Int := 0
  gpuType : String := "rtx4070"
  /-- 1.0 by default. -/
  freeRamRatio : F
deriving DecidableEq

structure NodeView (F : Type) where
  gpus : List (GpuView F) := []
deriving DecidableEq

structure ActRequest (F : Type) where
  now : F
  pendingJobs : List (JobView F) := []
  nodes : List (NodeView F) := []
  nNodes : Nat := 1
  gpusPerNode : Nat := 1
  mpsPerGpu : Int := 100

structure ActResponse (F : Type) where
  action : Nat
  jobI : Option Nat
  nodeJ : Option Nat
  gpuK : Option Nat
  selectedJobId : Option String
  value : F
  entropy : F

/-- `_RAM_REF_GB` -/
def ramRefGb : ℚ := 4

section Features

variable (num : Numeric)

/-- `_job_feat` -/
def jobFeat (j : JobView ℚ) (now : ℚ) (mpsPerGpu : Int) : List ℚ :=
  let gpuOh := Sim.gpuTypes.map fun t => flag (j.gpuType = t)
  let wait := max 0 (now - j.submitTs)
  let sloUrgency := if j.sloS > 0 then wait / j.sloS else 0
  let isInference := flag (j.jobClass = "inference")
  [(j.mpsReq : ℚ) / mpsPerGpu, j.gpuCount] ++ gpuOh ++
    [num.log1p j.runtime, num.log1p wait, j.ramReq / ramRefGb, sloUrgency, isInference]

/-- `_gpu_feat` -/
def gpuFeat (g : GpuView ℚ) (mpsPerGpu : Int) : List ℚ :=
  let freeRatio : ℚ := if mpsPerGpu > 0 then g.freeMps / mpsPerGpu else 0
  let gpuOh := (Sim.gpuTypes.map fun t => flag (g.gpuType = t)) ++ [flag (g.gpuType ∉ Sim.gpuTypes)]
  [freeRatio, freeRatio, g.runningJobs, g.freeRamRatio] ++ gpuOh

/-- The share of the jobs that a predicate holds of. -/
def share (p : JobView ℚ → Bool) (pending : List (JobView ℚ)) : ℚ :=
  (pending.countP p : ℚ) / (max 1 pending.length : ℕ)

/-- `_topo_feat` -/
def topoFeat (pending : List (JobView ℚ)) (nodes : List (NodeView ℚ)) : List ℚ :=
  let ratios := nodes.filterMap fun nd => nd.gpus.head?.map fun g => g.freeRamRatio
  let nodeRam := if ratios = [] then [1] else ratios
  let minFreeRam := minWithDefault nodeRam 1
  [minFreeRam, share (fun j => j.ramReq ≥ 2) pending, share (fun j => j.gpuCount > 1) pending, 0]

/-- `_global_feat` -/
def globalFeat (pending : List (JobView ℚ)) (nodes : List (NodeView ℚ)) (now : ℚ) : List ℚ :=
  let freePerNode := if nodes = [] then [0]
    else nodes.map fun nd => (nd.gpus.map fun g => g.freeMps).sum
  let frag := if freePerNode.length > 1 then fragmentation num freePerNode else 0
  let tod := timeOfDay now
  [num.log1p pending.length, spread (pending.map fun j => j.runtime), frag,
    num.sin (2 * num.pi * tod), num.cos (2 * num.pi * tod), 0]

end Features

/-! ## `build_obs_and_mask` -/

/-- `<` of exact floats. -/
def ltRat (a b : ℚ) : Bool := a < b

namespace ActRequest

section Mask

variable {F : Type} (lt : F → F → Bool) (req : ActRequest F)

def nPlacements : Nat := req.nNodes * req.gpusPerNode

def nActions : Nat := Sim.topK * req.nPlacements + 1

def noOp : Nat := req.nActions - 1

/-- `pending_sorted` -/
def pendingSorted : List (JobView F) :=
  (sortedLt (fun a b => lt a.submitTs b.submitTs) req.pendingJobs).take Sim.topK

/-- The GPU at a node's and a GPU's index, where the listing has one. -/
def gpu? (ni gi : Nat) : Option (GpuView F) := req.nodes[ni]? >>= fun nd => nd.gpus[gi]?

def topIds : List (Option String) :=
  (List.range Sim.topK).map fun i => (req.pendingSorted lt)[i]?.map fun j => j.jobId

/-- The actions that the loops over jobs, nodes and GPUs set in the mask. -/
def feasible : List Nat :=
  (List.range (req.pendingSorted lt).length).flatMap fun i =>
    match (req.pendingSorted lt)[i]? with
    | none => []
    | some j =>
      if !j.canFit then []
      else (List.range req.nNodes).flatMap fun (nj : Nat) =>
        if (j.eligibleNodeIndices.any fun is => (nj : Int) ∉ is) then []
        else (List.range req.gpusPerNode).filterMap fun gk =>
          match req.gpu? nj gk with
          | none => none
          | some gpu =>
            if gpu.freeMps ≥ j.mpsReq then
              some (i * req.nPlacements + nj * req.gpusPerNode + gk)
            else none

/-- The mask, one Boolean for each action. -/
def mask : List Bool :=
  (List.range req.nActions).map fun a => a = req.noOp || a ∈ req.feasible lt

/-- The response of `/act`, for the action that the policy selects. -/
def respond (action : Nat) (value entropy : F) : ActResponse F :=
  if action = Sim.topK * req.nPlacements then
    ⟨action, none, none, none, none, value, entropy⟩
  else
    let jobI := action / req.nPlacements
    let rem := action % req.nPlacements
    ⟨action, some jobI, some (rem / req.gpusPerNode), some (rem % req.gpusPerNode),
      ((req.topIds lt)[jobI]?).join, value, entropy⟩

end Mask

def obs (req : ActRequest ℚ) (num : Numeric) : List ℚ :=
  let jobFeats := (List.range Sim.topK).map fun i =>
    match (req.pendingSorted ltRat)[i]? with
    | some j => jobFeat num j req.now req.mpsPerGpu
    | none => List.replicate jobFeatDim 0
  let gpuFeats := (List.range req.nNodes).flatMap fun ni =>
    (List.range req.gpusPerNode).map fun gi =>
      match req.gpu? ni gi with
      | some g => gpuFeat g req.mpsPerGpu
      | none => List.replicate gpuFeatDim 0
  jobFeats.flatten ++ gpuFeats.flatten ++ topoFeat (req.pendingSorted ltRat) req.nodes
    ++ globalFeat num req.pendingJobs req.nodes req.now

end ActRequest

/-- `build_obs_and_mask` -/
def buildObsAndMask (num : Numeric) (req : ActRequest ℚ) :
    List ℚ × List Bool × List (Option String) :=
  (req.obs num, req.mask ltRat, req.topIds ltRat)

/-! ## `/decide` -/

structure Snapshot (F : Type) where
  ts : F
  now : F
  pendingJobs : List (JobView F) := []
  nodes : List (NodeView F) := []
  nNodes : Nat := 1
  gpusPerNode : Nat := 1
  mpsPerGpu : Int := 100

/-- The job that is submitted. -/
structure DecideRequest (F : Type) where
  jobId : String
  mpsReq : Int
  gpuCount : Int
  gpuType : String := "rtx4070"
  runtime : F
  submitTs : F

structure DecideResponse (F : Type) where
  priorityBoost : Int
  rlSelected : Bool
  abstain : Bool
  abstainReason : Option String
  rlSelectedJobId : Option String
  nodeJ : Option Nat
  gpuK : Option Nat
  otelTraceparent : Option String := none
  value : F
  entropy : F
  shadow : Bool

/-- What `/decide` uses of the floats. -/
structure Floats (F : Type) where
  zero : F
  /-- `x < y` -/
  lt : F → F → Bool
  /-- `x - y` -/
  sub : F → F → F
  /-- `f"{x}"` -/
  repr : F → String
  /-- `f"{x:.3f}"` -/
  fixed3 : F → String

/-- The settings, from the environment. -/
structure Settings (F : Type) where
  snapshotTtlS : F
  shadowMode : Bool
  valueAbstain : F
  entropyAbstain : F
  priorityBoost : Int

/-- The model that is loaded. -/
structure Holder (F : Type) where
  obsDim : Option Nat
  nActions : Option Nat
  /-- The action, the value and the entropy for the observation and the mask of
  a request. -/
  select : ActRequest F → List Bool → Except Exc (Nat × F × F)

section Decide

variable {F : Type} (fl : Floats F) (cfg : Settings F) (holder : Option (Holder F))

/-- An answer that abstains, before the model is asked. -/
def abstainFor (traceparent : Option String) (reason : String) : DecideResponse F where
  priorityBoost := 0
  rlSelected := false
  abstain := true
  abstainReason := some reason
  rlSelectedJobId := none
  nodeJ := none
  gpuK := none
  otelTraceparent := traceparent
  value := fl.zero
  entropy := fl.zero
  shadow := cfg.shadowMode

/-- The request to the model: the submitting job joins the pending ones. -/
def fuse (snap : Snapshot F) (req : DecideRequest F) : ActRequest F where
  now := if fl.lt snap.now req.submitTs then req.submitTs else snap.now
  pendingJobs :=
    if snap.pendingJobs.any fun j => j.jobId = req.jobId then snap.pendingJobs
    else snap.pendingJobs ++
      [{ jobId := req.jobId
         mpsReq := req.mpsReq
         gpuCount := req.gpuCount
         gpuType := req.gpuType
         runtime := req.runtime
         submitTs := req.submitTs
         canFit := true
         ramReq := fl.zero
         sloS := fl.zero }]
  nodes := snap.nodes
  nNodes := snap.nNodes
  gpusPerNode := snap.gpusPerNode
  mpsPerGpu := snap.mpsPerGpu

/-- The age of the snapshot, as far as it is fresh. -/
def freshSnapshot (time : F) (snap : Option (Snapshot F)) : Except String (Snapshot F) :=
  match snap with
  | none => .error "snapshot_stale (age=Nones)"
  | some snap =>
    let age := fl.sub time snap.ts
    if fl.lt cfg.snapshotTtlS age then .error ("snapshot_stale (age=" ++ fl.repr age ++ "s)")
    else .ok snap

/-- A size other than the model's. -/
def mismatch (name : String) (got : Nat) (expected : Option Nat) : Option String :=
  expected.bind fun n => if got ≠ n then some s!"{name} ({got} != {n})" else none

/-- Why the model cannot take a request, if it cannot. -/
def shapeMismatch (actReq : ActRequest F) : Option String :=
  let (obsDim, nActions) := envDims actReq.nNodes actReq.gpusPerNode
  (mismatch "shape_mismatch_obs" obsDim (holder.bind Holder.obsDim)).or
    (mismatch "shape_mismatch_actions" nActions (holder.bind Holder.nActions))

/-- Why an answer of the model abstains, if it does. -/
def safetyNet (value entropy : F) : Option String :=
  if fl.lt value cfg.valueAbstain then
    some ("low_value (" ++ fl.fixed3 value ++ " < " ++ fl.repr cfg.valueAbstain ++ ")")
  else if fl.lt cfg.entropyAbstain entropy then
    some ("high_entropy (" ++ fl.fixed3 entropy ++ " > " ++ fl.repr cfg.entropyAbstain ++ ")")
  else none

/-- The answer to an action of the model. -/
def decideAction (traceparent : Option String) (actReq : ActRequest F) (jobId : String)
    (action : Nat) (value entropy : F) : Except Exc (DecideResponse F) :=
  if action = Sim.topK * actReq.nPlacements then
    .ok
      { priorityBoost := 0
        rlSelected := false
        abstain := false
        abstainReason := none
        rlSelectedJobId := none
        nodeJ := none
        gpuK := none
        otelTraceparent := traceparent
        value := value
        entropy := entropy
        shadow := cfg.shadowMode }
  else if actReq.nPlacements = 0 then .error (.other "integer division or modulo by zero")
  else
    let jobI := action / actReq.nPlacements
    let rem := action % actReq.nPlacements
    let selId := ((actReq.topIds fl.lt)[jobI]?).join
    let reason := safetyNet fl cfg value entropy
    let rlPickedMe : Bool := selId = some jobId
    .ok
      { priorityBoost :=
          if cfg.shadowMode || reason.isSome then 0
          else if rlPickedMe then cfg.priorityBoost else 0
        rlSelected := rlPickedMe
        abstain := reason.isSome
        abstainReason := reason
        rlSelectedJobId := selId
        nodeJ := if reason.isSome then none else some (rem / actReq.gpusPerNode)
        gpuK := if reason.isSome then none else some (rem % actReq.gpusPerNode)
        otelTraceparent := traceparent
        value := value
        entropy := entropy
        shadow := cfg.shadowMode }

/-- `decide`, at the time `time`. -/
def decide (time : F) (snap : Option (Snapshot F)) (traceparent : String) (req : DecideRequest F) :
    Except Exc (DecideResponse F) :=
  let traceparent := if traceparent = "" then none else some traceparent
  match freshSnapshot fl cfg time snap with
  | .error reason => .ok (abstainFor fl cfg traceparent reason)
  | .ok snap =>
    if snap.nNodes = 0 || snap.nodes.isEmpty then
      .ok (abstainFor fl cfg traceparent "no_available_gpu_nodes")
    else
      let actReq := fuse fl snap req
      match shapeMismatch holder actReq, holder with
      | some reason, _ => .ok (abstainFor fl cfg traceparent reason)
      | none, none => .error .attributeError
      | none, some holder => do
        let (action, value, entropy) ← holder.select actReq (actReq.mask fl.lt)
        decideAction fl cfg traceparent actReq req.jobId action value entropy

end Decide

/-! ## `_AgentHolder` -/

/-- The networks of an agent, for as many actions as it has. A DQN has no actor. -/
structure Agent where
  obsDim : Nat
  nActions : Nat
  /-- `actor.policy`: the probabilities of the actions and their logarithms. -/
  policy : Option (List ℚ → List Bool → Fin nActions → ℚ × ℚ)
  /-- `action_values` -/
  actionValues : List ℚ → Fin nActions → ℚ

/-- `np.argmax`: the first of the greatest. -/
def argmax {α : Type} [LinearOrder α] {n : Nat} (f : Fin n → α) : Option (Fin n) :=
  (List.finRange n).argmax f

/-- `.sum(dim=-1)` -/
def total {n : Nat} (f : Fin n → ℚ) : ℚ := ((List.finRange n).map f).sum

/-- The entry of a mask for an action. -/
def allows (mask : List Bool) (a : Nat) : Bool := mask.getD a false

/-- `np.flatnonzero(mask)` -/
def flatnonzero (mask : List Bool) : List Nat := (List.range mask.length).filter (allows mask)

namespace Agent

variable (agent : Agent) (obs : List ℚ) (mask : List Bool)

/-- `q_masked`, with `-np.inf` as `⊥`. -/
def qMasked (a : Fin agent.nActions) : WithBot ℚ :=
  if allows mask a then (agent.actionValues obs a : WithBot ℚ) else ⊥

/-- The greedy action of a DQN. -/
def selectQ : Except Exc (Nat × ℚ × ℚ) :=
  if flatnonzero mask = [] then .ok (0, 0, 0)
  else match argmax (agent.qMasked obs mask) with
    | some action => .ok (action, (agent.qMasked obs mask action).unbotD 0, 0)
    | none => .error (.valueError "attempt to get argmax of an empty sequence")

/-- The greedy action of an actor. -/
def selectActor (policy : List ℚ → List Bool → Fin agent.nActions → ℚ × ℚ) :
    Except Exc (Nat × ℚ × ℚ) :=
  let out := policy obs mask
  let entropy := -total fun a => (out a).1 * (out a).2
  let value := total fun a => (out a).1 * agent.actionValues obs a
  let probs : Fin agent.nActions → ℚ := fun a => if allows mask a then (out a).1 else 0
  if total probs < 1 / 1000000000 then
    match flatnonzero mask with
    | action :: _ => .ok (action, value, entropy)
    | [] => .error (.other "index 0 is out of bounds for axis 0 with size 0")
  else match argmax probs with
    | some action => .ok (action, value, entropy)
    | none => .error (.valueError "attempt to get argmax of an empty sequence")

/-- `select`: the action, the value and the entropy. The networks take nothing of
another size. -/
def select : Except Exc (Nat × ℚ × ℚ) :=
  if obs.length ≠ agent.obsDim || mask.length ≠ agent.nActions then
    .error (.runtimeError "mat1 and mat2 shapes cannot be multiplied")
  else match agent.policy with
    | none => agent.selectQ obs mask
    | some policy => agent.selectActor obs mask policy

/-- The agent as it is held. -/
def holder (num : Numeric) : Holder ℚ where
  obsDim := some agent.obsDim
  nActions := some agent.nActions
  select := fun req mask => agent.select (req.obs num) mask

end Agent

end Kelpflux.Impl.Scheduler.Serve
