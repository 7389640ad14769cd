import Kelpflux.Impl.Sim.Cluster
import Mathlib.Data.Rat.Floor

/-!
# The training environment (`sim/gym_env.py`)

`KubefluxSchedEnv` over the simulator's cluster, in exact arithmetic: the
square root and the other functions of `math` are taken as they come
(`Numeric`), and so are the random generators (`Random`). The ablation masks
are apart (`Ablation`).
-/

namespace Kelpflux.Impl.Sim

open Framework

def topK : Nat := 16
def jobFeatDim : Nat := 9
def gpuFeatDim : Nat := 7
def topoFeatDim : Nat := 4
def globalFeatDim : Nat := 6

/-- `env_dims`, without co-location: the lengths of an observation and of the
action space. -/
def envDims (nNodes gpusPerNode : Nat) : Nat × Nat :=
  (topK * jobFeatDim + nNodes * gpusPerNode * gpuFeatDim + topoFeatDim + globalFeatDim,
    topK * nNodes * gpusPerNode + 1)

def gpuTypes : List String := ["rtx4070", "rtx3080"]

/-- `RAM_REF_GB` -/
def ramRefGb : ℚ := 4

/-- `MIN_RUNTIME_S` -/
def minRuntimeS : ℚ := 1

/-- The functions of `math`, on what they take: `log1p` raises for `-1` and less. -/
structure Numeric where
  log1p : ℚ → ℚ
  sin : ℚ → ℚ
  cos : ℚ → ℚ
  sqrt : ℚ → ℚ
  exp : ℚ → ℚ
  pi : ℚ

/-- The fields of `loader.Job` that the environment reads. -/
structure TraceJob extends Job where
  gpuType : String
  submitTs : ℚ
  runtime : ℚ
  jobClass : String := "batch"
  sloS : ℚ := 0
deriving DecidableEq

inductive RewardMode where
  | jctAligned
  | mo
deriving DecidableEq

/-- What a `KubefluxSchedEnv` is constructed with. -/
structure EnvConfig extends Config where
  topK : Nat := 16
  maxSteps : Nat := 50000
  rewardMode : RewardMode := .jctAligned
  rewardScale : ℚ := 1000
  placementRewardScale : ℚ := 1 / 100
  potentialShaping : Bool := false
  balanceCoef : ℚ := 0
  fairnessCoef : ℚ := 0
  /-- Empty for none. -/
  nodeSpeeds : List ℚ := []
  /-- Empty for none. -/
  nodeGpuTypes : List String := []
  runtimeSigma : ℚ := 0
  interference : ℚ := 0
  oomSigma : ℚ := 0
  oomPenaltyS : ℚ := 0
  colocationActions : Bool := false
  sloPenalty : ℚ := 0
  noopPenalty : ℚ := 0
  speeds_given : nodeSpeeds = [] ∨ nNodes ≤ nodeSpeeds.length
  types_given : nodeGpuTypes = [] ∨ nNodes ≤ nodeGpuTypes.length

namespace EnvConfig

variable (env : EnvConfig)

/-- `_Node.gpu_type` -/
def gpuType (i : Fin env.nNodes) : String :=
  if env.nodeGpuTypes = [] then "rtx4070" else env.nodeGpuTypes.getD i ""

/-- `_Node.speed` -/
def speed (i : Fin env.nNodes) : ℚ :=
  if env.nodeSpeeds = [] then 1 else env.nodeSpeeds.getD i 0

/-- `_n_modes` -/
def nModes : Nat := if env.colocationActions then 2 else 1

/-- `_n_placements` -/
def nPlacements : Nat := env.nNodes * env.gpusPerNode

/-- `action_space.n` -/
def nActions : Nat := env.topK * env.nNodes * env.gpusPerNode * env.nModes + 1

/-- `_no_op` -/
def noOp : Nat := env.nActions - 1

end EnvConfig

/-! ## Feature extractors -/

/-- A field of a one-hot vector, or a flag. -/
def flag (p : Prop) [Decidable p] : ℚ := if p then 1 else 0

/-- `free_ram_ratio` -/
def Node.freeRamRatio {cfg : Config} (node : Node cfg) : ℚ :=
  if node.ramGb > 0 then (node.ramGb - node.usedRamGb) / node.ramGb else 1

/-- `free_mps_total` -/
def Node.freeMpsTotal {cfg : Config} (node : Node cfg) : Int :=
  ((List.finRange cfg.gpusPerNode).map node.gpus).sum

section Features

variable (num : Numeric) (env : EnvConfig)

/-- `_job_feat` -/
def jobFeat (job : TraceJob) (now : ℚ) (mpsPerGpu : Nat) : List ℚ :=
  let gpuOh := gpuTypes.map fun t => flag (job.gpuType = t)
  let wait := max 0 (now - job.submitTs)
  let sloUrgency := if job.sloS > 0 then wait / job.sloS else 0
  let isInference := flag (job.jobClass = "inference")
  [(job.mpsReq : ℚ) / mpsPerGpu, job.gpuCount] ++ gpuOh ++
    [num.log1p job.runtime, num.log1p wait, job.ramReq / ramRefGb, sloUrgency, isInference]

/-- The allocations on a GPU, of all jobs. -/
def runningOnGpu {cfg : Config} (c : Cluster cfg) (i : Fin cfg.nNodes)
    (g : Fin cfg.gpusPerNode) : Nat :=
  (c.active.flatMap fun kv => kv.2).countP fun a => a.nodeId = i ∧ g ∈ a.gpuIndices

/-- `_gpu_feat` -/
def gpuFeat (c : Cluster env.toConfig) (i : Fin env.nNodes) (g : Fin env.gpusPerNode) : List ℚ :=
  let freeRatio : ℚ := (c.nodes i).gpus g / env.mpsPerGpu
  let gpuTypeOh := (gpuTypes.map fun t => flag (env.gpuType i = t))
    ++ [flag (env.gpuType i ∉ gpuTypes)]
  [freeRatio, freeRatio, runningOnGpu c i g, (c.nodes i).freeRamRatio] ++ gpuTypeOh

/-- `min` of a list, with its default. -/
def minWithDefault (xs : List ℚ) (default : ℚ) : ℚ :=
  match xs with
  | [] => default
  | x :: xs => xs.foldl min x

/-- The share of the jobs that a predicate holds of. -/
def share (p : TraceJob → Bool) (pending : List TraceJob) : ℚ :=
  (pending.countP p : ℚ) / (max 1 pending.length : ℕ)

/-- `ram_req ≥ 2 GB` -/
def heavy (j : TraceJob) : Bool := j.ramReq ≥ 2

def ddp (j : TraceJob) : Bool := j.gpuCount > 1

/-- The running allocations that span nodes. -/
def crossNode {cfg : Config} (c : Cluster cfg) : Nat :=
  c.active.countP fun kv => (Cluster.hosts kv.2).length > 1

/-- `_topo_feat` -/
def topoFeat (pending : List TraceJob) {cfg : Config} (c : Cluster cfg) : List ℚ :=
  let minFreeRam := minWithDefault
    ((List.finRange cfg.nNodes).map fun i => (c.nodes i).freeRamRatio) 1
  [minFreeRam, share heavy pending, share ddp pending, crossNode c]

/-- The 90th percentile of the runtimes over the 50th. -/
def spread (runtimes : List ℚ) : ℚ :=
  if runtimes.length ≥ 2 then
    let rts := runtimes.insertionSort (· ≤ ·)
    let n := rts.length
    let p50 := rts.getD (n / 2) 0
    let p90 := rts.getD (min (n * 9 / 10) (n - 1)) 0
    if p50 > 0 then p90 / p50 else 1
  else 1

/-- The mean square distance of the free slots from `mean`. -/
def variance (xs : List Int) (mean : ℚ) : ℚ :=
  (xs.map fun x => ((x : ℚ) - mean) ^ 2).sum / xs.length

/-- The coefficient of variation of the free slots. -/
def fragmentation (freePerNode : List Int) : ℚ :=
  let mean := max 1 ((freePerNode.sum : ℚ) / freePerNode.length)
  num.sqrt (variance freePerNode mean) / mean

/-- The part of the day that has passed. -/
def timeOfDay (now : ℚ) : ℚ := (now - 86400 * ⌊now / 86400⌋) / 86400

/-- `free_mps_per_node` -/
def freeMpsPerNode {cfg : Config} (c : Cluster cfg) : List Int :=
  (List.finRange cfg.nNodes).map fun i => (c.nodes i).freeMpsTotal

/-- `_global_feat` -/
def globalFeat (pending : List TraceJob) {cfg : Config} (c : Cluster cfg) (now : ℚ) : List ℚ :=
  let frag := if cfg.nNodes > 1 then fragmentation num (freeMpsPerNode c) else 0
  let tod := timeOfDay now
  [num.log1p pending.length, spread (pending.map fun j => j.runtime), frag,
    num.sin (2 * num.pi * tod), num.cos (2 * num.pi * tod), 0]

/-- `sorted(pending, key=lambda j: j.submit_ts)` -/
def bySubmitTs (pending : List TraceJob) : List TraceJob :=
  pending.insertionSort fun a b => a.submitTs ≤ b.submitTs

/-- `_build_obs`; the jobs past the last fill up with zeros. -/
def buildObs (c : Cluster env.toConfig) (pending : List TraceJob) (now : ℚ) : List ℚ :=
  let top := (bySubmitTs pending).take env.topK
  let jobFeats := (List.range env.topK).map fun i =>
    match top[i]? with
    | some j => jobFeat num j now env.mpsPerGpu
    | none => List.replicate jobFeatDim 0
  let gpuFeats := (List.finRange env.nNodes).flatMap fun ni =>
    (List.finRange env.gpusPerNode).map fun gi => gpuFeat env c ni gi
  jobFeats.flatten ++ gpuFeats.flatten ++ topoFeat pending c ++ globalFeat num pending c now

end Features

/-! ## Run state -/

inductive EventKind where
  | submit
  | jobEnd
deriving DecidableEq

/-- An entry of the event queue: `(t, seq, kind, job_id)`. -/
structure Event where
  time : ℚ
  seq : Nat
  kind : EventKind
  jobId : String
deriving DecidableEq

/-- The order of the entries, whose `seq` differ. -/
def Event.le (a b : Event) : Prop := a.time < b.time ∨ a.time = b.time ∧ a.seq ≤ b.seq

instance : DecidableRel Event.le := fun a b => by unfold Event.le; infer_instance

/-- `heapq.heappush`, on the queue in the order its entries are popped in. -/
def heappush (events : List Event) (e : Event) : List Event := events.orderedInsert Event.le e

/-- `_RunState` -/
structure RunState (env : EnvConfig) where
  cluster : Cluster env.toConfig
  pending : List TraceJob
  events : List Event
  seq : Nat
  now : ℚ
  byId : Dict String TraceJob
  completed : Nat
  nJobs : Nat
  jctSum : ℚ
  completionReward : ℚ
  jcts : List ℚ
  jctRecords : List (String × ℚ)

/-- Random generators: a generator's `standard_normal`, that of a generator
made for a key, the generator of a seed, and `zlib.crc32`. -/
structure Random (G : Type) where
  standardNormal : G → ℚ × G
  keyedNormal : List Int → ℚ
  defaultRng : Option Int → G
  crc32 : String → Nat

/-- `KubefluxSchedEnv` after a reset. -/
structure EnvState (G : Type) (env : EnvConfig) where
  run : RunState env
  stepCount : Nat
  rng : G
  episodeSeed : Option Int
  oomEvents : Nat

namespace RunState

variable {env : EnvConfig}

/-- `_top_k_jobs` -/
def topKJobs (st : RunState env) : List TraceJob := (bySubmitTs st.pending).take env.topK

/-- `_on_job_end`, of a job and its entry in `by_id`. -/
def onJobEnd (st : RunState env) (jid : String) (j : TraceJob) : RunState env :=
  let jct := st.now - j.submitTs
  let reward := st.completionReward - jct / env.rewardScale
  let reward := if env.fairnessCoef > 0 then
      reward - env.fairnessCoef * (jct / env.rewardScale) ^ 2 else reward
  let reward := if env.sloPenalty > 0 ∧ j.sloS > 0 ∧ jct > j.sloS then
      reward - env.sloPenalty * (jct - j.sloS) / env.rewardScale else reward
  { st with
    cluster := st.cluster.release jid
    completed := st.completed + 1
    jctSum := st.jctSum + jct
    jcts := st.jcts ++ [jct]
    jctRecords := st.jctRecords ++ [(jid, jct)]
    completionReward := reward }

/-- What happens at an event that was popped. `by_id` has every job that an
event names. -/
def handle (st : RunState env) (e : Event) : RunState env :=
  let st := { st with now := e.time }
  match st.byId.get? e.jobId with
  | none => st
  | some j =>
    match e.kind with
    | .submit => { st with pending := st.pending ++ [j] }
    | .jobEnd => st.onJobEnd e.jobId j

/-- `heappop`, and what happens at the event. -/
def popEvent (st : RunState env) : RunState env :=
  match st.events with
  | [] => st
  | e :: es => { st with events := es }.handle e

/-- The loop of `_advance_to_decision`, over the events that are left. -/
def advance : List Event → RunState env → RunState env
  | [], st => st
  | _ :: es, st =>
    if st.pending.any fun j => st.cluster.canAllocate j.toJob then st else advance es st.popEvent

def advanceToDecision (st : RunState env) : RunState env := advance st.events st

end RunState

/-! ## `_realized_runtime` -/

/-- `SPEED_MATRIX` -/
def speedMatrix : Dict String (Dict String ℚ) :=
  [("rtx4070", [("inference", 1), ("training", 1), ("llm", 1), ("batch", 1)]),
    ("rtx3080", [("inference", 109 / 100), ("training", 118 / 100), ("llm", 117 / 100),
      ("batch", 110 / 100)])]

/-- `_co_residents` -/
def coResidents {cfg : Config} (c : Cluster cfg) (plan : Plan cfg) (jobId : String) : Nat :=
  let gpus := plan.flatMap fun a => a.gpuIndices.map fun g => (a.nodeId, g)
  (c.active.filter fun kv => kv.1 ≠ jobId ∧
    kv.2.any fun a => a.gpuIndices.any fun g => (a.nodeId, g) ∈ gpus).length

section Runtime

variable {G : Type} (num : Numeric) (rand : Random G) (env : EnvConfig)

/-- `_job_noise` -/
def jobNoise (seed : Option Int) (jobId : String) (rng : G) : ℚ × G :=
  match seed with
  | none => rand.standardNormal rng
  | some seed => (rand.keyedNormal [seed, rand.crc32 jobId], rng)

/-- `_ram_peak` -/
def ramPeak (seed : Option Int) (jobId : String) (ramReq : ℚ) (rng : G) : ℚ × G :=
  if ramReq ≤ 0 ∨ env.oomSigma ≤ 0 then (ramReq, rng)
  else
    let (z, rng) := match seed with
      | none => rand.standardNormal rng
      | some seed => (rand.keyedNormal [seed, rand.crc32 jobId, 0x52414D], rng)
    (ramReq * num.exp (env.oomSigma * z - env.oomSigma ^ 2 / 2), rng)

/-- The realized peaks of the jobs on a node. -/
def peakSum (c : Cluster env.toConfig) (seed : Option Int) (ni : Fin env.nNodes) (rng : G) :
    ℚ × G :=
  c.active.foldl (fun (peak, rng) kv =>
    if kv.2.any fun a => a.nodeId = ni then
      let (p, rng) := ramPeak num rand env seed kv.1 ((c.activeRam.get? kv.1).getD 0) rng
      (peak + p, rng)
    else (peak, rng)) (0, rng)

/-- `_oom_penalty`, over the nodes of the plan: the penalty, and whether there
is one to count. -/
def oomPenalty (c : Cluster env.toConfig) (seed : Option Int) :
    List (Fin env.nNodes) → G → ℚ × G × Nat
  | [], rng => (0, rng, 0)
  | ni :: nis, rng =>
    let (peak, rng) := peakSum num rand env c seed ni rng
    if peak > (c.nodes ni).ramGb + 1 / 10 ^ 9 then (env.oomPenaltyS, rng, 1)
    else oomPenalty c seed nis rng

/-- The speed of the plan's first node for the job, or of the first node. -/
def planSpeed (job : TraceJob) (plan : Plan env.toConfig) : ℚ :=
  let speedOf := fun (ni : Fin env.nNodes) =>
    match speedMatrix.get? (env.gpuType ni) with
    | some row =>
      if env.nodeGpuTypes ≠ [] then (row.get? job.jobClass).getD 1 else env.speed ni
    | none => env.speed ni
  match plan with
  | a :: _ => speedOf a.nodeId
  | [] => if h : 0 < env.nNodes then speedOf ⟨0, h⟩ else 1

/-- `_realized_runtime`: the runtime, the generator and the drains to count. -/
def realizedRuntime (job : TraceJob) (plan : Plan env.toConfig) (c : Cluster env.toConfig)
    (seed : Option Int) (rng : G) : ℚ × G × Nat :=
  let speed := planSpeed env job plan
  let base := if speed ≠ 1 then max minRuntimeS (job.runtime / speed) else job.runtime
  let (base, rng) :=
    if env.runtimeSigma > 0 ∨ env.interference > 0 then
      let mult : ℚ := if env.interference > 0 then
          1 + env.interference * coResidents c plan job.jobId else 1
      let (mult, rng) := if env.runtimeSigma > 0 then
          let (z, rng) := jobNoise rand seed job.jobId rng
          (mult * num.exp (env.runtimeSigma * z - env.runtimeSigma ^ 2 / 2), rng)
        else (mult, rng)
      (max minRuntimeS (base * mult), rng)
    else (base, rng)
  let (penalty, rng, ooms) :=
    if env.oomPenaltyS > 0 then oomPenalty num rand env c seed (Cluster.hosts plan) rng
    else (0, rng, 0)
  (max minRuntimeS (base + penalty), rng, ooms)

end Runtime

/-! ## Rewards -/

section Rewards

variable (num : Numeric) {env : EnvConfig}

/-- `_placement_reward`, of a GPU that an action decodes to. -/
def placementReward (job : TraceJob) (nodeJ : Fin env.nNodes) (gpuK : Fin env.gpusPerNode)
    (c : Cluster env.toConfig) : ℚ :=
  let total : ℚ := env.mpsPerGpu
  let remaining : ℚ := (c.nodes nodeJ).gpus gpuK - job.mpsReq
  let mpsFit := 1 - remaining / total
  let freeAll := (List.finRange env.nNodes).flatMap fun ni =>
    (List.finRange env.gpusPerNode).map fun gi => (c.nodes ni).gpus gi
  (2 / 5 * mpsFit - 1 / 5 * fragmentation num freeAll) * env.placementRewardScale

/-- `_imbalance` -/
def imbalance (c : Cluster env.toConfig) : ℚ :=
  let perNode := freeMpsPerNode c
  if perNode.length < 2 then 0
  else num.sqrt (variance perNode ((perNode.sum : ℚ) / perNode.length)) / max 1 env.mpsPerGpu

/-- `_potential` -/
def potential (st : RunState env) : ℚ :=
  let n := max 1 st.nJobs
  let phi := -(st.pending.map fun j => max 0 (st.now - j.submitTs)).sum / (env.rewardScale * n)
  if env.balanceCoef > 0 ∧ env.nNodes > 1 then phi - env.balanceCoef * imbalance num st.cluster
  else phi

end Rewards

/-! ## Actions -/

section Codec

variable (env : EnvConfig)

/-- `_encode` -/
def encode (jobI placement mode : Nat) : Nat :=
  (jobI * env.nPlacements + placement) * env.nModes + mode

/-- `_decode` -/
def decode (a : Nat) : Nat × Nat × Nat × Nat :=
  let mode := a % env.nModes
  let pj := a / env.nModes
  let jobI := pj / env.nPlacements
  let rem := pj % env.nPlacements
  (jobI, rem / env.gpusPerNode, rem % env.gpusPerNode, mode)

variable {env}

/-- The modes that `action_mask` allows a job on a GPU. -/
def legalModes (c : Cluster env.toConfig) (job : TraceJob) (nj : Fin env.nNodes)
    (gk : Fin env.gpusPerNode) : List Nat :=
  if c.canAllocateOn job.toJob nj gk then
    (List.range env.nModes).filter fun mode => mode ≠ 1 ∨ (c.nodes nj).gpus gk = env.mpsPerGpu
  else []

/-- The actions that the loops over jobs, nodes and GPUs set in the mask. -/
def legalActions (st : RunState env) : List Nat :=
  (List.range st.topKJobs.length).flatMap fun i =>
    match st.topKJobs[i]? with
    | none => []
    | some job => (List.finRange env.nNodes).flatMap fun nj =>
      (List.finRange env.gpusPerNode).flatMap fun gk =>
        (legalModes st.cluster job nj gk).map fun mode =>
          encode env i (nj * env.gpusPerNode + gk) mode

/-- `action_mask`, without an ablation mode: one Boolean for each action. -/
def actionMask (st : RunState env) : List Bool :=
  (List.range env.nActions).map fun a => a = env.noOp || a ∈ legalActions st

end Codec

/-! ## `reset` and `step` -/

/-- The `info` of a step. -/
structure StepInfo where
  now : ℚ
  queueLen : Nat
  completed : Nat
  nJobs : Nat
  jctSum : ℚ
  /-- `None` for NaN. -/
  avgJct : Option ℚ

structure StepResult where
  obs : List ℚ
  reward : ℚ
  terminated : Bool
  truncated : Bool
  info : StepInfo

section Env

variable {G : Type} (num : Numeric) (rand : Random G) {env : EnvConfig}

/-- The event queue of a trace: the submissions in the order of their times. -/
def submissions (jobs : List TraceJob) : List Event :=
  (bySubmitTs jobs).mapIdx fun seq j => ⟨j.submitTs, seq, .submit, j.jobId⟩

/-- The run state that `reset` builds, before the first decision. -/
def RunState.start (env : EnvConfig) (jobs : List TraceJob) : RunState env where
  cluster := Cluster.init env.toConfig
  pending := []
  events := (submissions jobs).foldl heappush []
  seq := jobs.length
  now := 0
  byId := Dict.ofList (jobs.map fun j => (j.jobId, j))
  completed := 0
  nJobs := jobs.length
  jctSum := 0
  completionReward := 0
  jcts := []
  jctRecords := []

/-- `reset`, of the jobs of the trace. -/
def reset (env : EnvConfig) (seed : Option Int) (jobs : List TraceJob) : EnvState G env where
  run := (RunState.start env jobs).advanceToDecision
  stepCount := 0
  rng := rand.defaultRng seed
  episodeSeed := seed
  oomEvents := 0

/-- The branch of `step` for an action that is not the no-op: the state, the
reward of the placement and whether the job was scheduled. -/
def EnvState.place (s : EnvState G env) (action : Nat) : EnvState G env × ℚ × Bool :=
  let (jobI, nodeJ, gpuK, _) := decode env action
  match s.run.topKJobs[jobI]? with
  | none => (s, -1 / 100, false)
  | some chosen =>
    match s.run.cluster.tryAllocateOn chosen.toJob nodeJ gpuK with
    | (none, _) => (s, -1 / 100, false)
    | (some plan, cluster) =>
      let (realized, rng, ooms) :=
        realizedRuntime num rand env chosen plan cluster s.episodeSeed s.rng
      let st := s.run
      let rPlace := if h : nodeJ < env.nNodes ∧ gpuK < env.gpusPerNode then
          placementReward num chosen ⟨nodeJ, h.1⟩ ⟨gpuK, h.2⟩ cluster else 0
      ({ s with
          run := { st with
            cluster := cluster
            pending := st.pending.erase chosen
            events := heappush st.events ⟨st.now + realized, st.seq, .jobEnd, chosen.jobId⟩
            seq := st.seq + 1 }
          rng := rng
          oomEvents := s.oomEvents + ooms }, rPlace, true)

/-- The first half of `step`: the action. -/
def EnvState.act (s : EnvState G env) (action : Nat) : EnvState G env × ℚ × Bool :=
  if action ≠ env.noOp then s.place num rand action
  else if env.noopPenalty > 0 ∧ s.run.topKJobs.any fun j => s.run.cluster.canAllocate j.toJob then
    (s, -env.noopPenalty, false)
  else (s, 0, false)

/-- The second half: time goes on to the next decision. -/
def RunState.goOn (st : RunState env) (scheduled : Bool) : RunState env :=
  let st := { st with completionReward := 0 }
  (if scheduled then st else st.popEvent).advanceToDecision

/-- The state after `step`. -/
def EnvState.next (s : EnvState G env) (action : Nat) : EnvState G env :=
  let (s', _, scheduled) := { s with stepCount := s.stepCount + 1 }.act num rand action
  { s' with run := s'.run.goOn scheduled }

def RunState.terminated (st : RunState env) : Bool := st.completed ≥ st.nJobs ∧ st.events = []

/-- `step` -/
def step (s : EnvState G env) (action : Nat) : EnvState G env × StepResult :=
  let s' := s.next num rand action
  let st := s'.run
  let rPlace := ({ s with stepCount := s.stepCount + 1 }.act num rand action).2.1
  let truncated := decide (s'.stepCount ≥ env.maxSteps)
  let endCharge := if st.terminated ∨ truncated then
      -(st.pending.map fun j => (st.now - j.submitTs) / env.rewardScale).sum else 0
  let reward := match env.rewardMode with
    | .mo => st.completionReward
    | .jctAligned => rPlace + st.completionReward + endCharge
  let reward := if env.potentialShaping ∨ env.balanceCoef > 0 then
      reward + (99 / 100 * potential num st - potential num s.run) else reward
  (s', {
    obs := buildObs num env st.cluster st.pending st.now
    reward := reward
    terminated := st.terminated
    truncated := truncated
    info := {
      now := st.now
      queueLen := st.pending.length
      completed := st.completed
      nJobs := st.nJobs
      jctSum := st.jctSum
      avgJct := if st.completed = 0 then none else some (st.jctSum / max 1 st.completed) } })

end Env

end Kelpflux.Impl.Sim
