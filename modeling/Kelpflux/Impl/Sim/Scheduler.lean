import Kelpflux.Impl.Sim.GymEnv

/-!
# The score scheduler (`sim/scheduler/multifactor.py`, `score.py`)

The order that `ScoreScheduler` puts the pending jobs in, in exact arithmetic,
and the environment's warm-up action by it. A job asks for one slot at least, as
the loader's traces have it.
-/

namespace Kelpflux.Impl.Sim

/-- `_gpu_type_to_vram` -/
def gpuTypeToVram (gpuType : String) : Option ℚ :=
  if gpuType.toLower = "rtx4070" then some 12
  else if gpuType.toLower = "rtx3080" then some 10
  else none

structure MultifactorScheduler where
  wAge : ℚ := 1000
  wJobsize : ℚ := 500
  wQos : ℚ := 2000
  ageRef : ℚ := 7200

structure ScoreScheduler extends MultifactorScheduler where
  alpha : ℚ := 2 / 5
  beta : ℚ := 1 / 5
  delta : ℚ := 1 / 5
  epsilon : ℚ := 3 / 10
  scoreGain : ℚ := 1000
  /-- In ascending order. -/
  vramTiers : List ℚ := [12, 24]
  mpsPerNode : ℚ := 100
  runtimeHorizon : ℚ := 3600

/-- `_priority`; no job has a QoS class. -/
def MultifactorScheduler.priority (s : MultifactorScheduler) (j : TraceJob) (now : ℚ)
    (maxGpu : Int) : ℚ :=
  let ageNorm := min 1 (max 0 ((now - j.submitTs) / s.ageRef))
  let jobsizeNorm : ℚ := if maxGpu = 0 then 0 else j.gpuCount / maxGpu
  s.wAge * ageNorm + s.wJobsize * jobsizeNorm + s.wQos * 0

namespace ScoreScheduler

variable (s : ScoreScheduler) (num : Numeric) {cfg : Config}

/-- The free slots of each GPU, node by node. -/
def freeMps (c : Cluster cfg) : List Int :=
  (List.finRange cfg.nNodes).flatMap fun n => (List.finRange cfg.gpusPerNode).map (c.nodes n).gpus

/-- `f_mps_fit` -/
def fMpsFit (j : TraceJob) (c : Cluster cfg) : ℚ :=
  let fits := (freeMps c).filter fun free => free ≥ j.mpsReq
  match fits.map fun free => (j.mpsReq : ℚ) / free with
  | [] => 0
  | fit :: rest => rest.foldl max fit

/-- `f_vram_fit` -/
def fVramFit (j : TraceJob) : ℚ :=
  match gpuTypeToVram j.gpuType with
  | none => 1 / 2
  | some v =>
    match s.vramTiers.find? fun t => t ≥ v with
    | none => 0
    | some fitTier => max 0 (1 - (fitTier - v) / s.vramTiers.max?.getD 0)

/-- `f_fragmentation` -/
def fFragmentation (j : TraceJob) (c : Cluster cfg) : ℚ :=
  let free := freeMpsPerNode c
  if free = [] then 0
  else if free.length = 1 then
    match ((freeMps c).filter fun free => free ≥ j.mpsReq).map fun free => free - j.mpsReq with
    | [] => 1
    | residual :: rest => ((rest.foldl min residual : Int) : ℚ) / cfg.mpsPerGpu
  else if j.gpuCount ≥ 1 ∧ (j.mpsReq : ℚ) ≥ s.mpsPerNode then 0
  else
    let x := (j.mpsReq : ℚ) / s.mpsPerNode
    let mean : ℚ := (free.sum : ℚ) / free.length
    let spread := num.sqrt (variance free mean) / max 1 mean
    min 1 (1 / 2 * (4 * x * (1 - x)) + 1 / 2 * spread)

/-- `f_runtime_short` -/
def fRuntimeShort (j : TraceJob) : ℚ :=
  if j.runtime ≤ 0 ∨ s.runtimeHorizon ≤ 0 then 1
  else s.runtimeHorizon / (s.runtimeHorizon + j.runtime)

/-- `score` -/
def score (j : TraceJob) (c : Cluster cfg) : ℚ :=
  max 0 (min 1 (s.alpha * fMpsFit j c + s.beta * s.fVramFit j
    - s.delta * s.fFragmentation num j c + s.epsilon * s.fRuntimeShort j))

/-- The first part of the sort key, less its sign. -/
def total (pending : List TraceJob) (c : Cluster cfg) (now : ℚ) (j : TraceJob) : ℚ :=
  let maxGpu : Int := match pending with
    | [] => 1
    | j :: js => js.foldl (fun most j => max most j.gpuCount) j.gpuCount
  s.priority j now maxGpu + s.scoreGain * s.score num j c

/-- `order`: by `(-(base + kicker), submit_ts, job_id)`. -/
def order (pending : List TraceJob) (c : Cluster cfg) (now : ℚ) : List TraceJob :=
  pending.insertionSort fun a b =>
    let ta := s.total num pending c now a
    let tb := s.total num pending c now b
    ta > tb ∨ ta = tb ∧ (a.submitTs < b.submitTs ∨ a.submitTs = b.submitTs ∧ a.jobId ≤ b.jobId)

end ScoreScheduler

/-! ## `score_warmup_action` -/

variable {G : Type} (choice : List Nat → G → Nat × G) (num : Numeric) (scoreSched : ScoreScheduler)
  {env : EnvConfig}

/-- The action of the highest ranked job that the mask allows, packed on the
first placement. -/
def ScoreScheduler.ranked (st : RunState env) : Option Nat :=
  (scoreSched.order num st.pending st.cluster st.now).findSome? fun job =>
    match st.pending.findIdx? fun j => j.jobId = job.jobId with
    | none => none
    | some jobIdx =>
      let cand := encode env jobIdx 0 0
      if (actionMask st)[cand]? = some true then some cand else none

/-- `score_warmup_action`, after a reset. -/
def ScoreScheduler.warmupAction (st : RunState env) (rng : G) : Nat × G :=
  let mask := actionMask st
  let legal := (List.range mask.length).filter fun a => mask[a]? = some true
  if legal = [] then (env.noOp, rng)
  else if st.pending = [] then choice legal rng
  else
    let (act, rng) := choice legal rng
    ((scoreSched.ranked num st).getD act, rng)

end Kelpflux.Impl.Sim
