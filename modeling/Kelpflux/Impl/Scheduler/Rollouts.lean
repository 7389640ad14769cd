import Kelpflux.Impl.Scheduler.Replay
import Kelpflux.Impl.Sim.Runner
import Kelpflux.Impl.Sim.Scheduler
import Mathlib.Data.List.MinMax

/-!
# Filling the offline buffer (`rl_scheduler/rlpd_finetune.py`)

`collect_sim_rollouts` and `load_live_trace_rollouts`: episodes of the simulator,
under random actions and under the score's, whose steps are added to a replay
buffer. The traces that `load_auto` reads are inputs. The loops have a bound on
their turns.
-/

namespace Kelpflux.Impl.Scheduler.Rollouts

open Framework Framework.Python Sim Replay

/-- `env.observation_space.shape[0]` -/
def obsDim (env : EnvConfig) : Nat :=
  env.topK * jobFeatDim + env.nPlacements * gpuFeatDim + topoFeatDim + globalFeatDim

theorem oneSpeed (nNodes : Nat) : ([] : List ℚ) = [] ∨ nNodes ≤ ([] : List ℚ).length := .inl rfl

theorem oneType (nNodes : Nat) : ([] : List String) = [] ∨ nNodes ≤ ([] : List String).length :=
  .inl rfl

section Episodes

variable {G : Type} (num : Numeric) (rand : Random G) (f32 : PyFloat → PyFloat) {env : EnvConfig}

/-- What the loops have of their environment: its state and the last observation. -/
structure Episode (G : Type) (env : EnvConfig) where
  state : EnvState G env
  obs : List ℚ

/-- `env.reset()`, of the jobs that the factory gives. -/
def Episode.start (env : EnvConfig) (jobs : List TraceJob) : Episode G env :=
  let s := reset rand env none jobs
  ⟨s, buildObs num env s.run.cluster s.run.pending s.run.now⟩

/-- `_build_obs` raises for a job of the window whose runtime `math.log1p` does not
take. -/
def Episode.observed (e : Episode G env) : Except Exc (Episode G env) :=
  if e.state.run.topKJobs.any fun j => j.runtime ≤ -1 then .error (.valueError "math domain error")
  else .ok e

/-- The transition of a step that was taken. -/
def transition (e : Episode G env) (act : Nat) (next : EnvState G env × StepResult) :
    Transition where
  obs := e.obs.map fun x => f32 (.fin x)
  act := act
  rew := .fin next.2.reward
  nextObs := next.2.obs.map fun x => f32 (.fin x)
  done := next.2.terminated || next.2.truncated
  mask := some (actionMask e.state.run)
  nextMask := some (actionMask next.1.run)

/-! ## `collect_sim_rollouts` -/

/-- A generator with the state `H`, and `generate_by_family` of the family, whose
jobs all have runtimes that `math.log1p` takes. -/
structure Source (H : Type) where
  /-- `rng.choice` -/
  choice : List Nat → H → Nat × H
  choice_mem : ∀ legal rng, legal ≠ [] → (choice legal rng).1 ∈ legal
  /-- `rng.integers(0, 2**31 - 1)` -/
  seed : H → Int × H
  generate : Int → List TraceJob

variable {H : Type} (src : Source H)

/-- `_factory` -/
def Source.factory (totalGpus : Nat) (rng : H) : List TraceJob × H :=
  let (seed, rng) := src.seed rng
  ((src.generate seed).filter fun j => j.gpuCount ≤ totalGpus, rng)

/-- The variables of the loop. -/
structure Collector (G H : Type) (env : EnvConfig) where
  episode : Episode G env
  rng : H
  buf : ReplayBuffer

/-- `env.reset()`, with the factory. -/
def Collector.reset (rng : H) (buf : ReplayBuffer) : Collector G H env :=
  let (jobs, rng) := src.factory env.nPlacements rng
  ⟨.start num rand env jobs, rng, buf⟩

/-- One turn of the loop. -/
def Collector.turn (c : Collector G H env) : Except Exc (Collector G H env) := do
  let mask := actionMask c.episode.state.run
  let legal := (List.range mask.length).filter fun a => mask[a]? = some true
  let (act, rng) := if legal = [] then (0, c.rng) else src.choice legal c.rng
  let next := step num rand c.episode.state act
  let t := transition f32 c.episode act next
  let buf ← c.buf.add f32 t
  return if t.done then .reset num rand src rng buf else ⟨⟨next.1, next.2.obs⟩, rng, buf⟩

/-- `while len(buf) < n_transitions`, for so many turns at most: `none` if that
was not enough. -/
def Collector.loop (nTransitions : Nat) : Nat → Collector G H env →
    Except Exc (Option ReplayBuffer)
  | 0, c => return if c.buf.size < nTransitions then none else some c.buf
  | fuel + 1, c =>
    if c.buf.size < nTransitions then do
      let c ← c.turn num rand f32 src
      loop nTransitions fuel c
    else return some c.buf

/-- The environment of `collect_sim_rollouts`. -/
def simEnv (cfg : Config) (nJobs : Nat) (nodeGpuTypes : List String)
    (h : nodeGpuTypes = [] ∨ cfg.nNodes ≤ nodeGpuTypes.length) : EnvConfig where
  toConfig := cfg
  maxSteps := nJobs * 100
  nodeGpuTypes := nodeGpuTypes
  speeds_given := oneSpeed cfg.nNodes
  types_given := h

def collectSimRollouts (cfg : Config) (nJobs : Nat) (nodeGpuTypes : List String)
    (h : nodeGpuTypes = [] ∨ cfg.nNodes ≤ nodeGpuTypes.length) (nTransitions fuel : Nat) (rng : H) :
    Except Exc (Option ReplayBuffer) :=
  let env := simEnv cfg nJobs nodeGpuTypes h
  let buf := ReplayBuffer.new f32 nTransitions (obsDim env) env.nActions
  let c : Collector G H env := .reset num rand src rng buf
  c.loop num rand f32 src nTransitions fuel

/-! ## `load_live_trace_rollouts` -/

variable (scheduler : ScoreScheduler)

/-- `value` in `_score_demo_action` -/
def placementValue (st : RunState env) (job : TraceJob) (nodeJ : Fin env.nNodes)
    (gpuK : Fin env.gpusPerNode) : ℚ :=
  let base := scheduler.score num job st.cluster
  let residual : ℚ := (st.cluster.nodes nodeJ).gpus gpuK - job.mpsReq
  let placementFit := 1 - max 0 residual / (max 1 env.mpsPerGpu : ℕ)
  base + 1 / 20 * placementFit

/-- The values and actions that the loops of `_score_demo_action` compare. -/
def demoOptions (st : RunState env) : List (ℚ × Nat) :=
  let mask := actionMask st
  (List.range st.topKJobs.length).flatMap fun jobI =>
    match st.topKJobs[jobI]? with
    | none => []
    | some job => (List.finRange env.nNodes).flatMap fun (nodeJ : Fin env.nNodes) =>
      (List.finRange env.gpusPerNode).filterMap fun (gpuK : Fin env.gpusPerNode) =>
        let action := jobI * env.nPlacements + nodeJ * env.gpusPerNode + gpuK
        if mask[action]? = some true then
          some (placementValue num scheduler st job nodeJ gpuK, action)
        else none

/-- What `_score_demo_action` returns, if it does. -/
def demoAction (st : RunState env) : Nat :=
  match (demoOptions num scheduler st).argmax Prod.fst with
  | some best => best.2
  | none => env.noOp

/-- `_score_demo_action`; the score divides by the free slots of a GPU that the
job's request does not exceed. -/
def scoreDemoAction (st : RunState env) : Except Exc Nat :=
  if st.topKJobs.any fun j =>
      (ScoreScheduler.freeMps st.cluster).any fun free => free ≥ j.mpsReq && free = 0 then
    .error (.other "ZeroDivisionError")
  else .ok (demoAction num scheduler st)

/-- `_add_transition` -/
def addTransition (buf : ReplayBuffer) (t : Transition) : Except Exc ReplayBuffer :=
  if buf.size ≥ buf.capacity then .ok buf else buf.add f32 t

/-- The loop over the steps of one file, for so many turns at most: `none` if
that was not enough. -/
def play : Nat → Episode G env → ReplayBuffer → Except Exc (Option ReplayBuffer)
  | 0, _, buf => return if buf.size < buf.capacity then none else some buf
  | fuel + 1, e, buf =>
    if buf.size < buf.capacity then do
      let act ← scoreDemoAction num scheduler e.state.run
      let next := step num rand e.state act
      let e' ← Episode.observed ⟨next.1, next.2.obs⟩
      let t := transition f32 e act next
      let buf ← addTransition f32 buf t
      if t.done then return some buf else play fuel e' buf
    else return some buf

/-- The environment of a file. -/
def liveEnv (nNodes gpusPerNode nJobs : Nat) : EnvConfig where
  toConfig := clusterConfig nNodes gpusPerNode 100
  maxSteps := max 1000 (nJobs * 200)
  speeds_given := oneSpeed nNodes
  types_given := oneType nNodes

/-- `jobs[:n_jobs]` -/
def firstJobs (nJobs : Int) (jobs : List TraceJob) : List TraceJob :=
  if nJobs > 0 then jobs.take nJobs.toNat else jobs

/-- The loop over the files, each with its jobs. -/
def playFiles (nNodes gpusPerNode : Nat) (nJobs : Int) (fuel : Nat) :
    List (String × List TraceJob) → ReplayBuffer → Except Exc (Option ReplayBuffer)
  | [], buf => return some buf
  | (fp, jobs) :: files, buf =>
    let jobs := firstJobs nJobs jobs
    if jobs = [] then playFiles nNodes gpusPerNode nJobs fuel files buf
    else
      let env := liveEnv nNodes gpusPerNode jobs.length
      if obsDim env ≠ buf.obsDim || env.nActions ≠ buf.nActions then
        .error (.valueError (s!"live trace env dims mismatch for {fp}: "
          ++ s!"obs={obsDim env} actions={env.nActions}; "
          ++ s!"expected obs={buf.obsDim} actions={buf.nActions}"))
      else do
        let e ← (Episode.start num rand env jobs).observed
        match ← play num rand f32 scheduler fuel e buf with
        | none => return none
        | some buf =>
          if buf.size ≥ buf.capacity then return some buf
          else playFiles nNodes gpusPerNode nJobs fuel files buf

/-- `load_live_trace_rollouts`, of the files that the paths match. -/
def loadLiveTraceRollouts (obsDim nActions capacity nNodes gpusPerNode : Nat) (nJobs : Int)
    (fuel : Nat) (files : List (String × List TraceJob)) : Except Exc (Option ReplayBuffer) :=
  playFiles num rand f32 {} nNodes gpusPerNode nJobs fuel files (.new f32 capacity obsDim nActions)

end Episodes

end Kelpflux.Impl.Scheduler.Rollouts
