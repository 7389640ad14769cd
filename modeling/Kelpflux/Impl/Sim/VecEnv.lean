import Kelpflux.Impl.Sim.GymEnv

/-!
# The vector environments (`sim/vec_env.py`)

The environments of one specification, stepped in one process
(`SyncVectorSchedEnv`) or each in a worker of its own (`AsyncVectorSchedEnv`).
A worker answers the commands that it is sent one after another, and the parent
waits for all the answers to a call, so that a call is what each worker does on
its own. NumPy's generators, the trace families and the order of the score
scheduler are parameters.
-/

namespace Kelpflux.Impl.Sim.VecEnv

open Framework

/-- The generators: `default_rng` of a seed, and the draws. -/
structure Generators (G : Type) where
  newRng : Int → G
  integers : Int → Int → G → Int × G
  choice : List Nat → G → Nat × G
  standardNormal : G → ℚ × G
  keyedNormal : List Int → ℚ
  crc32 : String → Nat

/-- What an environment calls. -/
structure Library (G : Type) extends Generators G where
  generateByFamily : String → Nat → Int → List TraceJob
  /-- `ScoreScheduler.order` -/
  order : (env : EnvConfig) → List TraceJob → Cluster env.toConfig → ℚ → List TraceJob
  num : Numeric

variable {G : Type} (lib : Library G)

/-- The generators of an environment whose `default_rng(None)` is `entropy`. -/
def Library.random (entropy : G) : Random G where
  standardNormal := lib.standardNormal
  keyedNormal := lib.keyedNormal
  crc32 := lib.crc32
  defaultRng seed := match seed with
    | none => entropy
    | some seed => lib.newRng seed

/-- `FamilyJobFactory` -/
structure FamilyJobFactory (G : Type) where
  families : List String
  nJobs : Nat
  totalGpus : Nat
  rng : G

/-- `__call__` -/
def FamilyJobFactory.call (f : FamilyJobFactory G) : List TraceJob × FamilyJobFactory G :=
  let (i, rng) := lib.integers 0 f.families.length f.rng
  let (seed, rng) := lib.integers 0 (2 ^ 31 - 1) rng
  let jobs := lib.generateByFamily (f.families.getD i.toNat "") f.nJobs seed
  (jobs.filter fun j => j.gpuCount ≤ f.totalGpus, { f with rng := rng })

structure EnvSpec where
  families : List String
  nJobs : Nat
  totalGpus : Nat
  nNodes : Nat := 1
  gpusPerNode : Nat := 1
  mpsPerGpu : Nat := 100
  topK : Nat := 16
  maxSteps : Nat := 10000
  rewardMode : RewardMode := .jctAligned
  rewardScale : ℚ := 20000
  potentialShaping : Bool := true
  runtimeSigma : ℚ := 0
  interference : ℚ := 0
  colocationActions : Bool := false
  sloPenalty : ℚ := 0
  baseSeed : Int := 0

/-- The environment that `build` constructs; it has no OOM penalty. -/
def EnvSpec.config (spec : EnvSpec) : EnvConfig where
  nNodes := spec.nNodes
  gpusPerNode := spec.gpusPerNode
  mpsPerGpu := spec.mpsPerGpu
  topK := spec.topK
  maxSteps := spec.maxSteps
  rewardMode := spec.rewardMode
  rewardScale := spec.rewardScale
  potentialShaping := spec.potentialShaping
  runtimeSigma := spec.runtimeSigma
  interference := spec.interference
  colocationActions := spec.colocationActions
  sloPenalty := spec.sloPenalty
  ram_given := Config.none_given _
  ram_nonneg := Config.no_ram_nonneg
  overcommit_nonneg := Config.one_nonneg
  speeds_given := Config.none_given _
  types_given := Config.none_given _

variable (spec : EnvSpec)

/-- The job factory of `build`. -/
def EnvSpec.factory (index : Nat) : FamilyJobFactory G where
  families := spec.families
  nJobs := spec.nJobs
  totalGpus := spec.totalGpus
  rng := lib.newRng (spec.baseSeed + 7919 * (index + 1))

/-- An environment, and what the system's entropy gives it at each reset
without a seed from here on. -/
structure SubEnv (G : Type) (spec : EnvSpec) where
  factory : FamilyJobFactory G
  entropy : Nat → G
  state : EnvState G spec.config

variable {spec}

def SubEnv.obs (e : SubEnv G spec) : List ℚ :=
  buildObs lib.num spec.config e.state.run.cluster e.state.run.pending e.state.run.now

def SubEnv.mask (e : SubEnv G spec) : List Bool := actionMask e.state.run

/-- `_reset_one`, of an environment's job factory and entropy. -/
def resetOne (factory : FamilyJobFactory G) (entropy : Nat → G) (seed : Option Int) :
    SubEnv G spec :=
  let (jobs, factory) := factory.call lib
  { factory := factory
    entropy := if seed = none then fun k => entropy (k + 1) else entropy
    state := reset (lib.random (entropy 0)) spec.config seed jobs }

/-- What `_step_one` returns, with `final_obs` and `final_mask` of an episode
that is done. -/
structure StepReply where
  obs : List ℚ
  mask : List Bool
  rew : ℚ
  done : Bool
  info : StepInfo
  final : Option (List ℚ × List Bool)

/-- `_step_one` -/
def stepOne (e : SubEnv G spec) (action : Nat) : SubEnv G spec × StepReply :=
  let (state, r) := step lib.num (lib.random (e.entropy 0)) e.state action
  let e' := { e with state := state }
  if r.terminated || r.truncated then
    let next := resetOne lib e'.factory e'.entropy none
    (next, ⟨next.obs lib, next.mask, r.reward, true, r.info, some (r.obs, e'.mask)⟩)
  else (e', ⟨r.obs, e'.mask, r.reward, false, r.info, none⟩)

/-- The action of the highest ranked job that the mask allows, packed on the
first placement. -/
def SubEnv.ranked (e : SubEnv G spec) : Option Nat :=
  let st := e.state.run
  (lib.order spec.config st.pending st.cluster st.now).findSome? fun job =>
    match st.pending.findIdx? fun j => j.jobId = job.jobId with
    | none => none
    | some jobIdx =>
      let cand := encode spec.config jobIdx 0 0
      if e.mask[cand]? = some true then some cand else none

/-- `np.flatnonzero(mask)` -/
def SubEnv.legal (e : SubEnv G spec) : List Nat :=
  (List.range e.mask.length).filter fun a => e.mask[a]? = some true

/-- `score_warmup_action` -/
def scoreWarmupAction (e : SubEnv G spec) (rng : G) : Nat × G :=
  if e.legal = [] then (spec.config.noOp, rng)
  else if e.state.run.pending = [] then lib.choice e.legal rng
  else
    let (act, rng) := lib.choice e.legal rng
    ((e.ranked lib).getD act, rng)

/-- The calls after the first `reset`. -/
inductive Call (n : Nat) where
  | reset (seed : Option Int)
  | step (actions : Fin n → Nat)
  | scoreActions

inductive Reply (n : Nat) where
  | reset (obs : Fin n → List ℚ) (masks : Fin n → List Bool)
  | step (replies : Fin n → StepReply)
  | actions (acts : List Nat)

/-- The seed of a sub-environment. -/
def subSeed {n : Nat} (seed : Option Int) (i : Fin n) : Option Int := seed.map fun s => s + (i : Nat)

def resetReply {n : Nat} (envs : Fin n → SubEnv G spec) : Reply n :=
  .reset (fun i => (envs i).obs lib) fun i => (envs i).mask

/-! ## In one process -/

/-- `SyncVectorSchedEnv`, after a reset. -/
structure SyncVec (G : Type) (spec : EnvSpec) (n : Nat) where
  envs : Fin n → SubEnv G spec
  rng : G

/-- The warmup actions of the environments in turn, which share a generator. -/
def scoreAll {n : Nat} (envs : Fin n → SubEnv G spec) : List (Fin n) → G → List Nat × G
  | [], rng => ([], rng)
  | i :: is, rng =>
    let (act, rng) := scoreWarmupAction lib (envs i) rng
    let (acts, rng) := scoreAll envs is rng
    (act :: acts, rng)

/-- `__init__` and the first `reset`, where `entropy` is that of the process for
each environment. -/
def SyncVec.start {n : Nat} (entropy : Fin n → Nat → G) (seed : Option Int) : SyncVec G spec n where
  envs i := resetOne lib (spec.factory lib i) (entropy i) (subSeed seed i)
  rng := lib.newRng (spec.baseSeed + 991)

def SyncVec.call {n : Nat} (v : SyncVec G spec n) : Call n → SyncVec G spec n × Reply n
  | .reset seed =>
    let envs := fun i => resetOne lib (v.envs i).factory (v.envs i).entropy (subSeed seed i)
    ({ v with envs := envs }, resetReply lib envs)
  | .step actions =>
    ({ v with envs := fun i => (stepOne lib (v.envs i) (actions i)).1 },
      .step fun i => (stepOne lib (v.envs i) (actions i)).2)
  | .scoreActions =>
    let (acts, rng) := scoreAll lib v.envs (List.finRange n) v.rng
    ({ v with rng := rng }, .actions acts)

/-! ## In worker processes -/

/-- The state of `_worker`. -/
structure Worker (G : Type) (spec : EnvSpec) where
  env : SubEnv G spec
  wrng : G

/-- `AsyncVectorSchedEnv`, after a reset. -/
structure AsyncVec (G : Type) (spec : EnvSpec) (n : Nat) where
  workers : Fin n → Worker G spec

def AsyncVec.start {n : Nat} (entropy : Fin n → Nat → G) (seed : Option Int) :
    AsyncVec G spec n where
  workers i :=
    { env := resetOne lib (spec.factory lib i) (entropy i) (subSeed seed i)
      wrng := lib.newRng (spec.baseSeed + 991 + (i : Nat)) }

def AsyncVec.call {n : Nat} (v : AsyncVec G spec n) : Call n → AsyncVec G spec n × Reply n
  | .reset seed =>
    let envs := fun i =>
      resetOne lib (v.workers i).env.factory (v.workers i).env.entropy (subSeed seed i)
    (⟨fun i => { v.workers i with env := envs i }⟩, resetReply lib envs)
  | .step actions =>
    (⟨fun i => { v.workers i with env := (stepOne lib (v.workers i).env (actions i)).1 }⟩,
      .step fun i => (stepOne lib (v.workers i).env (actions i)).2)
  | .scoreActions =>
    (⟨fun i => { v.workers i with
        wrng := (scoreWarmupAction lib (v.workers i).env (v.workers i).wrng).2 }⟩,
      .actions ((List.finRange n).map fun i =>
        (scoreWarmupAction lib (v.workers i).env (v.workers i).wrng).1))

end Kelpflux.Impl.Sim.VecEnv
