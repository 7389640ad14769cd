import Kelpflux.Impl.Sim.Scheduler

/-!
# The ablation masks (`sim/gym_env.py`)

What `action_mask` leaves of the mask where the environment has an
`ablation_mode`.
-/

namespace Kelpflux.Impl.Sim

open Framework

/-- The values of `ablation_mode` that `__init__` takes, besides `None`. -/
inductive AblationMode where
  | placementOnly
  | jobOnly
deriving DecidableEq

variable {env : EnvConfig}

/-- The actions that a mask allows, without the no-op. -/
def legalPlacements (env : EnvConfig) (mask : List Bool) : List Nat :=
  (List.range mask.length).filter fun a => mask[a]? = some true ∧ a ≠ env.noOp

/-- A mask like another, of some actions and the no-op. -/
def keepOnly (env : EnvConfig) (mask : List Bool) (kept : List Nat) : List Bool :=
  (List.range mask.length).map fun a => a ∈ kept || a = env.noOp

/-- `kept`: the first action of each job, by the job's index. -/
def firstOfJobs (env : EnvConfig) (legal : List Nat) : Dict Nat Nat :=
  legal.foldl (fun kept a =>
    let jobI := (decode env a).1
    if jobI ∈ kept.keys then kept else kept.set jobI a) []

/-- `_ablation_head_index`. There is a legal action. -/
def ablationHeadIndex (num : Numeric) (scoreSched : ScoreScheduler) (st : RunState env)
    (top : List TraceJob) (legal : List Nat) : Nat :=
  let legalJobs := legal.map fun a => (decode env a).1
  let ordered := scoreSched.order num st.pending st.cluster st.now
  let topIds := top.map fun j => j.jobId
  let picked := ordered.findSome? fun job =>
    match topIds.findIdx? fun jobId => jobId = job.jobId with
    | some idx => if idx ∈ legalJobs then some idx else none
    | none => none
  picked.getD (decode env (legal.headD 0)).1

/-- `_restrict_mask_for_ablation` -/
def restrictMaskForAblation (num : Numeric) (scoreSched : ScoreScheduler) (mode : AblationMode)
    (st : RunState env) (mask : List Bool) (top : List TraceJob) : List Bool :=
  let legal := legalPlacements env mask
  if legal = [] then mask
  else match mode with
    | .jobOnly => keepOnly env mask (firstOfJobs env legal).values
    | .placementOnly =>
      let head := ablationHeadIndex num scoreSched st top legal
      keepOnly env mask (legal.filter fun a => (decode env a).1 = head)

/-- `action_mask`, with an ablation mode or without. -/
def ablatedMask (num : Numeric) (scoreSched : ScoreScheduler) (mode : Option AblationMode)
    (st : RunState env) : List Bool :=
  match mode with
  | none => actionMask st
  | some mode => restrictMaskForAblation num scoreSched mode st (actionMask st) st.topKJobs

end Kelpflux.Impl.Sim
