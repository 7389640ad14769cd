import Kelpflux.Impl.Operator.Models

/-!
# The scaling policy (`operator/policy.py`)
-/

namespace Kelpflux.Impl.Operator

def clamp (value low high : Int) : Int := max low (min value high)

namespace CheckpointAwareQueuePolicy

/-- `_to_decision`. -/
def toDecision (current target : Int) (reason : String) : ScalingDecision :=
  if target > current then ⟨target, .scaleUp, reason⟩
  else if target < current then ⟨target, .scaleDown, reason⟩
  else ⟨target, .keep, reason⟩

/-- `evaluate`. The guard and the two checkpoint readings are arguments of the
source's method, which reads none of them. -/
def evaluate (_guardEnabled : Bool) (partitionCfg : PartitionConfig) (state : PartitionState)
    (_checkpointAgeSeconds : Option Int) (_missingSinceSeconds : Option ℚ) : ScalingDecision :=
  if state.scalePendingJobs > 0 then
    let target := clamp (state.currentReplicas + partitionCfg.scaleUpStep)
      partitionCfg.minReplicas partitionCfg.maxReplicas
    toDecision state.currentReplicas target "resource_pending_jobs"
  else if state.pendingJobs > 0 then
    ⟨state.currentReplicas, .keep, "pending_jobs_not_blocked_by_resources"⟩
  else
    let safeFloor := max partitionCfg.minReplicas state.busyNodes
    let candidateTarget := clamp (state.currentReplicas - partitionCfg.scaleDownStep)
      safeFloor partitionCfg.maxReplicas
    if candidateTarget < state.currentReplicas ∧ state.runningJobs > 0 then
      ⟨state.currentReplicas, .keep, "running_jobs_block_scale_down"⟩
    else
      toDecision state.currentReplicas candidateTarget "no_pending_jobs"

end CheckpointAwareQueuePolicy

end Kelpflux.Impl.Operator
