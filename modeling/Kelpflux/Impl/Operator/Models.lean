import Mathlib.Algebra.Order.Ring.Rat

/-!
# The operator's data (`operator/models.py`, `operator/main.py`)

The fields of the operator's configuration and observations that its scaling
decisions and its collector read. A count is an `Int`, as Python's `int`; a
time is a rational number of seconds.
-/

namespace Kelpflux.Impl.Operator

structure PartitionConfig where
  partition : String
  workerStatefulset : String
  minReplicas : Int
  maxReplicas : Int
  scaleUpStep : Int
  scaleDownStep : Int
  scaleDownCooldown : Int
  checkpointPath : String := ""
  maxCheckpointAgeSeconds : Int := 600
  checkpointGraceSeconds : Int := 0
  /-- Once a node has been drained for this many seconds, its jobs are killed. -/
  drainTimeoutSeconds : Int := 1800
  matchFeatures : List String := []
  matchGres : List String := []
  cpusPerNode : Int := 0
  memoryMbPerNode : Int := 0
  fallback : Bool := false
deriving DecidableEq, Repr

structure Config where
  pollInterval : Int := 15
  checkpointGuardEnabled : Bool := true
  provisioningTimeoutSeconds : Int := 300
  provisioningRetrySeconds : Int := 300
  /-- `OTEL_ENABLED`, which `otel.enabled` reads. -/
  otelEnabled : Bool := false
deriving DecidableEq, Repr

structure PartitionState where
  partition : String
  workerStatefulset : String
  currentReplicas : Int
  pendingJobs : Int
  runningJobs : Int
  busyNodes : Int
  scalePendingJobs : Int := 0
deriving DecidableEq, Repr

inductive Action where
  | scaleUp
  | scaleDown
  | keep
deriving DecidableEq, Repr

structure ScalingDecision where
  targetReplicas : Int
  action : Action
  reason : String
deriving DecidableEq, Repr

/-- The checks on one pool in the loop of `validate_config`, after those for
duplicates. -/
def validatePool (p : PartitionConfig) : Except String Unit := do
  if p.minReplicas < 0 ∨ p.maxReplicas < 0 then
    throw s!"{p.partition}/{p.workerStatefulset}: replicas must be >= 0"
  if p.minReplicas > p.maxReplicas then
    throw s!"{p.partition}/{p.workerStatefulset}: min_replicas cannot be larger than max_replicas"
  if p.scaleUpStep ≤ 0 ∨ p.scaleDownStep ≤ 0 then
    throw s!"{p.partition}/{p.workerStatefulset}: scale steps must be > 0"

/-- The loop of `validate_config`: `seen` holds the pools' signatures so far.
It ends with the number of fallback pools. -/
def validatePools (seen : List (String × String)) (fallbackCount : Nat) :
    List PartitionConfig → Except String Nat
  | [] => pure fallbackCount
  | p :: ps => do
    let sig := (p.partition, p.workerStatefulset)
    if sig ∈ seen then
      throw s!"duplicate pool config: ('{sig.1}', '{sig.2}')"
    validatePool p
    validatePools (sig :: seen) (if p.fallback then fallbackCount + 1 else fallbackCount) ps

def validateConfig (cfg : Config) (partitionCfgs : List PartitionConfig) : Except String Unit := do
  if cfg.pollInterval ≤ 0 then
    throw "POLL_INTERVAL_SECONDS must be > 0"
  let fallbackCount ← validatePools [] 0 partitionCfgs
  if fallbackCount > 1 then
    throw "at most one fallback pool is allowed"

end Kelpflux.Impl.Operator
