import Kelpflux.Impl.Operator.ScaleActions

/-!
# One reconcile of a pool (`operator/reconciler.py`)

`_process_pool`, in the order of its blocks: the scale-up in flight
(`provisioningPhase`), the checkpoint's age (`checkpointPhase`), the decision,
and its dispatch. The ghost-job detector only counts and logs.
-/

namespace Kelpflux.Impl.Operator

open Framework

/-- `_set_annotation`. -/
def annotate (name : Annotation) (value : AnnotationValue) : Op Unit :=
  attempt (.annotate name value)

/-- The pods of a scale-up are all ready. -/
def provisioningReady (cfg : Config) (prov : Provisioning) : Op Unit := do
  let _latency ← time
  traceSpan cfg
  modify fun m => { m with provisioning := none, provisioningRetryAt := none }
  annotate .provisioning .cleared
  annotate .provisioningRetry .cleared
  try
    (range prov.fromReplicas prov.targetReplicas).forM fun i => perform (.resume i)
  catch _ => pure ()

/-- A scale-up's pods are not ready in time: back to the replicas before it. -/
def provisioningTimeout (cfg : Config) (prov : Provisioning) : Op Unit := do
  (range prov.fromReplicas prov.targetReplicas).forM fun i =>
    attempt (.future i "provisioning-timeout")
  perform (.patchReplicas prov.fromReplicas)
  let now ← time
  let retryAt := now + cfg.provisioningRetrySeconds
  modify fun m =>
    { m with lastScaleActionAt := now, provisioningRetryAt := some retryAt, provisioning := none }
  annotate .provisioning .cleared
  annotate .lastScaleAction (.time now)
  annotate .provisioningRetry (.time retryAt)

/-- `if key in self._provisioning: …`. -/
def provisioningPhase (cfg : Config) (ready : Int) : Op Unit := do
  match (← get).provisioning with
  | none => pure ()
  | some prov =>
    if ready ≥ prov.targetReplicas then
      provisioningReady cfg prov
    else if cfg.provisioningTimeoutSeconds > 0 then
      if (← time) - prov.startedAt ≥ cfg.provisioningTimeoutSeconds then
        provisioningTimeout cfg prov

/-- The checkpoint's age, and how long it has been missing. -/
def checkpointPhase (partitionCfg : PartitionConfig) : Op (Option Int × Option ℚ) := do
  let checkpointAge ←
    ClusterStateCollector.getCheckpointAgeSeconds partitionCfg.checkpointPath
  if partitionCfg.checkpointPath ≠ "" ∧ checkpointAge = none then
    let now ← time
    modify fun m => { m with checkpointMissingSince := some (m.checkpointMissingSince.getD now) }
  else
    modify fun m => { m with checkpointMissingSince := none }
  match (← get).checkpointMissingSince with
  | none => pure (checkpointAge, none)
  | some missingFirst => pure (checkpointAge, some ((← time) - missingFirst))

/-- A back-off that is over is forgotten. -/
def clearRetry (retryAt : ℚ) : Op Unit := do
  if retryAt ≠ 0 then
    modify fun m => { m with provisioningRetryAt := none }
    annotate .provisioningRetry .cleared

/-- The dispatch of a decision. -/
def dispatch (cfg : Config) (partitionCfg : PartitionConfig) (state : PartitionState)
    (decision : ScalingDecision) (now cooldownElapsed : ℚ) : Op Unit := do
  let m ← get
  let retryAt := m.provisioningRetryAt.getD 0
  match decision.action with
  | .scaleUp =>
    if retryAt > now then
      return  -- keep, `provisioning_retry_backoff`
    if m.provisioning.isSome then
      return  -- keep, `provisioning_in_flight`
    clearRetry retryAt
    doScaleUp cfg state decision now
  | .scaleDown => doScaleDown partitionCfg state decision cooldownElapsed
  | .keep => return

/-- The body of `_process_pool`'s `try`. -/
def processPoolBody (cfg : Config) (partitionCfg : PartitionConfig) (state : PartitionState) :
    Op Unit := do
  let ready ← K8sClient.getReadyReplicas
  provisioningPhase cfg ready
  let (checkpointAge, missingSince) ← checkpointPhase partitionCfg
  let decision := CheckpointAwareQueuePolicy.evaluate cfg.checkpointGuardEnabled partitionCfg
    state checkpointAge missingSince
  let now ← time
  let cooldownElapsed := now - (← get).lastScaleActionAt
  traceSpan cfg
  dispatch cfg partitionCfg state decision now cooldownElapsed

/-- `_process_pool`: an exception ends it, and is logged. -/
def processPool (cfg : Config) (partitionCfg : PartitionConfig) (state : PartitionState) :
    Op Unit := do
  try
    processPoolBody cfg partitionCfg state
  catch _ => pure ()

end Kelpflux.Impl.Operator
