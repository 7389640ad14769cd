import Kelpflux.Impl.Operator.Reconciler

/-!
# The operator's process (`operator/app.py`)

What a new process takes over from the annotations that the one before it wrote
(`initPool`), and its loop.
-/

namespace Kelpflux.Impl.Operator

open Framework

/-- `float(raw) if raw else 0.0`. -/
def AnnotationValue.float : AnnotationValue → Except Exc ℚ
  | .cleared => .ok 0
  | .time t => .ok t
  | .marker _ => .error .other  -- `ValueError`

/-- The time of the last scaling, from the newer of its two annotations. -/
def restoreLastScaleAction : Op Unit := do
  try
    let rawAction ← K8sClient.getAnnotation .lastScaleAction
    let rawAction ←
      (if rawAction = .cleared then K8sClient.getAnnotation .cooldown else pure rawAction)
    match rawAction.float with
    | .ok t => modify fun m => { m with lastScaleActionAt := t }
    | .error e => throw e
  catch _ => modify fun m => { m with lastScaleActionAt := 0 }

/-- The scale-up in flight, if its marker is one. -/
def restoreProvisioning : Op Unit := do
  try
    match ← K8sClient.getAnnotation .provisioning with
    | .cleared => pure ()
    | .marker prov =>
      if prov.startedAt > 0 ∧ prov.targetReplicas > prov.fromReplicas then
        modify fun m =>
          { m with provisioning := some prov
                   lastScaleActionAt := max m.lastScaleActionAt prov.startedAt }
      else
        perform (.annotate .provisioning .cleared)
    | .time _ => throw .other  -- a number has no `started_at`
  catch _ => attempt (.annotate .provisioning .cleared)

/-- The back-off after a rollback, if it is not over. -/
def restoreProvisioningRetry : Op Unit := do
  let rawRetry ← K8sClient.getAnnotation .provisioningRetry
  match rawRetry.float with
  | .error _ => modify fun m => { m with provisioningRetryAt := none }
  | .ok retryAt =>
    if retryAt > (← time) then
      modify fun m => { m with provisioningRetryAt := some retryAt }
    else if rawRetry ≠ .cleared then
      perform (.annotate .provisioningRetry .cleared)

/-- `OperatorApp.__init__`, for one pool. -/
def initPool : Op Unit := do
  restoreLastScaleAction
  restoreProvisioning
  restoreProvisioningRetry

/-- A turn of the loop of `OperatorApp.run`, for one pool: an exception of the
collector ends the turn. -/
def runOnce (cfg : Config) (partitionCfg : PartitionConfig) : Op Unit := do
  try
    let state ← ClusterStateCollector.collectPartitionState partitionCfg
    processPool cfg partitionCfg state
  catch _ => pure ()

end Kelpflux.Impl.Operator
