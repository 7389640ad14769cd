import Kelpflux.Impl.Operator.K8s

/-!
# Scale-up and scale-down (`operator/scale_actions.py`)

`_do_keep` only counts and logs, and so do the branches of the others that
skip. Python iterates a set in an order of its own; here it is the order of
the list that stands for the set.
-/

namespace Kelpflux.Impl.Operator

open Framework

/-- `if _otel.enabled(): …`: a block that traces. -/
def traceSpan (cfg : Config) : Op Unit :=
  if cfg.otelEnabled then perform .trace else pure ()

/-- `_do_scale_up`. -/
def doScaleUp (cfg : Config) (state : PartitionState) (decision : ScalingDecision) (now : ℚ) :
    Op Unit := do
  let draining := (← get).drainingNodes.getD []
  modify fun m => { m with drainingNodes := none, drainingStarted := none }
  let nodesToResume := draining ∪ range 0 decision.targetReplicas
  nodesToResume.forM fun node => attempt (.resume node)
  traceSpan cfg
  perform (.annotate .provisioning
    (.marker ⟨now, state.currentReplicas, decision.targetReplicas⟩))
  modify fun m =>
    { m with provisioning := some ⟨now, state.currentReplicas, decision.targetReplicas⟩ }
  perform (.patchReplicas decision.targetReplicas)
  modify fun m => { m with provisioningRetryAt := none, lastScaleActionAt := now }
  try
    perform (.annotate .cooldown (.time now))
    perform (.annotate .lastScaleAction (.time now))
    perform (.annotate .provisioningRetry .cleared)
  catch _ => pure ()

/-- One turn of the loop that kills the jobs of a node drained for too long:
it ends with the nodes killed so far. -/
def forceKill (timeout : Int) (started : Dict Int ℚ) (nowTs : ℚ) (forceKilled : List Int)
    (node : Int) : Op (List Int) := do
  match started.get? node with
  | none => pure forceKilled
  | some drainStarted =>
    if (← K8sClient.getNodeCpuAlloc node) = 0 then
      pure forceKilled
    else if nowTs - drainStarted ≤ timeout then
      pure forceKilled
    else
      try
        perform (.cancelJobs node)
        perform (.down node "drain-timeout")
      catch _ => pure ()
      pure (node :: forceKilled)

/-- The nodes whose jobs were killed for draining too long. -/
def forceKillExpired (partitionCfg : PartitionConfig) (draining : List Int)
    (started : Dict Int ℚ) (nowTs : ℚ) : Op (List Int) :=
  let timeout := partitionCfg.drainTimeoutSeconds
  if timeout > 0 then draining.foldlM (forceKill timeout started nowTs) [] else pure []

/-- Whether a node is idle or its jobs were killed: an element of `all_idle`. -/
def nodeIdle (forceKilled : List Int) (node : Int) : Op Bool := do
  if node ∈ forceKilled then
    pure true
  else
    pure (decide ((← K8sClient.getNodeCpuAlloc node) = 0))

/-- A new node to drain, since `nowTs`. -/
def startDrain (nowTs : ℚ) (node : Int) : Op Unit := do
  attempt (.drain node)
  modify fun m =>
    { m with drainingStarted := some ((m.drainingStarted.getD []).set node nowTs) }

/-- All nodes idle: the replicas go down to the target. -/
def completeScaleDown (decision : ScalingDecision) (nodesToDrain : List Int) (nowTs : ℚ) :
    Op Unit := do
  perform (.patchReplicas decision.targetReplicas)
  nodesToDrain.forM fun node => attempt (.future node "operator-scale-down")
  modify fun m =>
    { m with drainingNodes := none, drainingStarted := none, lastScaleActionAt := nowTs }
  attempt (.annotate .lastScaleAction (.time nowTs))

/-- `_do_scale_down`, past its two checks. -/
def drainThenScale (partitionCfg : PartitionConfig) (state : PartitionState)
    (decision : ScalingDecision) : Op Unit := do
  let nodesToDrain := range decision.targetReplicas state.currentReplicas
  let draining := (← get).drainingNodes.getD []
  modify fun m => { m with drainingStarted := some (m.drainingStarted.getD []) }
  let newNodes := nodesToDrain.filter fun node => node ∉ draining
  let nowTs ← time
  newNodes.forM (startDrain nowTs)
  modify fun m =>
    if newNodes ≠ [] then { m with drainingNodes := some (draining ++ newNodes) } else m
  let started := (← get).drainingStarted.getD []
  let forceKilled ← forceKillExpired partitionCfg (draining ++ newNodes) started nowTs
  if ← (draining ++ newNodes).allM (nodeIdle forceKilled) then
    completeScaleDown decision nodesToDrain nowTs

/-- `_do_scale_down`. -/
def doScaleDown (partitionCfg : PartitionConfig) (state : PartitionState)
    (decision : ScalingDecision) (cooldownElapsed : ℚ) : Op Unit := do
  if state.runningJobs > 0 then
    return
  if cooldownElapsed < partitionCfg.scaleDownCooldown then
    return
  drainThenScale partitionCfg state decision

end Kelpflux.Impl.Operator
