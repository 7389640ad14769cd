import Kelpflux.Impl.Scheduler.Placement
import Kelpflux.Impl.Scheduler.Serve

/-!
# The snapshot agent's snapshot (`rl_scheduler/snapshot_agent.py`)

`build_snapshot`, of two slurmrestd documents, as the server reads it: the fields
that the agent leaves out have the defaults of the server's models.
-/

namespace Kelpflux.Impl.Scheduler.Snapshot

open Framework Framework.Python

/-- The keyword arguments of `build_snapshot` but for the time. -/
structure SnapshotArgs where
  mpsPerGpu : Int := 100
  defaultGpusPerNode : Int := 1
  defaultRuntime : PyFloat := .fin 600

/-- `job_view`: nothing of a job that is not pending. -/
def jobView (rt : Runtime) (args : SnapshotArgs) (now : PyFloat) (job : Json) :
    Except Exc (Option (Serve.JobView PyFloat)) := do
  if "PENDING" ∉ stateTokens rt (← job.get "job_state") then
    return none
  let fields ← ["tres_req_str", "tres_per_node", "gres"].mapM fun k => job.getD k (.str "")
  let tres := joinComma (fields.map fun v => (v.or (.str "")).toStr rt)
  let submitTs := number rt (← job.get "submit_time") now
  let runtime := (number rt (← job.get "time_limit") (.fin 0)).scale 60
  let runtime := if runtime.le (.fin 0) then args.defaultRuntime else runtime
  let mpsReq := parseTresInt tres ["mps"] 0
  let mpsReq := if mpsReq ≠ 0 then mpsReq else args.mpsPerGpu
  let gpuCount := parseTresInt tres ["gpu"] 0
  let gpuCount ← if gpuCount ≠ 0 then pure gpuCount else do
    let total ← (number rt (← job.get "gpus_total") (.fin 1)).toInt
    pure (if total ≠ 0 then total else 1)
  return some
    { jobId := (← job.getD "job_id" (.str "")).toStr rt
      mpsReq := mpsReq
      gpuCount := gpuCount
      gpuType := gpuTypeFromText tres
      runtime := runtime
      submitTs := submitTs
      ramReq := .fin 0
      sloS := .fin 0 }

/-- A node of the snapshot, as the server reads it. -/
def servedNode (gpus : List SnapshotGpu) : Serve.NodeView PyFloat where
  gpus := gpus.map fun g => ⟨g.freeMps, g.runningJobs, g.gpuType, .fin 1⟩

/-- `build_snapshot`, at the time `now`. -/
def buildSnapshot (rt : Runtime) (args : SnapshotArgs) (now : PyFloat) (jobsDoc nodesDoc : Json) :
    Except Exc (Serve.Snapshot PyFloat) := do
  let pendingJobs ← (← docItems jobsDoc "jobs").mapM (jobView rt args now)
  let nodes ← (← docItems nodesDoc "nodes").mapM
    (nodeView rt args.mpsPerGpu args.defaultGpusPerNode)
  let nodes := nodes.reduceOption
  let gpusPerNode := (nodes.map List.length).max?.getD args.defaultGpusPerNode.toNat
  return { ts := now
           now := now
           pendingJobs := pendingJobs.reduceOption
           nodes := nodes.map servedNode
           nNodes := nodes.length
           gpusPerNode := gpusPerNode
           mpsPerGpu := args.mpsPerGpu }

end Kelpflux.Impl.Scheduler.Snapshot
