import Kelpflux.Framework.Prog
import Kelpflux.Framework.Loop
import Kelpflux.Impl.Scheduler.SnapshotAgent

/-!
# The placement controller (`rl_scheduler/placement_controller.py`)

Reading pending jobs and nodes from slurmrestd, the `/act` request built from
them, the placement that follows its answer (`chooseAndApply`), and the loops
around it (`drainAndApply`, `placementMain`). `Call` is what the scheduler's
clients call: the clocks, slurmrestd and the policy server; URLs, tokens,
timeouts and log lines are left out.
-/

namespace Kelpflux.Impl.Scheduler

open Framework Framework.Python

/-- `TOP_K`: the jobs that one request shows to the policy. -/
def topK : Nat := 16

/-- Slurm's INFINITE sentinel. -/
def releasePriority : Int := 0xFFFFFFFF

structure SlurmJob where
  jobId : String
  name : String
  state : String
  reason : String
  mpsReq : Int
  gpuCount : Int
  gpuType : String
  runtime : PyFloat
  submitTs : PyFloat
  priority : Int := 0
  partition : String := ""
  requiredNodes : String := ""
  ramReq : PyFloat := .fin 0
  sloS : PyFloat := .fin 0
  jobClass : String := "batch"
  requiredGpuType : String := ""
deriving DecidableEq

structure SlurmNode where
  name : String
  freeMps : Int
  runningJobs : Int
  gpuType : String
  available : Bool := true
deriving DecidableEq

/-- The TRES text of a job. -/
def jobTres (rt : Runtime) (item : Json) : Except Exc String := do
  let fields ← ["tres_req_str", "tres_per_node", "gres"].mapM fun k => item.getD k (.str "")
  return joinComma (fields.map fun v => (v.or (.str "")).toStr rt)

/-- `json.loads` of a job's comment, where it is an object. -/
def jobMetadata (rt : Runtime) (item : Json) : Except Exc Json := do
  match (← item.get "comment").or (.str "\x7b\x7d") with
  | .str s =>
    match rt.loads s with
    | .ok (.obj items) => return .obj items
    | .ok _ | .error .jsonDecodeError | .error .typeError => return .obj []
    | .error e => throw e
  | _ => return .obj []

/-- The GPU type that a job's partition names, else its TRES. -/
def requiredGpuTypeOf (partition tres : String) : String :=
  let known := ["rtx4070", "rtx3080"]
  ((known.find? fun name => contains (lower partition) name).or
    (known.find? fun name => contains (lower tres) name)).getD ""

/-- `int(_number(item.get(k), d))` -/
def intField (rt : Runtime) (item : Json) (k : String) (d : Int) : Except Exc Int := do
  (number rt (← item.get k) (.fin d)).toInt

/-- `str(item.get(k) or item.get(k') or "")` -/
def strField (rt : Runtime) (item : Json) (k k' : String) : Except Exc String := do
  return (((← item.get k).or (← item.get k')).or (.str "")).toStr rt

/-- The nodes a job asks for: a list's, joined. -/
def requiredNodesOf (rt : Runtime) (item : Json) : Except Exc String := do
  match ((← item.get "required_nodes").or (← item.get "req_nodes")).or (.str "") with
  | .arr nodes => return joinComma (nodes.map fun node => node.toStr rt)
  | v => return v.toStr rt

/-- The body of the loop of `parse_jobs`: nothing of a job that is not pending. -/
def parseJob (rt : Runtime) (defaultRuntime : PyFloat) (defaultMps : Int) (now : ℚ)
    (item : Json) : Except Exc (Option SlurmJob) := do
  if "PENDING" ∉ stateTokens rt (← item.get "job_state") then
    return none
  let tres ← jobTres rt item
  let mpsReq := parseTresInt tres ["mps"] 0
  let mpsReq := if mpsReq ≠ 0 then mpsReq else defaultMps
  let gpuCount := parseTresInt tres ["gpu"] 0
  let gpuCount ← if gpuCount ≠ 0 then pure gpuCount else do
    let total ← intField rt item "gpus_total" 1
    pure (if total ≠ 0 then total else 1)
  let partition := ((← item.get "partition").or (.str "")).toStr rt
  let metadata ← jobMetadata rt item
  let runtime := (number rt (← item.get "time_limit") (.fin 0)).scale 60
  let runtime := number rt (← metadata.get "reported") runtime
  let runtime := if runtime.le (.fin 0) then defaultRuntime else runtime
  let gpuType := gpuTypeFromText (tres ++ "," ++ partition)
  let gpuType := ((← metadata.get "gtype").or (.str gpuType)).toStr rt
  return some
    { jobId := (← item.getD "job_id" (.str "")).toStr rt
      name := ← strField rt item "name" "job_name"
      state := "PENDING"
      reason := ← strField rt item "state_reason" "reason"
      mpsReq := mpsReq
      gpuCount := gpuCount
      gpuType := gpuType
      runtime := runtime
      submitTs := number rt (← item.get "submit_time") (.fin now)
      priority := ← intField rt item "priority" 0
      partition := partition
      requiredNodes := ← requiredNodesOf rt item
      ramReq := number rt (← metadata.get "ram") (.fin 0)
      sloS := number rt (← metadata.get "slo") (.fin 0)
      jobClass := ((← metadata.get "cls").or (.str "batch")).toStr rt
      requiredGpuType := requiredGpuTypeOf partition tres }

/-- The items of a list that a document holds under `k`. -/
def docItems (doc : Json) (k : String) : Except Exc (List Json) := do
  (← doc.getD k (.arr [])).iter

/-- `parse_jobs`, at the time `now`. -/
def parseJobs (rt : Runtime) (defaultRuntime : PyFloat) (defaultMps : Int) (now : ℚ)
    (jobsDoc : Json) : Except Exc (List SlurmJob) := do
  let jobs ← (← docItems jobsDoc "jobs").mapM (parseJob rt defaultRuntime defaultMps now)
  return jobs.reduceOption

/-- Whether a reason is one of the `JobHeld…`. -/
def heldReason (reason : String) : Bool := contains (removeChar '_' (upper reason)) "JOBHELD"

/-- `filter_held_jobs` -/
def filterHeldJobs (jobs : List SlurmJob) : List SlurmJob :=
  jobs.filter fun job => heldReason job.reason

/-- The body of the loop of `parse_nodes`: nothing of a node without a GPU. -/
def parseNode (rt : Runtime) (mpsPerGpu : Int) (node : Json) : Except Exc (Option SlurmNode) := do
  let name := ((((← node.get "name").or (← node.get "node_name")).or (← node.get "hostname")).or
    (.str "")).toStr rt
  let cfg ← nodeTresText rt node ["tres", "cfg_tres", "gres", "gres_detail"]
  let text := lower (cfg ++ "," ++ name)
  if !(contains text "gpu" || contains text "mps") then
    return none
  let alloc ← nodeTresText rt node ["alloc_tres", "alloc_gres", "tres_used"]
  let states := stateTokens rt ((← node.get "state").or (← node.get "state_flags"))
  let totalMps := parseTresInt cfg ["mps"] 0
  let totalMps := if totalMps ≠ 0 then totalMps else mpsPerGpu
  let allocMps := parseTresInt alloc ["mps"] 0
  return some
    { name := name
      freeMps := max 0 (totalMps - allocMps)
      runningJobs := if states.any (· ∈ ["ALLOCATED", "MIXED", "COMPLETING"]) then 1 else 0
      gpuType := gpuTypeFromText (cfg ++ "," ++ name)
      available := !states.any (· ∈ ["DOWN", "DRAIN", "NOT_RESPONDING", "FAIL"]) }

/-- `parse_nodes` -/
def parseNodes (rt : Runtime) (mpsPerGpu : Int) (nodesDoc : Json) : Except Exc (List SlurmNode) := do
  let nodes ← (← docItems nodesDoc "nodes").mapM (parseNode rt mpsPerGpu)
  return nodes.reduceOption

/-- A job of an `/act` request. -/
structure PendingJob where
  jobId : String
  mpsReq : Int
  gpuCount : Int
  gpuType : String
  runtime : PyFloat
  submitTs : PyFloat
  ramReq : PyFloat
  sloS : PyFloat
  jobClass : String
  eligibleNodeIndices : List Nat
  canFit : Bool
deriving DecidableEq

/-- The one GPU of a node of an `/act` request. -/
structure PayloadGpu where
  freeMps : Int
  runningJobs : Int
  gpuType : String
deriving DecidableEq

structure ActPayload where
  now : ℚ
  pendingJobs : List PendingJob
  /-- The GPUs of each node. -/
  nodes : List (List PayloadGpu)
  nNodes : Nat
  gpusPerNode : Nat
  mpsPerGpu : Int
deriving DecidableEq

/-- Whether `build_act_payload` allows a job on a node. -/
def allows (job : SlurmJob) (node : SlurmNode) : Bool :=
  node.available && (job.requiredGpuType = "" || node.gpuType = job.requiredGpuType)
    && (job.requiredNodes = "" || node.name ∈ splitComma job.requiredNodes)

def eligibleNodeIndices (job : SlurmJob) (nodes : List SlurmNode) : List Nat :=
  (nodes.zipIdx.filter fun ni => allows job ni.1).map Prod.snd

def pendingJob (nodes : List SlurmNode) (job : SlurmJob) : PendingJob where
  jobId := job.jobId
  mpsReq := job.mpsReq
  gpuCount := job.gpuCount
  gpuType := job.gpuType
  runtime := job.runtime
  submitTs := job.submitTs
  ramReq := job.ramReq
  sloS := job.sloS
  jobClass := job.jobClass
  eligibleNodeIndices := eligibleNodeIndices job nodes
  canFit := nodes.zipIdx.any fun ni =>
    ni.2 ∈ eligibleNodeIndices job nodes && ni.1.freeMps ≥ job.mpsReq

/-- The first `TOP_K` jobs by submit time. -/
def window (jobs : List SlurmJob) : List SlurmJob := (sortedBy SlurmJob.submitTs jobs).take topK

/-- `build_act_payload`, at the time `now`. -/
def buildActPayload (jobs : List SlurmJob) (nodes : List SlurmNode) (mpsPerGpu : Int) (now : ℚ) :
    ActPayload where
  now := now
  pendingJobs := (window jobs).map (pendingJob nodes)
  nodes := nodes.map fun n => [⟨n.freeMps, n.runningJobs, n.gpuType⟩]
  nNodes := nodes.length
  gpusPerNode := 1
  mpsPerGpu := mpsPerGpu

/-- The priority of a release, as a `uint32_no_val` object. -/
inductive Release where
  /-- `{"set": True, "infinite": True}` -/
  | infinite
  /-- `{"set": True, "number": n}` -/
  | number (n : Int)
deriving DecidableEq

/-- The body of a job update. -/
inductive JobUpdate where
  /-- `{"priority": n}` -/
  | priority (n : Int)
  /-- `{"environment": [], "required_nodes": [node]}`, and the priority if the
  job is released. -/
  | place (node : String) (release : Option Release)
deriving DecidableEq

inductive Call where
  /-- `time.time()` -/
  | time
  /-- `time.monotonic()` -/
  | monotonic
  /-- `GET {rest_base}/jobs` -/
  | getJobs
  /-- `GET {rest_base}/nodes` -/
  | getNodes
  /-- `POST {rest_base}/job/{job_id}` -/
  | updateJob (jobId : String) (body : JobUpdate)
  /-- `POST {scheduler_url}/act` -/
  | act (payload : ActPayload)
  /-- `GET {scheduler_url}/healthz` -/
  | healthz
deriving DecidableEq

/-- A clock gives a number, everything else a JSON document. -/
def Call.Answer : Call → Type
  | .time | .monotonic => ℚ
  | _ => Json

def interface : Interface where
  Call := Call
  Answer := Call.Answer

variable {σ : Type}

/-- A client of slurmrestd and the policy server. -/
abbrev Client (σ : Type) := Prog interface Exc σ

abbrev ClientEnv := Env interface Exc
abbrev ClientState (σ : Type) := State interface Exc σ
abbrev ClientEvent := Event interface Exc

def time : Client σ ℚ := Prog.perform (I := interface) Call.time
def monotonic : Client σ ℚ := Prog.perform (I := interface) Call.monotonic
def getJobs : Client σ Json := Prog.perform (I := interface) Call.getJobs
def getNodes : Client σ Json := Prog.perform (I := interface) Call.getNodes
def updateJob (jobId : String) (body : JobUpdate) : Client σ Json :=
  Prog.perform (I := interface) (Call.updateJob jobId body)
def postAct (payload : ActPayload) : Client σ Json := Prog.perform (I := interface) (Call.act payload)
def getSchedulerHealthz : Client σ Json := Prog.perform (I := interface) Call.healthz

/-! ## `choose_and_apply` -/

structure PlacementDecision where
  jobId : Option String
  nodeName : Option String
  gpuIndex : Option Int
  action : Int
  value : PyFloat
  entropy : PyFloat
  applied : Bool
  reason : String

/-- The keyword arguments of `choose_and_apply` but for URLs, tokens and
timeouts; empty for none. -/
structure PlaceArgs where
  nodeNames : List String := []
  nodeNamePrefix : String := ""
  jobId : String := ""
  jobNamePrefix : String := ""
  mpsPerGpu : Int := 100
  defaultMps : Int := 100
  defaultRuntime : PyFloat := .fin 600
  release : Bool := true
  shadow : Bool := true
  releasePriority : Int := Scheduler.releasePriority
  autoTrimModelTopology : Bool := true
  requireHeld : Bool := true

namespace PlaceArgs

variable (args : PlaceArgs)

/-- The jobs that the filters leave. -/
def selectJobs (jobs : List SlurmJob) : List SlurmJob :=
  let jobs := if args.requireHeld then filterHeldJobs jobs else jobs
  let jobs := if args.jobId ≠ "" then jobs.filter fun job => job.jobId = args.jobId else jobs
  if args.jobNamePrefix ≠ "" then jobs.filter fun job => startsWith job.name args.jobNamePrefix
  else jobs

/-- The nodes that the filters leave. -/
def selectNodes (discovered : List SlurmNode) : List SlurmNode :=
  let available := discovered.filter fun n => n.available && n.name ≠ ""
  let available := if args.nodeNames ≠ [] then
      available.filter fun n => n.name ∈ args.nodeNames else available
  if args.nodeNamePrefix ≠ "" then
    available.filter fun n => startsWith n.name args.nodeNamePrefix else available

/-- The body of the update of `apply_hard_placement`. -/
def hardPlacement (nodeName : String) : JobUpdate :=
  .place nodeName (if args.release then
    some (if args.releasePriority = Scheduler.releasePriority then .infinite
      else .number args.releasePriority) else none)

end PlaceArgs

/-- `trim_nodes_to_model_topology`, of the answer of `/healthz`. -/
def trimNodes (nodeNames : List String) (health : Json) : Except Exc (List String) := do
  match ← health.get "n_actions" with
  | .int n =>
    if n ≤ 1 then return nodeNames
    else
      let supported := max 1 ((n - 1) / (topK : Int)).toNat
      return if supported ≥ nodeNames.length then nodeNames else nodeNames.take supported
  | _ => return nodeNames

/-- The last node of each name. -/
def nodesByName (available : List SlurmNode) (names : List String) : List SlurmNode :=
  let byName := Dict.ofList (available.map fun n => (n.name, n))
  names.filterMap fun name => byName.get? name

/-- A decision that is not applied, with the numbers of the answer. -/
def decision (rt : Runtime) (act : Json) (jobId nodeName : Option String) (gpuIndex : Option Int)
    (applied : Bool) (reason : String) : Except Exc PlacementDecision := do
  return ⟨jobId, nodeName, gpuIndex, ← (← act.getD "action" (.int (-1))).toInt rt,
    ← (← act.getD "value" (.float (.fin 0))).toFloat rt,
    ← (← act.getD "entropy" (.float (.fin 0))).toFloat rt, applied, reason⟩

/-- `v is None` -/
def isNone : Json → Bool
  | .null => true
  | _ => false

/-- The name at a Python index that is not negative. -/
def nameAt (names : List String) (i : Int) : Option String :=
  if i < 0 then none else names[i.toNat]?

/-- `choose_and_apply`, once the policy has answered. -/
def applyAct (rt : Runtime) (args : PlaceArgs) (effectiveNames : List String) (act : Json) :
    Client σ PlacementDecision := do
  let selectedId ← Prog.ofExcept (act.get "selected_job_id")
  let nodeIndex ← Prog.ofExcept (act.get "node_j")
  let gpuIndex ← Prog.ofExcept (act.get "gpu_k")
  if isNone selectedId || isNone nodeIndex || isNone gpuIndex then
    Prog.ofExcept (decision rt act none none none false "dsac_no_op")
  else do
    let nodeJ ← Prog.ofExcept (nodeIndex.toInt rt)
    match nameAt effectiveNames nodeJ with
    | none => Prog.ofExcept do
      let gpuK ← gpuIndex.toInt rt
      decision rt act (some (selectedId.toStr rt)) none (some gpuK) false
        ("node_index_out_of_range:" ++ nodeIndex.toStr rt)
    | some nodeName => do
      (if args.shadow then pure () else do
        let _ ← updateJob (selectedId.toStr rt) (args.hardPlacement nodeName))
      Prog.ofExcept do
        let gpuK ← gpuIndex.toInt rt
        decision rt act (some (selectedId.toStr rt)) (some nodeName) (some gpuK) (!args.shadow)
          (if args.shadow then "shadow" else "applied")

def noDecision (reason : String) : PlacementDecision :=
  ⟨none, none, none, -1, .fin 0, .fin 0, false, reason⟩

/-- `choose_and_apply` -/
def chooseAndApply (rt : Runtime) (args : PlaceArgs) : Client σ PlacementDecision := do
  let jobsDoc ← getJobs
  let now ← time
  let parsed ← Prog.ofExcept (parseJobs rt args.defaultRuntime args.defaultMps now jobsDoc)
  let jobs := args.selectJobs parsed
  if jobs = [] then return noDecision "no_matching_pending_jobs"
  else do
    let nodesDoc ← getNodes
    let discovered ← Prog.ofExcept (parseNodes rt args.mpsPerGpu nodesDoc)
    let available := args.selectNodes discovered
    if available = [] then return noDecision "no_available_nodes"
    else do
      let availableNames := available.map fun n => n.name
      let effectiveNames ← (if args.autoTrimModelTopology then do
          let health ← getSchedulerHealthz
          Prog.ofExcept (trimNodes availableNames health)
        else pure availableNames : Client σ (List String))
      let nodes := nodesByName available effectiveNames
      let now ← time
      let act ← postAct (buildActPayload jobs nodes args.mpsPerGpu now)
      applyAct rt args effectiveNames act

/-! ## `drain_and_apply` and `main` -/

/-- The loop of `drain_and_apply`, with so many turns left. -/
def drainLoop (rt : Runtime) (args : PlaceArgs) :
    Nat → List PlacementDecision → Client σ (List PlacementDecision)
  | 0, decisions => return decisions
  | turns + 1, decisions => do
    let decision ← chooseAndApply rt args
    let decisions := decisions ++ [decision]
    if decision.applied then drainLoop rt args turns decisions else return decisions

/-- `drain_and_apply` -/
def drainAndApply (rt : Runtime) (args : PlaceArgs) (maxPlacements : Int := 256) :
    Client σ (List PlacementDecision) :=
  drainLoop rt args (max 1 maxPlacements).toNat []

/-- The `try` of the loop of `main`, and the decision that it leaves. -/
def placementCycle (rt : Runtime) (args : PlaceArgs) (drain : Bool) :
    Client σ (Option PlacementDecision) := do
  try
    if drain then do
      let decisions ← drainAndApply rt args
      pure decisions.getLast?
    else do
      let decision ← chooseAndApply rt args
      pure (some decision)
  catch _ => pure none

/-- What `main` returns after its one cycle, with `--once`. -/
def exitCode : Option PlacementDecision → Int
  | none => 1
  | some decision =>
    if decision.reason ∉ ["no_matching_pending_jobs", "dsac_no_op"] then 0 else 2

/-- The loop of `main`, for so many cycles at most. -/
def placementMain (rt : Runtime) (args : PlaceArgs) (drain once : Bool) : Nat → Client σ (Option Int)
  | 0 => return none
  | cycles + 1 => do
    let decision ← placementCycle rt args drain
    if once then return some (exitCode decision) else placementMain rt args drain once cycles

end Kelpflux.Impl.Scheduler
