import Kelpflux.Impl.Scheduler.Placement
import Kelpflux.Impl.Sim.GymEnv

/-!
# The reorder daemon (`rl_scheduler/reorder_daemon.py`)

`rankPending` asks the policy for one job after another and ends with a
dispatch order; `reorderCycle` writes that order to Slurm as priorities, and on
a failure restores what it read before and clears what it owns.
-/

namespace Kelpflux.Impl.Scheduler

open Framework Framework.Python

def releaseBase : Int := 5000000
def releaseSpacing : Int := 10000
def maxPendingJobs : Nat := 150

/-- `MIN_OWNED_PRIORITY` -/
def minOwnedPriority : Int := releaseBase - (maxPendingJobs - 1) * releaseSpacing

variable {σ : Type}

section Reading

/-- What `reorder_cycle` is called with. -/
structure CycleArgs where
  nodeNames : List String
  gpuPartitions : List String
  mpsPerGpu : Int := 100
  maxJobs : Int := 150
  deadlineSeconds : ℚ := 25
  defaultRuntime : PyFloat := .fin 600
  jobNamePrefix : String := ""
  shadow : Bool := false

/-- `_job_from_item` -/
def jobFromItem (rt : Runtime) (args : CycleArgs) (item : Json) : Client σ (Option SlurmJob) := do
  let now ← time
  match ← Prog.ofExcept (parseJob rt args.defaultRuntime 0 now item) with
  | none => return none
  | some job => do
    let tres ← Prog.ofExcept (jobTres rt item)
    return if parseTresInt tres ["mps"] 0 ≤ 0 then none else some job

/-- Whether the loop of `parse_eligible_jobs` reads a job from an item: it is
pending, not held, and of a GPU partition. -/
def readsItem (rt : Runtime) (args : CycleArgs) (item : Json) : Except Exc Bool := do
  if "PENDING" ∉ stateTokens rt (← item.get "job_state") then
    return false
  if heldReason (← strField rt item "state_reason" "reason")
      || (number rt (← item.get "priority") (.fin 1)).eq (.fin 0) then
    return false
  return ((← item.get "partition").or (.str "")).toStr rt ∈ args.gpuPartitions

/-- The body of the loop of `parse_eligible_jobs`. -/
def eligibleJob (rt : Runtime) (args : CycleArgs) (item : Json) :
    Client σ (Option SlurmJob) := do
  match ← Prog.ofExcept (readsItem rt args item) with
  | false => return none
  | true => do
    let job ← jobFromItem rt args item
    return job.filter fun job => job.gpuCount = 1
      && (args.jobNamePrefix = "" || startsWith job.name args.jobNamePrefix)

/-- `parse_eligible_jobs` -/
def parseEligibleJobs (rt : Runtime) (args : CycleArgs) (jobsDoc : Json) :
    Client σ (List SlurmJob) := do
  let items ← Prog.ofExcept (docItems jobsDoc "jobs")
  let eligible ← items.foldlM
    (fun eligible item => do return eligible ++ (← eligibleJob rt args item).toList) []
  return sortedBy SlurmJob.submitTs eligible

/-- An item of the result of `_pending_job_priorities`. -/
def pendingPriority (rt : Runtime) (item : Json) : Except Exc (Option (String × Int)) := do
  match ← item.get "job_id" with
  | .null => return none
  | jobId => do
    if "PENDING" ∉ stateTokens rt (← item.get "job_state") then
      return none
    return some (jobId.toStr rt, ← intField rt item "priority" (-1))

/-- `_pending_job_priorities` -/
def pendingJobPriorities (rt : Runtime) (jobsDoc : Json) : Except Exc (Dict String Int) := do
  let items ← (← docItems jobsDoc "jobs").mapM (pendingPriority rt)
  return Dict.ofList items.reduceOption

/-- The node of a name: as discovered, with nothing free where it is not
available, or not at all. -/
def namedNode (discovered : Dict String SlurmNode) (name : String) : SlurmNode :=
  match discovered.get? name with
  | none =>
    { name := name, freeMps := 0, runningJobs := 0
      gpuType := if contains name "3080" then "rtx3080" else "rtx4070"
      available := false }
  | some node => if node.available then node else { node with freeMps := 0, available := false }

/-- `_read_state` -/
def readState (rt : Runtime) (args : CycleArgs) : Client σ (List SlurmJob × List SlurmNode) := do
  let jobsDoc ← getJobs
  let nodesDoc ← getNodes
  let jobs ← parseEligibleJobs rt args jobsDoc
  let discovered ← Prog.ofExcept (parseNodes rt args.mpsPerGpu nodesDoc)
  let discovered := Dict.ofList (discovered.map fun node => (node.name, node))
  return (jobs, args.nodeNames.map (namedNode discovered))

/-- Whether two states have one `_state_signature`. -/
def sameSignature (jobs jobs' : List SlurmJob) (nodes nodes' : List SlurmNode) : Bool :=
  jobs.length = jobs'.length && nodes.length = nodes'.length
    && (jobs.zip jobs').all (fun jj => jj.1.jobId = jj.2.jobId && jj.1.mpsReq = jj.2.mpsReq
      && jj.1.gpuCount = jj.2.gpuCount && jj.1.partition = jj.2.partition
      && jj.1.requiredNodes = jj.2.requiredNodes && jj.1.submitTs.eq jj.2.submitTs
      && jj.1.priority = jj.2.priority)
    && (nodes.zip nodes').all (fun nn => nn.1.name = nn.2.name && nn.1.gpuType = nn.2.gpuType
      && nn.1.freeMps = nn.2.freeMps && nn.1.available = nn.2.available)

end Reading

section Ranking

/-- A pending job as `rank_pending` is given it. -/
inductive PendingItem where
  | job (job : SlurmJob)
  /-- The evaluation's tuple of a job's id, MPS request and submit time. -/
  | tuple (jobId : String) (mps : Int) (submitTs : PyFloat)

/-- The body of the loop of `_coerce_jobs`. -/
def PendingItem.coerce : PendingItem → SlurmJob
  | .job j => j
  | .tuple jobId mps submitTs =>
    { jobId := jobId, name := "", state := "PENDING", reason := "", mpsReq := mps, gpuCount := 1
      gpuType := "rtx4070", runtime := .fin 0, submitTs := submitTs }

/-- A node as `rank_pending` is given it. -/
inductive NodeItem where
  | node (node : SlurmNode)
  | name (name : String)

/-- The body of the loop of `_coerce_nodes`. -/
def NodeItem.coerce (free : Dict String Int) : NodeItem → SlurmNode
  | .node n => { n with freeMps := (free.get? n.name).getD n.freeMps }
  | .name n =>
    { name := n, freeMps := (free.get? n).getD 0, runningJobs := 0
      gpuType := if contains n "3080" then "rtx3080" else "rtx4070" }

/-- The variables of the loop of `rank_pending`. -/
structure RankState where
  remaining : Dict String SlurmJob
  localfree : Dict String Int
  order : List String

namespace RankState

def start (pending : List PendingItem) (free : Dict String Int) : RankState where
  remaining := Dict.ofList (pending.map fun item => (item.coerce.jobId, item.coerce))
  localfree := free
  order := []

/-- The remaining jobs' ids by submit time. -/
def backlog (st : RankState) : List String :=
  (sortedBy SlurmJob.submitTs st.remaining.values).map SlurmJob.jobId

/-- The end of a round that picked `pick` for `node`. -/
def take (st : RankState) (pick node : String) : Except Exc RankState :=
  match st.localfree.get? node, st.remaining.get? pick with
  | some free, some job => .ok
    { remaining := st.remaining.erase pick
      localfree := st.localfree.set node (free - job.mpsReq)
      order := st.order ++ [pick] }
  | _, _ => .error .keyError

end RankState

/-- What `rank_pending` is called with, besides jobs, free slots and `post`. -/
structure RankArgs where
  mpsPerGpu : Int
  nodes : List NodeItem
  strict : Bool := false
  deadlineAt : Option ℚ := none

namespace RankArgs

variable (args : RankArgs)

def fnodes (st : RankState) : List SlurmNode := args.nodes.map (NodeItem.coerce st.localfree)

/-- The nodes allowed to each job of the window. -/
def eligible (st : RankState) : Dict String (List Nat) :=
  Dict.ofList ((window (window st.remaining.values)).map fun job =>
    (job.jobId, eligibleNodeIndices job (args.fnodes st)))

/-- The policy's choice, where it can be followed. -/
def policyPick (rt : Runtime) (st : RankState) (selected : String) (nodeJ : Json) :
    Except Exc (Option (String × String)) :=
  match st.remaining.get? selected, nodeJ with
  | none, _ | _, .null => .ok none
  | some job, nodeJ =>
    match nodeJ.toInt rt with
    | .error e => if e.isTypeOrValueError then .ok none else .error e
    | .ok (.negSucc _) => .ok none
    | .ok (.ofNat i) =>
      match (args.fnodes st)[i]? with
      | none => .ok none
      | some candidate => .ok <|
        if i ∈ ((args.eligible st).get? selected).getD [] ∧ candidate.available
            ∧ candidate.freeMps ≥ job.mpsReq
        then some (selected, candidate.name) else none

/-- The first node that fits a job, for the inner loop of the first fit. -/
def firstNode (st : RankState) (job : SlurmJob) : Option String :=
  ((args.fnodes st).zipIdx.find? fun ni => ni.1.available
    && ni.2 ∈ ((args.eligible st).get? job.jobId).getD []
    && (st.localfree.get? ni.1.name).getD 0 ≥ job.mpsReq).map fun ni => ni.1.name

/-- The outer loop of the first fit, which stops at a pick that is true: an
empty job id is not. -/
def firstFit (st : RankState) : Option (String × String) → List SlurmJob → Option (String × String)
  | pick, [] => pick
  | pick, job :: jobs =>
    let pick := ((args.firstNode st job).map fun node => (job.jobId, node)).or pick
    if pick.any (·.1 ≠ "") then pick else firstFit st pick jobs

/-- Whether an answer is the policy's no-op. -/
def isNoop (rt : Runtime) (selected : String) (act : Json) : Except Exc Bool := do
  if selected ≠ "" then
    return false
  match (← act.getD "action" (.int (-1))).toInt rt with
  | .ok action => return action = topK * args.nodes.length
  | .error e => if e.isTypeOrValueError then return false else throw e

/-- A round whose answer picks nothing. -/
def fallBack (rt : Runtime) (st : RankState) (selected : String) (act : Json) :
    Except Exc (RankState ⊕ List String) :=
  if args.strict then do
    match ← args.isNoop rt selected act with
    | true => return .inr (st.order ++ st.backlog)
    | false => throw (.runtimeError "policy returned no feasible job/node action")
  else
    match args.firstFit st none (sortedBy SlurmJob.submitTs st.remaining.values) with
    | some (pick, node) => do return .inl (← st.take pick node)
    | none => return .inr (st.order ++ st.backlog)

/-- A round, after the policy's answer. -/
def choose (rt : Runtime) (st : RankState) (act : Json) :
    Except Exc (RankState ⊕ List String) := do
  let selected := ((← act.get "selected_job_id").or (.str "")).toStr rt
  match ← args.policyPick rt st selected (← act.get "node_j") with
  | some (pick, node) => do return .inl (← st.take pick node)
  | none => args.fallBack rt st selected act

variable (post : ActPayload → Client σ Json)

def deadlineMessage : String := "policy rank deadline exceeded"

def checkDeadline : Client σ Unit :=
  match args.deadlineAt with
  | none => pure ()
  | some deadline => do
    let now ← monotonic
    Prog.ensure (now < deadline) (.timeoutError deadlineMessage)

/-- A round, up to the policy's answer: none is the empty object, unless
`strict`. -/
def ask (st : RankState) : Client σ Json := do
  args.checkDeadline
  let now ← time
  let payload := buildActPayload (window st.remaining.values) (args.fnodes st) args.mpsPerGpu now
  try post payload
  catch e => if args.strict then throw e else pure (.obj [])

/-- The body of the loop of `rank_pending`. -/
def round (rt : Runtime) (st : RankState) : Client σ (RankState ⊕ List String) := do
  if st.remaining.isEmpty then return .inr st.order
  else do
    let act ← args.ask post st
    Prog.ofExcept (args.choose rt st act)

end RankArgs

/-- `rank_pending`. Each round but the last takes a job, so that there is
always fuel left. -/
def rankPending (rt : Runtime) (args : RankArgs) (post : ActPayload → Client σ Json)
    (pending : List PendingItem) (free : Dict String Int) : Client σ (List String) := do
  match ← Prog.iterate (args.round post rt) (pending.length + 1) (.start pending free) with
  | some order => return order
  | none => throw (.other "out of fuel")

end Ranking

section Writing

/-- `_set_priority` -/
def setPriority (rt : Runtime) (jobId : String) (priority : Int) : Client σ Unit := do
  let result ← updateJob jobId (.priority priority)
  let errors ← Prog.ofExcept (result.get "errors")
  Prog.ensure (errors.truthy = false)
    (.runtimeError s!"Slurm rejected priority update for job {jobId}: {errors.toStr rt}")

def isOwned (priority : Int) : Bool := minOwnedPriority ≤ priority && priority ≤ releaseBase

/-- The jobs that a message lists. -/
def listed (rt : Runtime) (jobIds : List String) : String := (Json.arr (jobIds.map .str)).toStr rt

/-- `reset_owned_priorities`, once it knows the jobs it owns. -/
def resetJobs (rt : Runtime) (owned : List String) : Client σ (List String) := do
  owned.forM fun jobId => setPriority rt jobId releasePriority
  if owned = [] then return owned
  else do
    let verifyDoc ← getJobs
    let pending ← Prog.ofExcept (pendingJobPriorities rt verifyDoc)
    let remaining := owned.filter fun jobId =>
      (pending.get? jobId).any fun p => p ≤ 0 || p = releasePriority || isOwned p
    Prog.ensure (remaining = [])
      (.runtimeError s!"could not restore Slurm priorities for jobs {listed rt remaining}")
    return owned

/-- `reset_owned_priorities` -/
def resetOwnedPriorities (rt : Runtime) : Client σ (List String) := do
  let jobsDoc ← getJobs
  let pending ← Prog.ofExcept (pendingJobPriorities rt jobsDoc)
  resetJobs rt (Dict.keys (pending.filter fun jp => isOwned jp.2))

/-- The jobs of `priorities` that are pending with another priority. -/
def mismatches (priorities pending : Dict String Int) : Dict String Int :=
  priorities.filter fun jp => (pending.get? jp.1).any (· ≠ jp.2)

/-- `_restore_cycle_priorities`, once it knows the pending jobs' priorities. -/
def restoreJobs (rt : Runtime) (originalPriorities pending : Dict String Int) : Client σ Unit := do
  (mismatches originalPriorities pending).forM fun jp => setPriority rt jp.1 jp.2
  let verifyDoc ← getJobs
  let pending ← Prog.ofExcept (pendingJobPriorities rt verifyDoc)
  let remaining := (mismatches originalPriorities pending).keys
  Prog.ensure (remaining = [])
    (.runtimeError s!"could not roll back Slurm priorities for jobs {listed rt remaining}")

/-- `_restore_cycle_priorities` -/
def restoreCyclePriorities (rt : Runtime) (originalPriorities : Dict String Int) :
    Client σ Unit :=
  if originalPriorities.isEmpty then pure ()
  else do
    let jobsDoc ← getJobs
    let pending ← Prog.ofExcept (pendingJobPriorities rt jobsDoc)
    restoreJobs rt originalPriorities pending

/-- The priorities an order stands for. -/
def orderPriorities (order : List String) : Dict String Int :=
  Dict.ofList (order.zipIdx.map fun ji => (ji.1, releaseBase - ji.2 * releaseSpacing))

/-- The variable of `reorder_cycle` that its calls do not depend on. -/
structure Cycle where
  /-- The jobs whose priority this cycle has written. -/
  written : List String := []

abbrev Daemon := Client Cycle

/-- How far a cycle has got before it writes anything. -/
inductive CyclePlan where
  /-- There is nothing to write. -/
  | done (order : List String)
  | write (order : List String) (current : Dict String Int) (deadline : ℚ)
deriving DecidableEq

/-- The check of the checkpoint's shape in `reorder_cycle`. -/
def checkTopology (rt : Runtime) (nNodes : Nat) : Daemon Unit := do
  let health ← getSchedulerHealthz
  let (obsDim, nActions) := Sim.envDims nNodes 1
  let gotObs ← Prog.ofExcept (health.get "obs_dim")
  let gotActions ← Prog.ofExcept (health.get "n_actions")
  Prog.ensure (gotObs.eqInt obsDim ∧ gotActions.eqInt nActions)
    (.runtimeError (s!"checkpoint topology mismatch: expected {obsDim}/{nActions}, " ++
      s!"got {gotObs.toStr rt}/{gotActions.toStr rt}"))

/-- The `post` of `reorder_cycle`, whose timeout is what is left of the
deadline. -/
def postInTime (payload : ActPayload) : Daemon Json := do
  let _ ← monotonic
  postAct payload

/-- The ranking of `reorder_cycle`. -/
def rankCycle (rt : Runtime) (args : CycleArgs) (deadline : ℚ) (jobs : List SlurmJob)
    (nodes : List SlurmNode) : Daemon (List String) :=
  rankPending rt
    { mpsPerGpu := args.mpsPerGpu, nodes := nodes.map .node, strict := true
      deadlineAt := some deadline }
    postInTime (jobs.map .job) (Dict.ofList (nodes.map fun node => (node.name, node.freeMps)))

/-- `reorder_cycle`, up to its first write. -/
def planCycle (rt : Runtime) (args : CycleArgs) : Daemon CyclePlan := do
  Prog.ensure (1 ≤ args.maxJobs ∧ args.maxJobs ≤ maxPendingJobs)
    (.valueError s!"max_jobs must be between 1 and {maxPendingJobs}")
  let start ← monotonic
  let deadline := start + args.deadlineSeconds
  let (jobs, nodes) ← readState rt args
  if jobs = [] then return .done []
  else do
    Prog.ensure (jobs.length ≤ args.maxJobs)
      (.runtimeError s!"eligible queue has {jobs.length} jobs; limit is {args.maxJobs}")
    checkTopology rt args.nodeNames.length
    let order ← rankCycle rt args deadline jobs nodes
    let now ← monotonic
    Prog.ensure (now < deadline) (.timeoutError "priority write deadline exceeded")
    let (currentJobs, currentNodes) ← readState rt args
    Prog.ensure (sameSignature jobs currentJobs nodes currentNodes)
      (.runtimeError "queue or GPU state changed while ranking; skipping this cycle")
    let current := Dict.ofList (currentJobs.map fun job => (job.jobId, job.priority))
    return if args.shadow then .done order else .write order current deadline

/-- The body of the loop of `reorder_cycle` that writes. -/
def writePriority (rt : Runtime) (current : Dict String Int) (deadline : ℚ)
    (jp : String × Int) : Daemon Unit := do
  let now ← monotonic
  Prog.ensure (0 < deadline - now) (.timeoutError "priority write deadline exceeded")
  if current.get? jp.1 = some jp.2 then pure ()
  else do
    setPriority rt jp.1 jp.2
    modify fun c => { c with written := c.written ++ [jp.1] }

/-- The check of `reorder_cycle` after its writes. -/
def verifyPriorities (rt : Runtime) (priorities : Dict String Int) : Daemon Unit := do
  let _ ← monotonic
  let verifyDoc ← getJobs
  let verified ← Prog.ofExcept (pendingJobPriorities rt verifyDoc)
  let wrong := (mismatches priorities verified).keys
  Prog.ensure (wrong = [])
    (.runtimeError s!"Slurm priority round-trip mismatch for jobs {listed rt wrong}")

/-- The `try` of `reorder_cycle`. -/
def writePriorities (rt : Runtime) (order : List String) (current : Dict String Int)
    (deadline : ℚ) : Daemon Unit := do
  (orderPriorities order).forM (writePriority rt current deadline)
  verifyPriorities rt (orderPriorities order)

/-- What `reorder_cycle` does when a write or the check fails. -/
def rollBack (rt : Runtime) (current : Dict String Int) : Daemon Unit := do
  try restoreCyclePriorities rt current
  catch _ => pure ()
  try let _ ← resetOwnedPriorities rt
  catch _ => pure ()

/-- `reorder_cycle` -/
def reorderCycle (rt : Runtime) (args : CycleArgs) : Daemon (List String) := do
  match ← planCycle rt args with
  | .done order => return order
  | .write order current deadline =>
    modify fun _ => {}
    try writePriorities rt order current deadline
    catch e =>
      rollBack rt current
      throw e
    return order

/-- A reset in `main`, which is logged where it fails. -/
def tryReset (rt : Runtime) (args : CycleArgs) : Daemon Unit :=
  if args.shadow then pure ()
  else
    try let _ ← resetOwnedPriorities rt
    catch _ => pure ()

/-- The body of the loop of `main`. -/
def mainCycle (rt : Runtime) (args : CycleArgs) : Daemon Unit := do
  try let _ ← reorderCycle rt args
  catch _ => tryReset rt args

/-- The reset that `main` starts with. -/
def startReset (rt : Runtime) (args : CycleArgs) : Daemon Unit :=
  if args.shadow then pure ()
  else do
    let _ ← resetOwnedPriorities rt

/-- The `try` of `main`, which is told to stop after some `cycles`. -/
def mainLoop (rt : Runtime) (args : CycleArgs) (cycles : Nat) : Daemon Unit := do
  startReset rt args
  (List.range cycles).forM fun _ => mainCycle rt args

/-- `main`, once it is configured. -/
def reorderMain (rt : Runtime) (args : CycleArgs) (cycles : Nat) : Daemon Unit :=
  (mainLoop rt args cycles).andThen fun r => do
    tryReset rt args
    Prog.ofExcept r

end Writing

end Kelpflux.Impl.Scheduler
