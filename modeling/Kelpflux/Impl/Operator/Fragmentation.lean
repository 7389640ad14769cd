import Kelpflux.Framework.Python
import Kelpflux.Framework.Greedy
import Kelpflux.Framework.Prog

/-!
# Fragmentation detector and requeue decider (`operator/fragmentation.py`)

MPS slots are natural numbers. The standard deviation in a snapshot's score is
left to the interpreter.
-/

namespace Kelpflux.Impl.Fragmentation

open Framework Framework.Python

structure JobView where
  jobId : String
  user : String
  partition : String
  state : String
  priority : Int
  mpsReq : Nat
  gpuCount : Int
  /-- The nodes that the job is on. -/
  nodes : List String
  submitTs : PyFloat := .fin 0
  runtimeSeconds : PyFloat := .fin 0
deriving DecidableEq

structure NodeView where
  nodeId : String
  freeMps : Nat
  totalMps : Nat
deriving DecidableEq

structure RequeueCandidate where
  victim : JobView
  target : JobView
  nodeId : String
  slotsFreed : Nat
deriving DecidableEq

structure FragmentationSnapshot where
  timestamp : ℚ
  score : ℚ
  freeMpsPerNode : List Nat
  pendingBlocked : List JobView
  candidates : List RequeueCandidate

def FragmentationSnapshot.hasActionableFragmentation (s : FragmentationSnapshot) : Bool :=
  s.pendingBlocked ≠ [] && s.candidates ≠ []

structure RequeueDecision where
  targetJobIds : List String
  blockedJobIds : List String
  reason : String
  snapshotScore : ℚ
  timestamp : ℚ
deriving DecidableEq

/-! ## The detector -/

structure FragmentationDetector where
  mpsPerNode : Nat := 100
  priorityGap : Int := 0

/-- `_fits_anywhere` -/
def fitsAnywhere (job : JobView) (nodes : List NodeView) : Bool :=
  nodes.any fun n => n.freeMps ≥ job.mpsReq

/-- `fragmentation_score` -/
def fragmentationScore (pstdev : List Nat → ℚ) (free : List Nat) : ℚ :=
  let mean : ℚ := free.sum / free.length
  if free.length < 2 ∨ mean = 0 then 0 else max 0 (min 1 (pstdev free / mean))

/-- The order of blocked jobs: by priority, the highest first, then by submit
time and id. -/
def blockedLt (a b : JobView) : Bool :=
  if a.priority ≠ b.priority then b.priority < a.priority
  else if !a.submitTs.eq b.submitTs then a.submitTs.lt b.submitTs
  else a.jobId < b.jobId

/-- The order of victims: by priority, the lowest first, then by runtime, the
longest first, and id. -/
def victimLt (a b : JobView) : Bool :=
  if a.priority ≠ b.priority then a.priority < b.priority
  else if !b.runtimeSeconds.eq a.runtimeSeconds then b.runtimeSeconds.lt a.runtimeSeconds
  else a.jobId < b.jobId

def isPending (j : JobView) : Bool := upper j.state = "PENDING"

def isRunning (j : JobView) : Bool := upper j.state = "RUNNING"

/-- `blocked` of `snapshot` -/
def blockedJobs (jobs : List JobView) (nodes : List NodeView) : List JobView :=
  sortedLt blockedLt ((jobs.filter isPending).filter fun j => !fitsAnywhere j nodes)

/-- `node_idx` of `snapshot` -/
def nodeIdx (nodes : List NodeView) : Dict String NodeView :=
  Dict.ofList (nodes.map fun n => (n.nodeId, n))

/-- `running_by_node` of `snapshot` -/
def runningByNode (jobs : List JobView) : Dict String (List JobView) :=
  Dict.group ((jobs.filter isRunning).flatMap fun r => r.nodes.map fun nid => (nid, r))

namespace FragmentationDetector

variable (det : FragmentationDetector)

/-- Whether a target's priority is far enough above a victim's. -/
def outranks (target victim : JobView) : Bool := det.priorityGap < target.priority - victim.priority

/-- The candidates of a target on a node, in the loops of `snapshot`. -/
def candidatesOn (nodes : List NodeView) (target : JobView) (nid : String)
    (occupants : List JobView) : List RequeueCandidate :=
  match (nodeIdx nodes).get? nid with
  | none => []
  | some node =>
    if target.mpsReq ≤ node.freeMps then []
    else (sortedLt victimLt (occupants.filter (det.outranks target))).map fun victim =>
      { victim, target, nodeId := nid, slotsFreed := victim.mpsReq }

/-- `candidates` of `snapshot` -/
def candidates (jobs : List JobView) (nodes : List NodeView) : List RequeueCandidate :=
  (blockedJobs jobs nodes).flatMap fun target =>
    (runningByNode jobs).flatMap fun no => det.candidatesOn nodes target no.1 no.2

def snapshot (pstdev : List Nat → ℚ) (jobs : List JobView) (nodes : List NodeView) (now : ℚ) :
    FragmentationSnapshot where
  timestamp := now
  score := fragmentationScore pstdev (nodes.map NodeView.freeMps)
  freeMpsPerNode := nodes.map NodeView.freeMps
  pendingBlocked := blockedJobs jobs nodes
  candidates := det.candidates jobs nodes

end FragmentationDetector

/-! ## The decider -/

structure RequeueDecider where
  minIntervalSeconds : PyFloat := .fin 60
  maxRequeuesPerHour : Int := 5
  maxTargetsPerDecision : Int := 4
  /-- `_history`: when the past decisions were made. -/
  history : List ℚ := []

/-- The slots that the candidates of a node would free. -/
def slotsOn (cands : List RequeueCandidate) (nid : String) : Nat :=
  ((cands.filter fun c => c.nodeId = nid).map RequeueCandidate.slotsFreed).sum

/-- The order of `per_target_sorted`: by slots, the most first, then by the
victim's priority. -/
def candidateLt (a b : RequeueCandidate) : Bool :=
  if a.slotsFreed ≠ b.slotsFreed then b.slotsFreed < a.slotsFreed
  else a.victim.priority < b.victim.priority

/-- `nodes_for_target` of `decide` -/
def nodesForTarget (order : SetOrder) (perTarget : List RequeueCandidate) : List String :=
  sortedLt (fun n n' => slotsOn perTarget n' < slotsOn perTarget n)
    (order.list (perTarget.map RequeueCandidate.nodeId))

/-- `reason` of a decision -/
def unblockReason (target : JobView) (node : String) (chosen : List RequeueCandidate) : String :=
  s!"unblock {target.jobId} (priority {target.priority}, mps_req {target.mpsReq}) on {node}: " ++
    s!"requeue {chosen.length} job(s) freeing ~{(chosen.map RequeueCandidate.slotsFreed).sum} slots"

namespace RequeueDecider

/-- `_trim_history` -/
def trimHistory (dec : RequeueDecider) (now : ℚ) : RequeueDecider :=
  { dec with history := dec.history.filter fun t => now - 3600 ≤ t }

/-- `_rate_limited`, of a trimmed history -/
def rateLimited (dec : RequeueDecider) (now : ℚ) : Option String :=
  if dec.history.getLast?.any fun t => (PyFloat.fin (now - t)).lt dec.minIntervalSeconds then
    some s!"min-interval ({dec.minIntervalSeconds.fixed0}s)"
  else if dec.maxRequeuesPerHour ≤ dec.history.length then
    some s!"hourly-cap ({dec.maxRequeuesPerHour})"
  else none

/-- The loop of `decide` that goes through the chosen node's candidates. -/
def choose (dec : RequeueDecider) (target : JobView) (onNode : List RequeueCandidate) :
    List RequeueCandidate :=
  Greedy.pick (fun c => c.victim.jobId) RequeueCandidate.slotsFreed target.mpsReq
    dec.maxTargetsPerDecision.toNat [] onNode

/-- `decide`, once it knows the target. -/
def decideFor (dec : RequeueDecider) (order : SetOrder) (snap : FragmentationSnapshot) (now : ℚ)
    (target : JobView) : Option RequeueDecision × String × RequeueDecider :=
  let perTarget := snap.candidates.filter fun c => c.target.jobId = target.jobId
  match nodesForTarget order perTarget with
  | [] => (none, "no-candidates-for-head", dec)
  | chosenNode :: _ =>
    let onNode := (sortedLt candidateLt perTarget).filter fun c => c.nodeId = chosenNode
    let chosen := dec.choose target onNode
    if chosen = [] then (none, "no-victims-after-priority-gap", dec)
    else
      let reason := unblockReason target chosenNode chosen
      let decision :=
        { targetJobIds := chosen.map fun c => c.victim.jobId
          blockedJobIds := [target.jobId]
          reason := reason
          snapshotScore := snap.score
          timestamp := now }
      (some decision, reason, { dec with history := dec.history ++ [now] })

/-- `decide` -/
def decide (dec : RequeueDecider) (order : SetOrder) (snap : FragmentationSnapshot) (now : ℚ) :
    Option RequeueDecision × String × RequeueDecider :=
  if !snap.hasActionableFragmentation then (none, "no-fragmentation", dec)
  else
    let dec := dec.trimHistory now
    match dec.rateLimited now, snap.pendingBlocked with
    | some limit, _ => (none, s!"rate-limited:{limit}", dec)
    | none, [] => (none, "no-fragmentation", dec)
    | none, target :: _ => dec.decideFor order snap now target

end RequeueDecider

/-! ## Reading Slurm REST -/

/-- `_parse_mps_req`: the first `mps[:=](\d+)`. -/
def parseMpsReq (tresPerNode : String) : Nat :=
  (search (fun cs => match after "mps" cs with
    | some (c :: cs) => if c = ':' ∨ c = '=' then leadingDigits cs else none
    | _ => none) tresPerNode.toList).getD 0

/-- A character of a GRES type. -/
def isTypeChar (c : Char) : Bool := c.isAlphanum || c = '_' || c = '-'

/-- `\s*mps(?::[A-Za-z0-9_-]+)?:(\d+)` -/
def readTotal (cs : List Char) : Option Nat :=
  match after "mps" (cs.dropWhile Char.isWhitespace) with
  | some (':' :: cs) =>
    let typed := match cs.span isTypeChar with
      | (_ :: _, ':' :: digits) => leadingDigits digits
      | _ => none
    typed.or (leadingDigits cs)
  | _ => none

/-- `_parse_node_total_mps`: the first match at the start or after a comma. -/
def parseNodeTotalMps (gres : String) : Option Nat :=
  (readTotal gres.toList).or (search (fun cs => match cs with
    | ',' :: cs => readTotal cs
    | _ => none) gres.toList)

/-- `_parse_tres_mps`: the first `gres/mps=(\d+)`. -/
def parseTresMps (tresUsed : String) : Option Nat :=
  search (fun cs => (after "gres/mps=" cs).bind leadingDigits) tresUsed.toList

/-- The nodes of one range, after the prefix of `_parse_node_list`. -/
def rangeNodes (rt : Runtime) (start part : String) : List String :=
  match part.toList.span (· ≠ '-') with
  | (lo, '-' :: hi) =>
    match rt.int (String.ofList lo), rt.int (String.ofList hi) with
    | some lo, some hi => (List.range (hi + 1 - lo).toNat).map fun i => start ++ toString (lo + i)
    | _, _ => [start ++ part]
  | _ => [start ++ part]

/-- `_parse_node_list` -/
def parseNodeList (rt : Runtime) (nodeList : String) : List String :=
  if nodeList ∈ ["", "(null)", "N/A"] then []
  else match nodeList.toList.span (· ≠ '[') with
  | (_, []) => ((splitComma nodeList).map strip).filter (· ≠ "")
  | (start, _ :: cs) =>
    match cs.span (· ≠ ']') with
    | (ranges, ']' :: rest) =>
      if start = [] ∨ ranges = [] ∨ rest ∉ [[], ['\n']] then [nodeList]
      else (splitComma (String.ofList ranges)).flatMap (rangeNodes rt (String.ofList start))
    | _ => [nodeList]

/-- `gpu_count` of a job: 1 where its `num_nodes` is no number. -/
def gpuCountOf (rt : Runtime) (j : Json) : Except Exc Int := do
  match ((← j.getD "num_nodes" (.int 1)).or (.int 1)).toInt rt with
  | .ok n => return n
  | .error e => if e.isTypeOrValueError then return 1 else throw e

/-- The body of the loop of `jobs_from_slurm_rest`: nothing of a job that is
neither running nor pending. -/
def jobView (rt : Runtime) (mpsPerNode : Nat) (j : Json) : Except Exc (Option JobView) := do
  let state := upper (((← j.getD "job_state" (.str "")).or (.str "")).toStr rt)
  if state ∉ ["RUNNING", "PENDING"] then
    return none
  let tres ← ((← j.get "tres_per_node").or (.str "")).joined
  let mps := parseMpsReq (tres.toStr rt)
  return some
    { jobId := (← j.getD "job_id" (.str "")).toStr rt
      user := (← j.getD "user_name" (← j.getD "user" (.str "anon"))).toStr rt
      partition := (← j.getD "partition" (.str "")).toStr rt
      state := state
      priority := ← ((← j.getD "priority" (.int 0)).or (.int 0)).toInt rt
      mpsReq := if mps = 0 then mpsPerNode else mps
      gpuCount := ← gpuCountOf rt j
      nodes := parseNodeList rt (((← j.get "nodes").or (.str "")).toStr rt)
      submitTs := ← ((← j.getD "submit_time" (.int 0)).or (.int 0)).toFloat rt
      runtimeSeconds := ← ((← j.getD "run_time" (.int 0)).or (.int 0)).toFloat rt }

/-- `jobs_from_slurm_rest` -/
def jobsFromSlurmRest (rt : Runtime) (restJobs : List Json) (mpsPerNode : Nat) :
    Except Exc (List JobView) := do
  return (← restJobs.mapM (jobView rt mpsPerNode)).reduceOption

/-- `_UNAVAILABLE_NODE_STATES` -/
def unavailableNodeStates : List String :=
  ["drain", "drained", "draining", "down", "fail", "failing", "maint", "reserved",
    "powering_down", "powered_down", "future", "not_responding", "no_respond"]

/-- `_node_is_available` -/
def nodeIsAvailable (rt : Runtime) (node : Json) : Except Exc Bool := do
  let states := match ← node.getD "state" (.str "") with
    | .arr xs => xs.map fun x : Json => lower (x.toStr rt)
    | raw => ((splitComma (replaceChar '+' ',' (raw.toStr rt))).map strip).filter (· ≠ "")
      |>.map lower
  return !states.any (· ∈ unavailableNodeStates)

/-- `used` of a node -/
def usedMps (rt : Runtime) (n : Json) : Except Exc Nat := do
  let tresUsed ← ((← n.get "tres_used").or (.str "")).joined
  match parseTresMps (tresUsed.toStr rt) with
  | some used => return used
  | none =>
    let gresUsed ← ((← n.get "gres_used").or (.str "")).joined
    return parseMpsReq (gresUsed.toStr rt)

/-- The body of the loop of `nodes_from_slurm_rest`. -/
def nodeView (rt : Runtime) (mpsPerNode : Nat) (n : Json) : Except Exc NodeView := do
  let hasGresKey ← n.has "gres"
  let gresCfg ← ((← n.get "gres").or (.str "")).joined
  let total := (parseNodeTotalMps (gresCfg.toStr rt)).getD (if hasGresKey then 0 else mpsPerNode)
  let used ← usedMps rt n
  let available ← nodeIsAvailable rt n
  return { nodeId := (← n.getD "name" (.str "")).toStr rt
           freeMps := if available then total - used else 0
           totalMps := total }

/-- `nodes_from_slurm_rest` -/
def nodesFromSlurmRest (rt : Runtime) (restNodes : List Json) (mpsPerNode : Nat) :
    Except Exc (List NodeView) :=
  restNodes.mapM (nodeView rt mpsPerNode)

/-! ## The reconciler -/

/-- The actuator, which is called with a job's id. -/
abbrev actuator : Interface := ⟨String, fun _ => Unit⟩

/-- An exception of the actuator: its class, and its text. -/
structure Raised where
  typeName : String
  text : String

structure ReconcileResult where
  snapshot : FragmentationSnapshot
  decision : Option RequeueDecision
  reason : String
  requeued : List String := []
  shadow : Bool := false
  actuatorErrors : List String := []

structure FragmentationReconciler where
  detector : FragmentationDetector
  shadowMode : Bool := false

/-- One turn of the loop that requeues: the jobs requeued so far, and the errors. -/
def requeue (done : List String × List String) (jid : String) :
    Prog actuator Raised RequeueDecider (List String × List String) := do
  try
    Prog.perform (I := actuator) jid
    pure (done.1 ++ [jid], done.2)
  catch e => pure (done.1, done.2 ++ [s!"{jid}:{e.typeName}:{e.text}"])

/-- `reconcile` -/
def FragmentationReconciler.reconcile (r : FragmentationReconciler) (order : SetOrder)
    (pstdev : List Nat → ℚ) (jobs : List JobView) (nodes : List NodeView) (now : ℚ) :
    Prog actuator Raised RequeueDecider ReconcileResult := do
  let snapshot := r.detector.snapshot pstdev jobs nodes now
  let (decision, reason, decider) := (← get).decide order snapshot now
  modify fun _ => decider
  match decision with
  | none => pure { snapshot, decision, reason, shadow := r.shadowMode }
  | some d =>
    if r.shadowMode then
      pure { snapshot, decision, reason, shadow := r.shadowMode }
    else
      let (requeued, actuatorErrors) ← d.targetJobIds.foldlM requeue ([], [])
      pure { snapshot, decision, reason, requeued, actuatorErrors }

end Kelpflux.Impl.Fragmentation
