import Kelpflux.Impl.Scheduler.SnapshotAgent
import Kelpflux.Impl.Sim.GymEnv
import Mathlib.Data.List.Sort
import Mathlib.Data.String.Basic

/-!
# Traces of the live cluster (`sim/live_trace.py`)

`sacct_to_normalized`: the jobs of a trace from the rows that `sacct` printed, as
`csv.DictReader` reads them, the filters of `scripts/collect-live-trace.py`, and what
`_job_from_dict` of `sim/loader.py` takes of such a job. What instant a text names is left to the interpreter, which has the
time zone.
-/

namespace Kelpflux.Impl.Sim.LiveTrace

open Framework Framework.Python Scheduler

/-- A row of the table: the fields of its header, `None` where it is too short, and
the values beyond the header. -/
structure Row where
  fields : Dict String (Option String)
  rest : List String := []

/-- A text that is there and not empty. -/
def given (value : Option (Option String)) : Option String := value.join.filter (· ≠ "")

/-- `_get`; the values beyond the header have the key `None`. -/
def Row.get (row : Row) (names : List String) : Except Exc String :=
  if row.rest ≠ [] then .error .attributeError
  else
    let lowered := Dict.ofList (row.fields.map fun kv => (lower kv.1, kv.2))
    let found := names.findSome? fun name =>
      (given (row.fields.get? name)).or (given (lowered.get? (lower name)))
    .ok (found.getD "")

/-- The texts for a time that is not known. -/
def unknownTime (value : String) : Bool := value ∈ ["", "Unknown", "None", "N/A"]

/-- `parse_slurm_time` -/
def parseSlurmTime (timestamp : String → Option ℚ) (value : String) : Option ℚ :=
  if unknownTime (strip value) then none else timestamp (strip value)

/-- `int(float(x))` -/
def clockInt (rt : Runtime) (x : String) : Except Exc Int :=
  match rt.float x with
  | some x => x.toInt
  | none => .error (.valueError "could not convert string to float")

/-- The seconds of `h:m:s` or `m:s`. -/
def clockSeconds (rt : Runtime) (parts : List String) : Except Exc (Option Int) :=
  if parts.length = 3 ∨ parts.length = 2 then
    match parts.mapM (clockInt rt) with
    | .ok xs => .ok (some (xs.foldl (fun total x => 60 * total + x) 0))
    | .error (.valueError _) => .ok none
    | .error e => .error e
  else .ok none

/-- `parse_elapsed_seconds` -/
def parseElapsedSeconds (rt : Runtime) (value : String) : Except Exc (Option ℚ) := do
  let value := (strip value).toList
  if unknownTime (String.ofList value) then return none
  if value.all Char.isDigit then return (leadingDigits value).map fun n => (n : ℚ)
  let (days, value) := match splitMax '-' 1 value with
    | [left, value] => (if left.all Char.isDigit then (leadingDigits left).getD 0 else 0, value)
    | _ => (0, value)
  let seconds ← clockSeconds rt ((pieces (· == ':') value).map String.ofList)
  return seconds.map fun s => (days * 86400 + s : ℚ)

/-- `infer_gpu_type` -/
def inferGpuType (texts : List String) : String :=
  (["rtx4070", "rtx3080"].find? fun gpuType =>
    contains (lower (" ".intercalate texts)) gpuType).getD "rtx4070"

/-- `_state_ok` -/
def stateOk (state : String) : Bool :=
  ["COMPLETED", "CANCELLED", "FAILED", "TIMEOUT", "NODE_FAIL", "OUT_OF_MEMORY", "PREEMPTED"].any
    fun p => startsWith (upper state) p

/-- `classify_latency` -/
def classifyLatency (partition nodeList state : String) : String :=
  if contains (lower state) "held" || contains (lower state) "hold" then "hard_placement"
  else if contains (lower partition) "gpu" || contains (lower nodeList) "gpu" then "gpu_warm"
  else "cpu_warm"

/-- An item of a normalized trace. -/
structure NormalizedJob where
  jobId : String
  user : String
  gpuCount : Int
  gpuType : String
  submitTs : ℚ
  runtime : ℚ
  memReq : ℚ
  mpsReq : Int
  liveStartTs : ℚ
  liveEndTs : Option ℚ
  liveWait : ℚ
  liveState : String
  partition : String
  nodeList : String
  allocTres : String
  reqTres : String
  latencyClass : String

/-- Why a row gives no job. -/
inductive Skip where
  | step
  | state
  | time
  | cpu
deriving DecidableEq

inductive Outcome where
  | skipped (why : Skip)
  | emitted (job : NormalizedJob)

def Outcome.job? : Outcome → Option NormalizedJob
  | .skipped _ => none
  | .emitted job => some job

def Outcome.skippedFor (why : Skip) : Outcome → Bool
  | .skipped why' => why = why'
  | .emitted _ => false

/-- `LiveTraceStats` -/
structure LiveTraceStats where
  rawRows : Nat
  emittedJobs : Nat
  skippedSteps : Nat
  skippedCpu : Nat
  skippedState : Nat
  skippedTime : Nat

/-- `gpu_count`, which a request for slots stands for. -/
def gpusOf (tres : String) : Int :=
  let gpuCount := parseTresInt tres ["gpu"] 0
  if gpuCount ≤ 0 ∧ parseTresInt tres ["mps"] 0 > 0 then 1 else gpuCount

/-- The counts after the loop. -/
def LiveTraceStats.ofRows (rawRows emittedJobs : Nat) (outcomes : List Outcome) :
    LiveTraceStats where
  rawRows := rawRows
  emittedJobs := emittedJobs
  skippedSteps := outcomes.countP (Outcome.skippedFor .step)
  skippedCpu := outcomes.countP (Outcome.skippedFor .cpu)
  skippedState := outcomes.countP (Outcome.skippedFor .state)
  skippedTime := outcomes.countP (Outcome.skippedFor .time)

section Normalize

variable (rt : Runtime) (timestamp : String → Option ℚ) (includeCpu : Bool) (minRuntime : ℚ)

/-- The turn of the loop for a row. -/
def readRow (row : Row) : Except Exc Outcome := do
  let jobId ← row.get ["JobIDRaw", "JobID", "JobId"]
  if jobId = "" || contains jobId "." then return .skipped .step
  let state ← row.get ["State"]
  if !stateOk state then return .skipped .state
  let submit := parseSlurmTime timestamp (← row.get ["Submit"])
  let start := parseSlurmTime timestamp (← row.get ["Start"])
  let ended := parseSlurmTime timestamp (← row.get ["End"])
  let elapsed ← parseElapsedSeconds rt (← row.get ["ElapsedRaw", "Elapsed"])
  match submit, start with
  | some submit, some start =>
    let runtime := match ended with
      | some ended => if ended ≥ start then ended - start else elapsed.getD 0
      | none => elapsed.getD 0
    let runtime := max minRuntime runtime
    let allocTres ← row.get ["AllocTRES", "AllocTres"]
    let tres := [allocTres, ← row.get ["ReqTRES", "ReqTres"], ← row.get ["TRESReq", "TresReq"],
      ← row.get ["TRES_PER_NODE", "TresPerNode"]]
    let tres := joinComma (tres.filter (· ≠ ""))
    let mpsReq := parseTresInt tres ["mps"] 0
    let gpuCount := gpusOf tres
    if gpuCount ≤ 0 && !includeCpu then return .skipped .cpu
    let gpuCount := if gpuCount ≤ 0 then 1 else gpuCount
    let mpsReq := if mpsReq ≤ 0 then 100 else mpsReq
    let partition ← row.get ["Partition"]
    let nodeList ← row.get ["NodeList", "Nodelist"]
    let user ← row.get ["User"]
    return .emitted {
      jobId := jobId
      user := if user = "" then "live" else user
      gpuCount := gpuCount
      gpuType := inferGpuType [partition, nodeList, tres, ← row.get ["JobName"]]
      submitTs := submit
      runtime := runtime
      memReq := parseTresInt tres ["mem"] 0
      mpsReq := mpsReq
      liveStartTs := start
      liveEndTs := ended
      liveWait := max 0 (start - submit)
      liveState := state
      partition := partition
      nodeList := nodeList
      allocTres := allocTres
      reqTres := ← row.get ["ReqTRES", "ReqTres", "TRESReq", "TresReq"]
      latencyClass := classifyLatency partition nodeList state }
  | _, _ => return .skipped .time

/-- A job's times, from `first` on. -/
def NormalizedJob.since (first : ℚ) (job : NormalizedJob) : NormalizedJob :=
  { job with
    submitTs := job.submitTs - first
    liveStartTs := job.liveStartTs - first
    liveEndTs := job.liveEndTs.map fun ended => ended - first }

/-- The order of a trace. -/
def Before (a b : NormalizedJob) : Prop :=
  a.submitTs < b.submitTs ∨ a.submitTs = b.submitTs ∧ a.jobId ≤ b.jobId

instance : DecidableRel Before := fun a b => by unfold Before; infer_instance

/-- `jobs.sort(key=lambda j: (j["submit_ts"], str(j["job_id"])))` -/
def sortJobs (jobs : List NormalizedJob) : List NormalizedJob := jobs.insertionSort Before

/-- The jobs, with their times from the first submission on. -/
def relative (jobs : List NormalizedJob) : List NormalizedJob :=
  match (jobs.map NormalizedJob.submitTs).min? with
  | none => jobs
  | some first => jobs.map (NormalizedJob.since first)

/-- `sacct_to_normalized`, of the rows of the table. -/
def sacctToNormalized (relativeTime : Bool) (rows : List Row) :
    Except Exc (List NormalizedJob × LiveTraceStats) := do
  let outcomes ← rows.mapM (readRow rt timestamp includeCpu minRuntime)
  let jobs := outcomes.filterMap Outcome.job?
  let jobs := sortJobs (if relativeTime then relative jobs else jobs)
  return (jobs, .ofRows rows.length jobs.length outcomes)

end Normalize

/-- The filters of `main` in `scripts/collect-live-trace.py`. -/
def filterJobs (completedOnly : Bool) (maxLiveWait : ℚ) (jobs : List NormalizedJob) :
    List NormalizedJob :=
  let jobs := if completedOnly then
      jobs.filter fun job => startsWith (upper job.liveState) "COMPLETED" else jobs
  if maxLiveWait > 0 then jobs.filter fun job => job.liveWait ≤ maxLiveWait else jobs

/-- `_job_from_dict`, of an item of a normalized trace. -/
def jobFromDict (item : NormalizedJob) : TraceJob where
  jobId := item.jobId
  gpuCount := item.gpuCount
  mpsReq := item.mpsReq
  ramReq := 0
  gpuType := item.gpuType
  submitTs := item.submitTs
  runtime := item.runtime

end Kelpflux.Impl.Sim.LiveTrace
