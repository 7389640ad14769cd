import Kelpflux.Impl.Operator.Models
import Kelpflux.Impl.Operator.Slurm

/-!
# The operator's collector (`operator/collector.py`)

`ClusterStateCollector`: which pool a job counts for, and the states of all
pools from the jobs of slurmrestd or from what `squeue` prints. What it asks of
Kubernetes and of the nodes is a parameter.
-/

namespace Kelpflux.Impl.Operator

open Framework Framework.Python

/-! ## Resources -/

/-- A number of `_MEMORY_TRES`, and what follows it. -/
def readAmount (cs : List Char) : Option (ℚ × List Char) := do
  let amount ← leadingDigits cs
  match cs.dropWhile Char.isDigit with
  | '.' :: rest => match leadingDigits rest with
    | some fraction =>
      let digits := (rest.takeWhile Char.isDigit).length
      return (amount + fraction / 10 ^ digits, rest.dropWhile Char.isDigit)
    | none => return (amount, '.' :: rest)
  | rest => return (amount, rest)

/-- The megabytes of a unit of `_MEMORY_TRES`. -/
def unitFactor (c : Char) : Option ℚ :=
  match c.toUpper with
  | 'K' => some (1 / 1024)
  | 'M' => some 1
  | 'G' => some 1024
  | 'T' => some (1024 ^ 2)
  | 'P' => some (1024 ^ 3)
  | 'E' => some (1024 ^ 4)
  | _ => none

/-- A match of `_MEMORY_TRES`: the megabytes, and whether they are for each CPU. -/
def memoryTres (value : String) : Option (ℚ × Bool) := do
  let (amount, rest) ← readAmount value.toList
  let (factor, scope) := match rest with
    | c :: rest' => match unitFactor c with
      | some factor => (factor, rest')
      | none => (1, rest)
    | [] => (1, [])
  match scope.map Char.toLower with
  | [] | ['n'] => return (amount * factor, false)
  | ['c'] => return (amount * factor, true)
  | _ => none

/-- What the loop of `_tres_per_node_fits` has read: the CPUs and the memory. -/
structure TresRead where
  requestedCpu : Int := 0
  memoryTres : Option (ℚ × Bool) := none

def TresRead.item (rt : Runtime) (r : TresRead) (item : String) : TresRead :=
  match splitMax '=' 1 item.toList with
  | [key, value] =>
    if String.ofList key = "cpu" then
      match rt.int (String.ofList value) with
      | some n => { r with requestedCpu := n }
      | none => r
    else if String.ofList key = "mem" then
      match Operator.memoryTres (String.ofList value) with
      | some m => { r with memoryTres := some m }
      | none => r
    else r
  | _ => r

/-- `_tres_per_node_fits` -/
def tresPerNodeFits (rt : Runtime) (tres : String) (partition : PartitionConfig) : Bool :=
  let r := (splitComma tres).foldl (TresRead.item rt) {}
  let requestedMemoryMb := match r.memoryTres with
    | some (mb, perCpu) => if perCpu then mb * max r.requestedCpu 1 else mb
    | none => 0
  !((0 < partition.cpusPerNode && partition.cpusPerNode < r.requestedCpu) ||
    (0 < partition.memoryMbPerNode && (partition.memoryMbPerNode : ℚ) < requestedMemoryMb))

/-- `_can_scale_for_job` -/
def canScaleForJob (rt : Runtime) (fields : JobFields) (partition : PartitionConfig) : Bool :=
  lower (stripChars ['(', ')'] (strip fields.reason)) = "resources"
    && tresPerNodeFits rt fields.tresPerNode partition

/-! ## Classification -/

/-- `_csv_set` -/
def csvSet (value : String) : List String :=
  if value ∈ ["", "(null)", "N/A"] then []
  else (splitComma value).filter fun part => part ≠ "" && part ≠ "(null)"

/-- `_gres_match` -/
def gresMatch (value : String) (needles : List String) : Bool :=
  value ∉ ["", "(null)"] && needles.any fun needle => contains value needle

/-- The pool on whose nodes a job is, by their names. -/
def placedPool (poolOrder : List PartitionConfig) (nodeList : String) : Option PartitionConfig :=
  if nodeList ∈ ["", "(null)"] then none
  else poolOrder.find? fun pool => startsWith nodeList pool.workerStatefulset

/-- Whether a job asks for a pool, by its features or its GRES. -/
def asksFor (fields : JobFields) (pool : PartitionConfig) : Bool :=
  pool.matchFeatures.any (· ∈ csvSet fields.features) ||
    -- `TresPerJob`, `TresBind` and `TRES` are not among the fields.
    gresMatch (fields.tresPerNode ++ "   ") pool.matchGres

/-- `_classify_job` -/
def classifyJob (poolOrder : List PartitionConfig) (fields : JobFields) : Option PartitionConfig :=
  ((placedPool poolOrder fields.nodeList).or (poolOrder.find? (asksFor fields))).or
    (poolOrder.find? fun pool => pool.fallback)

/-! ## The jobs of a partition -/

/-- A pool's jobs by their state. -/
structure Buckets where
  pending : List JobFields := []
  scalePending : List JobFields := []
  running : List JobFields := []

/-- `bucket[normalized_state].append(fields)`, and `SCALE_PENDING` -/
def Buckets.append (rt : Runtime) (bucket : Buckets) (pool : PartitionConfig) (state : String)
    (fields : JobFields) : Buckets :=
  if state = "PENDING" then
    { bucket with
      pending := bucket.pending ++ [fields]
      scalePending := if canScaleForJob rt fields pool then bucket.scalePending ++ [fields]
        else bucket.scalePending }
  else if state ∈ activeStates then { bucket with running := bucket.running ++ [fields] }
  else bucket

abbrev JobsByPool := Dict String Buckets

/-- `result`, before the loop over the jobs. -/
def emptyBuckets (partitionCfgs : List PartitionConfig) (partition : String) : JobsByPool :=
  Dict.ofList ((partitionCfgs.filter fun p => p.partition = partition).map
    fun p => (p.workerStatefulset, {}))

/-- The body of the loop over the jobs. -/
def addJob (rt : Runtime) (partitionCfgs : List PartitionConfig) (result : JobsByPool)
    (job : String × JobFields) : JobsByPool :=
  match classifyJob partitionCfgs job.2 with
  | none => result
  | some pool =>
    let bucket := (result.get? pool.workerStatefulset).getD {}
    result.set pool.workerStatefulset (bucket.append rt pool job.1 job.2)

/-- `_jobs_by_pool_and_state_rest`, of the jobs that slurmrestd answers with. -/
def jobsByPoolAndStateRest (rt : Runtime) (partitionCfgs : List PartitionConfig)
    (jobs : List RestJob) (partition : String) : JobsByPool :=
  ((SlurmRestClient.listJobs jobs partition).map fun job =>
    (job.jobState, SlurmRestClient.normalizeJob job)).foldl (addJob rt partitionCfgs)
    (emptyBuckets partitionCfgs partition)

/-- A line that `squeue` prints, as the loop of `_jobs_by_pool_and_state_exec` reads
it. -/
def readLine (line : String) : Option (String × JobFields) :=
  match (splitMax '|' 5 (strip line).toList).map String.ofList with
  | [_, state, nodeList, features, tresPerNode, reason] =>
    some (state, ⟨nodeList, features, tresPerNode, reason⟩)
  | _ => none

/-- `_jobs_by_pool_and_state_exec`, of what `squeue` prints for the partition. -/
def jobsByPoolAndStateExec (rt : Runtime) (partitionCfgs : List PartitionConfig)
    (output : String) (partition : String) : JobsByPool :=
  ((splitlines output.toList).filterMap fun line => readLine (String.ofList line)).foldl
    (addJob rt partitionCfgs) (emptyBuckets partitionCfgs partition)

/-! ## All pools -/

/-- `collect_all_partition_states`, of the jobs of each partition, the answers of
`get_replicas` and those of `get_busy_nodes`. -/
def collectAllPartitionStates (partitionCfgs : List PartitionConfig)
    (jobsByPartition : String → JobsByPool) (getReplicas : String → Int)
    (getBusyNodes : PartitionConfig → Int) : Dict String PartitionState :=
  Dict.ofList (partitionCfgs.map fun p =>
    let bucket := ((jobsByPartition p.partition).get? p.workerStatefulset).getD {}
    (p.workerStatefulset,
      { partition := p.partition
        workerStatefulset := p.workerStatefulset
        currentReplicas := getReplicas p.workerStatefulset
        pendingJobs := bucket.pending.length
        runningJobs := bucket.running.length
        busyNodes := getBusyNodes p
        scalePendingJobs := bucket.scalePending.length }))

end Kelpflux.Impl.Operator
