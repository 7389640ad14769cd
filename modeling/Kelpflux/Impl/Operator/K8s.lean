import Kelpflux.Framework.Dict
import Kelpflux.Framework.Prog
import Kelpflux.Impl.Operator.Policy

/-!
# What the operator calls (`operator/k8s.py`, `operator/collector.py`)

One pool's view: the StatefulSet is the pool's, and its worker nodes
`f"{worker_statefulset}-{i}"` are named by their ordinals. A reconcile is a
program over these calls and the operator's memory of the pool.
-/

namespace Kelpflux.Impl.Operator

open Framework

/-- The StatefulSet's annotations that the operator writes. -/
inductive Annotation where
  /-- `slurm.k8s/last-scale-up-at` -/
  | cooldown
  /-- `slurm.k8s/last-scale-action-at` -/
  | lastScaleAction
  /-- `slurm.k8s/provisioning` -/
  | provisioning
  /-- `slurm.k8s/provisioning-retry-at` -/
  | provisioningRetry
deriving DecidableEq, Repr

/-- A scale-up in flight: an item of `_provisioning`, less its trace context. -/
structure Provisioning where
  startedAt : ℚ
  fromReplicas : Int
  targetReplicas : Int
deriving DecidableEq

/-- What an annotation's text encodes. -/
inductive AnnotationValue where
  /-- The empty text. -/
  | cleared
  /-- `str(t)` -/
  | time (t : ℚ)
  /-- The JSON object of a scale-up in flight. -/
  | marker (p : Provisioning)
deriving DecidableEq

structure StatefulSet where
  specReplicas : Option Int
  readyReplicas : Option Int
deriving DecidableEq

/-- The calls that change something. -/
inductive Command where
  | patchReplicas (replicas : Int)
  /-- `set_annotation` -/
  | annotate (name : Annotation) (value : AnnotationValue)
  /-- `scontrol update NodeName=… State=…` -/
  | drain (node : Int)
  | resume (node : Int)
  | down (node : Int) (reason : String)
  | future (node : Int) (reason : String)
  /-- `scancel --nodelist=…` -/
  | cancelJobs (node : Int)
  /-- A trace span, or the block that follows the jobs' spans. -/
  | trace
deriving DecidableEq

inductive Call where
  | command (c : Command)
  /-- `read_namespaced_stateful_set`, for its replicas -/
  | readStatefulSet
  /-- The same, for one of its annotations. -/
  | readAnnotationText (name : Annotation)
  /-- `scontrol show node … | grep CPUAlloc` -/
  | showNode (node : Int)
  /-- The age of the checkpoint file, or `-1`. -/
  | statCheckpoint (path : String)
  /-- `squeue` or the REST listing, counted for the pool. -/
  | listJobs
  /-- `sinfo` or the REST listing, counted for the pool. -/
  | busyNodes
  /-- `time.time()` -/
  | time
deriving DecidableEq

/-- The jobs of a pool by `_jobs_by_pool_and_state`'s buckets. -/
structure JobCounts where
  pending : Nat
  scalePending : Nat
  running : Nat
deriving DecidableEq

abbrev Call.Answer : Call → Type
  | .command _ => Unit
  | .readStatefulSet => StatefulSet
  | .readAnnotationText _ => AnnotationValue  -- one that is absent reads as the empty text
  | .showNode _ => Option Nat  -- `none`: `scontrol` failed, or printed no number
  | .statCheckpoint _ => Int
  | .listJobs => JobCounts
  | .busyNodes => Nat
  | .time => ℚ

instance : ∀ c : Call, DecidableEq c.Answer
  | .command _ => inferInstanceAs (DecidableEq Unit)
  | .readStatefulSet => inferInstanceAs (DecidableEq StatefulSet)
  | .readAnnotationText _ => inferInstanceAs (DecidableEq AnnotationValue)
  | .showNode _ => inferInstanceAs (DecidableEq (Option Nat))
  | .statCheckpoint _ => inferInstanceAs (DecidableEq Int)
  | .listJobs => inferInstanceAs (DecidableEq JobCounts)
  | .busyNodes => inferInstanceAs (DecidableEq Nat)
  | .time => inferInstanceAs (DecidableEq ℚ)

abbrev interface : Interface := ⟨Call, Call.Answer⟩

/-- What a call raises: the API's exception, or any other. -/
inductive Exc where
  | api
  | other
deriving DecidableEq

/-- The operator's memory of one pool: the pool's item of each dictionary. -/
structure Memory where
  lastScaleActionAt : ℚ := 0
  provisioning : Option Provisioning := none
  provisioningRetryAt : Option ℚ := none
  /-- A set, as the list of its elements. -/
  drainingNodes : Option (List Int) := none
  drainingStarted : Option (Dict Int ℚ) := none
  checkpointMissingSince : Option ℚ := none
deriving DecidableEq

abbrev Op := Prog interface Exc Memory
abbrev OpEvent := Event interface Exc
abbrev OpEnv := Env interface Exc
abbrev OpState := State interface Exc Memory

/-- `range(a, b)`. -/
def range (a b : Int) : List Int := (List.range (b - a).toNat).map fun n : Nat => a + n

def perform (c : Command) : Op Unit := Prog.perform (I := interface) (.command c)

/-- `try: c except Exception: pass`. -/
def attempt (c : Command) : Op Unit := Prog.attempt (I := interface) (.command c)

def readStatefulSet : Op StatefulSet := Prog.perform (I := interface) .readStatefulSet
def readAnnotationText (name : Annotation) : Op AnnotationValue :=
  Prog.perform (I := interface) (.readAnnotationText name)
def showNode (node : Int) : Op (Option Nat) := Prog.perform (I := interface) (.showNode node)
def statCheckpoint (path : String) : Op Int := Prog.perform (I := interface) (.statCheckpoint path)
def listJobs : Op JobCounts := Prog.perform (I := interface) .listJobs
def listBusyNodes : Op Nat := Prog.perform (I := interface) .busyNodes
def time : Op ℚ := Prog.perform (I := interface) .time

namespace K8sClient

def getReadyReplicas : Op Int := do
  try
    let sts ← readStatefulSet
    pure (sts.readyReplicas.getD 0)
  catch
    | .api => pure 0
    | e => throw e

def getReplicas : Op Int := do
  try
    let sts ← readStatefulSet
    pure (sts.specReplicas.getD 0)
  catch
    | .api => pure 0
    | e => throw e

def getAnnotation (name : Annotation) : Op AnnotationValue := do
  try
    readAnnotationText name
  catch
    | .api => pure .cleared
    | e => throw e

def getNodeCpuAlloc (node : Int) : Op Nat := do
  let output ← showNode node
  pure (output.getD 0)

end K8sClient

namespace ClusterStateCollector

def getCheckpointAgeSeconds (checkpointPath : String) : Op (Option Int) := do
  if checkpointPath = "" then
    pure none
  else
    let age ← statCheckpoint checkpointPath
    pure (if age < 0 then none else some age)

/-- `collect_all_partition_states`, for the one pool. -/
def collectPartitionState (p : PartitionConfig) : Op PartitionState := do
  let jobs ← listJobs
  let currentReplicas ← K8sClient.getReplicas
  let busyNodes ← listBusyNodes
  pure {
    partition := p.partition
    workerStatefulset := p.workerStatefulset
    currentReplicas
    pendingJobs := jobs.pending
    runningJobs := jobs.running
    busyNodes
    scalePendingJobs := jobs.scalePending }

end ClusterStateCollector

end Kelpflux.Impl.Operator
