import Kelpflux.Framework.Python

/-!
# The operator's Slurm client (`operator/slurm.py`)

What `SlurmRestClient` makes of the records that slurmrestd answers with.
-/

namespace Kelpflux.Impl.Operator

open Framework Framework.Python

/-- The fields of a job that the collector reads, whatever they came from. -/
structure JobFields where
  nodeList : String
  features : String
  tresPerNode : String
  reason : String
deriving DecidableEq

/-- A field that slurmrestd gives as a text or a list. -/
inductive TextOrList where
  | text (s : String)
  | list (xs : List String)

/-- A job of slurmrestd; a text that is `null` or absent is `none`. -/
structure RestJob where
  jobState : String
  partition : String
  nodes : Option String
  features : Option TextOrList
  tresPerNode : Option String
  stateReason : Option String
  reason : Option String

/-- `v or d` of a text. -/
def orText (v : Option String) (d : String) : String :=
  match v with
  | some s => if s = "" then d else s
  | none => d

def activeStates : List String := ["PENDING", "RUNNING", "COMPLETING"]

namespace SlurmRestClient

/-- `list_jobs`, of the jobs that slurmrestd answers with. -/
def listJobs (jobs : List RestJob) (partition : String) : List RestJob :=
  jobs.filter fun j => j.partition = partition && j.jobState ∈ activeStates

/-- `_normalize_job` -/
def normalizeJob (job : RestJob) : JobFields where
  nodeList := orText job.nodes "(null)"
  features := match job.features with
    | some (.list xs) => joinComma xs
    | some (.text s) => s
    | none => ""
  tresPerNode :=
    let tres := orText job.tresPerNode ""
    if tres ∈ ["N/A", "none", "None"] then "" else tres
  reason := orText job.stateReason (orText job.reason "")

/-- `_BUSY_STATES` -/
def busyStates : List String := ["allocated", "mixed", "completing"]

/-- `raw.lower()` -/
def lowerText : Json → Except Python.Exc String
  | .str s => .ok (lower s)
  | _ => .error .attributeError

/-- `_node_states` -/
def nodeStates (node : Json) : Except Python.Exc (List String) := do
  match ← node.getD "state" (.str "") with
  | .arr xs => xs.mapM lowerText
  | raw => if raw.truthy then return [← lowerText raw] else return []

end SlurmRestClient

end Kelpflux.Impl.Operator
