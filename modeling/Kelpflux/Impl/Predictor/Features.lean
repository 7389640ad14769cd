import Kelpflux.Framework.Python
import Mathlib.Algebra.Order.Field.Basic
import Mathlib.Data.Rat.Floor

/-!
# The runtime predictor's features (`runtime_predictor/features.py`)

The frame that a model is trained on, the row of a request and the statistics of
users, in exact arithmetic. A job is a dictionary that may lack any of its keys;
the logarithm of its runtime is a number of any field.
-/

namespace Kelpflux.Impl.Predictor

open Framework Framework.Python

def gpuTypes : List String := ["rtx4070", "rtx3080", "other"]

def partitions : List String := ["cpu", "gpu", "debug", "other"]

/-- The keys of a job's dictionary that are read. -/
structure JobDict where
  user : Option String := none
  gpuType : Option String := none
  partition : Option String := none
  gpuCount : Option Int := none
  mpsReq : Option Int := none
  submitTs : Option PyFloat := none
  runtime : Option ℚ := none

structure UserStats (K : Type) where
  n : Nat
  meanLogRt : K

/-- A row, by `FEATURE_COLS`. -/
structure FeatureRow (K : Type) where
  gpuCount : Int
  mpsReq : Int
  hourOfWeek : Int
  userFreq : Nat
  userMeanLogRt : K
  gpuType : List Nat
  partition : List Nat

/-- `_bucket` -/
def bucket (value : String) (alphabet : List String) : String :=
  if value ∈ alphabet then value else "other"

/-- `_onehot_row` -/
def onehotRow (value : String) (alphabet : List String) : List Nat :=
  let bucket := bucket value alphabet
  alphabet.map fun a => if a = bucket then 1 else 0

/-- `_hour_of_week` -/
def hourOfWeek : PyFloat → Int
  | .fin ts => ⌊ts / 3600⌋ % 168
  | _ => 0

/-- `j.get("user", "anon")` -/
def JobDict.userKey (j : JobDict) : String := j.user.getD "anon"

section

variable {K : Type} [Field K] (log1p : ℚ → K)

/-- `log1p(max(0.0, float(runtime)))` -/
def logRuntime (runtime : ℚ) : K := log1p (max 0 runtime)

/-- What `build_training_frame` has so far: the rows with their targets, and its
two dictionaries. -/
structure Frame (K : Type) where
  rows : List (FeatureRow K × K) := []
  userN : Dict String Nat := []
  userSumLogRt : Dict String K := []

/-- One round of its loop. -/
def Frame.push (frame : Frame K) (j : JobDict) : Except Exc (Frame K) :=
  let user := j.userKey
  let n := (frame.userN.get? user).getD 0
  let meanLog := if n > 0 then (frame.userSumLogRt.get? user).getD 0 / n else 0
  let gpuType := bucket (j.gpuType.getD "other").toLower gpuTypes
  let partition := bucket (j.partition.getD "gpu").toLower partitions
  match j.gpuCount, j.runtime with
  | some gpuCount, some runtime =>
    let row : FeatureRow K :=
      { gpuCount := gpuCount
        mpsReq := j.mpsReq.getD 4
        hourOfWeek := hourOfWeek (j.submitTs.getD (.fin 0))
        userFreq := n
        userMeanLogRt := meanLog
        gpuType := onehotRow gpuType gpuTypes
        partition := onehotRow partition partitions }
    let target := logRuntime log1p runtime
    .ok
      { rows := frame.rows ++ [(row, target)]
        userN := frame.userN.set user (n + 1)
        userSumLogRt := frame.userSumLogRt.set user
          ((frame.userSumLogRt.get? user).getD 0 + target) }
  | _, _ => .error .keyError

/-- `sorted(jobs, key=lambda j: j["submit_ts"])`, of jobs that have the key. -/
def submitOrder (jobs : List JobDict) : List JobDict :=
  sortedBy (fun j => j.submitTs.getD (.fin 0)) jobs

/-- `build_training_frame`: the rows and the targets. -/
def buildTrainingFrame (jobs : List JobDict) : Except Exc (List (FeatureRow K × K)) := do
  if jobs.any fun j => j.submitTs.isNone then throw .keyError
  let frame ← (submitOrder jobs).foldlM (Frame.push log1p) {}
  return frame.rows

/-- `make_inference_row` -/
def makeInferenceRow (req : JobDict) (userStats : Option (UserStats K)) : FeatureRow K :=
  let n := match userStats with
    | some stats => stats.n
    | none => 0
  let meanLog := match userStats with
    | some stats => stats.meanLogRt
    | none => 0
  let gpuType := bucket (req.gpuType.getD "other").toLower gpuTypes
  let partition := bucket (req.partition.getD "gpu").toLower partitions
  { gpuCount := req.gpuCount.getD 1
    mpsReq := req.mpsReq.getD 4
    hourOfWeek := hourOfWeek (req.submitTs.getD (.fin 0))
    userFreq := n
    userMeanLogRt := meanLog
    gpuType := onehotRow gpuType gpuTypes
    partition := onehotRow partition partitions }

/-- The loop of `aggregate_user_stats`. -/
def tallyUser (sums : Dict String Nat × Dict String K) (j : JobDict) :
    Except Exc (Dict String Nat × Dict String K) :=
  let user := j.userKey
  match j.runtime with
  | some runtime => .ok
      (sums.1.set user ((sums.1.get? user).getD 0 + 1),
        sums.2.set user ((sums.2.get? user).getD 0 + logRuntime log1p runtime))
  | none => .error .keyError

/-- `aggregate_user_stats` -/
def aggregateUserStats (jobs : List JobDict) : Except Exc (Dict String (UserStats K)) := do
  let (n, s) ← jobs.foldlM (tallyUser log1p) ([], [])
  return n.map fun un => (un.1, ⟨un.2, (s.get? un.1).getD 0 / un.2⟩)

end

end Kelpflux.Impl.Predictor
