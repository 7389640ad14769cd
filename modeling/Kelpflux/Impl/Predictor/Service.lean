import Kelpflux.Framework.Double
import Kelpflux.Framework.Service
import Kelpflux.Impl.Predictor.Features

/-!
# The runtime predictor (`runtime_predictor/app.py`, `train.py`)

`/predict` and `/retrain`, over the model that the process holds and the model
files, for requests that are served one after the other. The gradient boosting
(`Booster`), the logarithm and its inverse are parameters; a trace and what the
file system raises (`Disk`) come with their request. The quality figures of a
model, its date, the latencies and the counters are left out.
-/

namespace Kelpflux.Impl.Predictor

open Framework Framework.Python

/-- The library: the model that is fitted to rows, with so many estimators, or
what the fit raises, and what a model predicts. -/
structure Booster (M K : Type) where
  fit : List (FeatureRow K × K) → Int → Except Exc M
  predict : M → FeatureRow K → ℚ

/-- What a model file holds, and what the process holds of it. -/
structure Bundle (M K : Type) where
  booster : M
  userStats : Dict String (UserStats K)
  modelVersion : String
  nTrain : Nat

/-- A model file, which may have been cut short. -/
inductive ModelFile (M K : Type) where
  | whole (bundle : Bundle M K)
  | cut

/-- The model files, by their paths. -/
abbrev Files (M K : Type) := Dict String (ModelFile M K)

/-- What a move that raises leaves at the path it moves to: what was there, or a
copy. -/
inductive Remains where
  | before
  | cut
  | copy

/-- What the file system does while a model is saved and loaded: whether it can
read the file before, and what it raises at each of the steps, if it is come to. -/
structure Disk where
  readable : Bool := true
  makedirs : Option Exc := none
  move : Option (Exc × Remains) := none
  opened : Option Exc := none
  dump : Option Exc := none
  load : Option Exc := none

structure Settings where
  modelPath : String := "/models/predictor.pkl"
  minTrainSamples : Int := 100
  bootstrapFloorSeconds : ℚ := 4 * 3600

structure PredictRequest where
  user : String := "anon"
  partition : String := "gpu"
  gpuCount : Int := 1
  mpsReq : Int := 4
  gpuType : String := "rtx4070"
  submitTs : PyFloat := .fin 0
  userTimeLimitSeconds : Option ℚ := none

/-- Without the latency. -/
structure PredictResponse where
  predSeconds : ℚ
  predMinutes : ℚ
  modelVersion : String
  bootstrap : Bool

/-- With what its trace's file holds, or why that cannot be read, and with what
the file system does meanwhile. -/
structure RetrainRequest where
  trace : Except Exc (List JobDict)
  tracePath : String
  output : Option String := none
  holdoutFrac : ℚ := 1 / 5
  nEstimators : Int := 200
  rotate : Bool := true
  disk : Disk := {}

inductive Request where
  | predict (req : PredictRequest)
  | retrain (req : RetrainRequest)

inductive Answer where
  | predict (r : PredictResponse)
  /-- `n_train` and `n_test` of the metrics, and the version. -/
  | retrain (nTrain nTest : Nat) (modelVersion : String)

/-- What `HOLDER` has, if it has loaded a file, and the model files. -/
structure Process (M K : Type) where
  holder : Option (Bundle M K)
  files : Files M K

/-- The version of a number. -/
def versionOf (n : Int) : String := "lgbm-v" ++ toString n

section Train

variable {M K : Type} (rt : Runtime)

/-- `_next_version` -/
def nextVersion (disk : Disk) (files : Files M K) (output : String) : String :=
  match files.get? output with
  | some (.whole prev) =>
    if disk.readable then
      -- `rsplit("v", 1)[-1]`
      match rt.int (String.ofList ((pieces (· == 'v') prev.modelVersion.toList).getLastD [])) with
      | some n => versionOf (n + 1)
      | none => "lgbm-v1"
    else "lgbm-v1"
  | _ => "lgbm-v1"

/-- Where `_split_time_honest` cuts `n` rows: a cut below zero counts from the end. -/
def cutAt (n : Nat) (holdoutFrac : ℚ) : Nat :=
  let share := toDouble (n * toDouble (1 - holdoutFrac))
  let cut := share.num.tdiv share.den
  if cut < 0 then (n + cut).toNat else cut.toNat

/-- What a move of `old` that raises leaves of the files. -/
def Remains.left (files : Files M K) (backup : String) (old : ModelFile M K) : Remains → Files M K
  | .before => files
  | .cut => files.set backup .cut
  | .copy => files.set backup old

/-- `shutil.move(output, output + ".bak")`, if there is a file to rotate. -/
def moveAway (disk : Disk) (files : Files M K) (output : String) (rotate : Bool) :
    Except Exc Unit × Files M K :=
  match files.get? output with
  | some old =>
    if rotate then
      match disk.move with
      | none => (.ok (), (files.erase output).set (output ++ ".bak") old)
      | some (e, remains) => (.error e, remains.left files (output ++ ".bak") old)
    else (.ok (), files)
  | none => (.ok (), files)

/-- `open` and `pickle.dump`: a file that was opened is empty until it is written. -/
def writeBundle (disk : Disk) (files : Files M K) (output : String) (bundle : Bundle M K) :
    Except Exc Unit × Files M K :=
  match disk.opened, disk.dump with
  | some e, _ => (.error e, files)
  | none, some e => (.error e, files.set output .cut)
  | none, none => (.ok (), files.set output (.whole bundle))

/-- The end of `train`, from `os.makedirs` on. -/
def save (disk : Disk) (files : Files M K) (output : String) (rotate : Bool)
    (bundle : Bundle M K) : Except Exc Unit × Files M K :=
  match disk.makedirs with
  | some e => (.error e, files)
  | none =>
    match moveAway disk files output rotate with
    | (.error e, files) => (.error e, files)
    | (.ok (), files) => writeBundle disk files output bundle

variable [Field K] (log1p : ℚ → K) (lgb : Booster M K)

/-- `train`, up to the bundle: the model and the size of its test set. -/
def trainBundle (files : Files M K) (output : String) (req : RetrainRequest) :
    Except Exc (Bundle M K × Nat) := do
  let jobs ← req.trace
  if jobs = [] then .error (.valueError (s!"trace {req.tracePath} is empty"))
  else if jobs.any fun j => j.submitTs.isNone then .error .keyError
  else do
    let jobs := submitOrder jobs
    let df ← buildTrainingFrame log1p jobs
    let cut := cutAt df.length req.holdoutFrac
    let trainDf := df.take cut
    let testDf := df.drop cut
    if trainDf.length < 50 || testDf.length < 5 then
      .error (.valueError ("too few samples for time-honest split: "
        ++ s!"n_train={trainDf.length} n_test={testDf.length}"))
    else do
      let booster ← lgb.fit trainDf req.nEstimators
      let userStats ← aggregateUserStats log1p (jobs.take cut)
      return (⟨booster, userStats, nextVersion rt req.disk files output, trainDf.length⟩,
        testDf.length)

/-- `train`: the model and the size of its test set, and the files. -/
def train (files : Files M K) (output : String) (req : RetrainRequest) :
    Except Exc (Bundle M K × Nat) × Files M K :=
  match trainBundle rt log1p lgb files output req with
  | .error e => (.error e, files)
  | .ok (bundle, nTest) =>
    match save req.disk files output req.rotate bundle with
    | (.error e, files) => (.error e, files)
    | (.ok (), files) => (.ok (bundle, nTest), files)

end Train

section App

variable {M K : Type} [Field K] (settings : Settings) (rt : Runtime) (log1p : ℚ → K)
  (expm1 : ℚ → ℚ) (lgb : Booster M K)

/-- `is_ready` -/
def Process.isReady (s : Process M K) : Bool :=
  match s.holder with
  | none => false
  | some model => model.nTrain ≥ settings.minTrainSamples

def PredictRequest.toJob (req : PredictRequest) : JobDict where
  user := some req.user
  gpuType := some req.gpuType
  partition := some req.partition
  gpuCount := some req.gpuCount
  mpsReq := some req.mpsReq
  submitTs := some req.submitTs

/-- The answer while there is no model to use. -/
def bootstrapAnswer (req : PredictRequest) : PredictResponse :=
  let ceiling := match req.userTimeLimitSeconds with
    | some limit => if limit ≠ 0 then limit else settings.bootstrapFloorSeconds
    | none => settings.bootstrapFloorSeconds
  let predS := min ceiling settings.bootstrapFloorSeconds
  { predSeconds := predS
    predMinutes := predS / 60
    modelVersion := "bootstrap"
    bootstrap := true }

/-- The answer of a model. -/
def modelAnswer (model : Bundle M K) (req : PredictRequest) : PredictResponse :=
  let row := makeInferenceRow req.toJob (model.userStats.get? req.user)
  let predS := min (expm1 (max 0 (lgb.predict model.booster row))) (24 * 3600)
  { predSeconds := predS
    predMinutes := predS / 60
    modelVersion := model.modelVersion
    bootstrap := false }

def Process.predict (s : Process M K) (req : PredictRequest) : PredictResponse :=
  match s.holder with
  | some model =>
    if s.isReady settings then modelAnswer expm1 lgb model req else bootstrapAnswer settings req
  | none => bootstrapAnswer settings req

/-- `req.output or MODEL_PATH` -/
def RetrainRequest.out (req : RetrainRequest) : String :=
  match req.output with
  | some out => if out ≠ "" then out else settings.modelPath
  | none => settings.modelPath

/-- `HOLDER.model_version` -/
def Process.modelVersion (s : Process M K) : String :=
  match s.holder with
  | some model => model.modelVersion
  | none => "bootstrap"

/-- `HOLDER.load`, and what it raises of a whole file. -/
def Process.load (s : Process M K) (path : String) (raised : Option Exc) :
    Except Exc Bool × Process M K :=
  match s.files.get? path with
  | none => (.ok false, s)
  | some .cut => (.error (.other "UnpicklingError"), s)
  | some (.whole bundle) =>
    match raised with
    | some e => (.error e, s)
    | none => (.ok true, { s with holder := some bundle })

/-- `retrain`; the error is that of the status 500. -/
def Process.retrain (s : Process M K) (req : RetrainRequest) : Except Exc Answer × Process M K :=
  match train rt log1p lgb s.files (req.out settings) req with
  | (.error e, files) => (.error e, { s with files := files })
  | (.ok (bundle, nTest), files) =>
    match Process.load { s with files := files } (req.out settings) req.disk.load with
    | (.error e, s) => (.error e, s)
    | (.ok _, s) => (.ok (.retrain bundle.nTrain nTest s.modelVersion), s)

/-- The process's reply to a request, and the process after it. -/
def Process.serve : Service (Process M K) Request Exc Answer := fun s x =>
  match x with
  | .predict req => (.ok (.predict (s.predict settings expm1 lgb req)), s)
  | .retrain req => s.retrain settings rt log1p lgb req

/-- The process at its start: `HOLDER.load(MODEL_PATH)`. -/
def Process.start (files : Files M K) : Except Exc (Process M K) :=
  match Process.load ⟨none, files⟩ settings.modelPath none with
  | (.error e, _) => .error e
  | (.ok _, s) => .ok s

end App

end Kelpflux.Impl.Predictor
