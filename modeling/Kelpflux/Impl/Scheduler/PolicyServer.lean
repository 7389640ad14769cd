import Kelpflux.Framework.Service
import Kelpflux.Impl.Scheduler.Serve

/-!
# The policy server (`rl_scheduler/serve.py`)

The endpoints as they change what the server holds: the model, the last
snapshot, the shadow mode and the metrics. A request comes with the time, its
`Authorization` header, the span's traceparent and the checkpoints there are.
-/

namespace Kelpflux.Impl.Scheduler.Serve

open Framework Framework.Python Sim

/-- An agent, loaded from a checkpoint. -/
structure Model (F : Type) where
  obsDim : Nat
  nActions : Nat
  /-- `none` where the agent has no such attribute, and so `riskMode`. -/
  useIqn : Option Bool
  riskMode : Option String
  select : ActRequest F → List Bool → Except Exc (Nat × F × F)

/-- The model as it is asked. -/
def Model.holder {F : Type} (m : Model F) : Holder F where
  obsDim := some m.obsDim
  nActions := some m.nActions
  select := m.select

/-- `_variant_of` -/
def variantOf {F : Type} (m : Model F) : String :=
  if m.useIqn.getD true then "RDSAC:" ++ m.riskMode.getD "mean" else "SAC"

/-! ## Metrics -/

/-- The label of a decision. -/
inductive Result where
  | selected
  | noBoost
  | abstain
deriving DecidableEq

/-- What the server exports. A gauge that is 1.0 or 0.0 is a Boolean. -/
structure Metrics (F : Type) where
  /-- `RL_DECISIONS` -/
  decisions : Result → Nat := fun _ => 0
  priorityBoosts : Nat := 0
  policyValue : F
  policyEntropy : F
  snapshotAge : F
  snapshotPending : Nat := 0
  snapshotFreeMps : Int := 0
  lastPriorityBoost : Int := 0
  lastAction : Int := 0
  lastJobIndex : Int := 0
  lastNodeIndex : Int := 0
  lastGpuIndex : Int := 0
  shadowMode : Bool := false
  ready : Bool := false

/-- The arguments of `_set_last_decision`. -/
structure Decision (F : Type) where
  result : Result
  value : F
  entropy : F
  boost : Int
  action : Int := -1
  jobI : Int := -1
  nodeJ : Int := -1
  gpuK : Int := -1

/-- `_set_last_decision` -/
def Metrics.setLastDecision {F : Type} (m : Metrics F) (d : Decision F) : Metrics F :=
  { m with
    decisions := fun result =>
      if result = d.result then m.decisions result + 1 else m.decisions result
    priorityBoosts := if d.boost > 0 then m.priorityBoosts + 1 else m.priorityBoosts
    policyValue := d.value
    policyEntropy := d.entropy
    lastPriorityBoost := d.boost
    lastAction := d.action
    lastJobIndex := d.jobI
    lastNodeIndex := d.nodeJ
    lastGpuIndex := d.gpuK }

/-! ## The server and its requests -/

/-- The tokens that are configured. -/
structure Tokens where
  api : Option (List UInt8)
  snapshot : Option (List UInt8)
  control : Option (List UInt8)

structure Server (F : Type) where
  /-- `SHADOW_MODE` is the one of the settings that changes. -/
  settings : Settings F
  /-- `_holder` -/
  model : Option (Model F)
  /-- `_snapshot` -/
  snapshot : Option (Snapshot F) := none
  metrics : Metrics F

inductive Request (F : Type) where
  | healthz
  | metrics
  /-- The checkpoint, as its `Path` writes it. -/
  | reload (checkpoint : String)
  | shadow (shadow : Bool)
  | snapshot (snap : Snapshot F)
  | act (req : ActRequest F)
  | decide (req : DecideRequest F)

/-- A request as it arrives. -/
structure Input (F : Type) where
  /-- `time.time()` -/
  time : F
  authorization : Option String := none
  /-- `_decide_traceparent` -/
  traceparent : String := ""
  /-- The checkpoints that exist, and the agents that loading them gives. -/
  files : String → Option (Except String (Model F)) := fun _ => none
  request : Request F

inductive Answer (F : Type) where
  | healthz (ready : Bool) (variant : Option String) (obsDim nActions : Option Nat)
      (snapshotAgeS : Option F) (shadowMode : Bool)
  | metrics (m : Metrics F)
  | reload (variant : String) (obsDim nActions : Nat) (useIqn : Bool) (riskMode : Option String)
      (checkpoint : String)
  | shadow (shadowMode : Bool)
  | snapshot (ts : F) (pending nodes : Nat)
  | act (r : ActResponse F)
  | decide (r : DecideResponse F)

inductive Refusal where
  /-- `HTTPException` -/
  | http (status : Nat) (detail : String)
  /-- What else is raised, which is answered by 500. -/
  | raised (e : Exc)

/-- `_authorize` -/
def authorize (expected : Option (List UInt8)) (authorization : Option String) :
    Except Refusal Unit :=
  match expected with
  | none => .ok ()
  | some token =>
    match splitMax ' ' 1 (authorization.getD "").toList with
    | [scheme, supplied] =>
      if lower (String.ofList scheme) ≠ "bearer" ||
          (String.ofList supplied).toUTF8.data.toList ≠ token then
        .error (.http 401 "unauthorized")
      else .ok ()
    | _ => .error (.http 401 "unauthorized")

namespace Server

section Endpoints

variable {F : Type} (fl : Floats F) (s : Server F) (time : F)

/-- `snap_age` -/
def snapAge : Option F := s.snapshot.map fun snap => fl.sub time snap.ts

/-- `RL_SNAPSHOT_AGE` set to the age, where there is one. -/
def setSnapshotAge (age : Option F) : Server F :=
  { s with metrics := { s.metrics with snapshotAge := age.getD s.metrics.snapshotAge } }

def setLastDecision (d : Decision F) : Server F :=
  { s with metrics := s.metrics.setLastDecision d }

def healthz : Answer F × Server F :=
  let s' := s.setSnapshotAge (s.snapAge fl time)
  (.healthz s.model.isSome (s.model.map variantOf) (s.model.map Model.obsDim)
      (s.model.map Model.nActions) (s.snapAge fl time) s.settings.shadowMode,
    { s' with metrics := { s'.metrics with ready := s.model.isSome } })

/-- `metrics` -/
def exportMetrics : Answer F × Server F :=
  let s' := s.setSnapshotAge (s.snapAge fl time)
  (.metrics s'.metrics, s')

/-- `reload_checkpoint` -/
def reloadCheckpoint (files : String → Option (Except String (Model F))) (ckpt : String) :
    Except Refusal (Answer F) × Server F :=
  match files ckpt with
  | none => (.error (.http 404 ("checkpoint not found: " ++ ckpt)), s)
  | some (.error exc) => (.error (.http 400 ("failed to load checkpoint: " ++ exc)), s)
  | some (.ok new) =>
    let swap : Except Refusal (Answer F) × Server F :=
      (.ok (.reload (variantOf new) new.obsDim new.nActions (new.useIqn.getD true) new.riskMode ckpt),
        { s with model := some new, metrics := { s.metrics with ready := true } })
    match s.model with
    | none => swap
    | some old =>
      if new.obsDim ≠ old.obsDim || new.nActions ≠ old.nActions then
        (.error (.http 400 (s!"dim mismatch: new obs/actions {new.obsDim}/{new.nActions} != current "
          ++ s!"{old.obsDim}/{old.nActions}; kept current model")), s)
      else swap

def setShadow (shadow : Bool) : Answer F × Server F :=
  (.shadow shadow,
    { s with
      settings := { s.settings with shadowMode := shadow }
      metrics := { s.metrics with shadowMode := shadow } })

def pushSnapshot (snap : Snapshot F) : Answer F × Server F :=
  (.snapshot snap.ts snap.pendingJobs.length snap.nodes.length,
    { s with
      snapshot := some snap
      metrics := { s.metrics with
        snapshotAge := fl.zero
        snapshotPending := snap.pendingJobs.length
        snapshotFreeMps :=
          (snap.nodes.flatMap fun node => node.gpus.map fun g => g.freeMps).sum } })

def act (req : ActRequest F) : Except Refusal (ActResponse F) :=
  match s.model with
  | none => .error (.http 503 "model not loaded")
  | some model =>
    let (obsDim, nActions) := envDims req.nNodes req.gpusPerNode
    if obsDim ≠ model.obsDim || nActions ≠ model.nActions then
      .error (.http 409 (s!"topology mismatch: obs/actions {obsDim}/{nActions} " ++
        s!"!= {model.obsDim}/{model.nActions}"))
    else match model.select req (req.mask fl.lt) with
      | .error e => .error (.raised e)
      | .ok (action, value, entropy) =>
        if action ≠ Sim.topK * req.nPlacements && req.nPlacements = 0 then
          .error (.raised (.other "integer division or modulo by zero"))
        else .ok (req.respond fl.lt action value entropy)

/-- What an answer that abstains before the model is asked records. -/
def abstained : Decision F where
  result := .abstain
  value := fl.zero
  entropy := fl.zero
  boost := 0

/-- What an answer to an action of the model records. -/
def decisionOf (actReq : ActRequest F) (action : Nat) (r : DecideResponse F) : Decision F :=
  if action = Sim.topK * actReq.nPlacements then
    { result := .noBoost
      value := r.value
      entropy := r.entropy
      boost := 0
      action := action }
  else
    let jobI := action / actReq.nPlacements
    let rem := action % actReq.nPlacements
    { result := if r.abstain then .abstain else if r.priorityBoost > 0 then .selected else .noBoost
      value := r.value
      entropy := r.entropy
      boost := r.priorityBoost
      action := action
      jobI := if r.abstain then -1 else jobI
      nodeJ := if r.abstain then -1 else (rem / actReq.gpusPerNode : Nat)
      gpuK := if r.abstain then -1 else (rem % actReq.gpusPerNode : Nat) }

/-- `decide`, with what it records. -/
def decide (traceparent : String) (req : DecideRequest F) :
    Except Refusal (DecideResponse F) × Server F :=
  let tp := if traceparent = "" then none else some traceparent
  match freshSnapshot fl s.settings time s.snapshot with
  | .error reason =>
    (.ok (abstainFor fl s.settings tp reason),
      (s.setLastDecision (abstained fl)).setSnapshotAge (s.snapAge fl time))
  | .ok snap =>
    if snap.nNodes = 0 || snap.nodes.isEmpty then
      (.ok (abstainFor fl s.settings tp "no_available_gpu_nodes"), s.setLastDecision (abstained fl))
    else
      let actReq := fuse fl snap req
      match shapeMismatch (s.model.map Model.holder) actReq, s.model with
      | some reason, _ =>
        (.ok (abstainFor fl s.settings tp reason), s.setLastDecision (abstained fl))
      | none, none => (.error (.raised .attributeError), s)
      | none, some model =>
        match model.select actReq (actReq.mask fl.lt) with
        | .error e => (.error (.raised e), s)
        | .ok (action, value, entropy) =>
          match decideAction fl s.settings tp actReq req.jobId action value entropy with
          | .error e => (.error (.raised e), s)
          | .ok r => (.ok r, s.setLastDecision (decisionOf actReq action r))

end Endpoints

/-- A request that needs a token. -/
def guarded {F : Type} (s : Server F) (token : Option (List UInt8)) (authorization : Option String)
    (endpoint : Except Refusal (Answer F) × Server F) : Except Refusal (Answer F) × Server F :=
  match authorize token authorization with
  | .error e => (.error e, s)
  | .ok () => endpoint

/-- The server's reply to a request, and the server after it. -/
def serve {F : Type} (fl : Floats F) (tokens : Tokens) :
    Service (Server F) (Input F) Refusal (Answer F) := fun s x =>
  match x.request with
  | .healthz => ((s.healthz fl x.time).map .ok id)
  | .metrics => ((s.exportMetrics fl x.time).map .ok id)
  | .reload ckpt => s.guarded tokens.control x.authorization (s.reloadCheckpoint x.files ckpt)
  | .shadow shadow => s.guarded tokens.control x.authorization ((s.setShadow shadow).map .ok id)
  | .snapshot snap => s.guarded tokens.snapshot x.authorization ((s.pushSnapshot fl snap).map .ok id)
  | .act req => s.guarded tokens.api x.authorization ((s.act fl req).map .act, s)
  | .decide req =>
    s.guarded tokens.api x.authorization
      ((s.decide fl x.time x.traceparent req).map (·.map .decide) id)

/-- The server when it starts to serve (`main`), or as it is imported, with no
model. -/
def start {F : Type} (fl : Floats F) (settings : Settings F) (model : Option (Model F)) :
    Server F where
  settings := settings
  model := model
  metrics :=
    { policyValue := fl.zero
      policyEntropy := fl.zero
      snapshotAge := fl.zero
      shadowMode := settings.shadowMode
      ready := model.isSome }

end Server

end Kelpflux.Impl.Scheduler.Serve
