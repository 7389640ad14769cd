import Kelpflux.Impl.Scheduler.PolicyServer
import Kelpflux.Proof.Scheduler.Decide

/-!
# What the policy server holds

A request that is refused, or in which something is raised, leaves the server
as it is (`serve_refused`). The others write a part each: the model is that of
the last `/reload` that went through, the snapshot that of the last `/snapshot`,
the shadow mode that of the last `/shadow` (`serve_model`, `serve_snapshot`,
`serve_shadow`), and the metrics record each answer of `/decide` once
(`Recorded`).
-/

namespace Kelpflux.Proof.Scheduler

open Framework Framework.Python Impl.Scheduler.Serve

variable {F : Type} {fl : Floats F} {tokens : Tokens} {s : Server F} {x : Input F}

/-! ## `/decide` -/

section Decide

variable {time : F} {traceparent : String} {req : DecideRequest F}

/-- The label under which an answer is counted. -/
def resultOf (r : DecideResponse F) : Result :=
  if r.abstain then .abstain else if r.priorityBoost > 0 then .selected else .noBoost

/-- What `/decide` answers is recorded, and nothing else is. -/
inductive Decides (fl : Floats F) (s : Server F) :
    Except Refusal (DecideResponse F) × Server F → Prop where
  | abstained (tp : Option String) (reason : String) (age : Option F) :
      Decides fl s (.ok (abstainFor fl s.settings tp reason),
        (s.setLastDecision (Server.abstained fl)).setSnapshotAge age)
  | raised (e : Refusal) : Decides fl s (.error e, s)
  | acted {tp : Option String} {actReq : ActRequest F} {jobId : String} {action : ℕ}
      {value entropy : F} {r : DecideResponse F}
      (h : decideAction fl s.settings tp actReq jobId action value entropy = .ok r) :
      Decides fl s (.ok r, s.setLastDecision (Server.decisionOf actReq action r))

theorem decides (fl : Floats F) (s : Server F) (time : F) (traceparent : String)
    (req : DecideRequest F) : Decides fl s (s.decide fl time traceparent req) := by
  unfold Server.decide
  dsimp only
  cases freshSnapshot fl s.settings time s.snapshot with
  | error reason => exact .abstained _ _ _
  | ok snap =>
    dsimp only
    split
    · exact .abstained _ _ none
    split
    · exact .abstained _ _ none
    · exact .raised _
    rename_i model _ _
    cases model.select (fuse fl snap req) ((fuse fl snap req).mask fl.lt) with
    | error e => exact .raised _
    | ok out =>
      dsimp only
      cases h : decideAction fl s.settings (if traceparent = "" then none else some traceparent)
          (fuse fl snap req) req.jobId out.1 out.2.1 out.2.2 with
      | error e => exact .raised _
      | ok r => exact .acted h

/-- The answer is that of `decide` as it is without the server. -/
theorem decide_answer : (s.decide fl time traceparent req).1 =
    (Impl.Scheduler.Serve.decide fl s.settings (s.model.map Model.holder) time s.snapshot
      traceparent req).mapError .raised := by
  unfold Server.decide Impl.Scheduler.Serve.decide
  dsimp only
  cases freshSnapshot fl s.settings time s.snapshot with
  | error reason => rfl
  | ok snap =>
    dsimp only
    split
    · rfl
    cases hmodel : s.model with
    | none => rfl
    | some model =>
      dsimp only [Option.map_some]
      cases shapeMismatch (some model.holder) (fuse fl snap req) with
      | some reason => rfl
      | none =>
        dsimp only [Model.holder]
        cases model.select (fuse fl snap req) ((fuse fl snap req).mask fl.lt) with
        | error e => rfl
        | ok out =>
          dsimp only [bind, Except.bind]
          cases decideAction fl s.settings (if traceparent = "" then none else some traceparent)
              (fuse fl snap req) req.jobId out.1 out.2.1 out.2.2 with
          | error e => rfl
          | ok r => rfl

/-- What is recorded of an answer is what the answer says. -/
structure Records (d : Decision F) (r : DecideResponse F) : Prop where
  result : d.result = resultOf r
  value : d.value = r.value
  entropy : d.entropy = r.entropy
  boost : d.boost = r.priorityBoost
  nodeJ : d.nodeJ = (r.nodeJ.map Nat.cast).getD (-1)
  gpuK : d.gpuK = (r.gpuK.map Nat.cast).getD (-1)

theorem records_abstained (fl : Floats F) (settings : Settings F) (tp : Option String)
    (reason : String) :
    Records (Server.abstained fl) (abstainFor fl settings tp reason) :=
  ⟨rfl, rfl, rfl, rfl, rfl, rfl⟩

theorem records_action {settings : Settings F} {tp : Option String} {actReq : ActRequest F}
    {jobId : String} {action : ℕ} {value entropy : F} {r : DecideResponse F}
    (h : decideAction fl settings tp actReq jobId action value entropy = .ok r) :
    Records (Server.decisionOf actReq action r) r := by
  unfold decideAction at h
  unfold Server.decisionOf
  split at h
  · rename_i hnoOp
    obtain rfl := Except.ok.inj h
    rw [if_pos hnoOp]
    exact ⟨rfl, rfl, rfl, rfl, rfl, rfl⟩
  · rename_i hnoOp
    rw [if_neg hnoOp]
    split at h
    · cases h
    obtain rfl := Except.ok.inj h
    refine ⟨rfl, rfl, rfl, rfl, ?_, ?_⟩
    · dsimp only
      cases safetyNet fl settings value entropy with
      | none => rfl
      | some reason => rfl
    · dsimp only
      cases safetyNet fl settings value entropy with
      | none => rfl
      | some reason => rfl

/-- `/decide` changes the metrics alone. -/
theorem decide_frame (fl : Floats F) (s : Server F) (time : F) (traceparent : String)
    (req : DecideRequest F) :
    ∃ m, (s.decide fl time traceparent req).2 = { s with metrics := m } := by
  generalize h : s.decide fl time traceparent req = out
  have hout := decides fl s time traceparent req
  rw [h] at hout
  cases hout with
  | abstained => exact ⟨_, rfl⟩
  | raised => exact ⟨_, rfl⟩
  | acted => exact ⟨_, rfl⟩

end Decide

/-! ## What a request changes -/

/-- A request that needs a token is let in, or is refused. -/
theorem guarded_cases (token : Option (List UInt8)) (authorization : Option String)
    (endpoint : Except Refusal (Answer F) × Server F) :
    (authorize token authorization = .ok () ∧ s.guarded token authorization endpoint = endpoint) ∨
    (∃ e, authorize token authorization = .error e ∧
      s.guarded token authorization endpoint = (.error e, s)) := by
  unfold Server.guarded
  cases h : authorize token authorization with
  | ok => exact .inl ⟨rfl, rfl⟩
  | error e => exact .inr ⟨e, rfl, rfl⟩

/-- `/reload` changes nothing, or takes the checkpoint's agent, of the size of
the one before. -/
theorem reloadCheckpoint_cases (s : Server F) (files : String → Option (Except String (Model F)))
    (ckpt : String) : (∃ e, s.reloadCheckpoint files ckpt = (.error e, s)) ∨
      ∃ new answer, files ckpt = some (.ok new) ∧
        (∀ old ∈ s.model, new.obsDim = old.obsDim ∧ new.nActions = old.nActions) ∧
        s.reloadCheckpoint files ckpt = (.ok answer,
          { s with model := some new, metrics := { s.metrics with ready := true } }) ∧
        (∀ r, answer ≠ .decide r) := by
  unfold Server.reloadCheckpoint
  cases hfile : files ckpt with
  | none => exact .inl ⟨_, rfl⟩
  | some loaded =>
    cases loaded with
    | error exc => exact .inl ⟨_, rfl⟩
    | ok new =>
      cases hold : s.model with
      | none => exact .inr ⟨new, _, rfl, nofun, rfl, nofun⟩
      | some old =>
        dsimp only
        split
        · exact .inl ⟨_, rfl⟩
        · rename_i hdims
          simp only [ne_eq, Bool.or_eq_true, decide_eq_true_eq, not_or, not_not] at hdims
          refine .inr ⟨new, _, rfl, fun old' h => ?_, rfl, nofun⟩
          obtain rfl := Option.some.inj h
          exact hdims

/-- What is refused, and what raises, leaves the server as it is. -/
theorem serve_refused {e : Refusal} (h : (Server.serve fl tokens s x).1 = .error e) :
    Service.next (Server.serve fl tokens) s x = s := by
  have hguard : ∀ (token : Option (List UInt8)) (endpoint : Except Refusal (Answer F) × Server F),
      (∀ e, endpoint.1 = .error e → endpoint.2 = s) →
      (s.guarded token x.authorization endpoint).1 = .error e →
      (s.guarded token x.authorization endpoint).2 = s := by
    intro token endpoint hendpoint h
    rcases guarded_cases (s := s) token x.authorization endpoint with ⟨-, hg⟩ | ⟨e', -, hg⟩
    · rw [hg] at h ⊢
      exact hendpoint e h
    · rw [hg]
  unfold Service.next
  unfold Server.serve at h ⊢
  cases hreq : x.request with
  | healthz =>
    rw [hreq] at h
    cases h
  | metrics =>
    rw [hreq] at h
    cases h
  | reload ckpt =>
    rw [hreq] at h
    refine hguard _ _ (fun e' he' => ?_) h
    rcases reloadCheckpoint_cases s x.files ckpt with ⟨e, hr⟩ | ⟨new, a, -, -, hr, -⟩
    · rw [hr]
    · rw [hr] at he'
      cases he'
  | shadow shadow =>
    rw [hreq] at h
    exact hguard _ _ nofun h
  | snapshot snap =>
    rw [hreq] at h
    exact hguard _ _ nofun h
  | act req =>
    rw [hreq] at h
    exact hguard _ _ (fun _ _ => rfl) h
  | decide req =>
    rw [hreq] at h
    refine hguard _ _ (fun e' he' => ?_) h
    have hout := decides fl s x.time x.traceparent req
    generalize s.decide fl x.time x.traceparent req = out at hout he' ⊢
    cases hout with
    | abstained => cases he'
    | raised => rfl
    | acted => cases he'

/-! ## What is held -/

/-- The snapshot that a request brings, if it is let in. -/
def brings (tokens : Tokens) (x : Input F) : Option (Snapshot F) :=
  match x.request, authorize tokens.snapshot x.authorization with
  | .snapshot snap, .ok () => some snap
  | _, _ => none

/-- The mode that a request switches to, if it is let in. -/
def switches (tokens : Tokens) (x : Input F) : Option Bool :=
  match x.request, authorize tokens.control x.authorization with
  | .shadow shadow, .ok () => some shadow
  | _, _ => none

/-- The agent that a request puts in place, if it is answered. -/
def loads (e : Input F × Except Refusal (Answer F)) : Option (Model F) :=
  match e.1.request, e.2 with
  | .reload ckpt, .ok _ =>
    match e.1.files ckpt with
    | some (.ok new) => some new
    | _ => none
  | _, _ => none

/-- The answer of `/decide`. -/
def decided (e : Input F × Except Refusal (Answer F)) : Option (DecideResponse F) :=
  match e.2 with
  | .ok (.decide r) => some r
  | _ => none

/-- What the gauges say of an answer: its value, its entropy, its boost, and the
node and the GPU of it. -/
def gaugesOf (r : DecideResponse F) : F × F × ℤ × ℤ × ℤ :=
  (r.value, r.entropy, r.priorityBoost, (r.nodeJ.map Nat.cast).getD (-1),
    (r.gpuK.map Nat.cast).getD (-1))

/-- The gauges of the last decision. -/
def gauges (m : Metrics F) : F × F × ℤ × ℤ × ℤ :=
  (m.policyValue, m.policyEntropy, m.lastPriorityBoost, m.lastNodeIndex, m.lastGpuIndex)

/-- Metrics after one more step, whose answer of `/decide`, if it has one, is
`answer`. -/
structure Recorded (m m' : Metrics F) (answer : Option (DecideResponse F)) : Prop where
  decisions : ∀ l,
    m'.decisions l = m.decisions l + answer.toList.countP fun r => resultOf r = l
  boosts : m'.priorityBoosts = m.priorityBoosts +
    answer.toList.countP fun r => 0 < r.priorityBoost
  gauges : gauges m' = (answer.map gaugesOf).getD (gauges m)

/-- What a step does to each part of the server, in terms of its reply. -/
structure Steps (tokens : Tokens) (s s' : Server F) (x : Input F)
    (reply : Except Refusal (Answer F)) : Prop where
  snapshot : s'.snapshot = ((brings tokens x).map some).getD s.snapshot
  settings : s'.settings =
    { s.settings with shadowMode := (switches tokens x).getD s.settings.shadowMode }
  model : s'.model = ((loads (x, reply)).map some).getD s.model
  size : ∀ new ∈ loads (x, reply), authorize tokens.control x.authorization = .ok () ∧
    (∃ ckpt, x.request = .reload ckpt ∧ x.files ckpt = some (.ok new)) ∧
    ∀ old ∈ s.model, new.obsDim = old.obsDim ∧ new.nActions = old.nActions
  recorded : Recorded s.metrics s'.metrics (decided (x, reply))

theorem recorded_none (m : Metrics F) : Recorded m m none := ⟨fun _ => rfl, rfl, rfl⟩

theorem Records.recorded {d : Decision F} {r : DecideResponse F} (h : Records d r)
    (m : Metrics F) : Recorded m (m.setLastDecision d) (some r) where
  decisions l := by
    show (if l = d.result then m.decisions l + 1 else m.decisions l) = _
    rw [h.result, Option.toList_some, List.countP_singleton]
    by_cases hl : resultOf r = l
    · simp [hl]
    · simp [hl, Ne.symm hl]
  boosts := by
    show (if d.boost > 0 then m.priorityBoosts + 1 else m.priorityBoosts) = _
    rw [h.boost, Option.toList_some, List.countP_singleton]
    by_cases hb : 0 < r.priorityBoost
    · simp [hb]
    · simp [hb]
  gauges := by
    show (d.value, d.entropy, d.boost, d.nodeJ, d.gpuK) = gaugesOf r
    rw [h.value, h.entropy, h.boost, h.nodeJ, h.gpuK]
    rfl

/-- What `/decide` does to the metrics. -/
theorem decide_recorded (fl : Floats F) (s : Server F) (time : F) (traceparent : String)
    (req : DecideRequest F) :
    Recorded s.metrics (s.decide fl time traceparent req).2.metrics
      (s.decide fl time traceparent req).1.toOption := by
  have hout := decides fl s time traceparent req
  generalize s.decide fl time traceparent req = out at hout ⊢
  cases hout with
  | abstained tp reason age =>
    obtain ⟨hdecisions, hboosts, hgauges⟩ :=
      (records_abstained fl s.settings tp reason).recorded s.metrics
    exact ⟨hdecisions, hboosts, hgauges⟩
  | raised e => exact recorded_none _
  | acted h => exact (records_action h).recorded _

/-- A step that leaves the model as it is. -/
theorem Steps.of_model {s' : Server F} {reply : Except Refusal (Answer F)}
    (hloads : loads (x, reply) = none)
    (hsnapshot : s'.snapshot = ((brings tokens x).map some).getD s.snapshot)
    (hsettings : s'.settings =
      { s.settings with shadowMode := (switches tokens x).getD s.settings.shadowMode })
    (hmodel : s'.model = s.model)
    (hrecorded : Recorded s.metrics s'.metrics (decided (x, reply))) :
    Steps tokens s s' x reply where
  snapshot := hsnapshot
  settings := hsettings
  model := by rw [hloads, hmodel]; rfl
  size new hnew := by rw [hloads] at hnew; cases hnew
  recorded := hrecorded

/-- A step that leaves what is held as it is. -/
theorem Steps.of_none {s' : Server F} {reply : Except Refusal (Answer F)}
    (hbrings : brings tokens x = none) (hswitches : switches tokens x = none)
    (hloads : loads (x, reply) = none) (hsnapshot : s'.snapshot = s.snapshot)
    (hsettings : s'.settings = s.settings) (hmodel : s'.model = s.model)
    (hrecorded : Recorded s.metrics s'.metrics (decided (x, reply))) :
    Steps tokens s s' x reply :=
  .of_model hloads (by rw [hbrings, hsnapshot]; rfl) (by rw [hswitches, hsettings]; rfl) hmodel
    hrecorded

theorem loads_error (x : Input F) (e : Refusal) : loads (x, .error e) = none := by
  unfold loads
  cases x.request <;> rfl

/-- A request that is refused. -/
theorem Steps.refused (e : Refusal) (hbrings : brings tokens x = none)
    (hswitches : switches tokens x = none) : Steps tokens s s x (.error e) :=
  .of_none hbrings hswitches (loads_error x e) rfl rfl rfl (recorded_none _)

theorem brings_none (h : ∀ snap, x.request ≠ .snapshot snap) : brings tokens x = none := by
  unfold brings
  cases hreq : x.request with
  | snapshot snap => exact absurd hreq (h snap)
  | _ => rfl

theorem switches_none (h : ∀ shadow, x.request ≠ .shadow shadow) : switches tokens x = none := by
  unfold switches
  cases hreq : x.request with
  | shadow shadow => exact absurd hreq (h shadow)
  | _ => rfl

theorem loads_none (reply : Except Refusal (Answer F)) (h : ∀ ckpt, x.request ≠ .reload ckpt) :
    loads (x, reply) = none := by
  unfold loads
  cases hreq : x.request with
  | reload ckpt => exact absurd hreq (h ckpt)
  | _ => rfl

/-- What `/reload` does. -/
theorem reload_steps (tokens : Tokens) (s : Server F) {ckpt : String}
    (hreq : x.request = .reload ckpt) :
    let out := s.guarded tokens.control x.authorization (s.reloadCheckpoint x.files ckpt)
    Steps tokens s out.2 x out.1 := by
  dsimp only
  have hb : brings tokens x = none := brings_none (by simp [hreq])
  have hs : switches tokens x = none := switches_none (by simp [hreq])
  rcases guarded_cases (s := s) tokens.control x.authorization
      (s.reloadCheckpoint x.files ckpt) with ⟨hauth, hg⟩ | ⟨e, -, hg⟩
  · rw [hg]
    rcases reloadCheckpoint_cases s x.files ckpt with ⟨e, hr⟩ | ⟨new, a, hfile, hdims, hr, ha⟩
    · rw [hr]
      exact .refused e hb hs
    · rw [hr]
      have hload : loads (x, .ok a) = some new := by simp [loads, hreq, hfile]
      refine ⟨by rw [hb]; rfl, by rw [hs]; rfl, by rw [hload]; rfl, fun new' hnew => ?_, ?_⟩
      · rw [hload] at hnew
        obtain rfl := Option.some.inj hnew
        exact ⟨hauth, ⟨ckpt, hreq, hfile⟩, hdims⟩
      · have hdecided : decided (x, .ok a) = none := by
          cases a with
          | decide r => exact absurd rfl (ha r)
          | _ => rfl
        rw [hdecided]
        exact ⟨fun _ => rfl, rfl, rfl⟩
  · rw [hg]
    exact .refused e hb hs

/-- What `/decide` does. -/
theorem decide_steps (fl : Floats F) (tokens : Tokens) (s : Server F) {req : DecideRequest F}
    (hreq : x.request = .decide req) :
    let out := s.guarded tokens.api x.authorization
      ((s.decide fl x.time x.traceparent req).map (·.map .decide) id)
    Steps tokens s out.2 x out.1 := by
  dsimp only
  have hb : brings tokens x = none := brings_none (by simp [hreq])
  have hs : switches tokens x = none := switches_none (by simp [hreq])
  rcases guarded_cases (s := s) tokens.api x.authorization
      ((s.decide fl x.time x.traceparent req).map (·.map .decide) id) with ⟨-, hg⟩ | ⟨e, -, hg⟩
  · rw [hg]
    have hframe := decide_frame fl s x.time x.traceparent req
    have hrecorded := decide_recorded fl s x.time x.traceparent req
    generalize s.decide fl x.time x.traceparent req = out at hframe hrecorded ⊢
    obtain ⟨reply, s'⟩ := out
    obtain ⟨m, rfl⟩ := hframe
    refine .of_none hb hs (loads_none _ (by simp [hreq])) rfl rfl rfl ?_
    cases reply with
    | error e => exact hrecorded
    | ok r => exact hrecorded
  · rw [hg]
    exact .refused e hb hs

theorem serve_steps (fl : Floats F) (tokens : Tokens) (s : Server F) (x : Input F) :
    Steps tokens s (Service.next (Server.serve fl tokens) s x) x (Server.serve fl tokens s x).1 := by
  unfold Service.next Server.serve
  cases hreq : x.request with
  | healthz =>
    exact .of_none (brings_none (by simp [hreq])) (switches_none (by simp [hreq]))
      (loads_none _ (by simp [hreq])) rfl rfl rfl ⟨fun _ => rfl, rfl, rfl⟩
  | metrics =>
    exact .of_none (brings_none (by simp [hreq])) (switches_none (by simp [hreq]))
      (loads_none _ (by simp [hreq])) rfl rfl rfl ⟨fun _ => rfl, rfl, rfl⟩
  | reload ckpt => exact reload_steps tokens s hreq
  | shadow shadow =>
    dsimp only
    have hb : brings tokens x = none := brings_none (by simp [hreq])
    rcases guarded_cases (s := s) tokens.control x.authorization
        ((s.setShadow shadow).map .ok id) with ⟨hauth, hg⟩ | ⟨e, hauth, hg⟩
    · rw [hg]
      have hs : switches tokens x = some shadow := by simp [switches, hreq, hauth]
      exact .of_model (loads_none _ (by simp [hreq])) (by rw [hb]; rfl) (by rw [hs]; rfl) rfl
        ⟨fun _ => rfl, rfl, rfl⟩
    · rw [hg]
      exact .refused e hb (by simp [switches, hreq, hauth])
  | snapshot snap =>
    dsimp only
    have hs : switches tokens x = none := switches_none (by simp [hreq])
    rcases guarded_cases (s := s) tokens.snapshot x.authorization
        ((s.pushSnapshot fl snap).map .ok id) with ⟨hauth, hg⟩ | ⟨e, hauth, hg⟩
    · rw [hg]
      have hb : brings tokens x = some snap := by simp [brings, hreq, hauth]
      exact .of_model (loads_none _ (by simp [hreq])) (by rw [hb]; rfl) (by rw [hs]; rfl) rfl
        ⟨fun _ => rfl, rfl, rfl⟩
    · rw [hg]
      exact .refused e (by simp [brings, hreq, hauth]) hs
  | act req =>
    dsimp only
    have hb : brings tokens x = none := brings_none (by simp [hreq])
    have hs : switches tokens x = none := switches_none (by simp [hreq])
    rcases guarded_cases (s := s) tokens.api x.authorization
        ((s.act fl req).map .act, s) with ⟨-, hg⟩ | ⟨e, -, hg⟩
    · rw [hg]
      refine .of_none hb hs (loads_none _ (by simp [hreq])) rfl rfl rfl ?_
      dsimp only
      cases s.act fl req with
      | error e => exact recorded_none _
      | ok r => exact recorded_none _
    · rw [hg]
      exact .refused e hb hs
  | decide req => exact decide_steps fl tokens s hreq

end Kelpflux.Proof.Scheduler
