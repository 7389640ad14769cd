import Kelpflux.Framework.LuaPattern
import Kelpflux.Impl.Scheduler.RlHook
import Kelpflux.Impl.Sim.Score

/-!
# The submit plugin (`chart/templates/configmap-job-submit.yaml`)

The score of a submitted job, and what `slurm_job_submit` leaves of its
description. Numbers are exact. The submit helpers fill in the memory, the
partition and the QoS, of which nothing here is read, and are left out; so are
the logs. The predictor's answers and the policy server are parameters.
-/

namespace Kelpflux.Impl.Scheduler.JobSubmit

open Framework Sim.Score RlHook Serve

/-- The locals that the chart renders. -/
structure Config where
  demoBoostPriority : Int := 0
  scoreGain : ℚ := 1000
  scoreApply : Bool
  mpsPerNode : ℚ := 100
  /-- `A`, `B`, `G`, `D` and `E` -/
  weights : Weights := {}
  vramTiers : List ℚ
  predEnabled : Bool
  predApplyTimeLimit : Bool := true
  predFallbackHours : ℚ := 4

/-- `VRAM_TIERS`, of the chart's list: `default` replaces an empty one. -/
def vramTable (values : List ℚ) : List ℚ := if values = [] then [12, 24] else values

/-- A job description, as far as the plugin uses it. -/
structure JobDesc extends RlHook.JobDesc where
  name : Option String := none
  tresPerNode : Option String := none
  features : Option String := none
  minNodes : Option Int := none
  timeLimit : Option Int := none

/-! ## Parsing helpers -/

/-- `mps[:=](%d+)` -/
def mpsPattern : Lua.Pattern where
  pre := Lua.lit "mps" ++ [{ cls := fun c => c = ':' || c = '=' }]
  cap := [{ cls := Char.isDigit, rep := .plus }]

/-- `vram%-(%d+)g` -/
def vramPattern : Lua.Pattern where
  pre := Lua.lit "vram-"
  cap := [{ cls := Char.isDigit, rep := .plus }]
  post := Lua.lit "g"

/-- What a parser reads: the number that its pattern captures, or 0. -/
def parseReq (p : Lua.Pattern) (s : Option String) : Nat :=
  match s with
  | none => 0
  | some s => if s = "" then 0 else ((p.capture s.toList).map Lua.digitsValue).getD 0

/-- `parse_mps_req` -/
def parseMpsReq (tresPerNode : Option String) : Nat := parseReq mpsPattern tresPerNode

/-- `parse_vram_req` -/
def parseVramReq (features : Option String) : Nat := parseReq vramPattern features

/-- `clamp01`; no number is a NaN. -/
def clamp01 (x : ℚ) : ℚ := if x < 0 then 0 else if x > 1 then 1 else x

/-! ## Score factors -/

section Score

variable (cfg : Config) (jobDesc : JobDesc)

/-- `f_mps_fit` -/
def fMpsFit : ℚ :=
  let mpsReq : ℚ := parseMpsReq jobDesc.tresPerNode
  if mpsReq ≤ 0 then 1
  else if mpsReq > cfg.mpsPerNode then 0
  else clamp01 (mpsReq / cfg.mpsPerNode)

/-- `f_vram_fit`; `VRAM_MAX` is the table's last entry. -/
def fVramFit : ℚ :=
  let req : ℚ := parseVramReq jobDesc.features
  if req = 0 then 1 / 2
  else match cfg.vramTiers.find? fun t => t ≥ req with
    | none => 0
    | some fitTier => clamp01 (1 - (fitTier - req) / cfg.vramTiers.getLastD 0)

/-- `f_fragmentation` -/
def fFragmentation : ℚ :=
  let mpsReq : ℚ := parseMpsReq jobDesc.tresPerNode
  if mpsReq ≤ 0 ∨ mpsReq ≥ cfg.mpsPerNode then 0
  else
    let x := mpsReq / cfg.mpsPerNode
    clamp01 (4 * x * (1 - x))

/-- `f_topology` -/
def fTopology : ℚ := 1 / 2

/-- `f_pred_runtime`, of what `call_predictor` returns, if it succeeds. -/
def fPredRuntime (pred : Option ℚ) : ℚ :=
  if !cfg.predEnabled then 1 / 2
  else match pred with
    | none => 1 / 2
    | some s => if s ≤ 0 then 1 / 2 else clamp01 (1 - s / (cfg.predFallbackHours * 3600))

/-- `compute_score` -/
def computeScore (pred : Option ℚ) : SubmitScoreFactors :=
  let fM := fMpsFit cfg jobDesc
  let fV := fVramFit cfg jobDesc
  let fG := fTopology
  let fF := fFragmentation cfg jobDesc
  let fP := fPredRuntime cfg pred
  { score := clamp01 (cfg.weights.alpha * fM + cfg.weights.beta * fV + cfg.weights.gamma * fG
      - cfg.weights.delta * fF + cfg.weights.epsilon * fP)
    mpsFit := fM
    vramFit := fV
    topology := fG
    fragmentation := fF
    predRuntime := fP }

/-- `maybe_apply_predicted_time_limit` -/
def maybeApplyPredictedTimeLimit (pred : Option ℚ) : JobDesc :=
  if !(cfg.predEnabled && cfg.predApplyTimeLimit) then jobDesc
  else match pred with
    | none => jobDesc
    | some s =>
      if s ≤ 0 then jobDesc
      else
        let fallbackMin := ⌊cfg.predFallbackHours * 3600 / 60⌋
        let predMin := max 1 (min ⌈s / 60⌉ fallbackMin)
        let userMin := jobDesc.timeLimit.getD 0
        if 0 < userMin ∧ userMin < predMin * 2 then jobDesc
        else { jobDesc with timeLimit := some predMin }

/-- `delta`, of `slurm_job_submit` -/
def scoreDelta (pred : Option ℚ) : Int :=
  ⌊cfg.scoreGain * (computeScore cfg jobDesc pred).score + 1 / 2⌋

/-- Whether the job takes the demo path. -/
def demoBoosted : Bool :=
  cfg.demoBoostPriority > 0 &&
    jobDesc.name.any fun name => name.toList.take 11 = "score-demo-".toList

end Score

/-! ## The submit hook -/

/-- What the plugin is answered at a submission: by the predictor, for the score
and for the time limit, and by the policy server. -/
structure Answers (F : Type) where
  predScore : Option ℚ
  predLimit : Option ℚ
  server : DecideRequest F → Option (DecideResponse F)

variable {F : Type}

/-- The job when the policy server is asked: a job without a priority takes the
score's. -/
def scored (cfg : Config) (answers : Answers F) (jobDesc : JobDesc) : JobDesc :=
  let delta := scoreDelta cfg jobDesc answers.predScore
  let jobDesc := maybeApplyPredictedTimeLimit cfg jobDesc answers.predLimit
  if cfg.scoreApply && delta > 0 && jobDesc.priority.isNone then
    { jobDesc with priority := some delta }
  else jobDesc

/-- What the policy server is asked, at the time `now`. -/
def rlBody (ofInt : Int → F) (now : F) (jobDesc : JobDesc) : DecideRequest F :=
  let mpsReq := parseMpsReq jobDesc.tresPerNode
  let gpuCount := jobDesc.minNodes.getD 1
  let runtimeS := ofInt (jobDesc.timeLimit.getD 0 * 60)
  buildBody jobDesc.toJobDesc mpsReq gpuCount runtimeS now

/-- `slurm_job_submit`, at the time `now`. -/
def slurmJobSubmit (cfg : Config) (globals : Globals) (answers : Answers F) (ofInt : Int → F)
    (now : F) (jobDesc : JobDesc) : JobDesc :=
  if demoBoosted cfg jobDesc then { jobDesc with priority := some cfg.demoBoostPriority }
  else
    let jobDesc := scored cfg answers jobDesc
    if globals.rlEnabled then
      let resp := answers.server (rlBody ofInt now jobDesc)
      { jobDesc with toJobDesc := (rlApply globals resp jobDesc.toJobDesc).1 }
    else jobDesc

end Kelpflux.Impl.Scheduler.JobSubmit
