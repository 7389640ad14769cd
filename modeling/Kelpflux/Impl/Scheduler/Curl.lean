import Kelpflux.Framework.LuaString
import Kelpflux.Impl.Scheduler.JobSubmit

/-!
# The plugin's requests (`configmap-job-submit.yaml`, `chart/lua/rl_hook.lua`)

The bodies that the plugin sends to the predictor and to the policy server, and the
command lines with which it has a shell run `curl`. Texts are lists of characters, of
which none is a NUL: those of a description are C strings.
-/

namespace Kelpflux.Impl.Scheduler.Curl

open Framework
open Framework.Lua (Arg Replacement format gsub)

/-- A job description, as far as the requests' bodies use it; the job id as `tostring`
gives it. -/
structure JobDesc where
  jobId : Option (List Char) := none
  userName : Option (List Char) := none
  partition : Option (List Char) := none
  features : Option (List Char) := none
  gpuTypeHint : Option (List Char) := none
  tresPerNode : Option String := none
  minNodes : Option Int := none
  timeLimit : Option Int := none

/-! ## Quoting -/

def apostrophe : Char := '\x27'

/-- `"'\\''"` -/
def apostropheQuoted : Replacement where
  text := "'\\''".toList
  no_percent := by decide

/-- `"'" .. string.gsub(s, "'", "'\\''") .. "'"` -/
def shellQuote (s : List Char) : List Char :=
  apostrophe :: (gsub s apostrophe apostropheQuoted ++ [apostrophe])

/-- `"\\\\"` -/
def backslashEscaped : Replacement where
  text := ['\\', '\\']
  no_percent := by decide

/-- `'\\"'` -/
def quoteEscaped : Replacement where
  text := ['\\', '\x22']
  no_percent := by decide

/-- `esc`, of `build_predict_body` -/
def esc (s : List Char) : List Char := gsub (gsub s '\\' backslashEscaped) '\x22' quoteEscaped

/-! ## The predictor -/

/-- The `PRED_` locals that the chart renders. -/
structure PredConfig where
  url : List Char
  timeoutS : ℚ
  defaultGpuType : List Char

/-- `gpu%-([%w]+)` -/
def gpuPattern : Lua.Pattern where
  pre := Lua.lit "gpu-"
  cap := [{ cls := Char.isAlphanum, rep := .plus }]

/-- `predictor_gpu_type` -/
def predictorGpuType (pred : PredConfig) (features : List Char) : List Char :=
  if features = [] then pred.defaultGpuType
  else match gpuPattern.capture features with
    | some g => if g ≠ [] then g else pred.defaultGpuType
    | none => pred.defaultGpuType

/-- `build_predict_body` -/
def buildPredictBody (pred : PredConfig) (jobDesc : JobDesc) : Option (List Char) :=
  let user := esc (jobDesc.userName.getD "anon".toList)
  let partition := esc (jobDesc.partition.getD "gpu".toList)
  let features := jobDesc.features.getD []
  let gpuType := esc (predictorGpuType pred features)
  let gpuCount := jobDesc.minNodes.getD 1
  let mps := JobSubmit.parseMpsReq jobDesc.tresPerNode
  -- whole-GPU when not specified
  let mps := if mps = 0 then 4 else mps
  let userTlimMin := jobDesc.timeLimit.getD 0
  let userTlimMin := if userTlimMin < 0 then 0 else userTlimMin
  format ("\x7b\"user\":\"%s\",\"partition\":\"%s\",\"gpu_count\":%d,\"mps_req\":%d,".toList ++
      "\"gpu_type\":\"%s\",\"user_time_limit_seconds\":%d\x7d".toList)
    [.str user, .str partition, .int gpuCount, .int mps, .str gpuType, .int (userTlimMin * 60)]

/-- The command line of `call_predictor`. -/
def predictorCommand (pred : PredConfig) (jobDesc : JobDesc) : Option (List Char) := do
  let body ← buildPredictBody pred jobDesc
  let bodyQ := shellQuote body
  format ("curl -fsS --max-time %.3f -X POST -H 'Content-Type: application/json' -d %s %q ".toList ++
      "2>/dev/null".toList)
    [.num pred.timeoutS, .str bodyQ, .str pred.url]

/-! ## The policy server -/

/-- The `RL_` globals that a command line has, and what is read of the token's file, if
it opens. -/
structure RlConfig where
  url : Option (List Char)
  timeoutS : Option ℚ
  tokenFile : Option (List Char) := none

/-- `_build_body`, at the time `now` -/
def buildBody (jobDesc : JobDesc) (mpsReq gpuCount : Option Int) (runtimeS : Option ℚ) (now : Int) :
    Option (List Char) :=
  let jobId := jobDesc.jobId.getD "0".toList
  let gpuType := jobDesc.gpuTypeHint.getD "rtx4070".toList
  format ("\x7b\"job_id\":\"%s\",\"mps_req\":%d,\"gpu_count\":%d,\"gpu_type\":\"%s\",".toList ++
      "\"runtime\":%.1f,\"submit_ts\":%d\x7d".toList)
    [.str jobId, .int (mpsReq.getD 0), .int (gpuCount.getD 1), .str gpuType,
     .num (runtimeS.getD 0), .int now]

/-- The token, without what `%s+$` matches. -/
def token (rl : RlConfig) : List Char := (rl.tokenFile.getD []).rdropWhile Lua.isSpace

/-- `auth_header` -/
def authHeader (rl : RlConfig) : List Char :=
  if token rl ≠ [] then " -H ".toList ++ shellQuote ("Authorization: Bearer ".toList ++ token rl)
  else []

/-- The command line of `rl_call_decide`. -/
def decideCommand (rl : RlConfig) (jobDesc : JobDesc) (mpsReq gpuCount : Option Int)
    (runtimeS : Option ℚ) (now : Int) : Option (List Char) := do
  let body ← buildBody jobDesc mpsReq gpuCount runtimeS now
  let bodyQ := shellQuote body
  format ("curl -fsS --max-time %.3f -X POST -H 'Content-Type: application/json' ".toList ++
      "%s -d %s %q 2>/dev/null".toList)
    [.num (rl.timeoutS.getD (toDouble (3 / 20))), .str (authHeader rl), .str bodyQ,
     .str (rl.url.getD [])]

end Kelpflux.Impl.Scheduler.Curl
