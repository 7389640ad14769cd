import Kelpflux.Impl.Scheduler.JobSubmit
import Kelpflux.Impl.Scheduler.RlText

/-!
# The submit helper, and the submit hook after it (`chart/lua/submit_helper.lua`)

The helper fills in the memory, the partition and the QoS of a job that has none;
`slurm_job_submit` calls it first. The policy server's answer is the text that
`curl` prints here, or what keeps it from printing any (`CallOutcome`). The
controller has Lua 5.1, where `string.format` takes any number for `%d`; so
nothing raises an error but what the hook calls by `pcall`.
-/

namespace Kelpflux.Impl.Scheduler.SubmitHelper

open Framework
open Framework.Python (search splitComma)
open JobSubmit (Answers Config)
open RlHook (Globals)
open RlText (Reading)

structure GresRule where
  gres : String
  partition : String

structure AccountRule where
  account : String
  qos : String

/-- The `HLP_` globals that the chart renders. -/
structure Helper where
  enabled : Bool
  memEnabled : Bool
  memPerGpu : Int := 4096
  memPerCpu : Int := 256
  memMin : Int := 1024
  memMax : Int := 65536
  partEnabled : Bool
  partFallback : String := "cpu"
  partRules : List GresRule := []
  qosEnabled : Bool
  qosDefault : String := ""
  qosRules : List AccountRule := []

/-- A job description, as far as the plugin uses it. -/
structure JobDesc extends submitted : JobSubmit.JobDesc where
  account : Option String := none
  partition : Option String := none
  qos : Option String := none
  pnMinMemory : Option Int := none
  minCpus : Option Int := none

/-! ## The helper -/

/-- `:(%d+)$` -/
def trailingCount (tok : List Char) : Option (List Char) :=
  search (Lua.run [Lua.one ':'] fun start =>
    Lua.run [{ cls := Char.isDigit, rep := .plus }]
      (fun stop => if stop = [] then some start else none) start) tok

/-- The GPUs that a token of the request asks for. -/
def tokenGpus (tok : String) : Nat :=
  let lower := tok.toList.map Char.toLower
  if lower.take 4 = "gpu:".toList then ((trailingCount tok.toList).map Lua.digitsValue).getD 1
  else 0

/-- `parse_gpu_count` -/
def parseGpuCount (tresPerNode : Option String) : Nat :=
  match tresPerNode with
  | none => 0
  | some tres =>
    if tres = "" then 0
    else (((splitComma tres).filter (· ≠ "")).map tokenGpus).sum

section Helpers

variable (hlp : Helper) (jobDesc : JobDesc)

/-- `helper_compute_memory_mb` -/
def helperComputeMemoryMb : Int :=
  let gpus : Int := parseGpuCount jobDesc.tresPerNode
  let cpus := jobDesc.minCpus.getD 0
  let cpus := if cpus < 1 then 1 else cpus
  let m := gpus * hlp.memPerGpu + cpus * hlp.memPerCpu
  let m := if m < hlp.memMin then hlp.memMin else m
  if m > hlp.memMax then hlp.memMax else m

/-- `helper_route_partition` -/
def helperRoutePartition : String :=
  let tres := jobDesc.tresPerNode.getD ""
  if tres = "" then hlp.partFallback
  else
    let lower := tres.toList.map Char.toLower
    match hlp.partRules.find? fun r => r.gres ≠ "" ∧ r.gres.toList.map Char.toLower <:+: lower with
    | some r => r.partition
    | none => hlp.partFallback

/-- `helper_resolve_qos` -/
def helperResolveQos : Option String :=
  let account := jobDesc.account.getD ""
  match hlp.qosRules.find? fun r => r.account ≠ "" ∧ r.account = account with
  | some r => some r.qos
  | none => if hlp.qosDefault = "" then none else some hlp.qosDefault

/-- The memory, if it is filled in. -/
def fillMemory : Option JobDesc :=
  if hlp.memEnabled && jobDesc.pnMinMemory.getD 0 ≤ 0 then
    some { jobDesc with pnMinMemory := some (helperComputeMemoryMb hlp jobDesc) }
  else none

/-- The partition, if it is filled in. -/
def fillPartition : Option JobDesc :=
  if hlp.partEnabled && jobDesc.partition.getD "" = "" then
    let part := helperRoutePartition hlp jobDesc
    if part ≠ "" then some { jobDesc with partition := some part } else none
  else none

/-- The QoS, if it is filled in. -/
def fillQos : Option JobDesc :=
  if hlp.qosEnabled && jobDesc.qos.getD "" = "" then
    match helperResolveQos hlp jobDesc with
    | some q => if q ≠ "" then some { jobDesc with qos := some q } else none
    | none => none
  else none

/-- One helper after others, which have filled in `applied.2` fields. -/
def applyHelper (applied : JobDesc × Nat) (fill : JobDesc → Option JobDesc) : JobDesc × Nat :=
  match fill applied.1 with
  | some jobDesc => (jobDesc, applied.2 + 1)
  | none => applied

/-- `apply_submit_helpers`: the job description, and how many fields are filled in. -/
def applySubmitHelpers : JobDesc × Nat :=
  if !hlp.enabled then (jobDesc, 0)
  else [fillMemory hlp, fillPartition hlp, fillQos hlp].foldl applyHelper (jobDesc, 0)

end Helpers

/-! ## The policy server's answer -/

/-- What becomes of the call of the policy server. -/
inductive CallOutcome where
  | popenFailed
  | output (resp : List Char)
  | luaError (message : String)

/-- `rl_call_decide` -/
def rlCallDecide (globals : Globals) (outcome : CallOutcome) : Except String (Option Reading) :=
  if !globals.rlEnabled then pure none
  else match outcome with
    | .popenFailed => pure none
    | .output resp => pure (RlText.rlCallDecide globals resp)
    | .luaError message => throw message

/-- The trace that is kept of every answer. -/
def traced (rl : Reading) (jobDesc : JobDesc) : JobDesc :=
  match rl.otelTraceparent with
  | some t =>
    if t ≠ [] then { jobDesc with adminComment := some ("otel=" ++ String.ofList t) } else jobDesc
  | none => jobDesc

/-- `RL_NODE_NAMES[node_j + 1]`; only a whole number is an index. -/
def rlNodeName (names : List String) (nodeJ : ℚ) : Option String :=
  if nodeJ ≥ 0 ∧ nodeJ.den = 1 then names[nodeJ.num.toNat]? else none

/-- The node that an answer pins the submitted job to, if any. -/
def pinned (globals : Globals) (rl : Reading) : Option String := do
  let nodeJ ← rl.nodeJ
  let names ← globals.rlNodeNames
  let name ← rlNodeName names nodeJ
  if globals.rlPlacement && rl.rlSelected && name ≠ "" then some name else none

/-- `rl_apply`: the job description, and whether the job is boosted. -/
def rlApply (globals : Globals) (outcome : CallOutcome) (jobDesc : JobDesc) : JobDesc × Bool :=
  match rlCallDecide globals outcome with
  | .error _ => (jobDesc, false)
  | .ok none => (jobDesc, false)
  | .ok (some rl) =>
    let jobDesc := traced rl jobDesc
    if rl.abstain then (jobDesc, false)
    else
      let jobDesc := match pinned globals rl with
        | some name => { jobDesc with reqNodes := some name }
        | none => jobDesc
      if rl.priorityBoost > 0 ∧ jobDesc.priority ≠ some 0 then
        ({ jobDesc with priority := some (jobDesc.priority.getD 0 + rl.priorityBoost) }, true)
      else (jobDesc, false)

/-! ## The hook -/

/-- What the hook returns, of Slurm's constants. -/
inductive Status where
  | success
  | error
deriving DecidableEq

variable {F : Type}

/-- `slurm_job_submit`, when `answers` are the predictor's and `outcome` the policy
server's. -/
def slurmJobSubmit (cfg : Config) (hlp : Helper) (globals : Globals) (answers : Answers F)
    (outcome : CallOutcome) (jobDesc : JobDesc) : Status × JobDesc :=
  let jobDesc := (applySubmitHelpers hlp jobDesc).1
  if JobSubmit.demoBoosted cfg jobDesc.submitted then
    (.success, { jobDesc with priority := some cfg.demoBoostPriority })
  else
    let jobDesc := { jobDesc with submitted := JobSubmit.scored cfg answers jobDesc.submitted }
    if globals.rlEnabled then (.success, (rlApply globals outcome jobDesc).1)
    else (.success, jobDesc)

end Kelpflux.Impl.Scheduler.SubmitHelper
