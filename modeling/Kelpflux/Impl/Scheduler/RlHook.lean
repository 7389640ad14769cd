import Kelpflux.Impl.Scheduler.Serve

/-!
# The submit plugin's client of the policy server (`chart/lua/rl_hook.lua`)

What `rl_apply` makes of the answer of `/decide`. The plugin reads an answer's
fields one by one from its text; the numbers it reads so are whole, but for the
value and the entropy, which it only logs. Logs are left out.
-/

namespace Kelpflux.Impl.Scheduler.RlHook

open Framework.Python Serve

/-- The globals that the chart sets; the node names only if they are a table. -/
structure Globals where
  rlEnabled : Bool
  rlPlacement : Bool
  rlNodeNames : Option (List String)

/-- A job description, as far as the hook uses it. -/
structure JobDesc where
  jobId : Option Int := none
  gpuTypeHint : Option String := none
  priority : Option Int := none
  reqNodes : Option String := none
  adminComment : Option String := none
deriving DecidableEq

/-- What the hook reads of an answer. -/
structure RlTable where
  priorityBoost : Int
  rlSelected : Bool
  abstain : Bool
  nodeJ : Option Nat
  otelTraceparent : Option String

variable {F : Type}

/-- `_build_body`, at the time `now`; a runtime is given to one decimal. -/
def buildBody (jobDesc : JobDesc) (mpsReq gpuCount : Int) (runtimeS now : F) : DecideRequest F where
  jobId := toString (jobDesc.jobId.getD 0)
  mpsReq := mpsReq
  gpuCount := gpuCount
  gpuType := jobDesc.gpuTypeHint.getD "rtx4070"
  runtime := runtimeS
  submitTs := now

/-- `rl_call_decide`, of the answer, if one comes in time. -/
def rlCallDecide (globals : Globals) (resp : Option (DecideResponse F)) : Option RlTable :=
  if globals.rlEnabled then
    resp.map fun r => ⟨r.priorityBoost, r.rlSelected, r.abstain, r.nodeJ, r.otelTraceparent⟩
  else none

/-- The trace that is kept of every answer. -/
def traced (jobDesc : JobDesc) (traceparent : Option String) : JobDesc :=
  match traceparent with
  | some t => if t ≠ "" then { jobDesc with adminComment := some ("otel=" ++ t) } else jobDesc
  | none => jobDesc

/-- The node that an answer pins the submitted job to, if any. -/
def pinned (globals : Globals) (rl : RlTable) : Option String := do
  let nodeJ ← rl.nodeJ
  let names ← globals.rlNodeNames
  let name ← names[nodeJ]?
  if globals.rlPlacement && rl.rlSelected && name ≠ "" then some name else none

/-- `rl_apply`: the job description, and whether the job is boosted. -/
def rlApply (globals : Globals) (resp : Option (DecideResponse F)) (jobDesc : JobDesc) :
    JobDesc × Bool :=
  match rlCallDecide globals resp with
  | none => (jobDesc, false)
  | some rl =>
    let jobDesc := traced jobDesc rl.otelTraceparent
    if rl.abstain then (jobDesc, false)
    else
      let jobDesc := match pinned globals rl with
        | some name => { jobDesc with reqNodes := some name }
        | none => jobDesc
      if rl.priorityBoost > 0 ∧ jobDesc.priority ≠ some 0 then
        ({ jobDesc with priority := some (jobDesc.priority.getD 0 + rl.priorityBoost) }, true)
      else (jobDesc, false)

end Kelpflux.Impl.Scheduler.RlHook
