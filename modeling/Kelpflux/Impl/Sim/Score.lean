import Kelpflux.Framework.Python

/-!
# The submit score's reference (`sim/scheduler/score.py`)

`submit_score_factors`, in exact arithmetic: the plugin's score as the simulator
calculates it. The patterns' `\d` is an ASCII digit.
-/

namespace Kelpflux.Impl.Sim.Score

open Framework.Python

/-- `clamp01` -/
def clamp01 (x : ℚ) : ℚ := max 0 (min 1 x)

/-- `mps[:=](\d+)` -/
def readMps (cs : List Char) : Option Nat :=
  match after "mps" cs with
  | some (c :: cs) => if c = ':' ∨ c = '=' then leadingDigits cs else none
  | _ => none

/-- `parse_submit_mps_req` -/
def parseSubmitMpsReq (tresPerNode : Option String) : Nat :=
  match tresPerNode with
  | none => 0
  | some s => if s = "" then 0 else (search readMps s.toList).getD 0

/-- `vram-(\d+)g` -/
def readVram (cs : List Char) : Option Nat :=
  (after "vram-" cs).bind fun cs =>
    if (cs.dropWhile Char.isDigit).head? = some 'g' then leadingDigits cs else none

/-- `parse_submit_vram_req` -/
def parseSubmitVramReq (features : Option String) : Nat :=
  match features with
  | none => 0
  | some s => if s = "" then 0 else (search readVram s.toList).getD 0

structure SubmitScoreFactors where
  score : ℚ
  mpsFit : ℚ
  vramFit : ℚ
  topology : ℚ
  fragmentation : ℚ
  predRuntime : ℚ
deriving DecidableEq

/-- The weights of the factors. -/
structure Weights where
  alpha : ℚ := 2 / 5
  beta : ℚ := 1 / 5
  gamma : ℚ := 0
  delta : ℚ := 1 / 5
  epsilon : ℚ := 0

/-- `submit_score_factors`; `max` of no tiers raises. -/
def submitScoreFactors (tresPerNode features : Option String) (mpsPerNode : ℚ)
    (vramTiers : List ℚ) (w : Weights) (predRuntime : ℚ := 1 / 2) :
    Except Exc SubmitScoreFactors :=
  let mpsReq : ℚ := parseSubmitMpsReq tresPerNode
  let vramReq : ℚ := parseSubmitVramReq features
  let tiers := sortedLt (fun a b => a < b) vramTiers
  match tiers.max? with
  | none => .error (.valueError "max() arg is an empty sequence")
  | some vramMax =>
    let mpsFit :=
      if mpsReq ≤ 0 then 1
      else if mpsReq > mpsPerNode then 0
      else clamp01 (mpsReq / mpsPerNode)
    let vramFit :=
      if vramReq = 0 then 1 / 2
      else match tiers.find? fun tier => tier ≥ vramReq with
        | none => 0
        | some fitTier => clamp01 (1 - (fitTier - vramReq) / vramMax)
    let fragmentation :=
      if mpsReq ≤ 0 ∨ mpsReq ≥ mpsPerNode then 0
      else
        let x := mpsReq / mpsPerNode
        clamp01 (4 * x * (1 - x))
    let topology := 1 / 2
    .ok
      { score := clamp01 (w.alpha * mpsFit + w.beta * vramFit + w.gamma * topology
          - w.delta * fragmentation + w.epsilon * predRuntime)
        mpsFit, vramFit, topology, fragmentation, predRuntime }

end Kelpflux.Impl.Sim.Score
