import Kelpflux.Framework.Python

/-!
# Reading Slurm REST (`rl_scheduler/snapshot_agent.py`)

The helpers that the scheduler's clients share for reading a slurmrestd
document, and what the snapshot agent makes of a node.
-/

namespace Kelpflux.Impl.Scheduler

open Framework Framework.Python

def gpuTypes : List String := ["rtx4070", "rtx3080", "generic"]

/-- `_state_tokens` -/
def stateTokens (rt : Runtime) (raw : Json) : List String :=
  match raw with
  | .arr xs => xs.map fun x => upper (x.toStr rt)
  | _ => (words (replaceChar ',' ' ' ((raw.or (.str "")).toStr rt))).map upper

/-- `_number` -/
def number (rt : Runtime) (v : Json) (default : PyFloat) : PyFloat :=
  let v := match v with
    | .obj items => (Dict.get? items "number").getD (.float default)
    | v => v
  match v.toFloat rt with
  | .ok x => x
  | .error _ => default

/-- The patterns of `_parse_tres_int` for one name, each of the items that the
commas of a text separate. -/
def tresPatterns (name : String) : List (List Char → Option Nat) :=
  [fun item => afterPrefix (name ++ "=") item >>= leadingDigits,
   fun item => do
    let rest ← afterPrefix (name ++ ":") item
    let typed := match rest.span (· != ':') with
      | (_ :: _, _ :: digits) => leadingDigits digits
      | _ => none
    typed <|> leadingDigits rest,
   fun item => afterPrefix ("gres/" ++ name ++ "=") item >>= leadingDigits]

/-- `_parse_tres_int`: the first name's first pattern that an item matches. -/
def parseTresInt (text : String) (names : List String) (default : Int) : Int :=
  let items := pieces (· == ',') text.toList
  let found := names.findSome? fun name =>
    (tresPatterns name).findSome? fun pattern => items.findSome? pattern
  match found with
  | some n => n
  | none => default

/-- `_gpu_type_from_text` -/
def gpuTypeFromText (text : String) : String :=
  (gpuTypes.find? fun gpuType => contains (lower text) gpuType).getD "rtx4070"

/-- A field of a node as text: an object's items or a list's, joined. -/
def tresField (rt : Runtime) : Json → Json
  | .obj items => .str (joinComma (items.map fun kv => kv.1 ++ "=" ++ kv.2.toStr rt))
  | .arr xs => .str (joinComma (xs.map fun x => x.toStr rt))
  | v => v

/-- `_node_tres_text` -/
def nodeTresText (rt : Runtime) (node : Json) (keys : List String) : Except Exc String := do
  let vals ← keys.mapM fun key => tresField rt <$> node.get key
  return joinComma ((vals.filter Json.truthy).map fun val => val.toStr rt)

/-- `_node_name` -/
def nodeName (rt : Runtime) (node : Json) : Except Exc String := do
  return ((((← node.get "name").or (← node.get "node_name")).or (← node.get "hostname")).or
    (.str "")).toStr rt

/-- `_node_state` -/
def nodeState (rt : Runtime) (node : Json) : Except Exc (List String) := do
  return stateTokens rt ((← node.get "state").or (← node.get "state_flags"))

/-- A GPU of a node of the snapshot. -/
structure SnapshotGpu where
  freeMps : Int
  runningJobs : Int
  gpuType : String
deriving DecidableEq

/-- `node_view`: the GPUs of a node that has some and is not down. -/
def nodeView (rt : Runtime) (mpsPerGpu defaultGpusPerNode : Int) (node : Json) :
    Except Exc (Option (List SnapshotGpu)) := do
  let states ← nodeState rt node
  if states.any (· ∈ ["DOWN", "DRAIN", "NOT_RESPONDING", "FAIL"]) then
    return none
  let cfg ← nodeTresText rt node
    ["tres", "cfg_tres", "gres", "gres_detail", "features", "active_features", "available_features"]
  let name ← nodeName rt node
  let text := lower (cfg ++ "," ++ name)
  if !(contains text "gpu" || contains text "mps") then
    return none
  let alloc ← nodeTresText rt node ["alloc_tres", "alloc_gres", "tres_used"]
  let parsedGpuCount := parseTresInt cfg ["gpu"] 0
  let parsedGpuCount := if parsedGpuCount ≠ 0 then parsedGpuCount else defaultGpusPerNode
  let gpuCount := min (max 1 parsedGpuCount) (max 1 defaultGpusPerNode)
  let totalMps := parseTresInt cfg ["mps"] 0
  let totalMps := if totalMps ≠ 0 then totalMps else parsedGpuCount * mpsPerGpu
  let allocMps := parseTresInt alloc ["mps"] 0
  let freeTotal := max 0 (totalMps - allocMps)
  let perGpu := max 0 (min mpsPerGpu (freeTotal / max 1 gpuCount))
  let runningJobs := if states.any (· ∈ ["ALLOCATED", "MIXED", "COMPLETING"]) then 1 else 0
  let gpuType := gpuTypeFromText (if cfg ≠ "" then cfg else name)
  return some (List.replicate (max 1 gpuCount).toNat ⟨perGpu, runningJobs, gpuType⟩)

end Kelpflux.Impl.Scheduler
