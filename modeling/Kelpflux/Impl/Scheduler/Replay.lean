import Kelpflux.Framework.Python
import Mathlib.Logic.Function.Basic

/-!
# The learner's replay buffer (`rl_scheduler/rlpd_finetune.py`)

The buffer's parallel arrays, and what is read of a live log. What NumPy does to
a number that it stores as a 32-bit float is a parameter.
-/

namespace Kelpflux.Impl.Scheduler.Replay

open Framework Framework.Python

structure Transition where
  obs : List PyFloat
  act : Int
  rew : PyFloat
  nextObs : List PyFloat
  done : Bool
  mask : Option (List Bool) := none
  nextMask : Option (List Bool) := none

/-- The arrays, by their index below the capacity. -/
structure ReplayBuffer where
  capacity : Nat
  obsDim : Nat
  nActions : Nat
  obs : Nat → List PyFloat
  acts : Nat → Int
  rews : Nat → PyFloat
  nextObs : Nat → List PyFloat
  dones : Nat → Bool
  masks : Nat → List Bool
  nextMasks : Nat → List Bool
  gammas : Nat → PyFloat
  size : Nat := 0
  idx : Nat := 0

section

variable (rt : Runtime) (f32 : PyFloat → PyFloat)

/-- `__post_init__` -/
def ReplayBuffer.new (capacity obsDim nActions : Nat) : ReplayBuffer where
  capacity := capacity
  obsDim := obsDim
  nActions := nActions
  obs _ := List.replicate obsDim (.fin 0)
  acts _ := 0
  rews _ := .fin 0
  nextObs _ := List.replicate obsDim (.fin 0)
  dones _ := false
  masks _ := List.replicate nActions true
  nextMasks _ := List.replicate nActions true
  gammas _ := f32 (.fin (99 / 100))

/-- A row of `width` entries takes an array of as many, or of one for them all. -/
def assignRow {α : Type} (width : Nat) (xs : List α) : Except Exc (List α) :=
  if xs.length = width then .ok xs
  else match xs with
    | [x] => .ok (List.replicate width x)
    | _ => .error (.valueError "could not broadcast input array")

/-- `add` -/
def ReplayBuffer.add (b : ReplayBuffer) (t : Transition) (gamma : PyFloat := .fin (99 / 100)) :
    Except Exc ReplayBuffer := do
  let i := b.idx
  if b.capacity ≤ i then throw (.other "IndexError")
  let obs ← assignRow b.obsDim t.obs
  let nextObs ← assignRow b.obsDim t.nextObs
  let mask ← match t.mask with
    | none => pure (b.masks i)
    | some mask => assignRow b.nActions mask
  let nextMask ← match t.nextMask with
    | none => pure (b.nextMasks i)
    | some mask => assignRow b.nActions mask
  return { b with
    obs := Function.update b.obs i obs
    acts := Function.update b.acts i t.act
    rews := Function.update b.rews i (f32 t.rew)
    nextObs := Function.update b.nextObs i nextObs
    dones := Function.update b.dones i t.done
    gammas := Function.update b.gammas i (f32 gamma)
    masks := Function.update b.masks i mask
    nextMasks := Function.update b.nextMasks i nextMask
    idx := (i + 1) % b.capacity
    size := min (b.size + 1) b.capacity }

/-- `np.asarray(v, dtype=np.float32)` -/
def floatArray : Json → Except Exc (List PyFloat)
  | .arr xs => xs.mapM fun x => f32 <$> x.toFloat rt
  | v => do return [f32 (← v.toFloat rt)]

/-- `np.asarray(v, dtype=bool)` -/
def boolArray : Json → List Bool
  | .arr xs => xs.map Json.truthy
  | v => [v.truthy]

/-- `row[k]` -/
def item (row : Json) (k : String) : Except Exc Json :=
  match row with
  | .obj items => match Dict.get? items k with
    | some v => .ok v
    | none => .error .keyError
  | _ => .error .typeError

/-- The transition of a row, if it has observations. -/
def rowTransition (nActions : Nat) (row : Json) : Except Exc (Option Transition) := do
  if !(← row.has "obs") || !(← row.has "next_obs") then return none
  let obs ← floatArray rt f32 (← item row "obs")
  let act ← (← row.getD "act" (.int 0)).toInt rt
  let rew ← (← row.getD "rew" (.float (.fin 0))).toFloat rt
  let nextObs ← floatArray rt f32 (← item row "next_obs")
  let done := (← row.getD "done" (.bool false)).truthy
  let mask := boolArray (← row.getD "mask" (.arr (List.replicate nActions (.bool true))))
  return some { obs := obs, act := act, rew := rew, nextObs := nextObs, done := done, mask := mask }

/-- One line of a log. -/
def readLine (b : ReplayBuffer) (line : String) : Except Exc ReplayBuffer :=
  let line := strip line
  if line = "" then .ok b
  else match rt.loads line with
    | .error .jsonDecodeError => .ok b
    | .error e => .error e
    | .ok row => do
      match ← rowTransition rt f32 b.nActions row with
      | none => return b
      | some t => b.add f32 t

/-- The lines of a file. A return before a newline gives an empty one more. -/
def fileLines (text : String) : List String :=
  (pieces (fun c => c = '\n' || c = '\r') text.toList).map String.ofList

/-- `load_live_shadow_log`, of the texts of the files that the paths match. -/
def loadLiveShadowLog (obsDim nActions capacity : Nat) (files : List String) :
    Except Exc ReplayBuffer :=
  (files.flatMap fileLines).foldlM (readLine rt f32) (.new f32 capacity obsDim nActions)

end

end Kelpflux.Impl.Scheduler.Replay
