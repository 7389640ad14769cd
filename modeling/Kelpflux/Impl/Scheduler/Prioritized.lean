import Kelpflux.Impl.Scheduler.Replay
import Mathlib.Algebra.Order.Field.Basic

/-!
# The prioritized replay buffer (`rl_scheduler/rlpd_finetune.py`)

Priorities are numbers of any ordered field, and what raising one to a power
gives is a parameter, as is what the generator draws from a range.
-/

namespace Kelpflux.Impl.Scheduler.Replay

open Framework Framework.Python

structure SumTree (K : Type) where
  capacity : Nat
  tree : Nat → K

namespace SumTree

variable {K : Type}

/-- `__init__` -/
def new [Zero K] (capacity : Nat) : SumTree K := ⟨capacity, fun _ => 0⟩

/-- The loop of `update`: the sums above a node, up to the root. -/
def climb [Add K] (tree : Nat → K) (idx : Nat) : Nat → K :=
  if 1 < idx then
    let parent := idx >>> 1
    climb (Function.update tree parent (tree (2 * parent) + tree (2 * parent + 1))) parent
  else tree
termination_by idx
decreasing_by rw [Nat.shiftRight_eq_div_pow]; omega

def update [Add K] (t : SumTree K) (dataIdx : Nat) (priority : K) : SumTree K :=
  let idx := dataIdx + t.capacity
  { t with tree := climb (Function.update t.tree idx priority) idx }

/-- The loop of `sample_one`: `none` if `fuel` rounds do not end it. -/
def descend [LE K] [DecidableLE K] [Sub K] (t : SumTree K) : Nat → Nat → K → Option Nat
  | 0, _, _ => none
  | fuel + 1, idx, val =>
    if idx < t.capacity then
      let left := 2 * idx
      if val ≤ t.tree left then t.descend fuel left val
      else t.descend fuel (left + 1) (val - t.tree left)
    else some (idx - t.capacity)

def sampleOne [LE K] [DecidableLE K] [Sub K] (t : SumTree K) (val : K) : Option Nat :=
  t.descend t.capacity 1 val

def total (t : SumTree K) : K := t.tree 1

/-- The leaf of a slot. -/
def priority (t : SumTree K) (dataIdx : Nat) : K := t.tree (dataIdx + t.capacity)

def maxPriority [Zero K] [One K] [LinearOrder K] (t : SumTree K) : K :=
  match ((List.range t.capacity).map t.priority).max? with
  | some leafMax => if 0 < leafMax then leafMax else 1
  -- no leaves: NumPy raises, but a buffer of no slots has raised before
  | none => 1

end SumTree

structure PrioritizedReplayBuffer (K : Type) extends ReplayBuffer where
  alpha : K
  betaStart : K
  betaEnd : K
  betaSteps : Nat
  betaStep : Nat := 0
  priorities : SumTree K

/-- What `sample` returns. -/
structure Batch (K : Type) where
  obs : List (List PyFloat)
  acts : List Int
  rews : List PyFloat
  nextObs : List (List PyFloat)
  dones : List Bool
  masks : List (List Bool)
  nextMasks : List (List Bool)
  gammas : List PyFloat
  weights : List K
  indices : List Nat

namespace PrioritizedReplayBuffer

variable {K : Type} [Field K] [LinearOrder K] (f32 : PyFloat → PyFloat) (pow : K → K → K)

/-- `__init__` -/
def new (capacity obsDim nActions : Nat) (alpha : K := 3 / 5) (betaStart : K := 2 / 5)
    (betaEnd : K := 1) (betaSteps : Nat := 100000) : PrioritizedReplayBuffer K where
  toReplayBuffer := .new f32 capacity obsDim nActions
  alpha := alpha
  betaStart := betaStart
  betaEnd := betaEnd
  betaSteps := betaSteps
  priorities := .new capacity

/-- `add`. The arrays are set as a `ReplayBuffer` sets them. -/
def add (b : PrioritizedReplayBuffer K) (t : Transition) (gamma : PyFloat := .fin (99 / 100)) :
    Except Exc (PrioritizedReplayBuffer K) := do
  let i := b.idx
  let arrays ← b.toReplayBuffer.add f32 t gamma
  let priority := pow b.priorities.maxPriority b.alpha
  return { b with
    toReplayBuffer := arrays
    priorities := b.priorities.update i priority }

/-- `_beta` -/
def beta (b : PrioritizedReplayBuffer K) : K :=
  let frac := min 1 ((b.betaStep : K) / (max 1 b.betaSteps : Nat))
  b.betaStart + frac * (b.betaEnd - b.betaStart)

/-- `sample`, where `uniform i` is the `i`-th draw of the generator from a
range: `none` where it does not end. The weights are not rounded to 32 bits,
and those of a batch of no priority, which NumPy has as NaN, are 0. -/
def sample (b : PrioritizedReplayBuffer K) (n : Nat) (uniform : Nat → K → K → K) :
    Except Exc (Option (Batch K × PrioritizedReplayBuffer K)) :=
  if n = 0 then .error (.other "ZeroDivisionError")
  else .ok do
    let total := b.priorities.total
    let segment := total / n
    let indices ← (List.range n).mapM fun i => do
      let dataIdx ← b.priorities.sampleOne (uniform i (segment * i) (segment * (i + 1)))
      return min dataIdx (b.size - 1)
    let probs := indices.map fun i => b.priorities.priority i / total
    let weights := probs.map fun p => pow (b.size * p) (-b.beta)
    let batch : Batch K :=
      { obs := indices.map b.obs
        acts := indices.map b.acts
        rews := indices.map b.rews
        nextObs := indices.map b.nextObs
        dones := indices.map b.dones
        masks := indices.map b.masks
        nextMasks := indices.map b.nextMasks
        gammas := indices.map b.gammas
        weights := weights.map fun w => w / (weights.max?.getD 1)
        indices := indices }
    return (batch, { b with betaStep := b.betaStep + 1 })

def updatePriorities (b : PrioritizedReplayBuffer K) (indices : List Nat) (tdErrors : List K) :
    PrioritizedReplayBuffer K :=
  let priorities := tdErrors.map fun td => pow (|td| + 1 / 1000000) b.alpha
  { b with
    priorities := (indices.zip priorities).foldl (fun t ip => t.update ip.1 ip.2) b.priorities }

end PrioritizedReplayBuffer

end Kelpflux.Impl.Scheduler.Replay
