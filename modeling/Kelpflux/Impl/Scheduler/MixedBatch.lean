import Kelpflux.Framework.Double
import Kelpflux.Impl.Scheduler.Replay

/-!
# The batches of the offline trainer (`rl_scheduler/rlpd_finetune.py`)

`ReplayBuffer.sample` and `mixed_batch`, and how `rlpd_train` draws them. What its
networks make of a batch is left out.
-/

namespace Kelpflux.Impl.Scheduler.MixedBatch

open Framework Framework.Python Replay

/-- The columns of a batch. -/
structure Columns where
  obs : List (List PyFloat)
  acts : List Int
  rews : List PyFloat
  nextObs : List (List PyFloat)
  dones : List Bool
  masks : List (List Bool)
  nextMasks : List (List Bool)
  gammas : List PyFloat

/-- The rows of a buffer at the indices. -/
def rowsAt (b : ReplayBuffer) (idx : List Nat) : Columns where
  obs := idx.map b.obs
  acts := idx.map b.acts
  rews := idx.map b.rews
  nextObs := idx.map b.nextObs
  dones := idx.map b.dones
  masks := idx.map b.masks
  nextMasks := idx.map b.nextMasks
  gammas := idx.map b.gammas

/-- `np.concatenate`, column by column. -/
def Columns.concatenate (a b : Columns) : Columns where
  obs := a.obs ++ b.obs
  acts := a.acts ++ b.acts
  rews := a.rews ++ b.rews
  nextObs := a.nextObs ++ b.nextObs
  dones := a.dones ++ b.dones
  masks := a.masks ++ b.masks
  nextMasks := a.nextMasks ++ b.nextMasks
  gammas := a.gammas ++ b.gammas

/-- `np.concatenate` raises for rows of different widths. -/
def sameWidth (a b : Nat) : Except Exc Unit :=
  if a = b then .ok ()
  else .error (.valueError ("all the input array dimensions except for the concatenation axis must "
    ++ s!"match exactly, but along dimension 1, the array at index 0 has size {a} and the array "
    ++ s!"at index 1 has size {b}"))

/-- `rng.integers(0, high, size=n)`, of a generator with the state `H`. -/
structure Integers (H : Type) where
  draw : Nat → Nat → H → List Nat × H
  draw_length : ∀ high n rng, 0 < high → (draw high n rng).1.length = n
  draw_lt : ∀ high n rng, ∀ i ∈ (draw high n rng).1, i < high

section Draw

variable {H : Type} (integers : Integers H)

/-- `sample`; NumPy draws no integers below 0 and makes no array of a negative size. -/
def sample (b : ReplayBuffer) (n : Int) (rng : H) : Except Exc (Columns × H) :=
  if n = 0 then .ok (rowsAt b [], rng)
  else if b.size = 0 then .error (.valueError "low >= high")
  else if n < 0 then .error (.valueError "negative dimensions are not allowed")
  else
    let (idx, rng) := integers.draw b.size n.toNat rng
    .ok (rowsAt b idx, rng)

/-- `n_online` -/
def nOnline (batchSize : Nat) (onlineRatio : ℚ) : Int :=
  let share := toDouble (batchSize * onlineRatio)
  max 1 (share.num.tdiv share.den)

variable (offline online : ReplayBuffer) (batchSize : Nat) (onlineRatio : ℚ)

def mixedBatch (rng : H) : Except Exc (Columns × H) :=
  if online.size = 0 then sample integers offline batchSize rng
  else do
    let nOffline := batchSize - nOnline batchSize onlineRatio
    let (a, rng) ← sample integers online (nOnline batchSize onlineRatio) rng
    let (b, rng) ← sample integers offline nOffline rng
    sameWidth online.obsDim offline.obsDim
    sameWidth online.nActions offline.nActions
    return (a.concatenate b, rng)

/-- The batches that `rlpd_train` draws for so many steps. -/
def batches : Nat → H → Except Exc (List Columns × H)
  | 0, rng => return ([], rng)
  | n + 1, rng => do
    let (batch, rng) ← mixedBatch integers offline online batchSize onlineRatio rng
    let (rest, rng) ← batches n rng
    return (batch :: rest, rng)

end Draw

end Kelpflux.Impl.Scheduler.MixedBatch
