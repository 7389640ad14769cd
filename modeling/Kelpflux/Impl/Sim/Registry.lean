import Kelpflux.Impl.Sim.Runner
import Kelpflux.Impl.Sim.Scheduler
import Mathlib.Data.Prod.Lex
import Mathlib.Data.String.Basic

/-!
# The schedulers by name (`sim/scheduler/__init__.py`, `fcfs.py`, `multifactor.py`)

The schedulers that `run` is given by name, in exact arithmetic. Their keyword
arguments are those of `ScoreScheduler`, of which each takes what it has.
-/

namespace Kelpflux.Impl.Sim

/-- The key that `FCFSScheduler.order` sorts by. -/
def arrivalKey (j : ReplayJob) : ℚ ×ₗ String := toLex (j.submitTs, j.jobId)

def fcfs (cfg : Config) : Scheduler cfg Unit where
  order pending _ _ s := (pending.insertionSort fun a b => arrivalKey a ≤ arrivalKey b, s)
  backfill := false

/-- What `MultifactorScheduler.order` and `ScoreScheduler.order` sort by, of the
jobs' priorities. -/
def priorityOrder (priority : ReplayJob → ℚ) (pending : List ReplayJob) : List ReplayJob :=
  let key (j : ReplayJob) : ℚ ×ₗ ℚ ×ₗ String := toLex (-priority j, arrivalKey j)
  pending.insertionSort fun a b => key a ≤ key b

/-- `MultifactorScheduler` -/
def multifactor (cfg : Config) (s : MultifactorScheduler) : Scheduler cfg Unit where
  order pending _ now state :=
    let maxGpu := (pending.map fun j => j.gpuCount).max?.getD 1
    (priorityOrder (fun j => s.priority j.toTraceJob now maxGpu) pending, state)
  backfill := true

/-- `ScoreScheduler`, with its `total` as `base + kicker`. -/
def scoreScheduler (cfg : Config) (num : Numeric) (s : ScoreScheduler) : Scheduler cfg Unit where
  order pending c now state :=
    (priorityOrder (fun j => s.total num (pending.map fun j => j.toTraceJob) c now j.toTraceJob)
      pending, state)
  backfill := true

/-- `make`, by `REGISTRY`; the `ValueError` for any other name is `none`. -/
def make (cfg : Config) (num : Numeric) (kwargs : ScoreScheduler) (name : String) :
    Option (Scheduler cfg Unit) :=
  if name = "fcfs" then some (fcfs cfg)
  else if name = "multifactor" then some (multifactor cfg kwargs.toMultifactorScheduler)
  else if name = "score" then some (scoreScheduler cfg num kwargs)
  else none

end Kelpflux.Impl.Sim
