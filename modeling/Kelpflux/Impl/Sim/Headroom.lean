import Kelpflux.Impl.Sim.Runner
import Mathlib.Data.Prod.Lex
import Mathlib.Data.String.Basic
import Mathlib.Order.WithBot

/-!
# The headroom study (`eval/scripts/headroom_analysis.py`)

The mean completion time of a trace under a fixed order of its jobs, the least
of it over all orders (`exactBest`), and the local search for it (`searchBest`),
in exact arithmetic. `random.Random` is a `Sampler`. A `KeyError` or a
`ValueError` is `none`; a run is given the turns that its jobs need.
-/

namespace Kelpflux.Impl.Sim

open Framework

/-- `jct` -/
def JobRecord.jct (r : JobRecord) : Option ℚ := r.endTs.map fun t => t - r.submitTs

/-- `summary()["jct_mean"]`, which is there if a job has ended. -/
def MetricCollector.jctMean (m : MetricCollector) : Option ℚ :=
  let jcts := m.records.filterMap fun kv => kv.2.jct
  if jcts = [] then none else some (jcts.sum / jcts.length)

/-! ## `FixedPriorityScheduler` -/

/-- The key that `FixedPriorityScheduler.order` sorts by. -/
def priorityKey (priority : Dict String Int) (j : ReplayJob) : ℤ ×ₗ ℚ ×ₗ String :=
  toLex ((priority.get? j.jobId).getD (2 ^ 30), toLex (j.submitTs, j.jobId))

def fixedPriority (cfg : Config) (priority : Dict String Int) : Scheduler cfg Unit where
  order pending _ _ s :=
    (pending.insertionSort fun a b => priorityKey priority a ≤ priorityKey priority b, s)
  backfill := true

/-- `{jid: rank for rank, jid in enumerate(order)}` -/
def ranks (order : List String) : Dict String Int :=
  Dict.ofList (order.zipIdx.map fun jr => (jr.1, (jr.2 : Int)))

namespace Headroom

variable (nNodes gpusPerNode : Nat) (jobs : List ReplayJob)

/-- The mean completion time of a run with these priorities. -/
def jctFixed (priority : Dict String Int) : Option ℚ :=
  (runTrace nNodes gpusPerNode 100 (fixedPriority _ priority) () (LatencyModel.ofFixed 0) jobs
    (2 * jobs.length)).bind fun r => r.1.jctMean

/-- `_jct_order` -/
def jctOrder (order : List String) : Option ℚ := jctFixed nNodes gpusPerNode jobs (ranks order)

def jobIds : List String := jobs.map fun j => j.jobId

/-- `exact_best`; its permutations come in another order than Python's. -/
def exactBest : Option (WithTop ℚ) :=
  (jobIds jobs).permutations.foldlM (fun best perm => do
    let jct ← jctOrder nNodes gpusPerNode jobs perm
    return min best jct) ⊤

/-! ## `search_best` -/

/-- `random.Random`, with the state `G`. -/
structure Sampler (G : Type) where
  /-- `rng.sample(ids, n)`, of all ids -/
  shuffle : List String → G → List String × G
  shuffle_perm : ∀ ids g, (shuffle ids g).1.Perm ids
  /-- `rng.sample(range(n), 2)`, which raises for a smaller `n` -/
  pair (n : Nat) : 2 ≤ n → G → (Fin n × Fin n) × G

/-- `order[i], order[k] = order[k], order[i]` -/
def swap (order : List String) (i k : Nat) : List String := (order.toArray.swapIfInBounds i k).toList

variable {G : Type} (rng : Sampler G)

/-- The inner loop of `search_best`, with so many turns left. -/
def climb (n : Nat) : Nat → List String → ℚ → G → Option (ℚ × G)
  | 0, _, cur, g => some (cur, g)
  | turns + 1, order, cur, g =>
    if h : 2 ≤ n then do
      let ((i, k), g) := rng.pair n h g
      let order := swap order i k
      let val ← jctOrder nNodes gpusPerNode jobs order
      if val ≤ cur then climb n turns order val g
      else climb n turns (swap order i k) cur g
    else none

/-- The shortest runtime first. -/
def sjf : List String := jobIds (jobs.insertionSort fun a b => a.runtime ≤ b.runtime)

/-- The body of the loop over the restarts. -/
def restart (turns : Nat) (best : WithTop ℚ × G) (r : Nat) : Option (WithTop ℚ × G) := do
  let (order, g) := if r = 0 then (sjf jobs, best.2) else rng.shuffle (jobIds jobs) best.2
  let cur ← jctOrder nNodes gpusPerNode jobs order
  let (cur, g) ← climb nNodes gpusPerNode jobs rng jobs.length turns order cur g
  return (min best.1 cur, g)

/-- `search_best`, from the state of the generator that its seed gives. -/
def searchBest (iters restarts : Int) (g : G) : Option (WithTop ℚ) := do
  let turns := (iters / max 1 restarts).toNat
  let (best, _) ← (List.range (max 1 restarts).toNat).foldlM
    (restart nNodes gpusPerNode jobs rng turns) (⊤, g)
  return best

end Headroom

end Kelpflux.Impl.Sim
