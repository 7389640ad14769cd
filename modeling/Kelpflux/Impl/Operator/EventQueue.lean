import Mathlib.Algebra.Order.Ring.Rat
import Mathlib.Logic.Function.Basic

/-!
# The operator's event queue and main loop (`operator/app.py`)

`_PoolEventQueue` with one consumer and any number of producers, and the loop of
`OperatorApp.run` that consumes it. A step is one atomic part of a call: a region
under the lock, or a call of `queue.Queue`; a step that the state is not ready
for changes nothing. What the loop does of metrics, logs and files is left out.
-/

namespace Kelpflux.Impl.Operator

structure QueueItem where
  poolKey : String
  source : String
  ts : ℚ
deriving DecidableEq

/-- How far a producer is in its `put`. -/
inductive Producer where
  | idle
  /-- It waits for the lock. -/
  | putting (poolKey source : String)
  /-- The pool is in `_pending`, and its entry not in `_q` yet. -/
  | marked (poolKey source : String)
deriving DecidableEq

/-- How far the consumer is in its `get`. -/
inductive Consumer where
  | idle
  | waiting
  /-- The entry is out of `_q`, and its pool still in `_pending`. -/
  | holding (item : QueueItem)
deriving DecidableEq

structure PoolEventQueue (ι : Type) where
  q : List QueueItem := []
  /-- `_pending`, a set. -/
  pending : List String := []
  producers : ι → Producer := fun _ => .idle
  consumer : Consumer := .idle

inductive QueueStep (ι : Type) where
  /-- A producer calls `put`. -/
  | put (i : ι) (poolKey source : String)
  /-- `with self._lock: …` of a `put` -/
  | mark (i : ι)
  /-- `self._q.put((pool_key, source, time.time()))` -/
  | enqueue (i : ι) (now : ℚ)
  /-- The consumer calls `get`. -/
  | get
  /-- `self._q.get` finds an entry. -/
  | dequeue
  /-- `self._q.get` raises `queue.Empty`. -/
  | timeout
  /-- `with self._lock: …` of a `get` -/
  | unmark

/-- What a call returns. -/
inductive QueueReturn (ι : Type) where
  | put (i : ι) (queued : Bool)
  | get (item : Option QueueItem)

namespace PoolEventQueue

variable {ι : Type} [DecidableEq ι]

def setProducer (s : PoolEventQueue ι) (i : ι) (p : Producer) : PoolEventQueue ι :=
  { s with producers := Function.update s.producers i p }

/-- A step, and what the call that it ends returns. -/
def step (s : PoolEventQueue ι) : QueueStep ι → PoolEventQueue ι × Option (QueueReturn ι)
  | .put i poolKey source =>
    match s.producers i with
    | .idle => (s.setProducer i (.putting poolKey source), none)
    | _ => (s, none)
  | .mark i =>
    match s.producers i with
    | .putting poolKey source =>
      if poolKey ∈ s.pending then (s.setProducer i .idle, some (.put i false))
      else ({ s.setProducer i (.marked poolKey source) with
                pending := poolKey :: s.pending }, none)
    | _ => (s, none)
  | .enqueue i now =>
    match s.producers i with
    | .marked poolKey source =>
      ({ s.setProducer i .idle with q := s.q ++ [⟨poolKey, source, now⟩] }, some (.put i true))
    | _ => (s, none)
  | .get =>
    match s.consumer with
    | .idle => ({ s with consumer := .waiting }, none)
    | _ => (s, none)
  | .dequeue =>
    match s.consumer, s.q with
    | .waiting, item :: q => ({ s with q := q, consumer := .holding item }, none)
    | _, _ => (s, none)
  | .timeout =>
    match s.consumer, s.q with
    | .waiting, [] => ({ s with consumer := .idle }, some (.get none))
    | _, _ => (s, none)
  | .unmark =>
    match s.consumer with
    | .holding item =>
      ({ s with pending := s.pending.filter fun key => key ≠ item.poolKey, consumer := .idle },
        some (.get (some item)))
    | _ => (s, none)

end PoolEventQueue

/-! ## The main loop -/

/-- Where an iteration of the loop is. -/
inductive Phase where
  | getting
  /-- `pool_keys`, and the event that it is of, before the states are collected. -/
  | collecting (poolKeys : List String) (event : Option QueueItem)
  /-- The pools of `pool_keys` that are still to be processed. -/
  | processing (poolKeys : List String)
deriving DecidableEq

structure MainLoop (ι : Type) where
  eventQueue : PoolEventQueue ι := {}
  phase : Phase := .getting
  consecutiveErrors : Nat := 0

inductive LoopStep (ι : Type) where
  /-- A step of a producer, or of the loop's `get`. -/
  | queue (a : QueueStep ι)
  | collected
  /-- `collect_all_partition_states` raises. -/
  | collectFailed
  /-- The next turn of the loop over `pool_keys`, or its end. -/
  | process

namespace MainLoop

variable {ι : Type} [DecidableEq ι] (cfgByKey : List String)

/-- A watcher puts none but the configured pools; the consumer is the loop. -/
def allowed (s : MainLoop ι) : QueueStep ι → Bool
  | .put _ poolKey _ => poolKey ∈ cfgByKey
  | .get | .dequeue | .timeout | .unmark => s.phase = .getting
  | _ => true

/-- A step, and the pool that it passes to `_process_pool`. -/
def step (s : MainLoop ι) : LoopStep ι → MainLoop ι × Option String
  | .queue a =>
    if s.allowed cfgByKey a then
      let (eventQueue, returned) := s.eventQueue.step a
      match returned with
      | some (.get (some item)) =>
        ({ s with eventQueue, phase := .collecting [item.poolKey] (some item) }, none)
      | some (.get none) => ({ s with eventQueue, phase := .collecting cfgByKey none }, none)
      | _ => ({ s with eventQueue }, none)
    else (s, none)
  | .collected =>
    match s.phase with
    | .collecting poolKeys _ =>
      ({ s with phase := .processing poolKeys, consecutiveErrors := 0 }, none)
    | _ => (s, none)
  | .collectFailed =>
    match s.phase with
    | .collecting _ _ =>
      ({ s with phase := .getting, consecutiveErrors := s.consecutiveErrors + 1 }, none)
    | _ => (s, none)
  | .process =>
    match s.phase with
    | .processing [] => ({ s with phase := .getting }, none)
    | .processing (key :: poolKeys) =>
      ({ s with phase := .processing poolKeys }, if key ∈ cfgByKey then some key else none)
    | _ => (s, none)

end MainLoop

end Kelpflux.Impl.Operator
