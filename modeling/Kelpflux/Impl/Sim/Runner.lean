import Kelpflux.Impl.Sim.Latency

/-!
# The discrete-event runner (`sim/runner.py`)

A trace on a cluster under a scheduler, in exact arithmetic: after every event
the scheduler orders the pending jobs, and those that fit are started. The
loop over the event queue has a bound on its turns. A scheduler keeps what it
likes from one call to the next, orders pending jobs, and raises nothing.
-/

namespace Kelpflux.Impl.Sim

open Framework

/-- `Cluster(n_nodes, gpus_per_node, mps_per_gpu)` -/
def clusterConfig (nNodes gpusPerNode mpsPerGpu : Nat) : Config where
  nNodes := nNodes
  gpusPerNode := gpusPerNode
  mpsPerGpu := mpsPerGpu
  ram_given := Config.none_given nNodes
  ram_nonneg := Config.no_ram_nonneg
  overcommit_nonneg := Config.one_nonneg

/-- `total_mps` -/
def Cluster.totalMps (cfg : Config) : Nat := cfg.nNodes * cfg.gpusPerNode * cfg.mpsPerGpu

/-- `used_mps` -/
def Cluster.usedMps {cfg : Config} (c : Cluster cfg) : Int :=
  Cluster.totalMps cfg - ((List.finRange cfg.nNodes).map fun i => (c.nodes i).freeMpsTotal).sum

def Cluster.utilization {cfg : Config} (c : Cluster cfg) : ℚ :=
  if Cluster.totalMps cfg ≠ 0 then c.usedMps / Cluster.totalMps cfg else 0

/-! ## `MetricCollector` -/

structure JobRecord where
  jobId : String
  user : String
  gpuCount : Int
  mpsReq : Int
  submitTs : ℚ
  startTs : Option ℚ := none
  endTs : Option ℚ := none
  runtime : ℚ
  sloS : ℚ
  jobClass : String

/-- The record of a job that was submitted. -/
def JobRecord.submitted (j : ReplayJob) : JobRecord where
  jobId := j.jobId
  user := j.user
  gpuCount := j.gpuCount
  mpsReq := j.mpsReq
  submitTs := j.submitTs
  runtime := j.runtime
  sloS := j.sloS
  jobClass := j.jobClass

structure MetricCollector where
  records : Dict String JobRecord := []
  utilSamples : List (ℚ × ℚ) := []

namespace MetricCollector

variable (m : MetricCollector)

def recordSubmit (j : ReplayJob) : MetricCollector :=
  { m with records := m.records.set j.jobId (JobRecord.submitted j) }

/-- A record that is updated; the runner's jobs all have one. -/
def update (jobId : String) (f : JobRecord → JobRecord) : MetricCollector :=
  match m.records.get? jobId with
  | none => m
  | some r => { m with records := m.records.set jobId (f r) }

def recordStart (jobId : String) (t : ℚ) : MetricCollector :=
  m.update jobId fun r => { r with startTs := some t }

def recordEnd (jobId : String) (t : ℚ) : MetricCollector :=
  m.update jobId fun r => { r with endTs := some t }

def sampleUtil (t frac : ℚ) : MetricCollector :=
  { m with utilSamples := m.utilSamples ++ [(t, frac)] }

end MetricCollector

/-! ## `run` -/

/-- A scheduler with the state `S`. -/
structure Scheduler (cfg : Config) (S : Type) where
  order : List ReplayJob → Cluster cfg → ℚ → S → List ReplayJob × S
  backfill : Bool

/-- The variables of `run`. -/
structure Replay (cfg : Config) (S : Type) where
  cluster : Cluster cfg
  scheduler : S
  metrics : MetricCollector
  latency : LatencyModel
  pending : List ReplayJob
  events : List Event
  seq : Nat
  now : ℚ

namespace Replay

variable {cfg : Config} {S : Type}

/-- Before the loop. -/
def init (cfg : Config) (scheduler : S) (latency : LatencyModel) (jobs : List ReplayJob) :
    Replay cfg S where
  cluster := Cluster.init cfg
  scheduler := scheduler
  metrics := (jobs.foldl MetricCollector.recordSubmit {}).sampleUtil 0 0
  latency := latency
  pending := []
  events := (submissions (jobs.map fun j => j.toTraceJob)).foldl heappush []
  seq := jobs.length
  now := 0

/-- What `try_dispatch` does with a job that was allocated. -/
def startJob (st : Replay cfg S) (j : ReplayJob) (cluster : Cluster cfg) : Replay cfg S :=
  let startT := st.now + st.latency.startLatency j st.now
  { st with
    cluster := cluster
    pending := st.pending.erase j
    metrics := st.metrics.recordStart j.jobId startT
    latency := st.latency.recordStart j
    events := heappush st.events ⟨startT + j.runtime, st.seq, .jobEnd, j.jobId⟩
    seq := st.seq + 1 }

/-- The loop of `try_dispatch`, over the jobs in the scheduler's order. -/
def dispatch (backfill : Bool) : List ReplayJob → Replay cfg S → Replay cfg S
  | [], st => st
  | j :: js, st =>
    match st.cluster.tryAllocate j.toJob with
    | (some _, cluster) => dispatch backfill js (st.startJob j cluster)
    | (none, _) => if backfill then dispatch backfill js st else st

section Loop

variable (sch : Scheduler cfg S) (byId : Dict String ReplayJob)

/-- `scheduler.order(pending, cluster, now)`, and the scheduler it leaves. -/
def order (st : Replay cfg S) : List ReplayJob × Replay cfg S :=
  let (ordered, scheduler) := sch.order st.pending st.cluster st.now st.scheduler
  (ordered, { st with scheduler := scheduler })

def tryDispatch (st : Replay cfg S) : Replay cfg S :=
  let (ordered, st) := st.order sch
  st.dispatch sch.backfill ordered

/-- What happens at an event that was popped. `by_id` has every job that an
event names. -/
def handle (st : Replay cfg S) (e : Event) : Replay cfg S :=
  let st := { st with now := e.time }
  match byId.get? e.jobId with
  | none => st
  | some j =>
    match e.kind with
    | .submit => { st with pending := st.pending ++ [j] }
    | .jobEnd =>
      { st with
        cluster := st.cluster.release e.jobId
        metrics := st.metrics.recordEnd e.jobId st.now
        latency := st.latency.recordEnd j st.now }

/-- `heappop`, and what happens at the event. -/
def popEvent (st : Replay cfg S) : Replay cfg S :=
  match st.events with
  | [] => st
  | e :: es => { st with events := es }.handle byId e

/-- `metrics.sample_util(now, cluster.utilization())` -/
def sampleUtil (st : Replay cfg S) : Replay cfg S :=
  { st with metrics := st.metrics.sampleUtil st.now st.cluster.utilization }

/-- One turn of the loop over the events. -/
def turn (st : Replay cfg S) : Replay cfg S := ((st.popEvent byId).tryDispatch sch).sampleUtil

/-- The loop, for so many turns at most: `none` if that was not enough. -/
def loop : Nat → Replay cfg S → Option (Replay cfg S)
  | 0, st => if st.events = [] then some st else none
  | fuel + 1, st => if st.events = [] then some st else loop fuel (st.turn sch byId)

end Loop

end Replay

/-- `{j.job_id: j for j in jobs}` -/
def byJobId (jobs : List ReplayJob) : Dict String ReplayJob :=
  Dict.ofList (jobs.map fun j => (j.jobId, j))

/-- `run`, of a scheduler object and with a bound on the turns of its loop. -/
def runTrace {S : Type} (nNodes gpusPerNode mpsPerGpu : Nat)
    (sch : Scheduler (clusterConfig nNodes gpusPerNode mpsPerGpu) S) (scheduler : S)
    (latency : LatencyModel) (jobs : List ReplayJob) (fuel : Nat) :
    Option (MetricCollector × Cluster (clusterConfig nNodes gpusPerNode mpsPerGpu)) :=
  (Replay.loop sch (byJobId jobs) fuel (Replay.init _ scheduler latency jobs)).map fun st =>
    (st.sampleUtil.metrics, st.cluster)

end Kelpflux.Impl.Sim
