import Kelpflux.Impl.Scheduler.LiveDaemon

/-!
# The live daemon's log (`rl_scheduler/live_daemon.py`)

What one turn of `run_daemon` does with a listing: it keeps the observation that
each pending job was last shown in, takes the start of such a job as an action,
and logs a transition when the job is gone. The daemon's own replay buffer is
left out: only its length is read, to be printed.
-/

namespace Kelpflux.Impl.Scheduler.LiveDaemon

open Framework Framework.Python Sim

/-- What one turn reads. -/
structure Poll where
  now : ℚ
  /-- `_parse_squeue` of the listing. -/
  jobs : List LiveJob
  /-- `_sacct_jct` of a job that is gone. -/
  sacctJct : String → Option ℚ

/-- What is kept of a pending job: where, and at which index, it was shown. -/
structure Decision where
  obs : List PyFloat
  mask : List Bool
  topIds : List (Option String)
  ts : ℚ

/-- What is kept of a job that was seen to start. -/
structure Flight where
  obs : List PyFloat
  act : Nat
  mask : List Bool
  ts : ℚ

/-- A line of the log. -/
structure ShadowRow where
  obs : List PyFloat
  act : Nat
  rew : PyFloat
  nextObs : List PyFloat
  done : Bool := false
  mask : List Bool
  nextMask : List Bool
  jctS : PyFloat
deriving DecidableEq

/-- The object that is dumped. -/
def ShadowRow.toJson (row : ShadowRow) : Json :=
  .obj [("obs", .arr (row.obs.map .float)), ("act", .int row.act), ("rew", .float row.rew),
    ("next_obs", .arr (row.nextObs.map .float)), ("done", .bool row.done),
    ("mask", .arr (row.mask.map .bool)), ("next_mask", .arr (row.nextMask.map .bool)),
    ("jct_s", .float row.jctS)]

structure DaemonState where
  pendingObs : Dict String Decision := []
  inFlight : Dict String Flight := []
  /-- The log, with the job of each line. -/
  logged : List (String × ShadowRow) := []

def Poll.pending (p : Poll) : List LiveJob :=
  p.jobs.filter fun j => contains (upper j.state) "PENDING"

def Poll.running (p : Poll) : List LiveJob :=
  p.jobs.filter fun j => contains (upper j.state) "RUNNING"

def Poll.liveIds (p : Poll) : List String := p.jobs.map fun j => j.jobId

section

variable {n : Nat} (nodeNames : Fin n → String) (nGpus mpsPerGpu : Nat) (num : Numeric)
  /- A value as a 32-bit float. -/
  (f32 : PyFloat → PyFloat)

/-- `_node_j_of` -/
def nodeJOf (rj : LiveJob) : Option (Fin n) :=
  (List.finRange n).find? fun k => named rj (nodeNames k)

/-- `build_obs_and_mask` of a listing. -/
def decision (p : Poll) : Decision :=
  let (obs, mask, topIds) :=
    buildObsAndMask nodeNames nGpus mpsPerGpu num p.pending p.running p.now
  ⟨obs.map fun x => f32 (.fin x), mask, topIds, p.now⟩

/-- (1): the state that each job shown was in. -/
def keepDecisions (p : Poll) (pendingObs : Dict String Decision) : Dict String Decision :=
  if p.pending = [] then pendingObs
  else
    let d := decision nodeNames nGpus mpsPerGpu num f32 p
    (d.topIds.reduceOption.filter (· ≠ "")).foldl (fun kept jid => kept.set jid d) pendingObs

/-- (2): one turn of the loop over the running jobs. -/
def noteStart (s : DaemonState) (rj : LiveJob) : DaemonState :=
  match s.pendingObs.get? rj.jobId with
  | none => s
  | some d =>
    if rj.jobId ∈ s.inFlight.keys then s
    else
      let s := { s with pendingObs := s.pendingObs.erase rj.jobId }
      match nodeJOf nodeNames rj, d.topIds.idxOf? (some rj.jobId) with
      | some nodeJ, some jobI =>
        let act := jobI * (n * nGpus) + nodeJ * nGpus + 0
        { s with inFlight := s.inFlight.set rj.jobId ⟨d.obs, act, d.mask, d.ts⟩ }
      | _, _ => s

/-- The next state's observation and mask. -/
def nextState (p : Poll) : List PyFloat × List Bool :=
  if p.pending = [] then
    let (obsDim, nActions) := envDims n nGpus
    (List.replicate obsDim (.fin 0), (List.replicate nActions false).set (nActions - 1) true)
  else
    let d := decision nodeNames nGpus mpsPerGpu num f32 p
    (d.obs, d.mask)

/-- The line of a job that is gone. -/
def flightRow (p : Poll) (jid : String) (fl : Flight) : ShadowRow :=
  let jct := (p.sacctJct jid).getD (max 1 (p.now - fl.ts))
  let next := nextState nodeNames nGpus mpsPerGpu num f32 p
  { obs := fl.obs, act := fl.act, rew := .fin (-jct / 1000), nextObs := next.1, mask := fl.mask,
    nextMask := next.2, jctS := .fin jct }

/-- (3): the jobs that are gone. -/
def logEnded (p : Poll) (s : DaemonState) : DaemonState :=
  let ended := s.inFlight.filter fun kv => kv.1 ∉ p.liveIds
  { s with
    inFlight := s.inFlight.filter fun kv => kv.1 ∈ p.liveIds
    logged := s.logged ++ ended.map fun kv =>
      (kv.1, flightRow nodeNames nGpus mpsPerGpu num f32 p kv.1 kv.2) }

/-- One turn of `run_daemon`. -/
def daemonStep (s : DaemonState) (p : Poll) : DaemonState :=
  let kept := keepDecisions nodeNames nGpus mpsPerGpu num f32 p s.pendingObs
  logEnded nodeNames nGpus mpsPerGpu num f32 p
    (p.running.foldl (noteStart nodeNames nGpus) { s with pendingObs := kept })

end

end Kelpflux.Impl.Scheduler.LiveDaemon
