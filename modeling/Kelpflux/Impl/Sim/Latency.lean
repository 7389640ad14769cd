import Kelpflux.Framework.Dict
import Kelpflux.Framework.Python
import Kelpflux.Impl.Sim.GymEnv

/-!
# Latency models (`sim/latency.py`)

The delay between an allocation in the simulator and the job's start, in exact
arithmetic.
-/

namespace Kelpflux.Impl.Sim

open Framework

/-- The fields of `loader.Job` that the runner reads. -/
structure ReplayJob extends TraceJob where
  user : String := "anon"
  latencyClass : String := ""
deriving DecidableEq

inductive Pool where
  | cpu
  | gpu
deriving DecidableEq

/-- `pool_for_job` -/
def poolForJob (job : ReplayJob) : Pool :=
  let gpuType := Python.lower job.gpuType
  let latencyClass := Python.lower job.latencyClass
  if job.gpuCount > 0 ∨ Python.contains gpuType "gpu" ∨ Python.contains latencyClass "gpu" then .gpu
  else .cpu

inductive LatencyMode where
  | none
  | liveBasic
deriving DecidableEq

structure LatencyModel where
  mode : LatencyMode := .none
  fixedSeconds : ℚ := 0
  cpuWarmSeconds : ℚ := 0
  cpuColdSeconds : ℚ := 0
  gpuWarmSeconds : ℚ := 0
  gpuColdSeconds : ℚ := 0
  hardPlacementSeconds : ℚ := 0
  coldAfterSeconds : ℚ := 300
  activeByPool : Dict Pool Int := [(.cpu, 0), (.gpu, 0)]
  lastEndByPool : Dict Pool ℚ := []

namespace LatencyModel

/-- `LatencyModel.none` -/
def ofFixed (fixedSeconds : ℚ) : LatencyModel := { fixedSeconds := max 0 fixedSeconds }

/-- `LatencyModel.live_basic` -/
def liveBasic (fixedSeconds cpuWarmSeconds cpuColdSeconds gpuWarmSeconds gpuColdSeconds
    hardPlacementSeconds coldAfterSeconds : ℚ) : LatencyModel where
  mode := .liveBasic
  fixedSeconds := max 0 fixedSeconds
  cpuWarmSeconds := max 0 cpuWarmSeconds
  cpuColdSeconds := max 0 cpuColdSeconds
  gpuWarmSeconds := max 0 gpuWarmSeconds
  gpuColdSeconds := max 0 gpuColdSeconds
  hardPlacementSeconds := max 0 hardPlacementSeconds
  coldAfterSeconds := max 0 coldAfterSeconds

def warmLatency (m : LatencyModel) (pool : Pool) : ℚ :=
  if pool = .gpu then m.gpuWarmSeconds else m.cpuWarmSeconds

def coldLatency (m : LatencyModel) (pool : Pool) : ℚ :=
  if pool = .gpu then m.gpuColdSeconds else m.cpuColdSeconds

def startLatency (m : LatencyModel) (job : ReplayJob) (now : ℚ) : ℚ :=
  if m.mode = .none then m.fixedSeconds
  else
    let cls := Python.lower job.latencyClass
    if cls = "hard_placement" then m.fixedSeconds + m.hardPlacementSeconds
    else if cls = "gpu_warm" then m.fixedSeconds + m.gpuWarmSeconds
    else if cls = "gpu_cold" then m.fixedSeconds + m.gpuColdSeconds
    else if cls = "cpu_warm" then m.fixedSeconds + m.cpuWarmSeconds
    else if cls = "cpu_cold" then m.fixedSeconds + m.cpuColdSeconds
    else
      let pool := poolForJob job
      if (m.activeByPool.get? pool).getD 0 > 0 then m.fixedSeconds + m.warmLatency pool
      else
        match m.lastEndByPool.get? pool with
        | none => m.fixedSeconds + m.coldLatency pool
        | some lastEnd =>
          if now - lastEnd ≥ m.coldAfterSeconds then m.fixedSeconds + m.coldLatency pool
          else m.fixedSeconds + m.warmLatency pool

def recordStart (m : LatencyModel) (job : ReplayJob) : LatencyModel :=
  let pool := poolForJob job
  { m with activeByPool := m.activeByPool.set pool ((m.activeByPool.get? pool).getD 0 + 1) }

def recordEnd (m : LatencyModel) (job : ReplayJob) (now : ℚ) : LatencyModel :=
  let pool := poolForJob job
  { m with
    activeByPool := m.activeByPool.set pool (max 0 ((m.activeByPool.get? pool).getD 0 - 1))
    lastEndByPool := m.lastEndByPool.set pool now }

end LatencyModel

end Kelpflux.Impl.Sim
