import Kelpflux.Proof.Operator.RunningJobs
import Kelpflux.Proof.Operator.FailedReads
import Kelpflux.Proof.Operator.InFlight
import Kelpflux.Proof.Operator.Bounds
import Kelpflux.Proof.Operator.Removal
import Kelpflux.Proof.Operator.Gate
import Kelpflux.Proof.Operator.Backoff
import Kelpflux.Proof.Operator.Requeue
import Kelpflux.Proof.Sim.Decisions
import Kelpflux.Proof.Sim.Runner
import Kelpflux.Proof.Sim.Pin
import Kelpflux.Proof.Sim.Capacity
import Kelpflux.Proof.Sim.Episode
import Kelpflux.Proof.Scheduler.Rank
import Kelpflux.Proof.Scheduler.OwnedBand
import Kelpflux.Proof.Scheduler.Rollback
import Kelpflux.Proof.Scheduler.NStep
import Kelpflux.Proof.Scheduler.Parity
import Kelpflux.Proof.Scheduler.Masks
import Kelpflux.Proof.Scheduler.HardPlacement
import Kelpflux.Proof.Scheduler.Shadow
import Kelpflux.Proof.Operator.Victims
import Kelpflux.Proof.Operator.RateLimit
import Kelpflux.Proof.Operator.MainLoop
import Kelpflux.Proof.Scheduler.NodeState
import Kelpflux.Proof.Operator.JobPaths
import Kelpflux.Proof.Scheduler.SubmitScore
import Kelpflux.Proof.Scheduler.SubmitPriority
import Kelpflux.Proof.Scheduler.RlText
import Kelpflux.Proof.Scheduler.NodeIndex
import Kelpflux.Proof.Scheduler.HeldRequests
import Kelpflux.Proof.Scheduler.RunDaemon
import Kelpflux.Proof.Scheduler.ShadowLog
import Kelpflux.Proof.Sim.VecEnv
import Kelpflux.Proof.Scheduler.LiveObs
import Kelpflux.Proof.Scheduler.TresItems
import Kelpflux.Proof.Scheduler.TimeLimit
import Kelpflux.Proof.Operator.CheckpointGuard
import Kelpflux.Proof.Scheduler.Decide
import Kelpflux.Proof.Sim.Shaping
import Kelpflux.Proof.Sim.Warmup
import Kelpflux.Proof.Operator.Partitions
import Kelpflux.Proof.Scheduler.SubmitHelper
import Kelpflux.Proof.Scheduler.Curl
import Kelpflux.Proof.Scheduler.SumTree
import Kelpflux.Proof.Scheduler.Ring
import Kelpflux.Proof.Scheduler.Priorities
import Kelpflux.Proof.Sim.Isolate
import Kelpflux.Proof.Sim.Ablation
import Kelpflux.Proof.Predictor.Features
import Kelpflux.Proof.Operator.NodeList
import Kelpflux.Proof.Scheduler.PolicyRuns
import Kelpflux.Proof.Scheduler.DaemonRuns
import Kelpflux.Proof.Sim.Returns
import Kelpflux.Proof.Scheduler.PlacementRuns
import Kelpflux.Proof.Sim.Headroom
import Kelpflux.Proof.Sim.Turns
import Kelpflux.Proof.Scheduler.Rollouts
import Kelpflux.Proof.Scheduler.Demos
import Kelpflux.Proof.Scheduler.MixedBatch
import Kelpflux.Proof.Predictor.Service
