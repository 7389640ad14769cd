import Mathlib.Algebra.Field.Basic
import Mathlib.Data.List.FinRange
import Mathlib.Logic.Function.Basic
import Kelpflux.Framework.Deque
import Kelpflux.Impl.Sim.Scheduler

/-!
# The simulator's training loops (`rl_scheduler/sim_train.py`)

What the loops hand to the replay buffer. The environments' answers and the
policy's actions are inputs: neither the choice of an action nor a gradient
step touches the n-step window. The action of `sim_train` while the buffer fills
up is `warmupAction`.
-/

namespace Kelpflux.Impl.Scheduler.SimTrain

open Framework

structure Transition (Obs Mask R : Type) where
  obs : Obs
  act : ℕ
  rew : R
  nextObs : Obs
  done : Bool
  mask : Mask
  nextMask : Mask
  deriving DecidableEq, Repr

/-- The arguments of a call of `buf.add`. -/
structure Added (Obs Mask R : Type) extends Transition Obs Mask R where
  gamma : R
  deriving DecidableEq, Repr

variable {Obs Mask R : Type}

/-! ## `_flush_nstep` -/

/-- The steps up to the first that is done, or all of them. -/
def horizon (nstepBuf : List (Transition Obs Mask R)) : ℕ :=
  match nstepBuf.findIdx? (·.done) with
  | some h => h + 1
  | none => nstepBuf.length

def flushNstep [Semiring R] (nstepBuf : List (Transition Obs Mask R))
    (buf : List (Added Obs Mask R)) (gamma : R) : List (Added Obs Mask R) :=
  match nstepBuf with
  | [] => buf
  | t0 :: rest =>
    let h := horizon (t0 :: rest)
    let (nstepRew, g) := ((t0 :: rest).take h).foldl
      (fun (nstepRew, g) t => (nstepRew + g * t.rew, g * gamma)) (0, 1)
    let tLast := (t0 :: rest).getD (h - 1) t0
    buf ++ [{ obs := t0.obs, act := t0.act, rew := nstepRew,
              nextObs := tLast.nextObs, done := tLast.done,
              mask := t0.mask, nextMask := tLast.nextMask, gamma := g }]

/-- What both loops do with the transition of a step: into the window, and a
flush where the window is full or the episode done. -/
def record [Semiring R] {n : ℕ} (gamma : R) (nstepBuf : Deque (Transition Obs Mask R) n)
    (buf : List (Added Obs Mask R)) (t : Transition Obs Mask R) :
    Deque (Transition Obs Mask R) n × List (Added Obs Mask R) :=
  let nstepBuf := nstepBuf.append t
  if nstepBuf.items.length = n ∨ t.done then
    let buf := flushNstep nstepBuf.items buf gamma
    (if t.done then .empty else nstepBuf, buf)
  else (nstepBuf, buf)

/-! ## The single-environment loop -/

/-- `_rn_count`, `_rn_mean`, `_rn_m2` -/
structure RunningNorm (R : Type) where
  count : ℕ
  mean : R
  m2 : R

/-- `_normalize`, with the square root it takes. -/
def normalize [Field R] (sqrt : R → R) (normalizeReward : Bool) (rn : RunningNorm R) (r : R) :
    RunningNorm R × R :=
  let count := rn.count + 1
  let d := r - rn.mean
  let mean := rn.mean + d / (count : R)
  let m2 := rn.m2 + d * (r - mean)
  if !normalizeReward || count < 2 then (⟨count, mean, m2⟩, r)
  else (⟨count, mean, m2⟩, r / (sqrt (m2 / (count : R)) + 1 / 10 ^ 6))

/-- What the environment and the policy answer in one pass of the loop;
`resetObs` is the first observation of the next episode. -/
structure Reply (Obs Mask R : Type) where
  mask : Mask
  act : ℕ
  nextObs : Obs
  rew : R
  term : Bool
  trunc : Bool
  nextMask : Mask
  resetObs : Obs

structure Trainer (Obs Mask R : Type) (n : ℕ) where
  obs : Obs
  rn : RunningNorm R
  nstepBuf : Deque (Transition Obs Mask R) n
  buf : List (Added Obs Mask R)

section Single

variable [Field R] (sqrt : R → R) (normalizeReward : Bool) (gamma : R) {n : ℕ}

/-- The transition that a pass appends. -/
def Trainer.transition (s : Trainer Obs Mask R n) (r : Reply Obs Mask R) :
    Transition Obs Mask R where
  obs := s.obs
  act := r.act
  rew := (normalize sqrt normalizeReward s.rn r.rew).2
  nextObs := r.nextObs
  done := r.term || r.trunc
  mask := r.mask
  nextMask := r.nextMask

def simTrainStep (s : Trainer Obs Mask R n) (r : Reply Obs Mask R) : Trainer Obs Mask R n :=
  let t := s.transition sqrt normalizeReward r
  let (nstepBuf, buf) := record gamma s.nstepBuf s.buf t
  { obs := if t.done then r.resetObs else r.nextObs
    rn := (normalize sqrt normalizeReward s.rn r.rew).1
    nstepBuf := nstepBuf
    buf := buf }

/-- The loop's state when it starts, with an empty buffer. -/
def Trainer.start (obs : Obs) : Trainer Obs Mask R n := ⟨obs, ⟨0, 0, 0⟩, .empty, []⟩

def simTrain (obs : Obs) (replies : List (Reply Obs Mask R)) : Trainer Obs Mask R n :=
  replies.foldl (simTrainStep sqrt normalizeReward gamma) (.start obs)

end Single

/-! ## The vectorized loop -/

/-- What `vec.step` answers for one environment, and the action it was given;
`finalObs` and `finalMask` are read where the episode is done. -/
structure VecReply (Obs Mask R : Type) where
  act : ℕ
  nextObs : Obs
  nextMask : Mask
  rew : R
  done : Bool
  finalObs : Obs
  finalMask : Mask

/-- One round of the loop. Where the curriculum enters another stage the
environments are built anew first, and `rebuilt` is what their reset gives. -/
structure Round (Obs Mask R : Type) (k : ℕ) where
  rebuilt : Option ((Fin k → Obs) × (Fin k → Mask))
  replies : Fin k → VecReply Obs Mask R

structure VecTrainer (Obs Mask R : Type) (n k : ℕ) where
  obs : Fin k → Obs
  masks : Fin k → Mask
  nstepBufs : Fin k → Deque (Transition Obs Mask R) n
  buf : List (Added Obs Mask R)

section Vec

variable [Semiring R] (gamma : R) {n k : ℕ}

/-- The curriculum's switch. -/
def VecTrainer.rebuild (s : VecTrainer Obs Mask R n k) (r : Round Obs Mask R k) :
    VecTrainer Obs Mask R n k :=
  match r.rebuilt with
  | some (obs, masks) => { s with obs := obs, masks := masks, nstepBufs := fun _ => .empty }
  | none => s

def VecTrainer.transition (s : VecTrainer Obs Mask R n k) (r : Round Obs Mask R k) (i : Fin k) :
    Transition Obs Mask R :=
  let e := r.replies i
  { obs := s.obs i, act := e.act, rew := e.rew
    nextObs := if e.done then e.finalObs else e.nextObs
    done := e.done
    mask := s.masks i
    nextMask := if e.done then e.finalMask else e.nextMask }

/-- `for i in range(num_envs)` -/
def recordAll (s : VecTrainer Obs Mask R n k) (r : Round Obs Mask R k) (is : List (Fin k)) :
    (Fin k → Deque (Transition Obs Mask R) n) × List (Added Obs Mask R) :=
  is.foldl (fun (nstepBufs, buf) i =>
    let (nstepBuf, buf) := record gamma (nstepBufs i) buf (s.transition r i)
    (Function.update nstepBufs i nstepBuf, buf)) (s.nstepBufs, s.buf)

def collectStep (s : VecTrainer Obs Mask R n k) (r : Round Obs Mask R k) :
    VecTrainer Obs Mask R n k :=
  let s := s.rebuild r
  let (nstepBufs, buf) := recordAll gamma s r (List.finRange k)
  { obs := fun i => (r.replies i).nextObs
    masks := fun i => (r.replies i).nextMask
    nstepBufs := nstepBufs
    buf := buf }

def VecTrainer.start (obs : Fin k → Obs) (masks : Fin k → Mask) : VecTrainer Obs Mask R n k :=
  ⟨obs, masks, fun _ => .empty, []⟩

/-- The loop of `_collect_and_train_vec`. -/
def collectAndTrainVec (obs : Fin k → Obs) (masks : Fin k → Mask)
    (rounds : List (Round Obs Mask R k)) : VecTrainer Obs Mask R n k :=
  rounds.foldl (collectStep gamma) (.start obs masks)

end Vec

/-! ## The warm-up of `sim_train` -/

section Warmup

open Sim

variable {G : Type} (choice : List ℕ → G → ℕ × G) (num : Numeric) {env : EnvConfig}

/-- The action while there are fewer than `warmup_steps` in the buffer, with the
scheduler of `score_warmup`. -/
def warmupAction (scoreSched : Option ScoreScheduler) (state : RunState env) (rng : G) : ℕ × G :=
  let mask := actionMask state
  let (act, rng) := choice ((List.range mask.length).filter fun a => mask[a]? = some true) rng
  match scoreSched with
  | none => (act, rng)
  | some scoreSched =>
    let ordered := scoreSched.order num state.pending state.cluster state.now
    let candidate := ordered.findSome? fun job =>
      match state.pending.findIdx? fun j => j.jobId = job.jobId with
      | none => none
      | some jobIdx =>
        let candidate := jobIdx * env.nPlacements * env.nModes
        if mask[candidate]? = some true then some candidate else none
    (candidate.getD act, rng)

end Warmup

end Kelpflux.Impl.Scheduler.SimTrain
