import Kelpflux.Proof.Operator.Decision

/-!
# The checkpoint guard

An observer of the operator's calls sees each reading of the checkpoint's age and
since when there has been none (`sight`). A guard would keep the replicas while
the checkpoint is too old or has been missing for too long (`Blocked`); the
policy is handed both readings and looks at neither, so that it keeps them just
where the jobs give it no cause to scale down: `guard_held_iff`.
-/

namespace Kelpflux.Proof.Operator

open Framework Kelpflux.Impl.Operator CheckpointAwareQueuePolicy

/-- Since when the checkpoint has been missing, and whether it has just been
found missing, at a time that is read next. -/
structure Sighting where
  since : Option ℚ := none
  untimed : Bool := false

def sight (s : Sighting) : OpEvent → Sighting
  | ⟨.statCheckpoint _, .ok age⟩ => if (age : ℤ) < 0 then { s with untimed := true } else {}
  | ⟨.time, .ok t⟩ => if s.untimed then { since := some (s.since.getD t) } else s
  | ⟨.time, .error _⟩ => { s with untimed := false }
  | _ => s

/-- The guard is on, and knows which file to look at. -/
def Guarded (cfg : Config) (p : PartitionConfig) : Prop :=
  cfg.checkpointGuardEnabled = true ∧ p.checkpointPath ≠ ""

/-- The checkpoint was read as older than it may be. -/
def TooOld (p : PartitionConfig) (es : List OpEvent) : Prop :=
  ∃ age : ℤ, ⟨.statCheckpoint p.checkpointPath, .ok age⟩ ∈ es ∧ 0 ≤ age ∧
    p.maxCheckpointAgeSeconds < age

/-- There has been no checkpoint for longer than the grace. -/
def MissingTooLong (p : PartitionConfig) (s : Sighting) (now : ℚ) : Prop :=
  ∃ t ∈ s.since, p.checkpointGraceSeconds < now - t

/-- The reconcile comes to a decision, and the guard ought to look at it. -/
def Blocked (cfg : Config) (p : PartitionConfig) (w : Watched Sighting) (x : Reconcile) : Prop :=
  Guarded cfg p ∧ ∃ d now elapsed s, Decides cfg p w.mem x d now elapsed s ∧
    (TooOld p s.trace ∨ MissingTooLong p (s.trace.foldl sight w.seen) now)

/-- No scale-down is dispatched that the guard ought to hold back. -/
def GuardHeld (cfg : Config) (p : PartitionConfig) (w : Watched Sighting) (x : Reconcile) : Prop :=
  Blocked cfg p w x → ∀ d now elapsed s, Decides cfg p w.mem x d now elapsed s →
    d.action ≠ .scaleDown

/-- The jobs leave workers over: there are more than the minimum and, with none
waiting for resources, no jobs and more than the nodes that are busy. -/
def Shrinks (p : PartitionConfig) (st : PartitionState) : Prop :=
  p.minReplicas < st.currentReplicas ∧
  if 0 < st.scalePendingJobs then p.maxReplicas < st.currentReplicas ∨ p.scaleUpStep < 0
  else st.pendingJobs ≤ 0 ∧ st.runningJobs ≤ 0 ∧ st.busyNodes < st.currentReplicas ∧
    (0 < p.scaleDownStep ∨ p.maxReplicas < st.currentReplicas)

instance (p : PartitionConfig) (st : PartitionState) : Decidable (Shrinks p st) := by
  unfold Shrinks; infer_instance

variable {cfg : Config} {p : PartitionConfig} {w : Watched Sighting} {x : Reconcile}
  {d : ScalingDecision}

/-- Whatever the checkpoint's readings are, the jobs alone decide. -/
theorem evaluate_shrinks (g : Bool) (p : PartitionConfig) (st : PartitionState)
    (age : Option Int) (missing : Option ℚ) :
    (evaluate g p st age missing).action = .scaleDown ↔ Shrinks p st := by
  rw [evaluate_scaleDown_iff]
  unfold aim clamp Shrinks
  split_ifs
  · omega
  · omega
  · omega

theorem decides_shrinks {now elapsed : ℚ} {s : OpState} (h : Decides cfg p w.mem x d now elapsed s) :
    d.action = .scaleDown ↔ Shrinks p x.state := by
  obtain ⟨age, missing, rfl⟩ := h.decision
  exact evaluate_shrinks _ _ _ _ _

theorem guardHeld_iff : GuardHeld cfg p w x ↔ (Blocked cfg p w x → ¬ Shrinks p x.state) := by
  refine imp_congr_right fun hblocked => ⟨fun h hshrinks => ?_, fun h d now elapsed s hd hdown => ?_⟩
  · obtain ⟨-, d, now, elapsed, s, hd, -⟩ := hblocked
    exact h d now elapsed s hd ((decides_shrinks hd).mpr hshrinks)
  · exact h ((decides_shrinks hd).mp hdown)

/-- In a run of reconciles, whatever they observe and whatever has been seen of
the checkpoint before, the guard is held exactly when the jobs leave no workers
over in any reconcile whose checkpoint ought to block a scale-down. -/
theorem guard_held_iff (cfg : Config) (p : PartitionConfig) (w : Watched Sighting)
    (xs : List Reconcile) :
    Along (watchStep sight cfg p) (GuardHeld cfg p) w xs ↔
      Along (watchStep sight cfg p) (fun w x => Blocked cfg p w x → ¬ Shrinks p x.state) w xs :=
  Along.congr (fun _ _ => guardHeld_iff) w xs

/-! ## An idle pool -/

/-- A pool whose checkpoint may be ten minutes old. -/
def trainers : PartitionConfig where
  partition := "gpu"
  workerStatefulset := "slurm-worker-gpu"
  minReplicas := 1
  maxReplicas := 4
  scaleUpStep := 1
  scaleDownStep := 1
  scaleDownCooldown := 60
  checkpointPath := "/shared/latest.ckpt"

/-- Three idle workers; the checkpoint is an hour old. -/
def hourOld : Reconcile where
  state := ⟨"gpu", "slurm-worker-gpu", 3, 0, 0, 0, 0⟩
  env := fun n c => .ok <| match c with
    | .statCheckpoint _ => (3600 : ℤ)
    | c => quietAnswers ⟨some 3, some 3⟩ 1000 n c

theorem stale_scaled_down : ¬ ∀ (cfg : Config) (p : PartitionConfig) (w : Watched Sighting)
    (xs : List Reconcile), Along (watchStep sight cfg p) (GuardHeld cfg p) w xs := by
  intro h
  have hheld := (h {} trainers ⟨{}, {}⟩ [hourOld]).1
  have hdecides : Decides {} trainers {} hourOld ⟨2, .scaleDown, "no_pending_jobs"⟩ 1000 1000
      ((decisionPhase {} trainers hourOld.state).run hourOld.env ⟨{}, []⟩).2 :=
    Prod.ext (by decide +kernel) rfl
  have hread : ⟨.statCheckpoint "/shared/latest.ckpt", .ok (3600 : ℤ)⟩ ∈
      ((decisionPhase {} trainers hourOld.state).run hourOld.env ⟨{}, []⟩).2.trace := by
    decide +kernel
  have hblocked : Blocked {} trainers ⟨{}, {}⟩ hourOld :=
    ⟨⟨rfl, by decide⟩, _, _, _, _, hdecides, .inl ⟨3600, hread, by decide, by decide⟩⟩
  exact hheld hblocked _ _ _ _ hdecides rfl

end Kelpflux.Proof.Operator
