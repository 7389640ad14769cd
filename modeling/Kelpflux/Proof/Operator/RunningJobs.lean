import Kelpflux.Proof.Operator.Reconcile

/-!
# Running jobs and their workers

With jobs running, the policy's branches keep every worker: `_do_scale_up`
aims above the replicas there are and `_do_scale_down` returns at once. The
rollback of a scale-up that timed out reads neither the running jobs nor the
replicas: it is the one branch that can lower the replicas, and does so
whenever the pool was smaller before the scale-up (`keepsWorkers_iff`).
-/

namespace Kelpflux.Proof.Operator

open Framework Kelpflux.Impl.Operator

/-- The workers below `n` stay: the replicas are not set below `n`, and no
ordinal below `n` is marked `FUTURE`. -/
def Keeps (n : Int) : Call → Prop
  | .command (.patchReplicas r) => n ≤ r
  | .command (.future i _) => n ≤ i
  | _ => True

instance (n : Int) : DecidablePred (Keeps n) := fun c => by
  unfold Keeps; split <;> infer_instance

theorem Quiet.keeps {n : Int} {c : Call} (h : Quiet c) : Keeps n c := by
  unfold Keeps; split <;> trivial

variable {cfg : Config} {p : PartitionConfig}

/-- A rollback patches the replicas, whatever the `FUTURE` marks before it do. -/
theorem provisioningTimeout_patches (cfg : Config) (env : OpEnv) (prov : Provisioning)
    (s : OpState) :
    ∃ e ∈ (provisioningTimeout cfg prov).calls env s,
      e.call = Call.command (.patchReplicas prov.fromReplicas) := by
  have hmarks : WP env ((range prov.fromReplicas prov.targetReplicas).forM fun i =>
      attempt (.future i "provisioning-timeout")) s fun r _ => r = .ok () :=
    WP.forM (fun _ _ => True) trivial (fun x xs s _ => by simp [attempt]) fun _ _ => rfl
  generalize hs₁ : (((range prov.fromReplicas prov.targetReplicas).forM fun i =>
    attempt (.future i "provisioning-timeout")).run env s).2 = s₁
  refine ⟨⟨.command (.patchReplicas prov.fromReplicas), env s₁.trace.length _⟩,
    Prog.mem_calls_bind.mpr (.inr ⟨(), hmarks, Prog.mem_calls_bind.mpr (.inl ?_)⟩), rfl⟩
  rw [perform, Prog.calls_perform, hs₁]
  exact List.mem_singleton_self _

/-- The reconcile keeps the workers of the pool while jobs are running. -/
def KeepsWorkers (cfg : Config) (p : PartitionConfig) (m : Memory) (x : Reconcile) : Prop :=
  0 < x.state.runningJobs → ∀ e ∈ callsOf cfg p m x, Keeps x.state.currentReplicas e.call

instance (m : Memory) (x : Reconcile) : Decidable (KeepsWorkers cfg p m x) := by
  unfold KeepsWorkers; infer_instance

/-- Jobs are running and a scale-up times out that started from fewer replicas
than there are. -/
def RollsBackRunning (cfg : Config) (m : Memory) (x : Reconcile) : Prop :=
  0 < x.state.runningJobs ∧
    ∃ prov, TimesOut cfg m x.env prov ∧ prov.fromReplicas < x.state.currentReplicas

theorem keepsWorkers_iff (m : Memory) (x : Reconcile) :
    KeepsWorkers cfg p m x ↔ ¬ RollsBackRunning cfg m x := by
  constructor
  · rintro h ⟨hrun, prov, ⟨hprov, ⟨ready, hready, hlt⟩, hpos, t, ht, hlate⟩, hfrom⟩
    obtain ⟨e, he, hcall⟩ := provisioningTimeout_patches cfg x.env prov
      ⟨m, [⟨.readStatefulSet, x.env 0 .readStatefulSet⟩, ⟨.time, x.env 1 .time⟩]⟩
    have hphase := (mem_provisioningPhase (s := ⟨m, [⟨.readStatefulSet, x.env 0 .readStatefulSet⟩]⟩)
      (by rw [hcall]; exact id)).mpr ⟨prov, t, hprov, hlt, hpos, ht, hlate, he⟩
    have hkeeps := h hrun e (mem_processPool_of_provisioningPhase hready hphase)
    rw [hcall, Keeps] at hkeeps
    omega
  · intro h hrun e he
    by_cases hq : Quiet e.call
    · exact hq.keeps
    obtain ⟨ready, hready, he | ⟨age, missing, now, elapsed, s', he⟩⟩ := mem_processPool he hq
    · obtain ⟨prov, t, hprov, hlt, hpos, ht, hlate, he⟩ := (mem_provisioningPhase hq).mp he
      have hfrom : x.state.currentReplicas ≤ prov.fromReplicas := by
        by_contra hfrom
        exact h ⟨hrun, prov, ⟨hprov, ⟨ready, hready, hlt⟩, hpos, t, ht, hlate⟩, by omega⟩
      rcases ((provisioningTimeout_only prov).calls _ _ e he).resolve_left hq with
        hc | ⟨i, hi, hc⟩ <;> rw [hc]
      · exact hfrom
      · exact hfrom.trans (mem_range.mp hi).1
    · rcases mem_dispatch he hq with ⟨hup, hc⟩ | ⟨-, hidle, -⟩
      · have htarget := (evaluate_scaleUp_iff _ _ _ _ _).mp hup
        rw [← evaluate_target (by rw [hup]; decide)] at htarget
        rcases hc with hc | hc <;> rw [hc]
        · exact htarget.le
        · trivial
      · omega

/-- In a run of `_process_pool` calls, every call keeps the workers below the
replicas it is given while jobs are running, if and only if no call rolls back
a timed-out scale-up that started from fewer replicas while jobs are running. -/
theorem running_workers_kept_iff (m : Memory) (xs : List Reconcile) :
    Along (stepMemory cfg p) (KeepsWorkers cfg p) m xs ↔
      Along (stepMemory cfg p) (fun m x => ¬ RollsBackRunning cfg m x) m xs :=
  Along.congr keepsWorkers_iff m xs

/-- A pool scales from one replica to three for a job waiting for resources.
Two of the three workers become ready and run jobs; the third does not in time,
and both new workers are taken away. -/
theorem running_workers_not_kept :
    let pool : PartitionConfig :=
      { partition := "gpu", workerStatefulset := "slurm-worker-gpu", minReplicas := 0,
        maxReplicas := 4, scaleUpStep := 2, scaleDownStep := 1, scaleDownCooldown := 60 }
    let state : PartitionState :=
      { partition := "gpu", workerStatefulset := "slurm-worker-gpu", currentReplicas := 1,
        pendingJobs := 1, runningJobs := 1, busyNodes := 1, scalePendingJobs := 1 }
    validateConfig {} [pool] = .ok () ∧
      ¬ Along (stepMemory {} pool) (KeepsWorkers {} pool) {}
        [⟨state, quietEnv ⟨some 1, some 1⟩ 1000⟩,
          ⟨{ state with currentReplicas := 3, pendingJobs := 0, runningJobs := 2, busyNodes := 2,
                        scalePendingJobs := 0 },
            quietEnv ⟨some 3, some 2⟩ 1400⟩] := by
  decide +kernel

end Kelpflux.Proof.Operator
