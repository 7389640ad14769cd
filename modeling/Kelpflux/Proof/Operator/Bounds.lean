import Kelpflux.Proof.Operator.Drains

/-!
# The replicas stay within their bounds

The replicas of a pool that only the operator patches are one of those that
there were at first and that it has patched (`replicasStep`), also where a read
is late; a failed read says 0. Of those the policy's aim is within the bounds of
the pool unless more nodes are busy than there are workers, which sets the floor
of a scale-down above its ceiling (`aim_bounds`). So the operator stays within
the bounds, and scales only for a reason, in every run in which that does not
happen and no rollback goes back to replicas out of bounds (`replicas_bounded`).
-/

namespace Kelpflux.Proof.Operator

open Framework Kelpflux.Impl.Operator CheckpointAwareQueuePolicy

/-- The replicas that the pool may have after a call. -/
def replicasStep (seen : List Int) : OpEvent → List Int
  | ⟨.command (.patchReplicas n), _⟩ => n :: seen
  | _ => seen

/-- Between the pool's minimum and its maximum. -/
def InRange (p : PartitionConfig) (n : Int) : Prop := p.minReplicas ≤ n ∧ n ≤ p.maxReplicas

instance (p : PartitionConfig) (n : Int) : Decidable (InRange p n) := by
  unfold InRange; infer_instance

/-- The replicas observed are ones that the pool may have, or were not read. -/
def ReadsReplicas (w : Watched (List Int)) (x : Reconcile) : Prop :=
  x.state.currentReplicas ∈ w.seen ∨ x.state.currentReplicas = 0

/-- Every patch is within the bounds; the policy scales up only for jobs that
wait for resources or to the minimum, and down only with no jobs running. -/
def StaysBounded (cfg : Config) (p : PartitionConfig) (w : Watched (List Int)) (x : Reconcile) :
    Prop :=
  (∀ n r, ⟨.command (.patchReplicas n), r⟩ ∈ callsOf cfg p w.mem x → InRange p n) ∧
  ∀ age missing,
    ((evaluate cfg.checkpointGuardEnabled p x.state age missing).action = .scaleUp →
      0 < x.state.scalePendingJobs ∨ x.state.currentReplicas < p.minReplicas) ∧
    ((evaluate cfg.checkpointGuardEnabled p x.state age missing).action = .scaleDown →
      x.state.runningJobs ≤ 0)

/-- Without pending jobs, more nodes are busy than there are workers or than the
maximum. -/
def Overrun (p : PartitionConfig) (st : PartitionState) : Prop :=
  st.scalePendingJobs ≤ 0 ∧ st.pendingJobs ≤ 0 ∧
    (p.minReplicas ≤ st.currentReplicas ∧ st.currentReplicas < st.busyNodes ∨
      p.maxReplicas < st.busyNodes)

/-- More nodes are busy than there may be workers; or a scale-up times out that
started from replicas out of bounds. -/
def LeavesBounds (cfg : Config) (p : PartitionConfig) (w : Watched (List Int)) (x : Reconcile) :
    Prop :=
  Overrun p x.state ∨ ∃ prov, TimesOut cfg w.mem x.env prov ∧ ¬ InRange p prov.fromReplicas

instance (p : PartitionConfig) (st : PartitionState) : Decidable (Overrun p st) := by
  unfold Overrun; infer_instance

variable {cfg : Config} {p : PartitionConfig} {st : PartitionState} {w : Watched (List Int)}
  {x : Reconcile}

/-! ## The policy -/

theorem aim_bounds (hp : validatePool p = .ok ()) (hst : ¬ Overrun p st)
    (hmove : aim p st ≠ st.currentReplicas) : InRange p (aim p st) := by
  obtain ⟨-, hle, -, -⟩ := validatePool_ok hp
  unfold Overrun at hst
  unfold aim at hmove ⊢
  unfold InRange clamp at *
  split_ifs at hmove ⊢
  · omega
  · omega
  · omega

theorem aim_up (hp : validatePool p = .ok ()) (hst : ¬ Overrun p st)
    (hup : st.currentReplicas < aim p st) :
    0 < st.scalePendingJobs ∨ st.currentReplicas < p.minReplicas := by
  obtain ⟨-, hle, -, hstep⟩ := validatePool_ok hp
  unfold Overrun at hst
  unfold aim clamp at hup
  split_ifs at hup
  · omega
  · omega
  · omega

/-- From no more than the maximum, jobs that wait for resources take no workers
away. -/
theorem aim_pending (hp : validatePool p = .ok ()) (hmax : st.currentReplicas ≤ p.maxReplicas)
    (hpending : 0 < st.scalePendingJobs) : st.currentReplicas ≤ aim p st := by
  obtain ⟨-, -, hstep, -⟩ := validatePool_ok hp
  unfold aim clamp
  rw [if_pos hpending]
  omega

/-! ## One reconcile -/

theorem patch_bounded (hp : validatePool p = .ok ()) (hx : ¬ LeavesBounds cfg p w x) {n : Int}
    {r : Except Exc Unit} (he : ⟨.command (.patchReplicas n), r⟩ ∈ callsOf cfg p w.mem x) :
    InRange p n := by
  have hover : ¬ Overrun p x.state := fun h => hx (.inl h)
  obtain ⟨ready, hready, he | ⟨age, missing, now, elapsed, s, he⟩⟩ := mem_processPool he id
  · obtain ⟨prov, t, hprov, hlt, hpos, ht, hlate, he⟩ := (mem_provisioningPhase id).mp he
    have hn : n = prov.fromReplicas := by
      rcases (provisioningTimeout_only prov).calls _ _ _ he with hq | hc | ⟨i, -, hc⟩
      · exact hq.elim
      · cases hc
        rfl
      · cases hc
    rw [hn]
    by_contra hout
    exact hx (.inr ⟨prov, ⟨hprov, ⟨ready, hready, hlt⟩, hpos, t, ht, hlate⟩, hout⟩)
  · set d := evaluate cfg.checkpointGuardEnabled p x.state age missing with hd
    have htarget : n = d.targetReplicas ∧ d.action ≠ .keep := by
      rcases mem_dispatch he id with ⟨hup, hc | hc⟩ | ⟨hdown, -, he⟩
      · cases hc
        exact ⟨rfl, by rw [hup]; decide⟩
      · cases hc
      · rcases (mem_drainThenScale he id).1 with hc | ⟨i, -, hc⟩
        · cases hc
          exact ⟨rfl, by rw [hdown]; decide⟩
        · cases hc
    obtain ⟨rfl, hkeep⟩ := htarget
    have hmove : aim p x.state ≠ x.state.currentReplicas := by
      cases hact : d.action with
      | keep => exact absurd hact hkeep
      | scaleUp =>
        have := (evaluate_scaleUp_iff _ _ _ _ _).mp hact
        omega
      | scaleDown =>
        have := (evaluate_scaleDown_iff _ _ _ _ _).mp hact
        omega
    rw [hd, evaluate_target hkeep]
    exact aim_bounds hp hover hmove

theorem staysBounded (hp : validatePool p = .ok ()) (hmax : x.state.currentReplicas ≤ p.maxReplicas)
    (hx : ¬ LeavesBounds cfg p w x) : StaysBounded cfg p w x := by
  have hover : ¬ Overrun p x.state := fun h => hx (.inl h)
  refine ⟨fun n r he => patch_bounded hp hx he, fun age missing => ⟨fun hup => ?_, fun hdown => ?_⟩⟩
  · exact aim_up hp hover ((evaluate_scaleUp_iff _ _ _ _ _).mp hup)
  · obtain ⟨hlt, hpending | hrun⟩ := (evaluate_scaleDown_iff _ _ _ _ _).mp hdown
    · have := aim_pending hp hmax hpending
      omega
    · exact hrun

/-! ## Runs -/

/-- What the pool may have is within its bounds. -/
def SeenBounded (p : PartitionConfig) (w : Watched (List Int)) : Prop := ∀ n ∈ w.seen, InRange p n

theorem seen_patched {seen : List Int} {es : List OpEvent} {n : Int}
    (h : n ∈ es.foldl replicasStep seen) :
    n ∈ seen ∨ ∃ r, ⟨.command (.patchReplicas n), r⟩ ∈ es := by
  induction es generalizing seen with
  | nil => exact .inl h
  | cons e es ih =>
    rcases ih h with h | ⟨r, hr⟩
    · unfold replicasStep at h
      split at h
      · rename_i n' r _
        rcases List.mem_cons.mp h with rfl | h
        · exact .inr ⟨r, List.mem_cons_self⟩
        · exact .inl h
      · exact .inl h
    · exact .inr ⟨r, List.mem_cons_of_mem _ hr⟩

theorem step_seenBounded (hp : validatePool p = .ok ()) (hw : SeenBounded p w)
    (hx : ¬ LeavesBounds cfg p w x) : SeenBounded p (watchStep replicasStep cfg p w x) := by
  intro n hn
  rcases seen_patched hn with hn | ⟨r, hr⟩
  · exact hw n hn
  · exact patch_bounded hp hx hr

/-- With a valid configuration, from replicas within the bounds of the pool, in
a run without another writer of the replicas, in which never more nodes are busy
than there are workers and no scale-up times out that started out of bounds, the
operator stays within the bounds and scales only for a reason. -/
theorem replicas_bounded {ps : List PartitionConfig} (hcfg : validateConfig cfg ps = .ok ())
    (hp : p ∈ ps) {n₀ : Int} (h₀ : InRange p n₀) {m : Memory} {xs : List Reconcile}
    (hobs : Along (watchStep replicasStep cfg p) ReadsReplicas ⟨m, [n₀]⟩ xs)
    (hxs : Along (watchStep replicasStep cfg p) (fun w x => ¬ LeavesBounds cfg p w x)
      ⟨m, [n₀]⟩ xs) :
    Along (watchStep replicasStep cfg p) (StaysBounded cfg p) ⟨m, [n₀]⟩ xs := by
  have hp := validateConfig_ok hcfg p hp
  have hw₀ : SeenBounded p ⟨m, [n₀]⟩ := by
    intro n hn
    rw [List.mem_singleton.mp hn]
    exact h₀
  have hinv := (hobs.and hxs).invariant (fun _ _ hw hx => step_seenBounded hp hw hx.2) hw₀
  refine hinv.mono fun w x ⟨hw, hobs, hx⟩ => staysBounded hp ?_ hx
  rcases hobs with hmem | hzero
  · exact (hw _ hmem).2
  · obtain ⟨hmin, hle, -, -⟩ := validatePool_ok hp
    omega

/-- A pool scales to its maximum of four and, with no job left, down by two. -/
theorem replicas_bounded_up_down :
    Along (watchStep replicasStep {} fourWorkers) (StaysBounded {} fourWorkers) ⟨{}, [3]⟩
      [⟨{ idle 3 1 with pendingJobs := 1, scalePendingJobs := 1 },
          quietEnv ⟨some 3, some 3⟩ 1000⟩,
        ⟨idle 4 0, quietEnv ⟨some 4, some 4⟩ 1100⟩] := by
  have hup : (watchStep replicasStep {} fourWorkers ⟨{}, [3]⟩
      ⟨{ idle 3 1 with pendingJobs := 1, scalePendingJobs := 1 },
        quietEnv ⟨some 3, some 3⟩ 1000⟩) =
      ⟨{ lastScaleActionAt := 1000, provisioning := some ⟨1000, 3, 4⟩ }, [4, 3]⟩ := by
    decide +kernel
  have hpool : fourWorkers ∈ [fourWorkers] := List.mem_cons_self
  refine replicas_bounded (by decide +kernel) hpool (by decide) ?_ ?_
  · refine ⟨.inl List.mem_cons_self, ?_, trivial⟩
    rw [hup]
    exact .inl List.mem_cons_self
  · refine ⟨?_, ?_, trivial⟩
    · rintro (h | ⟨prov, ⟨hprov, -⟩, -⟩)
      · exact absurd h (by decide)
      · cases hprov
    · rw [hup]
      rintro (h | ⟨prov, ⟨hprov, -⟩, hout⟩)
      · exact absurd h (by decide)
      · cases hprov
        exact hout (by decide)

/-- Five nodes of an idle pool of four are busy, by a listing that counts those of
another pool: the operator patches the replicas to five. -/
theorem replicas_not_bounded :
    let x : Reconcile := ⟨idle 4 5, quietEnv ⟨some 4, some 4⟩ 1000⟩
    validateConfig {} [fourWorkers] = .ok () ∧ InRange fourWorkers 4 ∧
      Along (watchStep replicasStep {} fourWorkers) ReadsReplicas ⟨{}, [4]⟩ [x] ∧
      ¬ Along (watchStep replicasStep {} fourWorkers) (StaysBounded {} fourWorkers)
        ⟨{}, [4]⟩ [x] := by
  refine ⟨by decide +kernel, by decide, ⟨.inl List.mem_cons_self, trivial⟩, fun h => ?_⟩
  exact absurd (h.1.1 5 (.ok ()) (by decide +kernel)) (by decide)

end Kelpflux.Proof.Operator
