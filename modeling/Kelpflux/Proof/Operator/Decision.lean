import Kelpflux.Proof.Operator.Reconcile

/-!
# A reconcile up to its decision

`decisionPhase` is `_process_pool` up to the dispatch of its decision
(`processPoolBody_eq`): its calls to Slurm are those of the block on a scale-up
in flight, and it leaves the draining nodes as they are
(`decisionPhase_frames`). `watchStep` is a reconcile seen by an observer of its
calls.
-/

namespace Kelpflux.Proof.Operator

open Framework Kelpflux.Impl.Operator

/-- The operator's memory of a pool, and what an observer has made of its calls
so far. -/
structure Watched (τ : Type) where
  mem : Memory
  seen : τ
deriving DecidableEq

/-- A reconcile, watched. -/
def watchStep {τ : Type} (see : τ → OpEvent → τ) (cfg : Config) (p : PartitionConfig)
    (w : Watched τ) (x : Reconcile) : Watched τ :=
  ⟨stepMemory cfg p w.mem x, (callsOf cfg p w.mem x).foldl see w.seen⟩

/-- `_process_pool` up to the dispatch: its decision, the time, and how long ago
the replicas were last scaled. -/
def decisionPhase (cfg : Config) (p : PartitionConfig) (st : PartitionState) :
    Op (ScalingDecision × ℚ × ℚ) := do
  let ready ← K8sClient.getReadyReplicas
  provisioningPhase cfg ready
  let (checkpointAge, missingSince) ← checkpointPhase p
  let now ← time
  let cooldownElapsed := now - (← get).lastScaleActionAt
  traceSpan cfg
  return (CheckpointAwareQueuePolicy.evaluate cfg.checkpointGuardEnabled p st checkpointAge
    missingSince, now, cooldownElapsed)

/-- The reconcile comes to a decision, in the state `s`. -/
def Decides (cfg : Config) (p : PartitionConfig) (m : Memory) (x : Reconcile)
    (d : ScalingDecision) (now elapsed : ℚ) (s : OpState) : Prop :=
  (decisionPhase cfg p x.state).run x.env ⟨m, []⟩ = (.ok (d, now, elapsed), s)

/-- Neither a command to Slurm nor a patch of the replicas. -/
def Inert : Call → Prop
  | .command (.annotate _ _) => True
  | .command .trace => True
  | .command _ => False
  | _ => True

variable {cfg : Config} {p : PartitionConfig} {st : PartitionState} {m : Memory} {x : Reconcile}
  {d : ScalingDecision} {now elapsed : ℚ} {s : OpState}

theorem processPoolBody_eq : processPoolBody cfg p st =
    decisionPhase cfg p st >>= fun r => dispatch cfg p st r.1 r.2.1 r.2.2 := by
  simp only [decisionPhase, Prog.bind_assoc]
  rfl

theorem processPool_state (env : OpEnv) (s : OpState) :
    ((processPool cfg p st).run env s).2 = ((processPoolBody cfg p st).run env s).2 := by
  simp only [processPool, tryCatch, tryCatchThe, MonadExceptOf.tryCatch, Prog.run_andThen]
  cases ((processPoolBody cfg p st).run env s).1 <;> rfl

/-- A reconcile that comes to a decision goes on with its dispatch. -/
theorem Decides.run (h : Decides cfg p m x d now elapsed s) :
    ((processPool cfg p x.state).run x.env ⟨m, []⟩).2 =
      ((dispatch cfg p x.state d now elapsed).run x.env s).2 := by
  rw [processPool_state, processPoolBody_eq]
  simp only [bind, Prog.run_andThen]
  rw [show (decisionPhase cfg p x.state).run x.env ⟨m, []⟩ = _ from h]

/-- Otherwise it ends there. -/
theorem run_of_not_decides (h : ∀ d now elapsed s, ¬ Decides cfg p m x d now elapsed s) :
    ((processPool cfg p x.state).run x.env ⟨m, []⟩).2 =
      ((decisionPhase cfg p x.state).run x.env ⟨m, []⟩).2 := by
  rw [processPool_state, processPoolBody_eq]
  simp only [bind, Prog.run_andThen]
  cases hr : ((decisionPhase cfg p x.state).run x.env ⟨m, []⟩).1 with
  | ok r => exact (h r.1 r.2.1 r.2.2 _ (Prod.ext hr rfl)).elim
  | error e => rfl

theorem callsOf_eq (m : Memory) (x : Reconcile) :
    callsOf cfg p m x = ((processPool cfg p x.state).run x.env ⟨m, []⟩).2.trace :=
  (Prog.trace_eq x.env (processPool cfg p x.state) ⟨m, []⟩).symm

/-- The decision is the policy's. -/
theorem Decides.decision (h : Decides cfg p m x d now elapsed s) : ∃ age missing,
    d = CheckpointAwareQueuePolicy.evaluate cfg.checkpointGuardEnabled p x.state age missing := by
  have hd : (decisionPhase cfg p x.state).Returns fun r => ∃ age missing,
      r.1 = CheckpointAwareQueuePolicy.evaluate cfg.checkpointGuardEnabled p x.state age missing :=
    .bind (.any _) fun _ _ => .bind (.any _) fun _ _ => .bind (.any _) fun a _ =>
      .bind (.any _) fun _ _ => .bind (.any _) fun _ _ => .bind (.any _) fun _ _ =>
        .pure ⟨a.1, a.2, rfl⟩
  exact hd x.env ⟨m, []⟩ (d, now, elapsed) (congrArg Prod.fst h)

/-! ## Its calls -/

theorem traceSpan_inert : (traceSpan cfg).Only Inert :=
  .ite (fun _ => Prog.Only.perform.mpr trivial) fun _ => .pure _

theorem Read.inert {c : Call} (h : Read c) : Inert c := by
  unfold Inert
  split
  · trivial
  · trivial
  · exact h
  · trivial

theorem checkpointPhase_inert : (checkpointPhase p).Only Inert :=
  checkpointPhase_reads.mono fun _ => Read.inert

/-- A call of the block on a scale-up in flight: it resumes the new ordinals or
hides them. -/
def OfPhase (c : Call) : Prop :=
  Inert c ∨ (∃ n, c = .command (.patchReplicas n)) ∨ (∃ i, c = .command (.resume i)) ∨
    ∃ i, c = .command (.future i "provisioning-timeout")

theorem provisioningPhase_ofPhase {ready : Int} : (provisioningPhase cfg ready).Only OfPhase := by
  have hinert : ∀ {c : Command}, Inert (.command c) → (attempt c).Only OfPhase :=
    fun hc => Prog.Only.attempt.mpr (.inl hc)
  have htime : time.Only OfPhase := Prog.Only.perform.mpr (.inl trivial)
  unfold provisioningPhase
  refine .bind .get fun m => ?_
  split
  · exact .pure _
  refine .ite (fun _ => ?_) fun _ => .ite (fun _ => .bind htime fun _ => .ite (fun _ => ?_)
    fun _ => .pure _) fun _ => .pure _
  · exact .bind htime fun _ => .bind (traceSpan_inert.mono fun _ => .inl) fun _ =>
      .bind (.modify _) fun _ => .bind (hinert trivial) fun _ => .bind (hinert trivial) fun _ =>
      .tryCatch (.forM fun i _ => Prog.Only.perform.mpr (.inr (.inr (.inl ⟨i, rfl⟩)))) fun _ =>
        .pure _
  · exact .bind (.forM fun i _ => Prog.Only.attempt.mpr (.inr (.inr (.inr ⟨i, rfl⟩)))) fun _ =>
      .bind (Prog.Only.perform.mpr (.inr (.inl ⟨_, rfl⟩))) fun _ => .bind htime fun _ =>
      .bind (.modify _) fun _ => .bind (hinert trivial) fun _ => .bind (hinert trivial) fun _ =>
        hinert trivial

theorem decisionPhase_ofPhase : (decisionPhase cfg p st).Only OfPhase := by
  have hready : K8sClient.getReadyReplicas.Only OfPhase :=
    .tryCatch (.bind (Prog.Only.perform.mpr (.inl trivial)) fun _ => .pure _) fun e => by
      cases e <;> trivial
  exact .bind hready fun _ => .bind provisioningPhase_ofPhase fun _ =>
    .bind (checkpointPhase_inert.mono fun _ => .inl) fun _ =>
    .bind (Prog.Only.perform.mpr (.inl trivial)) fun _ => .bind .get fun _ =>
    .bind (traceSpan_inert.mono fun _ => .inl) fun _ => .pure _

/-! ## What it leaves as it is -/

/-- It only changes the time of the last scaling, the record of a scale-up in
flight, its back-off, and for how long the checkpoint has been missing. -/
theorem decisionPhase_frames {τ : Type} {f : Memory → τ}
    (hmissing : ∀ m since, f { m with checkpointMissingSince := since } = f m)
    (hready : ∀ m, f { m with provisioning := none, provisioningRetryAt := none } = f m)
    (htimeout : ∀ m t retryAt, f { m with lastScaleActionAt := t, provisioningRetryAt := retryAt,
                                          provisioning := none } = f m) :
    (decisionPhase cfg p st).Frames f := by
  have hcall : K8sClient.getReadyReplicas.Frames f :=
    .tryCatch (.bind (.perform _) fun _ => .pure _) fun e => by
      cases e
      · exact .pure _
      · exact .throw _
  have hphase : ∀ ready, (provisioningPhase cfg ready).Frames f := by
    intro ready
    unfold provisioningPhase
    refine .bind .get fun m => ?_
    split
    · exact .pure _
    refine .ite ?_ (.ite (.bind (.perform _) fun _ => .ite ?_ (.pure _)) (.pure _))
    · exact .bind (.perform _) fun _ => .bind traceSpan_frames fun _ => .bind (.modify hready)
        fun _ => .bind (.attempt _) fun _ => .bind (.attempt _) fun _ =>
        .tryCatch (.forM fun _ _ => .perform _) fun _ => .pure _
    · exact .bind (.forM fun _ _ => .attempt _) fun _ => .bind (.perform _) fun _ =>
        .bind (.perform _) fun _ => .bind (.modify fun m => htimeout m _ _) fun _ =>
        .bind (.attempt _) fun _ => .bind (.attempt _) fun _ => .attempt _
  exact .bind hcall fun _ => .bind (hphase _) fun _ => .bind (checkpointPhase_frames hmissing)
    fun _ => .bind (.perform _) fun _ => .bind .get fun _ => .bind traceSpan_frames fun _ => .pure _

end Kelpflux.Proof.Operator
