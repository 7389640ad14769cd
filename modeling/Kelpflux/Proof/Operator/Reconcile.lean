import Kelpflux.Framework.Run
import Kelpflux.Impl.Operator.Reconciler
import Kelpflux.Proof.Operator.Policy

/-!
# What a reconcile calls

`Quiet`: the calls that neither change the replicas, nor record such a change,
nor take a node out of Slurm. Every other call of a reconcile comes from one of
three blocks (`mem_processPool`, `mem_provisioningPhase`, `mem_dispatch`): the
rollback of a scale-up (`provisioningTimeout_only`), a scale-up
(`doScaleUp_only`) or a scale-down (`drainThenScale_only`).
-/

namespace Kelpflux.Proof.Operator

open Framework Kelpflux.Impl.Operator

/-- One call of `_process_pool`: the state it is given, and the replies to the
calls it makes. -/
structure Reconcile where
  state : PartitionState
  env : OpEnv

variable (cfg : Config) (p : PartitionConfig)

/-- The memory after a reconcile. -/
def stepMemory (m : Memory) (x : Reconcile) : Memory :=
  ((processPool cfg p x.state).run x.env ⟨m, []⟩).2.mem

/-- The calls of a reconcile. -/
def callsOf (m : Memory) (x : Reconcile) : List OpEvent :=
  (processPool cfg p x.state).calls x.env ⟨m, []⟩

/-- The StatefulSet is `sts` without annotations, the clock stands at `now`, no
node has CPUs allocated and there is no checkpoint. -/
def quietAnswers (sts : StatefulSet) (now : ℚ) : Nat → (c : Call) → c.Answer := fun _ c =>
  match c with
  | .command _ => ()
  | .readStatefulSet => sts
  | .readAnnotationText _ => .cleared
  | .showNode _ => some 0
  | .statCheckpoint _ => -1
  | .listJobs => ⟨0, 0, 0⟩
  | .busyNodes => (0 : Nat)
  | .time => now

def quietEnv (sts : StatefulSet) (now : ℚ) : OpEnv := fun n c => .ok (quietAnswers sts now n c)

/-- Neither a change of the replicas, nor the record of one under way, nor a
`FUTURE` mark. -/
def Quiet : Call → Prop
  | .command (.patchReplicas _) => False
  | .command (.future _ _) => False
  | .command (.annotate _ (.marker _)) => False
  | _ => True

/-- Not a command. -/
def Read : Call → Prop
  | .command _ => False
  | _ => True

theorem Read.quiet {c : Call} (h : Read c) : Quiet c := by
  unfold Quiet
  split
  · exact h
  · exact h
  · exact h
  · trivial

/-- The node's CPUs were read as 0. -/
def ReadIdle (es : List OpEvent) (node : Int) : Prop :=
  ∃ alloc, ⟨.showNode node, .ok alloc⟩ ∈ es ∧ alloc.getD 0 = 0

/-- Every node draining or to be drained was read as idle, or has been draining
for longer than the timeout. -/
def Drained (p : PartitionConfig) (m : Memory) (nodes : List Int) (es : List OpEvent) : Prop :=
  ∃ nowTs, ⟨.time, .ok nowTs⟩ ∈ es ∧
    ∀ node, node ∈ m.drainingNodes.getD [] ∨ node ∈ nodes → ReadIdle es node ∨
      0 < p.drainTimeoutSeconds ∧ node ∈ m.drainingNodes.getD [] ∧
        ∃ t₀, (m.drainingStarted.getD []).get? node = some t₀ ∧
          p.drainTimeoutSeconds < nowTs - t₀

theorem Drained.mono {p : PartitionConfig} {m : Memory} {nodes : List Int} {es es' : List OpEvent}
    (h : Drained p m nodes es) (hsub : es ⊆ es') : Drained p m nodes es' := by
  obtain ⟨nowTs, hnow, hnodes⟩ := h
  exact ⟨nowTs, hsub hnow, fun node hnode => (hnodes node hnode).imp_left
    fun ⟨alloc, he, h0⟩ => ⟨alloc, hsub he, h0⟩⟩

theorem Drained.congr {p : PartitionConfig} {m m' : Memory} {nodes : List Int}
    {es : List OpEvent} (h : Drained p m nodes es) (hnodes : m.drainingNodes = m'.drainingNodes)
    (hstarted : m.drainingStarted = m'.drainingStarted) : Drained p m' nodes es := by
  rw [Drained, ← hnodes, ← hstarted]
  exact h

/-- The ready replicas, by the API's reply. -/
def readyReplicas : Except Exc StatefulSet → Except Exc Int
  | .ok sts => .ok (sts.readyReplicas.getD 0)
  | .error .api => .ok 0
  | .error .other => .error .other

/-- The scale-up `prov` is in flight, not all its pods are ready, and its time
is over: the clock is the reconcile's second call. -/
def TimesOut (cfg : Config) (m : Memory) (env : OpEnv) (prov : Provisioning) : Prop :=
  m.provisioning = some prov ∧
  (∃ ready, readyReplicas (env 0 .readStatefulSet) = .ok ready ∧ ready < prov.targetReplicas) ∧
  0 < cfg.provisioningTimeoutSeconds ∧
  ∃ t, env 1 .time = .ok t ∧ cfg.provisioningTimeoutSeconds ≤ t - prov.startedAt

section WP

/-! The rules for the operator's calls. -/

variable {env : OpEnv} {s : OpState}

@[simp] theorem wp_perform {c : Command} {Q : Except Exc Unit → OpState → Prop} :
    WP env (perform c) s Q ↔ Q (env s.trace.length (.command c))
      ⟨s.mem, s.trace ++ [⟨.command c, env s.trace.length (.command c)⟩]⟩ := Iff.rfl

@[simp] theorem wp_attempt {c : Command} {Q : Except Exc Unit → OpState → Prop} :
    WP env (attempt c) s Q ↔
      Q (.ok ()) ⟨s.mem, s.trace ++ [⟨.command c, env s.trace.length (.command c)⟩]⟩ :=
  WP.attempt_iff

@[simp] theorem wp_readStatefulSet {Q : Except Exc StatefulSet → OpState → Prop} :
    WP env readStatefulSet s Q ↔ Q (env s.trace.length .readStatefulSet)
      ⟨s.mem, s.trace ++ [⟨.readStatefulSet, env s.trace.length .readStatefulSet⟩]⟩ := Iff.rfl

@[simp] theorem wp_showNode {node : Int} {Q : Except Exc (Option Nat) → OpState → Prop} :
    WP env (showNode node) s Q ↔ Q (env s.trace.length (.showNode node))
      ⟨s.mem, s.trace ++ [⟨.showNode node, env s.trace.length (.showNode node)⟩]⟩ := Iff.rfl

@[simp] theorem wp_statCheckpoint {path : String} {Q : Except Exc Int → OpState → Prop} :
    WP env (statCheckpoint path) s Q ↔ Q (env s.trace.length (.statCheckpoint path))
      ⟨s.mem, s.trace ++ [⟨.statCheckpoint path, env s.trace.length (.statCheckpoint path)⟩]⟩ :=
  Iff.rfl

@[simp] theorem wp_listJobs {Q : Except Exc JobCounts → OpState → Prop} :
    WP env listJobs s Q ↔ Q (env s.trace.length .listJobs)
      ⟨s.mem, s.trace ++ [⟨.listJobs, env s.trace.length .listJobs⟩]⟩ := Iff.rfl

@[simp] theorem wp_listBusyNodes {Q : Except Exc Nat → OpState → Prop} :
    WP env listBusyNodes s Q ↔ Q (env s.trace.length .busyNodes)
      ⟨s.mem, s.trace ++ [⟨.busyNodes, env s.trace.length .busyNodes⟩]⟩ := Iff.rfl

@[simp] theorem wp_time {Q : Except Exc ℚ → OpState → Prop} :
    WP env time s Q ↔ Q (env s.trace.length .time)
      ⟨s.mem, s.trace ++ [⟨.time, env s.trace.length .time⟩]⟩ := Iff.rfl

end WP

variable {cfg p} {st : PartitionState}

theorem mem_range {a b i : Int} : i ∈ range a b ↔ a ≤ i ∧ i < b := by
  simp only [range, List.mem_map, List.mem_range]
  constructor
  · rintro ⟨n, hn, rfl⟩; omega
  · rintro ⟨ha, hb⟩; exact ⟨(i - a).toNat, by omega, by omega⟩

/-! ## The quiet blocks -/

theorem getReadyReplicas_run (env : OpEnv) (s : OpState) :
    K8sClient.getReadyReplicas.run env s =
      (readyReplicas (env s.trace.length .readStatefulSet),
      ⟨s.mem, s.trace ++ [⟨.readStatefulSet, env s.trace.length .readStatefulSet⟩]⟩) := by
  simp only [K8sClient.getReadyReplicas, readStatefulSet, Prog.perform, tryCatch, tryCatchThe,
    MonadExceptOf.tryCatch, bind, Prog.andThen, Prog.run]
  rcases env s.trace.length .readStatefulSet with (_ | _) | sts <;> rfl

theorem getReadyReplicas_quiet : K8sClient.getReadyReplicas.Only Quiet :=
  .tryCatch (.bind (Prog.Only.perform.mpr trivial) fun _ => .pure _) fun e => by
    cases e <;> trivial

theorem getReplicas_quiet : K8sClient.getReplicas.Only Quiet :=
  .tryCatch (.bind (Prog.Only.perform.mpr trivial) fun _ => .pure _) fun e => by
    cases e <;> trivial

theorem time_quiet : time.Only Quiet := Prog.Only.perform.mpr trivial

theorem collectPartitionState_quiet :
    (ClusterStateCollector.collectPartitionState p).Only Quiet :=
  .bind (Prog.Only.perform.mpr trivial) fun _ => .bind getReplicas_quiet fun _ =>
    .bind (Prog.Only.perform.mpr trivial) fun _ => .pure _

theorem traceSpan_quiet : (traceSpan cfg).Only Quiet :=
  .ite (fun _ => Prog.Only.perform.mpr trivial) fun _ => .pure _

theorem annotate_cleared_quiet (name : Annotation) : (annotate name .cleared).Only Quiet :=
  Prog.Only.attempt.mpr trivial

theorem annotate_time_quiet (name : Annotation) (t : ℚ) : (annotate name (.time t)).Only Quiet :=
  Prog.Only.attempt.mpr trivial

theorem provisioningReady_quiet (prov : Provisioning) : (provisioningReady cfg prov).Only Quiet :=
  .bind time_quiet fun _ => .bind traceSpan_quiet fun _ => .bind (.modify _) fun _ =>
    .bind (annotate_cleared_quiet _) fun _ => .bind (annotate_cleared_quiet _) fun _ =>
      .tryCatch (.forM fun _ _ => Prog.Only.perform.mpr trivial) fun _ => .pure _

/-- It only reads. -/
theorem checkpointPhase_reads : (checkpointPhase p).Only Read := by
  unfold checkpointPhase ClusterStateCollector.getCheckpointAgeSeconds
  refine .bind (.ite (fun _ => .pure _) fun _ =>
    .bind (Prog.Only.perform.mpr trivial) fun _ => .pure _) fun age => ?_
  refine .ite (fun _ => .bind (Prog.Only.perform.mpr trivial) fun _ => .bind (.modify _) fun _ =>
    .bind .get fun m => ?_) fun _ => .bind (.modify _) fun _ => .bind .get fun m => ?_
  all_goals
    split
    · exact .pure _
    · exact .bind (Prog.Only.perform.mpr trivial) fun _ => .pure _

theorem checkpointPhase_quiet : (checkpointPhase p).Only Quiet :=
  checkpointPhase_reads.mono fun _ => Read.quiet

theorem clearRetry_quiet (retryAt : ℚ) : (clearRetry retryAt).Only Quiet :=
  .ite (fun _ => .bind (.modify _) fun _ => annotate_cleared_quiet _) fun _ => .pure _

theorem startDrain_quiet (nowTs : ℚ) (node : Int) : (startDrain nowTs node).Only Quiet :=
  .bind (Prog.Only.attempt.mpr trivial) fun _ => .modify _

/-- A call that reads a node's CPUs, kills its jobs or sets it DOWN. -/
def Reaps : Call → Prop
  | .showNode _ => True
  | .command (.cancelJobs _) => True
  | .command (.down _ _) => True
  | _ => False

theorem Reaps.quiet {c : Call} (h : Reaps c) : Quiet c := by
  unfold Quiet
  split
  · exact h
  · exact h
  · exact h
  · trivial

theorem forceKillExpired_reaps {draining : List Int} {started : Dict Int ℚ} {nowTs : ℚ} :
    (forceKillExpired p draining started nowTs).Only Reaps := by
  refine .ite (fun _ => .foldlM (fun killed node _ => ?_) []) fun _ => .pure _
  unfold forceKill
  split
  · exact .pure _
  · exact .bind (.bind (Prog.Only.perform.mpr trivial) fun _ => .pure _) fun _ =>
      .ite (fun _ => .pure _) fun _ => .ite (fun _ => .pure _) fun _ =>
      .bind (.tryCatch (.bind (Prog.Only.perform.mpr trivial) fun _ =>
        Prog.Only.perform.mpr trivial) fun _ => .pure _) fun _ => .pure _

theorem allIdle_reaps {nodes killed : List Int} : (nodes.allM (nodeIdle killed)).Only Reaps :=
  .allM fun _ _ => .ite (fun _ => .pure _) fun _ =>
    .bind (.bind (Prog.Only.perform.mpr trivial) fun _ => .pure _) fun _ => .pure _

/-! ## What they leave as it is -/

theorem traceSpan_frames {τ : Type} {f : Memory → τ} : (traceSpan cfg).Frames f :=
  .ite (.perform _) (.pure _)

theorem checkpointPhase_frames {τ : Type} {f : Memory → τ}
    (h : ∀ m since, f { m with checkpointMissingSince := since } = f m) :
    (checkpointPhase p).Frames f := by
  unfold checkpointPhase ClusterStateCollector.getCheckpointAgeSeconds
  refine .bind (.ite (.pure _) (.bind (.perform _) fun _ => .pure _)) fun age => ?_
  refine .ite (.bind (.perform _) fun _ => .bind (.modify fun m => h m _) fun _ =>
    .bind .get fun m => ?_) (.bind (.modify fun m => h m _) fun _ => .bind .get fun m => ?_)
  all_goals
    split
    · exact .pure _
    · exact .bind (.perform _) fun _ => .pure _

theorem forceKillExpired_frames {τ : Type} {f : Memory → τ} {draining : List Int}
    {started : Dict Int ℚ} {nowTs : ℚ} :
    (forceKillExpired p draining started nowTs).Frames f := by
  refine .ite (.foldlM (fun killed node _ => ?_) []) (.pure _)
  unfold forceKill
  split
  · exact .pure _
  · exact .bind (.bind (.perform _) fun _ => .pure _) fun _ => .ite (.pure _) (.ite (.pure _)
      (.bind (.tryCatch (.bind (.perform _) fun _ => .perform _) fun _ => .pure _)
        fun _ => .pure _))

theorem allIdle_frames {τ : Type} {f : Memory → τ} {nodes killed : List Int} :
    (nodes.allM (nodeIdle killed)).Frames f :=
  .allM fun _ _ => .ite (.pure _) (.bind (.bind (.perform _) fun _ => .pure _) fun _ => .pure _)

/-! ## The three others -/

/-- A rollback hides the ordinals that the scale-up added and patches back. -/
theorem provisioningTimeout_only (prov : Provisioning) :
    (provisioningTimeout cfg prov).Only fun c : Call => Quiet c ∨
      c = .command (.patchReplicas prov.fromReplicas) ∨
      ∃ i ∈ range prov.fromReplicas prov.targetReplicas,
        c = .command (.future i "provisioning-timeout") := by
  refine .bind (.forM fun i hi => Prog.Only.attempt.mpr (.inr (.inr ⟨i, hi, rfl⟩))) fun _ =>
    .bind (Prog.Only.perform.mpr (.inr (.inl rfl))) fun _ =>
    .bind (time_quiet.mono fun _ => .inl) fun _ => .bind (.modify _) fun _ => ?_
  exact .bind ((annotate_cleared_quiet _).mono fun _ => .inl) fun _ =>
    .bind ((annotate_time_quiet _ _).mono fun _ => .inl) fun _ =>
    (annotate_time_quiet _ _).mono fun _ => .inl

theorem doScaleUp_only (d : ScalingDecision) (now : ℚ) :
    (doScaleUp cfg st d now).Only fun c : Call => Quiet c ∨
      c = .command (.patchReplicas d.targetReplicas) ∨
      c = .command (.annotate .provisioning
        (.marker ⟨now, st.currentReplicas, d.targetReplicas⟩)) := by
  refine .bind .get fun _ => .bind (.modify _) fun _ =>
    .bind (.forM fun _ _ => Prog.Only.attempt.mpr (.inl trivial)) fun _ =>
    .bind (traceSpan_quiet.mono fun _ => .inl) fun _ =>
    .bind (Prog.Only.perform.mpr (.inr (.inr rfl))) fun _ => .bind (.modify _) fun _ =>
    .bind (Prog.Only.perform.mpr (.inr (.inl rfl))) fun _ => .bind (.modify _) fun _ =>
    .tryCatch ?_ fun _ => .pure _
  exact .bind (Prog.Only.perform.mpr (.inl trivial)) fun _ =>
    .bind (Prog.Only.perform.mpr (.inl trivial)) fun _ => Prog.Only.perform.mpr (.inl trivial)

theorem completeScaleDown_only (d : ScalingDecision) (nodes : List Int) (nowTs : ℚ) :
    (completeScaleDown d nodes nowTs).Only fun c : Call => Quiet c ∨
      c = .command (.patchReplicas d.targetReplicas) ∨
      ∃ i ∈ nodes, c = .command (.future i "operator-scale-down") :=
  .bind (Prog.Only.perform.mpr (.inr (.inl rfl))) fun _ =>
    .bind (.forM fun i hi => Prog.Only.attempt.mpr (.inr (.inr ⟨i, hi, rfl⟩))) fun _ =>
    .bind (.modify _) fun _ => Prog.Only.attempt.mpr (.inl trivial)

/-! ## Where a call that is not quiet comes from -/

theorem nodeIdle_true {killed : List Int} {node : Int} {env : OpEnv} {s : OpState}
    (h : ((nodeIdle killed node).run env s).1 = .ok true) :
    node ∈ killed ∨ ReadIdle ((nodeIdle killed node).calls env s) node := by
  by_cases hkilled : node ∈ killed
  · exact .inl hkilled
  have hwp : WP env (nodeIdle killed node) s fun r _ => r = .ok true := h
  rw [nodeIdle, if_neg hkilled, K8sClient.getNodeCpuAlloc] at hwp ⊢
  simp only [WP.bind_iff, wp_showNode] at hwp
  cases halloc : env s.trace.length (.showNode node) with
  | error e => rw [halloc] at hwp; cases hwp
  | ok alloc =>
    rw [halloc] at hwp
    exact .inr ⟨alloc, Prog.mem_calls_bind.mpr (.inl (Prog.mem_calls_bind.mpr
      (.inl (Prog.mem_calls_perform halloc)))), of_decide_eq_true (Except.ok.inj hwp)⟩

/-- Each node was killed or read as idle. -/
theorem allM_nodeIdle {killed nodes : List Int} {env : OpEnv} {s : OpState}
    (h : ((nodes.allM (nodeIdle killed)).run env s).1 = .ok true) :
    ∀ node ∈ nodes, node ∈ killed ∨
      ReadIdle ((nodes.allM (nodeIdle killed)).calls env s) node := by
  induction nodes generalizing s with
  | nil => simp
  | cons x xs ih =>
    have hbind : WP env (nodeIdle killed x >>= fun b =>
        bif b then xs.allM (nodeIdle killed) else pure false) s fun r _ => r = .ok true := h
    rw [WP.bind_iff, WP] at hbind
    rcases hx : ((nodeIdle killed x).run env s).1 with e | (_ | _) <;> rw [hx] at hbind
    · cases hbind
    · cases hbind
    intro node hnode
    rcases List.mem_cons.mp hnode with rfl | hnode
    · refine (nodeIdle_true hx).imp_right fun hidle => ?_
      obtain ⟨alloc, he, h0⟩ := hidle
      exact ⟨alloc, Prog.mem_calls_bind.mpr (.inl he), h0⟩
    · refine (ih hbind node hnode).imp_right fun hidle => ?_
      obtain ⟨alloc, he, h0⟩ := hidle
      exact ⟨alloc, Prog.calls_bind_subset hx he, h0⟩

/-- The nodes killed have been draining for longer than the timeout. -/
theorem forceKillExpired_ok {draining killed : List Int} {started : Dict Int ℚ} {nowTs : ℚ}
    {env : OpEnv} {s : OpState}
    (h : ((forceKillExpired p draining started nowTs).run env s).1 = .ok killed) :
    ∀ node ∈ killed, 0 < p.drainTimeoutSeconds ∧
      ∃ t₀, started.get? node = some t₀ ∧ p.drainTimeoutSeconds < nowTs - t₀ := by
  suffices hwp : WP env (forceKillExpired p draining started nowTs) s fun r _ =>
      ∀ killed, r = .ok killed → ∀ node ∈ killed, 0 < p.drainTimeoutSeconds ∧
        ∃ t₀, started.get? node = some t₀ ∧ p.drainTimeoutSeconds < nowTs - t₀ from hwp killed h
  unfold forceKillExpired
  dsimp only
  split
  swap
  · rintro _ ⟨⟩ node hnode
    cases hnode
  rename_i htimeout
  refine WP.foldlM (fun _ killed _ => ∀ node ∈ killed, 0 < p.drainTimeoutSeconds ∧
    ∃ t₀, started.get? node = some t₀ ∧ p.drainTimeoutSeconds < nowTs - t₀) (by simp)
    (fun node _ killed s hkilled => ?_) ?_
  · unfold forceKill
    cases ht : started.get? node with
    | none => exact hkilled
    | some t₀ =>
      simp only [K8sClient.getNodeCpuAlloc, WP.bind_iff, wp_showNode]
      cases env s.trace.length (.showNode node) with
      | error e =>
        intro _ h
        cases h
      | ok alloc =>
        simp only [WP.pure_iff]
        split
        · exact hkilled
        split
        · exact hkilled
        rename_i hlate
        have hkill : ∀ node' ∈ node :: killed, 0 < p.drainTimeoutSeconds ∧
            ∃ t₀, started.get? node' = some t₀ ∧ p.drainTimeoutSeconds < nowTs - t₀ := by
          intro node' hnode'
          rcases List.mem_cons.mp hnode' with rfl | hnode'
          · exact ⟨htimeout, t₀, ht, not_le.mp hlate⟩
          · exact hkilled node' hnode'
        simp only [WP.bind_iff, WP.tryCatch_iff, wp_perform]
        cases env _ (.command (.cancelJobs node)) with
        | error e => exact hkill
        | ok =>
          dsimp only
          cases env _ (.command (.down node "drain-timeout")) <;> exact hkill
  · rintro killed _ hkilled _ ⟨⟩
    exact hkilled

/-- New nodes drain since `nowTs`; the others since when they did. -/
theorem startDrain_forM {nodes : List Int} {nowTs : ℚ} {env : OpEnv} {s : OpState} (node : Int) :
    WP env (nodes.forM (startDrain nowTs)) s fun _ s' =>
      (s'.mem.drainingStarted.getD []).get? node =
        if node ∈ nodes then some nowTs else (s.mem.drainingStarted.getD []).get? node := by
  induction nodes generalizing s with
  | nil => rfl
  | cons x xs ih =>
    show WP env (startDrain nowTs x >>= fun _ => xs.forM (startDrain nowTs)) s _
    simp only [startDrain, WP.bind_iff, wp_attempt, WP.modify_iff]
    refine ih.mono fun _ s' hs' => ?_
    rw [hs', Option.getD_some, Dict.get?_set]
    by_cases hx : node = x <;> by_cases hxs : node ∈ xs <;> simp [hx, hxs]

variable {env : OpEnv} {s : OpState} {e : OpEvent} {ready : Int}

/-- Such a call of a scale-down completes it, once the nodes are drained. -/
theorem mem_drainThenScale {d : ScalingDecision} (he : e ∈ (drainThenScale p st d).calls env s)
    (hq : ¬ Quiet e.call) :
    (e.call = Call.command (.patchReplicas d.targetReplicas) ∨
      ∃ i ∈ range d.targetReplicas st.currentReplicas,
        e.call = Call.command (.future i "operator-scale-down")) ∧
    Drained p s.mem (range d.targetReplicas st.currentReplicas)
      ((drainThenScale p st d).calls env s) := by
  unfold drainThenScale at he ⊢
  obtain ⟨m, hm, he⟩ := Prog.Only.get.mem_calls_bind he hq
  obtain rfl : s.mem = m := Except.ok.inj hm
  obtain ⟨⟨⟩, hmod, he⟩ := (Prog.Only.modify _).mem_calls_bind he hq
  obtain ⟨nowTs, hnow, he⟩ := time_quiet.mem_calls_bind he hq
  obtain ⟨⟨⟩, hforM, he⟩ :=
    (Prog.Only.forM fun node _ => startDrain_quiet nowTs node).mem_calls_bind he hq
  obtain ⟨⟨⟩, hmod', he⟩ := (Prog.Only.modify _).mem_calls_bind he hq
  obtain ⟨m', hm', he⟩ := Prog.Only.get.mem_calls_bind he hq
  obtain ⟨killed, hkilled, he⟩ :=
    (forceKillExpired_reaps.mono fun _ => Reaps.quiet).mem_calls_bind he hq
  obtain ⟨allIdle, hall, he⟩ :=
    (allIdle_reaps.mono fun _ => Reaps.quiet).mem_calls_bind he hq
  cases allIdle with
  | false => exact absurd ((Prog.Only.pure ()).calls env _ e he) hq
  | true =>
    refine ⟨((completeScaleDown_only d _ nowTs).calls env _ e he).resolve_left hq, nowTs,
      Prog.calls_bind_subset hm (Prog.calls_bind_subset hmod
        (Prog.mem_calls_bind.mpr (.inl (Prog.mem_calls_perform hnow)))), fun node hnode => ?_⟩
    set newNodes := (range d.targetReplicas st.currentReplicas).filter
      fun node => node ∉ s.mem.drainingNodes.getD [] with hnewNodes
    have hmem : node ∈ s.mem.drainingNodes.getD [] ++ newNodes := by
      rw [List.mem_append, List.mem_filter]
      by_cases hd : node ∈ s.mem.drainingNodes.getD []
      · exact .inl hd
      · exact .inr ⟨hnode.resolve_left hd, by simpa using hd⟩
    rcases allM_nodeIdle hall node hmem with hk | ⟨alloc, hread, h0⟩
    · obtain ⟨htimeout, t₀, ht₀, hlate⟩ := forceKillExpired_ok hkilled node hk
      have hstarted : (m'.drainingStarted.getD []).get? node =
          if node ∈ newNodes then some nowTs else (s.mem.drainingStarted.getD []).get? node := by
        let s₁ : OpState :=
          ⟨{ s.mem with drainingStarted := some (s.mem.drainingStarted.getD []) }, s.trace⟩
        have hdrain : WP env (newNodes.forM (startDrain nowTs)) (time.run env s₁).2 _ :=
          startDrain_forM node
        refine Eq.trans (congrArg (fun ds => Dict.get? (Option.getD ds []) node) ?_) hdrain
        rw [← Except.ok.inj hm']
        show (ite _ _ _ : Memory).drainingStarted = _
        split <;> rfl
      rw [hstarted] at ht₀
      split at ht₀
      · obtain rfl := Option.some.inj ht₀
        rw [sub_self] at hlate
        exact absurd htimeout (by exact_mod_cast hlate.le.not_gt)
      · have hd : node ∈ s.mem.drainingNodes.getD [] :=
          (List.mem_append.mp hmem).resolve_right ‹_›
        exact .inr ⟨htimeout, hd, t₀, ht₀, hlate⟩
    · refine .inl ⟨alloc, ?_, h0⟩
      exact Prog.calls_bind_subset hm (Prog.calls_bind_subset hmod (Prog.calls_bind_subset hnow
        (Prog.calls_bind_subset hforM (Prog.calls_bind_subset hmod' (Prog.calls_bind_subset hm'
          (Prog.calls_bind_subset hkilled (Prog.mem_calls_bind.mpr (.inl hread))))))))

theorem mem_dispatch {d : ScalingDecision} {now elapsed : ℚ}
    (he : e ∈ (dispatch cfg p st d now elapsed).calls env s) (hq : ¬ Quiet e.call) :
    (d.action = .scaleUp ∧ (e.call = Call.command (.patchReplicas d.targetReplicas) ∨
      e.call = Call.command (.annotate .provisioning
        (.marker ⟨now, st.currentReplicas, d.targetReplicas⟩)))) ∨
    (d.action = .scaleDown ∧ st.runningJobs ≤ 0 ∧ e ∈ (drainThenScale p st d).calls env s) := by
  unfold dispatch at he
  obtain ⟨m, -, he⟩ := Prog.Only.get.mem_calls_bind he hq
  dsimp only at he
  have hnone : ∀ {s : OpState}, e ∉ (pure () : Op Unit).calls env s := fun h =>
    hq ((Prog.Only.pure ()).calls env _ e h)
  split at he
  · split at he
    · exact absurd he hnone
    split at he
    · exact absurd he hnone
    obtain ⟨-, -, he⟩ := (clearRetry_quiet _).mem_calls_bind he hq
    exact .inl ⟨‹_›, ((doScaleUp_only d now).calls env _ e he).resolve_left hq⟩
  · unfold doScaleDown at he
    split at he
    · exact absurd he hnone
    split at he
    · exact absurd he hnone
    exact .inr ⟨‹_›, by omega, he⟩
  · exact absurd he hnone

/-- And those of the block on a scale-up in flight are the rollback's. -/
theorem mem_provisioningPhase (hq : ¬ Quiet e.call) :
    e ∈ (provisioningPhase cfg ready).calls env s ↔ ∃ prov t, s.mem.provisioning = some prov ∧
      ready < prov.targetReplicas ∧ 0 < cfg.provisioningTimeoutSeconds ∧
      env s.trace.length .time = .ok t ∧ cfg.provisioningTimeoutSeconds ≤ t - prov.startedAt ∧
      e ∈ (provisioningTimeout cfg prov).calls env
        ⟨s.mem, s.trace ++ [⟨.time, env s.trace.length .time⟩]⟩ := by
  constructor
  · intro he
    unfold provisioningPhase at he
    obtain ⟨m, hm, he⟩ := Prog.Only.get.mem_calls_bind he hq
    obtain rfl : s.mem = m := Except.ok.inj hm
    have hnone : ∀ {s : OpState}, e ∉ (pure () : Op Unit).calls env s := fun h =>
      hq ((Prog.Only.pure ()).calls env _ e h)
    split at he
    · exact absurd he hnone
    rename_i prov hprov
    split at he
    · exact absurd ((provisioningReady_quiet prov).calls env _ e he) hq
    split at he
    swap
    · exact absurd he hnone
    obtain ⟨t, ht, he⟩ := time_quiet.mem_calls_bind he hq
    split at he
    · exact ⟨prov, t, hprov, by omega, ‹_›, ht, ‹_›, he⟩
    · exact absurd he hnone
  · rintro ⟨prov, t, hprov, hready, hpos, ht, hlate, he⟩
    refine Prog.mem_calls_bind.mpr (.inr ⟨s.mem, rfl, ?_⟩)
    rw [hprov]
    simp only
    rw [if_neg (by omega), if_pos hpos]
    refine Prog.mem_calls_bind.mpr (.inr ⟨t, ht, ?_⟩)
    rw [if_pos hlate]
    exact he

theorem mem_processPool_body :
    e ∈ (processPool cfg p st).calls env s ↔ e ∈ (processPoolBody cfg p st).calls env s := by
  rw [processPool, Prog.mem_calls_tryCatch]
  refine or_iff_left fun ⟨_, _, he⟩ => ?_
  exact (Prog.Only.pure (P := fun _ => False) ()).calls _ _ e he

/-- The ready replicas, read first, decide what becomes of a scale-up in
flight. -/
theorem mem_processPool_of_provisioningPhase
    (hready : readyReplicas (env s.trace.length .readStatefulSet) = .ok ready)
    (he : e ∈ (provisioningPhase cfg ready).calls env
      ⟨s.mem, s.trace ++ [⟨.readStatefulSet, env s.trace.length .readStatefulSet⟩]⟩) :
    e ∈ (processPool cfg p st).calls env s := by
  refine mem_processPool_body.mpr (Prog.mem_calls_bind.mpr (.inr ⟨ready, ?_, ?_⟩))
  · rw [getReadyReplicas_run, hready]
  · rw [getReadyReplicas_run]
    exact Prog.mem_calls_bind.mpr (.inl he)

theorem mem_processPool (he : e ∈ (processPool cfg p st).calls env s) (hq : ¬ Quiet e.call) :
    ∃ ready, readyReplicas (env s.trace.length .readStatefulSet) = .ok ready ∧
      (e ∈ (provisioningPhase cfg ready).calls env
          ⟨s.mem, s.trace ++ [⟨.readStatefulSet, env s.trace.length .readStatefulSet⟩]⟩ ∨
        ∃ age missing now elapsed s', e ∈ (dispatch cfg p st (CheckpointAwareQueuePolicy.evaluate
          cfg.checkpointGuardEnabled p st age missing) now elapsed).calls env s') := by
  obtain ⟨ready, hready, he⟩ :=
    getReadyReplicas_quiet.mem_calls_bind (mem_processPool_body.mp he) hq
  rw [getReadyReplicas_run] at hready he
  refine ⟨ready, hready, ?_⟩
  rcases Prog.mem_calls_bind.mp he with he | ⟨-, -, he⟩
  · exact .inl he
  obtain ⟨⟨age, missing⟩, -, he⟩ := checkpointPhase_quiet.mem_calls_bind he hq
  obtain ⟨now, -, he⟩ := time_quiet.mem_calls_bind he hq
  obtain ⟨m, -, he⟩ := Prog.Only.get.mem_calls_bind he hq
  obtain ⟨-, -, he⟩ := traceSpan_quiet.mem_calls_bind he hq
  exact .inr ⟨age, missing, now, _, _, he⟩

end Kelpflux.Proof.Operator
