import Kelpflux.Framework.Guards
import Kelpflux.Proof.Operator.Drains

/-!
# Workers that a scale-down removes

A worker is held while the last command that succeeded on its node is a DRAIN or
a DOWN, and no RESUME (`heldBy`). The nodes remembered as draining are held, so
that a scale-down removes held workers only (`removed_workers_held`), unless a
DRAIN raises, which is remembered all the same, or the new ordinals of a
scale-up are resumed while one of them is draining.
-/

namespace Kelpflux.Proof.Operator

open Framework Kelpflux.Impl.Operator

/-- The nodes held after a call. A command that raises does nothing. -/
def heldStep (H : List Int) : OpEvent → List Int
  | ⟨.command (.drain i), .ok _⟩ => i :: H
  | ⟨.command (.down i _), .ok _⟩ => i :: H
  | ⟨.command (.resume i), .ok _⟩ => H.filter (· ≠ i)
  | _ => H

def heldBy (H : List Int) (es : List OpEvent) : List Int := es.foldl heldStep H

/-- When a scale-down patches the replicas, the workers that it removes are held. -/
def RemovesHeld (cfg : Config) (p : PartitionConfig) (w : Watched (List Int)) (x : Reconcile) :
    Prop :=
  ∀ d now elapsed s, Decides cfg p w.mem x d now elapsed s → d.action = .scaleDown →
    ∀ es n r es', callsOf cfg p w.mem x =
        s.trace ++ (es ++ ⟨.command (.patchReplicas n), r⟩ :: es') →
      ∀ i ∈ range n x.state.currentReplicas, i ∈ heldBy w.seen (s.trace ++ es)

/-- A DRAIN raises, or a scale-up has become ready of which an ordinal is
draining. -/
def LosesHold (cfg : Config) (p : PartitionConfig) (w : Watched (List Int)) (x : Reconcile) :
    Prop :=
  (∃ i e, ⟨.command (.drain i), .error e⟩ ∈ callsOf cfg p w.mem x) ∨
    ∃ prov ready, w.mem.provisioning = some prov ∧
      readyReplicas (x.env 0 .readStatefulSet) = .ok ready ∧ prov.targetReplicas ≤ ready ∧
      ∃ i ∈ w.mem.drainingNodes.getD [], i ∈ range prov.fromReplicas prov.targetReplicas

/-- No DRAIN raises. -/
def DrainsSucceed (es : List OpEvent) : Prop :=
  ∀ i e, ⟨.command (.drain i), .error e⟩ ∉ es

/-- The nodes remembered as draining are held. -/
def DrainsHeld (w : Watched (List Int)) : Prop :=
  ∀ i ∈ w.mem.drainingNodes.getD [], i ∈ w.seen

variable {cfg : Config} {p : PartitionConfig} {st : PartitionState} {d : ScalingDecision}
  {env : OpEnv} {s : OpState} {H : List Int} {now elapsed : ℚ}

/-! ## One call -/

@[simp] theorem heldBy_append (es es' : List OpEvent) :
    heldBy H (es ++ es') = heldBy (heldBy H es) es' := List.foldl_append

theorem heldBy_concat (es : List OpEvent) (e : OpEvent) :
    heldBy H (es ++ [e]) = heldStep (heldBy H es) e := heldBy_append es [e]

theorem heldBy_of_not_resumed {es : List OpEvent} {i : Int}
    (h : ∀ r, ⟨.command (.resume i), r⟩ ∉ es) (hi : i ∈ H) : i ∈ heldBy H es := by
  induction es generalizing H with
  | nil => exact hi
  | cons e es ih =>
    refine ih (fun r hr => h r (List.mem_cons_of_mem _ hr)) ?_
    unfold heldStep
    split
    · exact List.mem_cons_of_mem _ hi
    · exact List.mem_cons_of_mem _ hi
    · rename_i j r
      refine List.mem_filter.mpr ⟨hi, decide_eq_true fun hij => ?_⟩
      rw [hij] at h
      exact h _ List.mem_cons_self
    · exact hi

theorem Reaps.not_resumed {es : List OpEvent} (h : ∀ e ∈ es, Reaps e.call) {i : Int} {r} :
    ⟨.command (.resume i), r⟩ ∉ es := fun he => h _ he

/-! ## Up to the decision -/

/-- Not a RESUME. -/
def NotResume : Call → Prop
  | .command (.resume _) => False
  | _ => True

theorem Inert.notResume {c : Call} (h : Inert c) : NotResume c := by
  unfold NotResume
  split
  · exact h
  · trivial

/-- A RESUME before the decision is of a scale-up that has become ready. -/
theorem resume_decisionPhase {i : Int} {r}
    (he : ⟨.command (.resume i), r⟩ ∈ (decisionPhase cfg p st).calls env s) :
    ∃ prov ready, s.mem.provisioning = some prov ∧
      readyReplicas (env s.trace.length .readStatefulSet) = .ok ready ∧
      prov.targetReplicas ≤ ready ∧ i ∈ range prov.fromReplicas prov.targetReplicas := by
  have hread : K8sClient.getReadyReplicas.Only NotResume :=
    .tryCatch (.bind (Prog.Only.perform.mpr trivial) fun _ => .pure _) fun e => by
      cases e <;> trivial
  have hrest : ∀ u : Unit, (checkpointPhase p >>= fun r => (do
      let now ← time
      let cooldownElapsed := now - (← get).lastScaleActionAt
      traceSpan cfg
      return (CheckpointAwareQueuePolicy.evaluate cfg.checkpointGuardEnabled p st r.1 r.2, now,
        cooldownElapsed) : Op (ScalingDecision × ℚ × ℚ))).Only NotResume := fun _ =>
    .bind (checkpointPhase_inert.mono fun _ => Inert.notResume) fun _ =>
      .bind (Prog.Only.perform.mpr trivial) fun _ => .bind .get fun _ =>
      .bind (traceSpan_inert.mono fun _ => Inert.notResume) fun _ => .pure _
  obtain ⟨ready, hready, he⟩ := hread.mem_calls_bind he id
  rw [getReadyReplicas_run] at hready he
  rcases Prog.mem_calls_bind.mp he with he | ⟨u, -, he⟩
  swap
  · exact ((hrest u).calls _ _ _ he).elim
  unfold provisioningPhase at he
  obtain ⟨m, hm, he⟩ := Prog.Only.get.mem_calls_bind (P := NotResume) he id
  obtain rfl : s.mem = m := Except.ok.inj hm
  have hnone : ∀ {s : OpState}, ⟨.command (.resume i), r⟩ ∉ (pure () : Op Unit).calls env s :=
    fun h => (Prog.Only.pure (P := NotResume) ()).calls env _ _ h
  have htime : time.Only NotResume := Prog.Only.perform.mpr trivial
  have hattempt : ∀ {c : Command}, NotResume (.command c) → (attempt c).Only NotResume :=
    fun hc => Prog.Only.attempt.mpr hc
  split at he
  · exact (hnone he).elim
  rename_i prov hprov
  split at he
  · refine ⟨prov, ready, hprov, hready, ‹_›, ?_⟩
    have hcall : (provisioningReady cfg prov).Only fun c : Call => NotResume c ∨
        ∃ i ∈ range prov.fromReplicas prov.targetReplicas, c = .command (.resume i) :=
      .bind (htime.mono fun _ => .inl) fun _ =>
        .bind (traceSpan_inert.mono fun _ h => .inl h.notResume) fun _ => .bind (.modify _) fun _ =>
        .bind (Prog.Only.attempt.mpr (.inl trivial)) fun _ =>
        .bind (Prog.Only.attempt.mpr (.inl trivial)) fun _ =>
        .tryCatch (.forM fun i hi => Prog.Only.perform.mpr (.inr ⟨i, hi, rfl⟩)) fun _ => .pure _
    obtain ⟨j, hj, hc⟩ := (hcall.calls _ _ _ he).resolve_left id
    cases hc
    exact hj
  split at he
  swap
  · exact (hnone he).elim
  obtain ⟨t, -, he⟩ := htime.mem_calls_bind he id
  split at he
  swap
  · exact (hnone he).elim
  have htimeout : (provisioningTimeout cfg prov).Only NotResume :=
    .bind (.forM fun _ _ => hattempt trivial) fun _ => .bind (Prog.Only.perform.mpr trivial)
      fun _ => .bind htime fun _ => .bind (.modify _) fun _ => .bind (hattempt trivial) fun _ =>
      .bind (hattempt trivial) fun _ => hattempt trivial
  exact (htimeout.calls _ _ _ he).elim

/-! ## The dispatch -/

/-- `_do_scale_down` up to its drains: the nodes that are draining now, and since
when the new ones are. -/
def startDrains (st : PartitionState) (d : ScalingDecision) : Op (List Int × ℚ) := do
  let nodesToDrain := range d.targetReplicas st.currentReplicas
  let draining := (← get).drainingNodes.getD []
  modify fun m => { m with drainingStarted := some (m.drainingStarted.getD []) }
  let newNodes := nodesToDrain.filter fun node => node ∉ draining
  let nowTs ← time
  newNodes.forM (startDrain nowTs)
  modify fun m =>
    if newNodes ≠ [] then { m with drainingNodes := some (draining ++ newNodes) } else m
  return (draining ++ newNodes, nowTs)

theorem drainThenScale_eq : drainThenScale p st d =
    startDrains st d >>= fun r => finishDrain p st d r.1 r.2 := by
  simp only [startDrains, Prog.bind_assoc]
  rfl

/-- New nodes to drain are held, unless a DRAIN raises. -/
theorem startDrain_held {nodes : List Int} {nowTs : ℚ} :
    WP env (nodes.forM (startDrain nowTs)) s fun r s' => r = .ok () ∧
      s'.mem.drainingNodes = s.mem.drainingNodes ∧ (DrainsSucceed s'.trace →
        ∀ i, i ∈ heldBy H s.trace ∨ i ∈ nodes → i ∈ heldBy H s'.trace) := by
  refine WP.forM (fun xs s₁ => s₁.mem.drainingNodes = s.mem.drainingNodes ∧
      (DrainsSucceed s₁.trace → ∀ i, i ∈ heldBy H s.trace ∨ i ∈ nodes →
        i ∈ heldBy H s₁.trace ∨ i ∈ xs))
    ⟨rfl, fun _ i hi => hi⟩ (fun y ys s₁ ⟨hmem, hs₁⟩ => ?_) fun s₁ ⟨hmem, hs₁⟩ =>
      ⟨rfl, hmem, fun h i hi => (hs₁ h i hi).resolve_right List.not_mem_nil⟩
  simp only [startDrain, WP.bind_iff, wp_attempt, WP.modify_iff]
  refine ⟨hmem, fun h i hi => ?_⟩
  rw [heldBy_concat]
  have hbefore : DrainsSucceed s₁.trace := fun i e he => h i e (List.mem_append_left _ he)
  have hlast := h y
  cases hr : env s₁.trace.length (.command (.drain y)) with
  | error e =>
    rw [hr] at hlast
    exact (hlast e (List.mem_append_right _ (List.mem_singleton_self _))).elim
  | ok r =>
    show i ∈ y :: heldBy H s₁.trace ∨ i ∈ ys
    rcases hs₁ hbefore i hi with hi | hi
    · exact .inl (List.mem_cons_of_mem _ hi)
    · refine (List.mem_cons.mp hi).imp_left fun hy => ?_
      rw [hy]
      exact List.mem_cons_self

theorem startDrains_held (hs : ∀ i ∈ s.mem.drainingNodes.getD [], i ∈ heldBy H s.trace) :
    WP env (startDrains st d) s fun r s' => DrainsSucceed s'.trace →
      (∀ i ∈ s'.mem.drainingNodes.getD [], i ∈ heldBy H s'.trace) ∧
      ∀ a, r = .ok a → ∀ i ∈ range d.targetReplicas st.currentReplicas, i ∈ heldBy H s'.trace := by
  refine WP.bind_iff.mpr (WP.get_iff.mpr (WP.bind_iff.mpr (WP.modify_iff.mpr (WP.bind_iff.mpr
    (wp_time.mpr ?_)))))
  have htime : ∀ {i r}, i ∈ heldBy H s.trace → i ∈ heldBy H (s.trace ++ [⟨.time, r⟩]) := by
    intro i r hi
    rw [heldBy_concat]
    exact hi
  cases env s.trace.length .time with
  | error e => exact fun _ => ⟨fun i hi => htime (hs i hi), nofun⟩
  | ok nowTs =>
  refine WP.bind_iff.mpr ((startDrain_held (H := H)).mono ?_)
  rintro _ s₁ ⟨rfl, hmem, hs₁⟩
  refine WP.bind_iff.mpr (WP.modify_iff.mpr fun hdrains => ?_)
  have hheld := hs₁ hdrains
  refine ⟨fun i hi => ?_, fun _ _ i hi => ?_⟩
  · have hi : i ∈ (ite _ _ _ : Memory).drainingNodes.getD [] := hi
    split at hi
    · rcases List.mem_append.mp hi with hi | hi
      · exact hheld i (.inl (htime (hs i hi)))
      · exact hheld i (.inr hi)
    · rw [hmem] at hi
      exact hheld i (.inl (htime (hs i hi)))
  · by_cases hdraining : i ∈ s.mem.drainingNodes.getD []
    · exact hheld i (.inl (htime (hs i hdraining)))
    · exact hheld i (.inr (List.mem_filter.mpr ⟨hi, decide_eq_true hdraining⟩))

/-- What is draining is held. -/
def Held (H : List Int) (s : OpState) : Prop :=
  ∀ i ∈ s.mem.drainingNodes.getD [], i ∈ heldBy H s.trace

theorem Held.of_not_resumed {s s' : OpState} {es : List OpEvent} (h : Held H s)
    (hmem : s'.mem.drainingNodes = s.mem.drainingNodes) (htrace : s'.trace = s.trace ++ es)
    (hes : ∀ i r, ⟨.command (.resume i), r⟩ ∉ es) : Held H s' := by
  intro i hi
  rw [hmem] at hi
  rw [htrace, heldBy_append]
  exact heldBy_of_not_resumed (hes i) (h i hi)

theorem finishDrain_preserves {draining : List Int} {nowTs : ℚ} :
    (finishDrain p st d draining nowTs).Preserves (Held H) := by
  have hreaps : ∀ (s s' : OpState) (es : List OpEvent), Held H s →
      s'.mem.drainingNodes = s.mem.drainingNodes → s'.trace = s.trace ++ es →
      (∀ e ∈ es, Reaps e.call) → Held H s' := fun s s' es hs hmem htrace hes =>
    hs.of_not_resumed hmem htrace fun i r => Reaps.not_resumed hes
  have hstep : ∀ {c : Command}, NotResume (.command c) → ∀ (s : OpState) r, Held H s →
      Held H ⟨s.mem, s.trace ++ [⟨.command c, r⟩]⟩ := by
    intro c hc s r hs
    refine hs.of_not_resumed rfl rfl fun i r' he => ?_
    cases List.mem_singleton.mp he
    exact hc
  refine .bind .get fun m => .bind (.of_frame forceKillExpired_reaps forceKillExpired_frames
    hreaps) fun killed => .bind (.of_frame allIdle_reaps allIdle_frames hreaps) fun idle =>
    .ite (fun _ => ?_) fun _ => .pure _
  exact .bind (.perform (hstep trivial)) fun _ => .bind (.forM fun _ _ => .attempt (hstep trivial))
    fun _ => .bind (.modify fun s hs i hi => absurd hi List.not_mem_nil) fun _ =>
    .attempt (hstep trivial)

/-- If the call patches the replicas then what it removes is held, or a DRAIN
has raised. -/
def PatchHeld (H : List Int) (current : Int) (es : List OpEvent) (c : Call) : Prop :=
  ∀ n, c = .command (.patchReplicas n) → DrainsSucceed es → ∀ i ∈ range n current, i ∈ heldBy H es

theorem Reaps.patchHeld {c : Call} (h : Reaps c) (es : List OpEvent) :
    PatchHeld H st.currentReplicas es c := fun _ hc => by
  rw [hc] at h
  exact h.elim

theorem finishDrain_guards {draining : List Int} {nowTs : ℚ}
    (hs : DrainsSucceed s.trace → ∀ i ∈ range d.targetReplicas st.currentReplicas,
      i ∈ heldBy H s.trace) :
    (finishDrain p st d draining nowTs).Guards (PatchHeld H st.currentReplicas) env s := by
  refine Prog.guards_bind.mpr ⟨trivial, WP.get_iff.mpr (Prog.guards_bind.mpr
    ⟨forceKillExpired_reaps.guards fun es _ h => h.patchHeld es, ?_⟩)⟩
  refine WP.of_frame (f := Memory.drainingNodes) forceKillExpired_reaps forceKillExpired_frames
    fun r s₁ es₁ _ htrace₁ hes₁ => ?_
  cases r with
  | error e => trivial
  | ok killed =>
  refine Prog.guards_bind.mpr ⟨allIdle_reaps.guards fun es _ h => h.patchHeld es, ?_⟩
  refine WP.of_frame (f := Memory.drainingNodes) allIdle_reaps allIdle_frames
    fun r s₂ es₂ _ htrace₂ hes₂ => ?_
  rcases r with e | (_ | _)
  · trivial
  · trivial
  refine Prog.guards_bind.mpr ⟨⟨?_, trivial⟩, WP.of_forall fun r s₃ => ?_⟩
  · intro n hn hdrains i hi
    obtain rfl : d.targetReplicas = n := by
      cases hn
      rfl
    have htrace : s₂.trace = s.trace ++ (es₁ ++ es₂) := by
      rw [htrace₂, htrace₁, List.append_assoc]
    have hbefore : DrainsSucceed s.trace := fun i e he => hdrains i e (by
      rw [htrace]
      exact List.mem_append_left _ he)
    rw [htrace, heldBy_append]
    exact heldBy_of_not_resumed (fun r he => (List.mem_append.mp he).elim
      (Reaps.not_resumed hes₁) (Reaps.not_resumed hes₂)) (hs hbefore i hi)
  · cases r with
    | error e => trivial
    | ok _ =>
    have honly : Prog.Only (fun c : Call => ∀ n, c ≠ .command (.patchReplicas n)) (do
        (range d.targetReplicas st.currentReplicas).forM fun node =>
          attempt (.future node "operator-scale-down")
        modify fun m : Memory =>
          { m with drainingNodes := none, drainingStarted := none, lastScaleActionAt := nowTs }
        attempt (.annotate .lastScaleAction (.time nowTs)) : Op Unit) :=
      .bind (.forM fun _ _ => Prog.Only.attempt.mpr fun _ => nofun) fun _ => .bind (.modify _)
        fun _ => Prog.Only.attempt.mpr fun _ => nofun
    exact honly.guards fun es c hc n hn => absurd hn (hc n)

theorem drainThenScale_guards (hs : Held H s) :
    (drainThenScale p st d).Guards (PatchHeld H st.currentReplicas) env s := by
  rw [drainThenScale_eq]
  have hstart : (startDrains st d).Only fun c : Call => ∀ n, c ≠ .command (.patchReplicas n) :=
    .bind .get fun _ => .bind (.modify _) fun _ => .bind (Prog.Only.perform.mpr fun _ => nofun)
      fun _ => .bind (.forM fun _ _ => .bind (Prog.Only.attempt.mpr fun _ => nofun) fun _ =>
        .modify _) fun _ => .bind (.modify _) fun _ => .pure _
  refine Prog.guards_bind.mpr ⟨hstart.guards fun es c hc n hn => absurd hn (hc n),
    (startDrains_held hs).mono fun r s₁ hs₁ => ?_⟩
  cases r with
  | error e => trivial
  | ok a => exact finishDrain_guards fun hdrains => (hs₁ hdrains).2 a rfl

theorem drainThenScale_held (hs : Held H s) :
    WP env (drainThenScale p st d) s fun _ s' => DrainsSucceed s'.trace → Held H s' := by
  rw [drainThenScale_eq]
  refine WP.bind_iff.mpr ((startDrains_held hs).mono fun r s₁ hs₁ => ?_)
  cases r with
  | error e => exact fun hdrains => (hs₁ hdrains).1
  | ok a =>
  refine WP.mono (Q := fun _ s' => s₁.trace <+: s'.trace ∧ (Held H s₁ → Held H s'))
    ⟨Prog.trace_extends env (finishDrain p st d a.1 a.2) s₁,
      finishDrain_preserves env s₁⟩ fun _ s' ⟨hpre, hkeep⟩ hdrains => ?_
  exact hkeep (hs₁ fun i e he => hdrains i e (hpre.subset he)).1

theorem dispatch_held (hs : Held H s) :
    WP env (dispatch cfg p st d now elapsed) s fun _ s' => DrainsSucceed s'.trace → Held H s' := by
  by_cases hup : ScalesUp d s.mem now
  · refine (dispatch_scalesUp (D := []) hup).mono fun _ s' ⟨hnone, _⟩ _ i hi => ?_
    rw [hnone] at hi
    exact absurd hi List.not_mem_nil
  by_cases hdown : d.action = .scaleDown
  swap
  · unfold WP
    rw [dispatch_keeps hdown hup]
    exact fun _ => hs
  have hdrain : WP env (drainThenScale p st d) s _ := drainThenScale_held hs
  unfold WP at hdrain ⊢
  rcases dispatch_scaleDown hdown with hnoop | ⟨-, -, hrun⟩
  · rw [hnoop]
    exact fun _ => hs
  · rw [hrun]
    exact hdrain

/-! ## Runs -/

section Step

variable {w : Watched (List Int)} {x : Reconcile}

/-- What is draining is still held when the reconcile comes to its decision. -/
theorem decisionPhase_held (hw : DrainsHeld w) (hx : ¬ LosesHold cfg p w x) :
    Held w.seen ((decisionPhase cfg p x.state).run x.env ⟨w.mem, []⟩).2 := by
  intro i hi
  rw [(decisionPhase_drained cfg p [] w.mem x).1] at hi
  rw [Prog.trace_eq]
  refine heldBy_of_not_resumed (fun r he => hx (.inr ?_)) (hw i hi)
  obtain ⟨prov, ready, hprov, hready, hle, hrange⟩ := resume_decisionPhase he
  exact ⟨prov, ready, hprov, hready, hle, i, hi, hrange⟩

theorem step_drainsHeld (hw : DrainsHeld w) (hx : ¬ LosesHold cfg p w x) :
    DrainsHeld (watchStep heldStep cfg p w x) := by
  have hphase := decisionPhase_held hw hx
  show Held w.seen ⟨stepMemory cfg p w.mem x, callsOf cfg p w.mem x⟩
  have hdrains : DrainsSucceed (callsOf cfg p w.mem x) := fun i e he => hx (.inl ⟨i, e, he⟩)
  rw [callsOf_eq] at hdrains ⊢
  by_cases hd : ∃ d now elapsed s, Decides cfg p w.mem x d now elapsed s
  · obtain ⟨d, now, elapsed, s, hd⟩ := hd
    rw [show (decisionPhase cfg p x.state).run x.env ⟨w.mem, []⟩ = _ from hd] at hphase
    rw [stepMemory]
    rw [hd.run] at hdrains ⊢
    have hdispatch : WP x.env (dispatch cfg p x.state d now elapsed) s _ := dispatch_held hphase
    exact hdispatch hdrains
  · have hnone : ∀ d now elapsed s, ¬ Decides cfg p w.mem x d now elapsed s :=
      fun d now elapsed s h => hd ⟨d, now, elapsed, s, h⟩
    rw [stepMemory, run_of_not_decides hnone]
    exact hphase

theorem removesHeld (hw : DrainsHeld w) (hx : ¬ LosesHold cfg p w x) : RemovesHeld cfg p w x := by
  intro d now elapsed s hd hdown es n r es' hcalls
  have hphase := decisionPhase_held hw hx
  rw [show (decisionPhase cfg p x.state).run x.env ⟨w.mem, []⟩ = _ from hd] at hphase
  have hdrains : DrainsSucceed (callsOf cfg p w.mem x) := fun i e he => hx (.inl ⟨i, e, he⟩)
  have hbefore : DrainsSucceed (s.trace ++ es) := fun i e he => hdrains i e (by
    rw [hcalls, ← List.append_assoc]
    exact List.mem_append_left _ he)
  rw [callsOf_eq, hd.run] at hcalls
  rcases dispatch_scaleDown hdown with hnoop | ⟨-, -, hrun⟩
  · rw [hnoop] at hcalls
    have hlen := congrArg List.length hcalls
    simp at hlen
  · rw [hrun, Prog.trace_eq] at hcalls
    exact Prog.guards_iff.mp (drainThenScale_guards hphase) es _ es'
      (List.append_cancel_left hcalls) n rfl hbefore

/-- From an operator that has drained nothing on, in a run whose DRAINs succeed
and in which no scale-up becomes ready while an ordinal of it is draining, every
scale-down removes held workers only. -/
theorem removed_workers_held {m : Memory} (hm : m.drainingNodes = none) {xs : List Reconcile}
    (hxs : Along (watchStep heldStep cfg p) (fun w x => ¬ LosesHold cfg p w x) ⟨m, H⟩ xs) :
    Along (watchStep heldStep cfg p) (RemovesHeld cfg p) ⟨m, H⟩ xs := by
  have h₀ : DrainsHeld ⟨m, H⟩ := by
    intro i hi
    rw [hm] at hi
    exact absurd hi List.not_mem_nil
  exact (hxs.invariant (fun _ _ => step_drainsHeld) h₀).mono fun _ _ h => removesHeld h.1 h.2

/-- Two workers are drained while they are busy, and removed once they are idle. -/
theorem removed_workers_held_idle :
    Along (watchStep heldStep {} fourWorkers) (RemovesHeld {} fourWorkers) ⟨{}, []⟩
      [⟨idle 3 0, busyEnv ⟨some 3, some 3⟩ 1000⟩, ⟨idle 3 0, quietEnv ⟨some 3, some 3⟩ 1015⟩] := by
  refine removed_workers_held rfl ⟨?_, ?_, trivial⟩
  · rintro (⟨i, e, he⟩ | ⟨prov, ready, hprov, -⟩)
    · exact not_error_mem (busyEnv_ok _ _) he
    · cases hprov
  · rintro (⟨i, e, he⟩ | ⟨prov, ready, hprov, -⟩)
    · exact not_error_mem (fun _ _ => rfl) he
    · have hnone : (watchStep heldStep {} fourWorkers ⟨{}, []⟩
          ⟨idle 3 0, busyEnv ⟨some 3, some 3⟩ 1000⟩).mem.provisioning = none := by
        decide +kernel
      rw [hnone] at hprov
      cases hprov

/-- Every DRAIN raises; else as `quietEnv`. -/
def undrainableEnv (sts : StatefulSet) (now : ℚ) : OpEnv := fun n c =>
  match c with
  | .command (.drain _) => .error .other
  | c => quietEnv sts now n c

/-- The DRAINs of two idle workers raise, and the workers are removed. -/
theorem removed_workers_not_held :
    ¬ Along (watchStep heldStep {} fourWorkers) (RemovesHeld {} fourWorkers) ⟨{}, []⟩
      [⟨idle 3 0, undrainableEnv ⟨some 3, some 3⟩ 1000⟩] := by
  intro h
  have hd : Decides {} fourWorkers {} ⟨idle 3 0, undrainableEnv ⟨some 3, some 3⟩ 1000⟩
      ⟨1, .scaleDown, "no_pending_jobs"⟩ 1000 1000 _ := Prod.ext (by decide +kernel) rfl
  have hheld := h.1 _ _ _ _ hd rfl
    [⟨.time, .ok (1000 : ℚ)⟩, ⟨.command (.drain 1), .error .other⟩,
      ⟨.command (.drain 2), .error .other⟩, ⟨.showNode 1, .ok (some 0)⟩,
      ⟨.showNode 2, .ok (some 0)⟩, ⟨.showNode 1, .ok (some 0)⟩, ⟨.showNode 2, .ok (some 0)⟩]
    1 (.ok ()) [⟨.command (.future 1 "operator-scale-down"), .ok ()⟩,
      ⟨.command (.future 2 "operator-scale-down"), .ok ()⟩,
      ⟨.command (.annotate .lastScaleAction (.time 1000)), .ok ()⟩] (by decide +kernel) 1
    (by decide)
  revert hheld
  decide +kernel

end Step

end Kelpflux.Proof.Operator
