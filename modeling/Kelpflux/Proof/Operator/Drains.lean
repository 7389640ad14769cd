import Kelpflux.Proof.Operator.Decision
import Kelpflux.Proof.Operator.InFlight

/-!
# Drained nodes

The nodes under a DRAIN of the operator, by the commands that succeeded
(`drainedBy`), beside the nodes that it remembers as draining. A scale-up
resumes what it remembers (`doScaleUp_drained`), a scale-down that completes
hides its range and forgets the rest (`drainThenScale_recorded`), and any other
dispatch does nothing, so that:

* `drains_abandoned_iff`: a decision other than to scale down leaves no live
  worker drained, unless it keeps the replicas while one is;
* `drains_recorded`: drained nodes are remembered, unless a scale-down
  completes above one of them or a resume or FUTURE command raises.
-/

namespace Kelpflux.Proof.Operator

open Framework Kelpflux.Impl.Operator

/-- The nodes under a DRAIN after a call: RESUME, DOWN and FUTURE end one. A
command that raises does nothing. -/
def drainedStep (D : List Int) : OpEvent → List Int
  | ⟨.command (.drain i), .ok _⟩ => i :: D
  | ⟨.command (.resume i), .ok _⟩ => D.filter (· ≠ i)
  | ⟨.command (.down i _), .ok _⟩ => D.filter (· ≠ i)
  | ⟨.command (.future i _), .ok _⟩ => D.filter (· ≠ i)
  | _ => D

def drainedBy (D : List Int) (es : List OpEvent) : List Int := es.foldl drainedStep D

/-- A decision to scale up that the dispatch carries out: no back-off, and no
scale-up in flight. -/
def ScalesUp (d : ScalingDecision) (m : Memory) (now : ℚ) : Prop :=
  d.action = .scaleUp ∧ m.provisioningRetryAt.getD 0 ≤ now ∧ m.provisioning = none

instance (d : ScalingDecision) (m : Memory) (now : ℚ) : Decidable (ScalesUp d m now) := by
  unfold ScalesUp; infer_instance

/-- The replicas that the dispatch starts from: a rollback has patched them, or
they are as observed. -/
def replicasAt (x : Reconcile) (s : OpState) : Int :=
  (patchesOf s.trace).getLast?.getD x.state.currentReplicas

/-- A reconcile that decides not to scale down leaves no node below the replicas
under a DRAIN. -/
def Undrains (cfg : Config) (p : PartitionConfig) (w : Watched (List Int)) (x : Reconcile) : Prop :=
  ∀ d now elapsed s, Decides cfg p w.mem x d now elapsed s → d.action ≠ .scaleDown →
    ∀ i ∈ (watchStep drainedStep cfg p w x).seen,
      ¬ (0 ≤ i ∧ i < if ScalesUp d s.mem now then d.targetReplicas else replicasAt x s)

/-- The reconcile keeps the replicas, or defers a scale-up, while a node below
the replicas is under a DRAIN. -/
def AbandonsDrain (cfg : Config) (p : PartitionConfig) (w : Watched (List Int)) (x : Reconcile) :
    Prop :=
  ∃ d now elapsed s, Decides cfg p w.mem x d now elapsed s ∧ d.action ≠ .scaleDown ∧
    ¬ ScalesUp d s.mem now ∧ ∃ i ∈ drainedBy w.seen s.trace, 0 ≤ i ∧ i < replicasAt x s

/-- Every resume among the calls succeeds. -/
def ResumesSucceed (es : List OpEvent) : Prop :=
  ∀ i e, ⟨.command (.resume i), .error e⟩ ∉ es

/-- The nodes under a DRAIN are remembered as draining. -/
def DrainsRecorded (w : Watched (List Int)) : Prop :=
  ∀ i ∈ w.seen, i ∈ w.mem.drainingNodes.getD []

/-- A scale-up whose resume of a drained node raises; or a scale-down, no jobs
running, the cooldown over and the nodes idle, with a drained node outside the
range that it removes or one of the range whose FUTURE mark raises. -/
def ForgetsDrain (cfg : Config) (p : PartitionConfig) (w : Watched (List Int)) (x : Reconcile) :
    Prop :=
  ∃ d now elapsed s, Decides cfg p w.mem x d now elapsed s ∧
    ((ScalesUp d s.mem now ∧ ∃ i ∈ drainedBy w.seen s.trace, ∃ e,
        ⟨.command (.resume i), .error e⟩ ∈ callsOf cfg p w.mem x) ∨
      (d.action = .scaleDown ∧ x.state.runningJobs ≤ 0 ∧ p.scaleDownCooldown ≤ elapsed ∧
        Drained p s.mem (range d.targetReplicas x.state.currentReplicas) (callsOf cfg p w.mem x) ∧
        ((∃ i ∈ drainedBy w.seen s.trace, i ∉ range d.targetReplicas x.state.currentReplicas) ∨
          ∃ i e, ⟨.command (.future i "operator-scale-down"), .error e⟩ ∈ callsOf cfg p w.mem x)))

variable {cfg : Config} {p : PartitionConfig} {st : PartitionState} {d : ScalingDecision}
  {env : OpEnv} {s : OpState} {D : List Int} {now elapsed : ℚ}

/-! ## One call -/

/-- Not a DRAIN. -/
def NotDrain : Call → Prop
  | .command (.drain _) => False
  | _ => True

theorem drainedStep_cases {e : OpEvent} {i : Int} (h : i ∈ drainedStep D e) :
    i ∈ D ∨ e.call = Call.command (.drain i) := by
  unfold drainedStep at h
  split at h
  · exact (List.mem_cons.mp h).symm.imp_right fun h => by rw [h]
  all_goals first
    | exact .inl (List.mem_of_mem_filter h)
    | exact .inl h

@[simp] theorem drainedBy_append (es es' : List OpEvent) :
    drainedBy D (es ++ es') = drainedBy (drainedBy D es) es' := List.foldl_append

theorem drainedBy_concat (es : List OpEvent) (e : OpEvent) :
    drainedBy D (es ++ [e]) = drainedStep (drainedBy D es) e := drainedBy_append es [e]

theorem drainedBy_notDrain {es : List OpEvent} (h : ∀ e ∈ es, NotDrain e.call) :
    drainedBy D es ⊆ D := by
  induction es generalizing D with
  | nil => exact fun i hi => hi
  | cons e es ih =>
    intro i hi
    have hi := ih (fun e he => h e (List.mem_cons_of_mem _ he)) hi
    refine (drainedStep_cases hi).resolve_right fun hc => ?_
    have := h e List.mem_cons_self
    rw [hc] at this
    exact this

theorem OfPhase.notDrain {c : Call} (h : OfPhase c) : NotDrain c := by
  unfold NotDrain
  split
  · obtain h | ⟨_, h⟩ | ⟨_, h⟩ | ⟨_, h⟩ := h
    · exact h
    · cases h
    · cases h
    · cases h
  · trivial

/-- A loop of commands each of which ends a DRAIN: a node still drained after it
was drained before, and is none of the loop's or its command raised. -/
theorem forM_attempt_drained {c : Int → Command}
    (hok : ∀ D i r, drainedStep D ⟨.command (c i), .ok r⟩ = D.filter (· ≠ i))
    (herr : ∀ D i e, drainedStep D ⟨.command (c i), .error e⟩ = D) (nodes : List Int) :
    WP env (nodes.forM fun i => attempt (c i)) s fun r s' => r = .ok () ∧ s'.mem = s.mem ∧
      s.trace <+: s'.trace ∧ ∀ i ∈ drainedBy D s'.trace, i ∈ drainedBy D s.trace ∧
        (i ∈ nodes → ∃ e, ⟨.command (c i), .error e⟩ ∈ s'.trace) := by
  refine WP.forM (fun xs s₁ => s₁.mem = s.mem ∧ s.trace <+: s₁.trace ∧
    ∀ i ∈ drainedBy D s₁.trace, i ∈ drainedBy D s.trace ∧
      (i ∈ nodes → i ∈ xs ∨ ∃ e, ⟨.command (c i), .error e⟩ ∈ s₁.trace))
    ⟨rfl, List.prefix_refl _, fun i hi => ⟨hi, .inl⟩⟩ (fun y ys s₁ ⟨hmem, hpre, hs₁⟩ => ?_)
    fun s₁ ⟨hmem, hpre, hs₁⟩ => ⟨rfl, hmem, hpre, fun i hi => ⟨(hs₁ i hi).1, fun hn =>
      ((hs₁ i hi).2 hn).resolve_left List.not_mem_nil⟩⟩
  simp only [wp_attempt]
  refine ⟨hmem, hpre.trans (List.prefix_append _ _), fun i hi => ?_⟩
  rw [drainedBy_concat] at hi
  cases hr : env s₁.trace.length (.command (c y)) with
  | ok r =>
    rw [hr, hok] at hi
    obtain ⟨hi, hne⟩ := List.mem_filter.mp hi
    have hne : i ≠ y := of_decide_eq_true hne
    refine ⟨(hs₁ i hi).1, fun hn => ?_⟩
    rcases (hs₁ i hi).2 hn with hy | ⟨e, he⟩
    · exact .inl ((List.mem_cons.mp hy).resolve_left hne)
    · exact .inr ⟨e, List.mem_append_left _ he⟩
  | error e =>
    rw [hr, herr] at hi
    refine ⟨(hs₁ i hi).1, fun hn => ?_⟩
    rcases (hs₁ i hi).2 hn with hy | ⟨e, he⟩
    · rcases List.mem_cons.mp hy with rfl | hy
      · exact .inr ⟨e, List.mem_append_right _ (List.mem_singleton_self _)⟩
      · exact .inl hy
    · exact .inr ⟨e, List.mem_append_left _ he⟩

/-! ## The dispatch -/

theorem dispatch_keeps (hdown : d.action ≠ .scaleDown) (hup : ¬ ScalesUp d s.mem now) :
    ((dispatch cfg p st d now elapsed).run env s).2 = s := by
  have h : WP env (dispatch cfg p st d now elapsed) s fun _ s' => s' = s := by
    simp only [dispatch, WP.bind_iff, WP.get_iff]
    split
    · rename_i hact
      split
      · rfl
      split
      · rfl
      refine absurd ⟨hact, not_lt.mp ‹_›, ?_⟩ hup
      exact Option.not_isSome_iff_eq_none.mp ‹_›
    · exact absurd ‹_› hdown
    · rfl
  exact h

/-- A decision to scale down that the dispatch carries out: no jobs running, and
the cooldown over. -/
theorem dispatch_scaleDown (hdown : d.action = .scaleDown) :
    (dispatch cfg p st d now elapsed).run env s = (.ok (), s) ∨
      st.runningJobs ≤ 0 ∧ p.scaleDownCooldown ≤ elapsed ∧
        (dispatch cfg p st d now elapsed).run env s = (drainThenScale p st d).run env s := by
  have h : WP env (dispatch cfg p st d now elapsed) s fun r s' =>
      (r, s') = (.ok (), s) ∨ st.runningJobs ≤ 0 ∧ p.scaleDownCooldown ≤ elapsed ∧
        (r, s') = (drainThenScale p st d).run env s := by
    simp only [dispatch, WP.bind_iff, WP.get_iff, hdown, doScaleDown]
    split
    · exact .inl rfl
    split
    · exact .inl rfl
    exact .inr ⟨not_lt.mp ‹_›, not_lt.mp ‹_›, rfl⟩
  exact h

/-- A node still drained after a scale-up was drained before it, and if it is one
to resume then its resume raised. -/
theorem doScaleUp_drained :
    WP env (doScaleUp cfg st d now) s fun _ s' => s'.mem.drainingNodes = none ∧
      ∀ i ∈ drainedBy D s'.trace, i ∈ drainedBy D s.trace ∧
        (i ∈ s.mem.drainingNodes.getD [] ∨ i ∈ range 0 d.targetReplicas →
          ∃ e, ⟨.command (.resume i), .error e⟩ ∈ s'.trace) := by
  refine WP.bind_iff.mpr (WP.get_iff.mpr (WP.bind_iff.mpr (WP.modify_iff.mpr (WP.bind_iff.mpr
    ((forM_attempt_drained (D := D) (c := Command.resume) (fun _ _ _ => rfl)
      (fun _ _ _ => rfl) _).mono ?_)))))
  rintro _ s₁ ⟨rfl, hmem, -, hs₁⟩
  have hrest : ∀ q : Op Unit, q.Only NotDrain → q.Frames Memory.drainingNodes →
      WP env q s₁ fun _ s' => s'.mem.drainingNodes = none ∧
        ∀ i ∈ drainedBy D s'.trace, i ∈ drainedBy D s.trace ∧
          (i ∈ s.mem.drainingNodes.getD [] ∨ i ∈ range 0 d.targetReplicas →
            ∃ e, ⟨.command (.resume i), .error e⟩ ∈ s'.trace) := by
    intro q ho hf
    refine WP.of_frame ho hf fun _ s' es hnone htrace hes => ?_
    refine ⟨hnone.trans (congrArg Memory.drainingNodes hmem), fun i hi => ?_⟩
    rw [htrace, drainedBy_append] at hi
    obtain ⟨hi, hres⟩ := hs₁ i (drainedBy_notDrain hes hi)
    refine ⟨hi, fun hn => ?_⟩
    obtain ⟨e, he⟩ := hres (List.mem_union_iff.mpr hn)
    exact ⟨e, htrace ▸ List.mem_append_left _ he⟩
  refine hrest _ ?_ ?_
  · refine .bind (traceSpan_inert.mono fun _ h => OfPhase.notDrain (.inl h)) fun _ =>
      .bind (Prog.Only.perform.mpr trivial) fun _ => .bind (.modify _) fun _ =>
      .bind (Prog.Only.perform.mpr trivial) fun _ => .bind (.modify _) fun _ =>
      .tryCatch ?_ fun _ => .pure _
    exact .bind (Prog.Only.perform.mpr trivial) fun _ =>
      .bind (Prog.Only.perform.mpr trivial) fun _ => Prog.Only.perform.mpr trivial
  · refine .bind traceSpan_frames fun _ => .bind (.perform _) fun _ => .bind (.modify fun _ => rfl)
      fun _ => .bind (.perform _) fun _ => .bind (.modify fun _ => rfl) fun _ =>
      .tryCatch ?_ fun _ => .pure _
    exact .bind (.perform _) fun _ => .bind (.perform _) fun _ => .perform _

theorem dispatch_scalesUp (hup : ScalesUp d s.mem now) :
    WP env (dispatch cfg p st d now elapsed) s fun _ s' => s'.mem.drainingNodes = none ∧
      ∀ i ∈ drainedBy D s'.trace, i ∈ drainedBy D s.trace ∧
        (i ∈ s.mem.drainingNodes.getD [] ∨ i ∈ range 0 d.targetReplicas →
          ∃ e, ⟨.command (.resume i), .error e⟩ ∈ s'.trace) := by
  obtain ⟨hact, hretry, hprov⟩ := hup
  simp only [dispatch, WP.bind_iff, WP.get_iff, hact]
  rw [if_neg (not_lt.mpr hretry), if_neg (by rw [hprov]; decide)]
  unfold clearRetry
  rw [WP.bind_iff]
  split
  · simp only [WP.bind_iff, WP.modify_iff, annotate, wp_attempt]
    refine (doScaleUp_drained (D := D)).mono fun _ s' h => ⟨h.1, fun i hi => ?_⟩
    obtain ⟨hi, hres⟩ := h.2 i hi
    rw [drainedBy_append] at hi
    exact ⟨drainedBy_notDrain (by simp [NotDrain]) hi, hres⟩
  · exact doScaleUp_drained

/-- New nodes to drain: what is drained after them was before, or is new. -/
theorem startDrain_drained {nodes : List Int} {nowTs : ℚ} :
    WP env (nodes.forM (startDrain nowTs)) s fun r s' => r = .ok () ∧
      s'.mem.drainingNodes = s.mem.drainingNodes ∧ s.trace <+: s'.trace ∧
      ∀ i ∈ drainedBy D s'.trace, i ∈ drainedBy D s.trace ∨ i ∈ nodes := by
  refine WP.forM (fun xs s₁ => s₁.mem.drainingNodes = s.mem.drainingNodes ∧ s.trace <+: s₁.trace ∧
      xs ⊆ nodes ∧ ∀ i ∈ drainedBy D s₁.trace, i ∈ drainedBy D s.trace ∨ i ∈ nodes)
    ⟨rfl, List.prefix_refl _, List.Subset.refl _, fun i hi => .inl hi⟩
    (fun y ys s₁ ⟨hmem, hpre, hsub, hs₁⟩ => ?_) fun s₁ ⟨hmem, hpre, _, hs₁⟩ => ⟨rfl, hmem, hpre, hs₁⟩
  simp only [startDrain, WP.bind_iff, wp_attempt, WP.modify_iff]
  refine ⟨hmem, hpre.trans (List.prefix_append _ _), fun i hi => hsub (List.mem_cons_of_mem _ hi),
    fun i hi => ?_⟩
  rw [drainedBy_concat] at hi
  rcases drainedStep_cases hi with hi | hc
  · exact hs₁ i hi
  · cases hc
    exact .inr (hsub List.mem_cons_self)

theorem Reaps.notDrain {c : Call} (h : Reaps c) : NotDrain c := by
  unfold NotDrain
  split
  · exact h
  · trivial

/-- Either the draining nodes are remembered as before and no other node is
drained, or they are forgotten, with a call that is not quiet, and of the range
`nodes` only those are still drained whose FUTURE mark raised. -/
def KeepsOrHides (D nodes : List Int) (s s' : OpState) : Prop :=
  ∃ es, s'.trace = s.trace ++ es ∧
    ((s'.mem.drainingNodes = s.mem.drainingNodes ∧
        ∀ i ∈ drainedBy D s'.trace, i ∈ drainedBy D s.trace) ∨
      (∃ e ∈ es, ¬ Quiet e.call) ∧ ∀ i ∈ drainedBy D s'.trace, i ∈ drainedBy D s.trace ∧
        (i ∈ nodes → ∃ e, ⟨.command (.future i "operator-scale-down"), .error e⟩ ∈ s'.trace))

/-- Calls that are no DRAIN, before it. -/
theorem KeepsOrHides.of_notDrain {nodes : List Int} {s₁ s' : OpState} {es : List OpEvent}
    (h : KeepsOrHides D nodes s₁ s') (hmem : s₁.mem.drainingNodes = s.mem.drainingNodes)
    (htrace : s₁.trace = s.trace ++ es) (hes : ∀ e ∈ es, NotDrain e.call) :
    KeepsOrHides D nodes s s' := by
  have hsub : ∀ i ∈ drainedBy D s₁.trace, i ∈ drainedBy D s.trace := by
    intro i hi
    rw [htrace, drainedBy_append] at hi
    exact drainedBy_notDrain hes hi
  obtain ⟨es', htrace', hor⟩ := h
  refine ⟨es ++ es', by rw [htrace', htrace, List.append_assoc], ?_⟩
  rcases hor with ⟨hmem', hs'⟩ | ⟨⟨e, he, hq⟩, hs'⟩
  · exact .inl ⟨hmem'.trans hmem, fun i hi => hsub i (hs' i hi)⟩
  · exact .inr ⟨⟨e, List.mem_append_right _ he, hq⟩, fun i hi => (hs' i hi).imp_left (hsub i)⟩

theorem completeScaleDown_drained {nodes : List Int} {nowTs : ℚ} :
    WP env (completeScaleDown d nodes nowTs) s fun _ s' => KeepsOrHides D nodes s s' := by
  simp only [completeScaleDown, WP.bind_iff, wp_perform]
  have hpatch : ∀ {i r}, i ∈ drainedBy D (s.trace ++
      [⟨.command (.patchReplicas d.targetReplicas), r⟩]) → i ∈ drainedBy D s.trace := by
    intro i r hi
    rw [drainedBy_concat] at hi
    exact hi
  cases env s.trace.length (.command (.patchReplicas d.targetReplicas)) with
  | error e => exact ⟨_, rfl, .inl ⟨rfl, fun i hi => hpatch hi⟩⟩
  | ok r =>
    refine (forM_attempt_drained (D := D) (c := fun i => .future i "operator-scale-down")
      (fun _ _ _ => rfl) (fun _ _ _ => rfl) nodes).mono ?_
    rintro _ s₁ ⟨rfl, -, ⟨es, htrace⟩, hs₁⟩
    simp only [WP.modify_iff, wp_attempt]
    generalize env s₁.trace.length (.command (.annotate .lastScaleAction (.time nowTs))) = r'
    refine ⟨⟨.command (.patchReplicas d.targetReplicas), .ok r⟩ ::
      (es ++ [⟨.command (.annotate .lastScaleAction (.time nowTs)), r'⟩]), ?_, .inr
      ⟨⟨_, List.mem_cons_self, id⟩, fun i hi => ?_⟩⟩
    · rw [← htrace, List.append_assoc, List.append_assoc]
      rfl
    rw [drainedBy_concat] at hi
    obtain ⟨hi, hfuture⟩ := hs₁ i hi
    refine ⟨hpatch hi, fun hn => ?_⟩
    obtain ⟨e, he⟩ := hfuture hn
    exact ⟨e, List.mem_append_left _ he⟩

/-- `_do_scale_down` once the nodes to drain are remembered. -/
def finishDrain (p : PartitionConfig) (st : PartitionState) (d : ScalingDecision)
    (draining : List Int) (nowTs : ℚ) : Op Unit := do
  let started := (← get).drainingStarted.getD []
  let forceKilled ← forceKillExpired p draining started nowTs
  if ← draining.allM (nodeIdle forceKilled) then
    completeScaleDown d (range d.targetReplicas st.currentReplicas) nowTs

theorem finishDrain_drained {draining : List Int} {nowTs : ℚ} :
    WP env (finishDrain p st d draining nowTs) s fun _ s' =>
      KeepsOrHides D (range d.targetReplicas st.currentReplicas) s s' := by
  have hkeep : ∀ {s₁ : OpState} {es : List OpEvent}, s₁.mem.drainingNodes = s.mem.drainingNodes →
      s₁.trace = s.trace ++ es → (∀ e ∈ es, NotDrain e.call) →
      KeepsOrHides D (range d.targetReplicas st.currentReplicas) s s₁ := fun hmem htrace hes =>
    .of_notDrain ⟨[], (List.append_nil _).symm, .inl ⟨rfl, fun _ hi => hi⟩⟩ hmem htrace hes
  unfold finishDrain
  refine WP.bind_iff.mpr (WP.get_iff.mpr (WP.bind_iff.mpr ?_))
  refine WP.of_frame (f := Memory.drainingNodes)
    (forceKillExpired_reaps.mono fun _ => Reaps.notDrain) forceKillExpired_frames
    fun r s₁ es₁ hmem₁ htrace₁ hes₁ => ?_
  cases r with
  | error e => exact hkeep hmem₁ htrace₁ hes₁
  | ok killed =>
  refine WP.bind_iff.mpr (WP.of_frame (f := Memory.drainingNodes)
    (allIdle_reaps.mono fun _ => Reaps.notDrain) allIdle_frames fun r s₂ es₂ hmem₂ htrace₂ hes₂ => ?_)
  have hmem := hmem₂.trans hmem₁
  have htrace : s₂.trace = s.trace ++ (es₁ ++ es₂) := by
    rw [htrace₂, htrace₁, List.append_assoc]
  have hes : ∀ e ∈ es₁ ++ es₂, NotDrain e.call := fun e he =>
    (List.mem_append.mp he).elim (hes₁ e) (hes₂ e)
  rcases r with e | (_ | _)
  · exact hkeep hmem htrace hes
  · exact hkeep hmem htrace hes
  · exact completeScaleDown_drained.mono fun _ s' hs' => hs'.of_notDrain hmem htrace hes

/-- A scale-down that does not complete remembers the nodes that it drains; one
that does hides all of them, if none is outside its range and no mark raises. -/
theorem drainThenScale_recorded (hs : ∀ i ∈ drainedBy D s.trace, i ∈ s.mem.drainingNodes.getD []) :
    WP env (drainThenScale p st d) s fun _ s' =>
      (∀ es, s'.trace = s.trace ++ es → (∃ e ∈ es, ¬ Quiet e.call) →
        (∀ i ∈ drainedBy D s.trace, i ∈ range d.targetReplicas st.currentReplicas) ∧
        ∀ i e, ⟨.command (.future i "operator-scale-down"), .error e⟩ ∉ s'.trace) →
      ∀ i ∈ drainedBy D s'.trace, i ∈ s'.mem.drainingNodes.getD [] := by
  refine WP.bind_iff.mpr (WP.get_iff.mpr (WP.bind_iff.mpr (WP.modify_iff.mpr (WP.bind_iff.mpr
    (wp_time.mpr ?_)))))
  have htime : ∀ {i r}, i ∈ drainedBy D (s.trace ++ [⟨.time, r⟩]) → i ∈ drainedBy D s.trace := by
    intro i r hi
    rw [drainedBy_concat] at hi
    exact hi
  cases env s.trace.length .time with
  | error e => exact fun _ i hi => hs i (htime hi)
  | ok nowTs =>
  refine WP.bind_iff.mpr ((startDrain_drained (D := D)).mono ?_)
  rintro _ s₁ ⟨rfl, hmem, ⟨es₁, htrace₁⟩, hs₁⟩
  refine WP.bind_iff.mpr (WP.modify_iff.mpr ?_)
  generalize hnew : (range d.targetReplicas st.currentReplicas).filter
    (fun node => node ∉ s.mem.drainingNodes.getD []) = newNodes at hs₁ ⊢
  -- from here on every drained node is remembered
  have hset : ∀ m : Memory, m.drainingNodes = (if newNodes ≠ [] then
      some (s.mem.drainingNodes.getD [] ++ newNodes) else s.mem.drainingNodes) →
      ∀ i, i ∈ drainedBy D s.trace ∨ i ∈ newNodes → i ∈ m.drainingNodes.getD [] := by
    intro m hm i hi
    rw [hm]
    by_cases hnil : newNodes = []
    · rw [if_neg (not_not.mpr hnil)]
      rw [hnil] at hi
      exact hs i (hi.resolve_right List.not_mem_nil)
    · rw [if_pos hnil, Option.getD_some, List.mem_append]
      exact hi.imp_left (hs i)
  refine WP.mono (finishDrain_drained (D := D)) ?_
  rintro _ s' ⟨es, htrace, ⟨hmem', hs'⟩ | ⟨⟨e, he, hq⟩, hs'⟩⟩ hgood i hi
  · rw [hmem']
    refine hset _ ?_ i ((hs₁ i (hs' i hi)).imp_left htime)
    split
    · rfl
    · exact hmem
  · obtain ⟨hrange, hmark⟩ := hgood ([_] ++ es₁ ++ es) (by
      rw [htrace, ← htrace₁, List.append_assoc, List.append_assoc, List.append_assoc])
      ⟨e, List.mem_append_right _ he, hq⟩
    obtain ⟨hi, hfuture⟩ := hs' i hi
    have hin : i ∈ range d.targetReplicas st.currentReplicas := by
      rcases hs₁ i hi with hi | hi
      · exact hrange i (htime hi)
      · rw [← hnew] at hi
        exact List.mem_of_mem_filter hi
    obtain ⟨e, he⟩ := hfuture hin
    exact absurd he (hmark i e)

/-! ## One reconcile -/

section Step

variable {w : Watched (List Int)} {x : Reconcile}

theorem Decides.seen (h : Decides cfg p w.mem x d now elapsed s) :
    (watchStep drainedStep cfg p w x).seen =
      drainedBy w.seen ((dispatch cfg p x.state d now elapsed).run x.env s).2.trace := by
  rw [← h.run, ← callsOf_eq]
  rfl

/-- Up to its decision a reconcile remembers what is draining, and drains
nothing. -/
theorem decisionPhase_drained (cfg : Config) (p : PartitionConfig) (D : List Int) (m : Memory)
    (x : Reconcile) :
    ((decisionPhase cfg p x.state).run x.env ⟨m, []⟩).2.mem.drainingNodes = m.drainingNodes ∧
      ∀ i ∈ drainedBy D ((decisionPhase cfg p x.state).run x.env ⟨m, []⟩).2.trace, i ∈ D := by
  refine ⟨decisionPhase_frames (fun _ _ => rfl) (fun _ => rfl) (fun _ _ _ => rfl) x.env ⟨m, []⟩,
    fun i hi => ?_⟩
  rw [Prog.trace_eq] at hi
  exact drainedBy_notDrain
    (fun e he => (decisionPhase_ofPhase.calls x.env ⟨m, []⟩ e he).notDrain) hi

theorem undrains_iff (hres : ResumesSucceed (callsOf cfg p w.mem x)) :
    Undrains cfg p w x ↔ ¬ AbandonsDrain cfg p w x := by
  constructor
  · rintro h ⟨d, now, elapsed, s, hd, hdown, hup, i, hi, h0, hlt⟩
    refine h d now elapsed s hd hdown i ?_ ⟨h0, by rwa [if_neg hup]⟩
    rwa [hd.seen, dispatch_keeps hdown hup]
  · rintro h d now elapsed s hd hdown i hi ⟨h0, hlt⟩
    rw [hd.seen] at hi
    by_cases hup : ScalesUp d s.mem now
    · rw [if_pos hup] at hlt
      have hundrain : WP x.env (dispatch cfg p x.state d now elapsed) s _ :=
        dispatch_scalesUp (D := w.seen) hup
      obtain ⟨e, he⟩ := (hundrain.2 i hi).2 (.inr (mem_range.mpr ⟨h0, hlt⟩))
      rw [← hd.run, ← callsOf_eq] at he
      exact hres i e he
    · rw [if_neg hup] at hlt
      rw [dispatch_keeps hdown hup] at hi
      exact h ⟨d, now, elapsed, s, hd, hdown, hup, i, hi, h0, hlt⟩

theorem step_drainsRecorded (hw : DrainsRecorded w) (hx : ¬ ForgetsDrain cfg p w x) :
    DrainsRecorded (watchStep drainedStep cfg p w x) := by
  obtain ⟨hmem, hsub⟩ := decisionPhase_drained cfg p w.seen w.mem x
  by_cases hd : ∃ d now elapsed s, Decides cfg p w.mem x d now elapsed s
  swap
  · have hnone : ∀ d now elapsed s, ¬ Decides cfg p w.mem x d now elapsed s :=
      fun d now elapsed s h => hd ⟨d, now, elapsed, s, h⟩
    have hrun := run_of_not_decides hnone
    intro i hi
    have hi : i ∈ drainedBy w.seen (callsOf cfg p w.mem x) := hi
    rw [callsOf_eq, hrun] at hi
    show i ∈ (stepMemory cfg p w.mem x).drainingNodes.getD []
    rw [stepMemory, hrun, hmem]
    exact hw i (hsub i hi)
  obtain ⟨d, now, elapsed, s, hd⟩ := hd
  rw [show (decisionPhase cfg p x.state).run x.env ⟨w.mem, []⟩ = _ from hd] at hmem hsub
  have hs : ∀ i ∈ drainedBy w.seen s.trace, i ∈ s.mem.drainingNodes.getD [] := by
    intro i hi
    rw [show s.mem.drainingNodes = _ from hmem]
    exact hw i (hsub i hi)
  suffices hdispatch : ∀ i ∈ drainedBy w.seen
      ((dispatch cfg p x.state d now elapsed).run x.env s).2.trace,
      i ∈ ((dispatch cfg p x.state d now elapsed).run x.env s).2.mem.drainingNodes.getD [] by
    intro i hi
    rw [hd.seen] at hi
    show i ∈ (stepMemory cfg p w.mem x).drainingNodes.getD []
    rw [stepMemory, hd.run]
    exact hdispatch i hi
  by_cases hup : ScalesUp d s.mem now
  · intro i hi
    have hundrain : WP x.env (dispatch cfg p x.state d now elapsed) s _ :=
      dispatch_scalesUp (D := w.seen) hup
    obtain ⟨hi, hres⟩ := hundrain.2 i hi
    obtain ⟨e, he⟩ := hres (.inl (hs i hi))
    rw [← hd.run, ← callsOf_eq] at he
    exact (hx ⟨d, now, elapsed, s, hd, .inl ⟨hup, i, hi, e, he⟩⟩).elim
  by_cases hdown : d.action = .scaleDown
  swap
  · rw [dispatch_keeps hdown hup]
    exact hs
  rcases dispatch_scaleDown hdown with hnoop | ⟨hrun, hcool, hdrain⟩
  · rw [hnoop]
    exact hs
  rw [hdrain]
  have hcalls : ((drainThenScale p x.state d).run x.env s).2.trace = callsOf cfg p w.mem x := by
    rw [callsOf_eq, hd.run, hdrain]
  refine drainThenScale_recorded hs fun es hes hpatched => ?_
  obtain ⟨e, he, hq⟩ := hpatched
  have htrace := (drainThenScale p x.state d).trace_eq x.env s
  obtain rfl : es = (drainThenScale p x.state d).calls x.env s :=
    List.append_cancel_left (hes.symm.trans htrace)
  have hdrained : Drained p s.mem (range d.targetReplicas x.state.currentReplicas)
      (callsOf cfg p w.mem x) := by
    refine (mem_drainThenScale he hq).2.mono ?_
    rw [← hcalls, htrace]
    exact List.subset_append_right _ _
  refine ⟨fun i hi => ?_, fun i e he => ?_⟩
  · by_contra hout
    exact hx ⟨d, now, elapsed, s, hd, .inr ⟨hdown, hrun, hcool, hdrained, .inl ⟨i, hi, hout⟩⟩⟩
  · rw [hcalls] at he
    exact hx ⟨d, now, elapsed, s, hd, .inr ⟨hdown, hrun, hcool, hdrained, .inr ⟨i, e, he⟩⟩⟩

/-! ## Runs -/

/-- In a run whose resume calls succeed, no reconcile that decides not to scale
down leaves a node below the replicas under a DRAIN, if and only if none keeps
the replicas, or defers a scale-up, while such a node is under one. -/
theorem drains_abandoned_iff {xs : List Reconcile}
    (hres : Along (watchStep drainedStep cfg p)
      (fun w x => ResumesSucceed (callsOf cfg p w.mem x)) w xs) :
    Along (watchStep drainedStep cfg p) (Undrains cfg p) w xs ↔
      Along (watchStep drainedStep cfg p) (fun w x => ¬ AbandonsDrain cfg p w x) w xs := by
  induction xs generalizing w with
  | nil => exact Iff.rfl
  | cons x xs ih => exact and_congr (undrains_iff hres.1) (ih hres.2)

/-- A pool of up to four workers. -/
def fourWorkers : PartitionConfig :=
  { partition := "gpu", workerStatefulset := "slurm-worker-gpu", minReplicas := 0,
    maxReplicas := 4, scaleUpStep := 1, scaleDownStep := 2, scaleDownCooldown := 60 }

/-- Nothing runs or waits. -/
def idle (replicas busyNodes : Int) : PartitionState :=
  { partition := "gpu", workerStatefulset := "slurm-worker-gpu", currentReplicas := replicas,
    pendingJobs := 0, runningJobs := 0, busyNodes }

/-- Every node has CPUs allocated; else as `quietEnv`. -/
def busyEnv (sts : StatefulSet) (now : ℚ) : OpEnv := fun n c =>
  match c with
  | .showNode _ => .ok (some 4)
  | c => quietEnv sts now n c

theorem busyEnv_ok (sts : StatefulSet) (now : ℚ) (n : Nat) (c : Command) :
    busyEnv sts now n (.command c) = .ok () := rfl

/-- An environment in which no command raises. -/
theorem not_error_mem {env : OpEnv} (henv : ∀ n c, env n (.command c) = .ok ()) {m : Memory}
    {st : PartitionState} {c : Command} {e : Exc} :
    ⟨.command c, .error e⟩ ∉ callsOf cfg p m ⟨st, env⟩ := by
  intro he
  obtain ⟨n, hn⟩ := Prog.calls_env _ he
  have := hn.trans (henv n c)
  cases this

/-- Two workers are drained, and then a job waits, but not for resources. -/
theorem drains_abandoned :
    let xs : List Reconcile := [⟨idle 3 0, busyEnv ⟨some 3, some 3⟩ 1000⟩,
      ⟨{ idle 3 0 with pendingJobs := 1 }, busyEnv ⟨some 3, some 3⟩ 1015⟩]
    Along (watchStep drainedStep {} fourWorkers)
        (fun w x => ResumesSucceed (callsOf {} fourWorkers w.mem x)) ⟨{}, []⟩ xs ∧
      ¬ Along (watchStep drainedStep {} fourWorkers) (Undrains {} fourWorkers) ⟨{}, []⟩ xs := by
  intro xs
  refine ⟨⟨fun _ _ => not_error_mem (busyEnv_ok _ _), fun _ _ => not_error_mem (busyEnv_ok _ _),
    trivial⟩, fun h => ?_⟩
  have hd : Decides {} fourWorkers
      (watchStep drainedStep {} fourWorkers ⟨{}, []⟩ ⟨idle 3 0, busyEnv ⟨some 3, some 3⟩ 1000⟩).mem
      ⟨{ idle 3 0 with pendingJobs := 1 }, busyEnv ⟨some 3, some 3⟩ 1015⟩
      ⟨3, .keep, "pending_jobs_not_blocked_by_resources"⟩ 1015 1015 _ :=
    Prod.ext (by decide +kernel) rfl
  refine h.2.1 _ _ _ _ hd (by decide) 1 (by decide +kernel) ?_
  decide +kernel

theorem drains_abandoned_iff_resumed :
    let xs : List Reconcile := [⟨idle 3 0, busyEnv ⟨some 3, some 3⟩ 1000⟩,
      ⟨{ idle 3 0 with pendingJobs := 1, scalePendingJobs := 1 },
        busyEnv ⟨some 3, some 3⟩ 1015⟩]
    Along (watchStep drainedStep {} fourWorkers) (Undrains {} fourWorkers) ⟨{}, []⟩ xs ↔
      Along (watchStep drainedStep {} fourWorkers) (fun w x => ¬ AbandonsDrain {} fourWorkers w x)
        ⟨{}, []⟩ xs :=
  drains_abandoned_iff ⟨fun _ _ => not_error_mem (busyEnv_ok _ _),
    fun _ _ => not_error_mem (busyEnv_ok _ _), trivial⟩

/-- From an operator that has drained nothing on, in a run without a reconcile
that forgets a drained node, every drained node is remembered. -/
theorem drains_recorded {m : Memory} {xs : List Reconcile}
    (hxs : Along (watchStep drainedStep cfg p) (fun w x => ¬ ForgetsDrain cfg p w x) ⟨m, []⟩ xs) :
    Along (watchStep drainedStep cfg p) (fun w _ => DrainsRecorded w) ⟨m, []⟩ xs ∧
      DrainsRecorded (run (watchStep drainedStep cfg p) ⟨m, []⟩ xs) := by
  have h₀ : DrainsRecorded ⟨m, []⟩ := fun i hi => by cases hi
  exact ⟨(hxs.invariant (fun _ _ => step_drainsRecorded) h₀).mono fun _ _ h => h.1,
    hxs.reach (fun _ _ => step_drainsRecorded) h₀⟩

/-- Two workers are drained, and then all are resumed for a job. -/
theorem drains_recorded_resumed :
    let xs : List Reconcile := [⟨idle 3 0, busyEnv ⟨some 3, some 3⟩ 1000⟩,
      ⟨{ idle 3 0 with pendingJobs := 1, scalePendingJobs := 1 },
        busyEnv ⟨some 3, some 3⟩ 1015⟩]
    Along (watchStep drainedStep {} fourWorkers) (fun w _ => DrainsRecorded w) ⟨{}, []⟩ xs ∧
      DrainsRecorded (run (watchStep drainedStep {} fourWorkers) ⟨{}, []⟩ xs) := by
  refine drains_recorded ⟨?_, ?_, trivial⟩
  · rintro ⟨d, now, elapsed, s, hd, ⟨-, i, -, e, he⟩ | ⟨-, -, -, -, ⟨i, hi, -⟩ | ⟨i, e, he⟩⟩⟩
    · exact not_error_mem (busyEnv_ok _ _) he
    · have hnone := (decisionPhase_drained {} fourWorkers [] {}
        ⟨idle 3 0, busyEnv ⟨some 3, some 3⟩ 1000⟩).2
      rw [show (decisionPhase _ _ _).run _ _ = _ from hd] at hnone
      exact List.not_mem_nil (hnone i hi)
    · exact not_error_mem (busyEnv_ok _ _) he
  · rintro ⟨d, now, elapsed, s, hd, ⟨-, i, -, e, he⟩ | ⟨hdown, -⟩⟩
    · exact not_error_mem (busyEnv_ok _ _) he
    · obtain ⟨age, missing, rfl⟩ := hd.decision
      rw [evaluate_scaleDown_iff] at hdown
      exact absurd hdown (by decide)

/-- The busy node of a job that has ended moves the target up: of the nodes
drained for the lower one, worker 2 stays drained and is forgotten. -/
theorem drains_forgotten :
    ¬ DrainsRecorded (run (watchStep drainedStep {} fourWorkers) ⟨{}, []⟩
      [⟨idle 4 0, busyEnv ⟨some 4, some 4⟩ 1000⟩, ⟨idle 4 3, quietEnv ⟨some 4, some 4⟩ 1015⟩]) := by
  intro h
  have hmem := h 2 (by decide +kernel)
  revert hmem
  decide +kernel

end Step

end Kelpflux.Proof.Operator
