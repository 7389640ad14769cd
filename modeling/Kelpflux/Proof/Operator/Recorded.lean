import Kelpflux.Proof.Operator.Gate

/-!
# The record in memory, and its annotation

A running operator's record of a scale-up in flight is the marker that the
annotation holds (`Recorded`): a scale-up writes the marker before it keeps the
record, a new process takes the record from the marker (`initPool_recorded`),
and the record is dropped before the marker is cleared
(`processPool_recorded`).
-/

namespace Kelpflux.Proof.Operator

open Framework Kelpflux.Impl.Operator

/-- The annotation holds the marker of the record in memory, which is of a
scale-up. -/
def Recorded (a : Annotation → AnnotationValue) (s : OpState) : Prop :=
  ∀ prov, s.mem.provisioning = some prov → storedBy a s.trace .provisioning = .marker prov ∧
    0 < prov.startedAt ∧ prov.fromReplicas < prov.targetReplicas

/-- The operator's annotations are written, and read as they were written if they
are read at all. -/
structure Readable (a : Annotation → AnnotationValue) (w : Deployment) (x : Turn) : Prop where
  writes : ∀ n name value, x.env n (.command (.annotate name value)) = .ok ()
  reads : ∀ n name v, x.env n (.readAnnotationText name) = .ok v → v = storedBy a w.events name

variable {a : Annotation → AnnotationValue} {cfg : Config} {p : PartitionConfig}
  {st : PartitionState} {d : ScalingDecision} {env : OpEnv} {s : OpState} {prov : Provisioning}
  {es : List OpEvent} {now elapsed : ℚ}

theorem recorded_none (h : s.mem.provisioning = none) : Recorded a s := by
  intro prov hprov
  rw [h] at hprov
  cases hprov

theorem Recorded.concat (hs : Recorded a s) {e : OpEvent} (he : Neutral e.call) :
    Recorded a ⟨s.mem, s.trace ++ [e]⟩ := by
  intro prov hprov
  rw [storedBy_neutral he]
  exact hs prov hprov

/-- Calls that touch neither the annotation nor the record. -/
theorem neutral_recorded {α : Type} {q : Op α} (ho : q.Only Neutral)
    (hf : q.Frames Memory.provisioning) (hs : Recorded a s) :
    WP env q s fun _ s' => Recorded a s' := by
  have hens : Ensures (fun _ _ => True) env q s fun _ s' => Recorded a s' := by
    refine .of_frame ho hf (fun es => Recorded a ⟨s.mem, es⟩) hs
      (fun es e he hes => Recorded.concat hes he) (fun _ _ _ _ => trivial) ?_
    intro r s' hmem hs' prov hprov
    exact hs' prov (hmem.symm.trans hprov)
  exact hens.2

/-- What follows when there is no record and none is made. -/
theorem dropped_recorded {α : Type} {q : Op α} (hf : q.Frames Memory.provisioning)
    (hs : s.mem.provisioning = none) : WP env q s fun _ s' => Recorded a s' :=
  recorded_none ((hf env s).trans hs)

theorem provisioningReady_recorded (hs : Recorded a s) :
    WP env (provisioningReady cfg prov) s fun _ s' => Recorded a s' := by
  refine WP.bind_iff.mpr (WP.perform_iff.mpr ?_)
  have hs₁ : ∀ r, Recorded a ⟨s.mem, s.trace ++ [⟨.time, r⟩]⟩ := fun r => hs.concat trivial
  cases env s.trace.length .time with
  | error e => exact hs₁ _
  | ok t =>
  refine WP.bind_iff.mpr ((neutral_recorded traceSpan_neutral traceSpan_frames (hs₁ _)).mono
    fun r s₂ hs₂ => ?_)
  cases r with
  | error e => exact hs₂
  | ok _ =>
  refine WP.bind_iff.mpr (WP.modify_iff.mpr (dropped_recorded ?_ rfl))
  exact .bind (.attempt _) fun _ => .bind (.attempt _) fun _ =>
    .tryCatch (.forM fun _ _ => .perform _) fun _ => .pure _

theorem rollbackMarks_neutral (nodes : List Int) :
    (nodes.forM fun i => (attempt (.future i "provisioning-timeout"))).Only Neutral :=
  .forM fun _ _ => Prog.Only.attempt.mpr trivial

theorem provisioningTimeout_recorded (hs : Recorded a s) :
    WP env (provisioningTimeout cfg prov) s fun _ s' => Recorded a s' := by
  refine WP.bind_iff.mpr ((neutral_recorded (rollbackMarks_neutral _) (.forM fun _ _ => .attempt _)
    hs).mono fun r s₁ hs₁ => ?_)
  cases r with
  | error e => exact hs₁
  | ok _ =>
  refine WP.bind_iff.mpr (WP.perform_iff.mpr ?_)
  have hs₂ : ∀ r, Recorded a ⟨s₁.mem, s₁.trace ++
      [⟨.command (.patchReplicas prov.fromReplicas), r⟩]⟩ := fun r => hs₁.concat trivial
  cases env s₁.trace.length (.command (.patchReplicas prov.fromReplicas)) with
  | error e => exact hs₂ _
  | ok _ =>
  refine WP.bind_iff.mpr (WP.perform_iff.mpr ?_)
  cases env _ .time with
  | error e => exact (hs₂ _).concat trivial
  | ok t =>
  refine WP.bind_iff.mpr (WP.modify_iff.mpr (dropped_recorded ?_ rfl))
  exact .bind (.attempt _) fun _ => .bind (.attempt _) fun _ => .attempt _

theorem provisioningPhase_recorded {ready : Int} (hs : Recorded a s) :
    WP env (provisioningPhase cfg ready) s fun _ s' => Recorded a s' := by
  refine WP.bind_iff.mpr (WP.get_iff.mpr ?_)
  cases hprov : s.mem.provisioning with
  | none =>
    simp only [hprov]
    exact hs
  | some prov =>
  simp only [hprov]
  split
  · exact provisioningReady_recorded hs
  split
  swap
  · exact hs
  refine WP.bind_iff.mpr (WP.perform_iff.mpr ?_)
  have hs₁ : ∀ r, Recorded a ⟨s.mem, s.trace ++ [⟨.time, r⟩]⟩ := fun r => hs.concat trivial
  cases env s.trace.length .time with
  | error e => exact hs₁ _
  | ok t =>
    dsimp only
    split
    · exact provisioningTimeout_recorded (hs₁ _)
    · exact hs₁ _

/-- The marker is written before the record is kept. -/
theorem doScaleUp_recorded (hs : s.mem.provisioning = none) (hnow : 0 < now)
    (hlt : st.currentReplicas < d.targetReplicas)
    (hwrites : ∀ n name value, env n (.command (.annotate name value)) = .ok ()) :
    WP env (doScaleUp cfg st d now) s fun _ s' => Recorded a s' := by
  refine WP.bind_iff.mpr (WP.get_iff.mpr (WP.bind_iff.mpr (WP.modify_iff.mpr ?_)))
  refine WP.bind_iff.mpr (.of_frame (f := Memory.provisioning) (P := fun _ => True)
    (.forM fun _ _ => Prog.Only.attempt.mpr trivial) (.forM fun _ _ => .attempt _)
    fun r s₁ _ hmem _ _ => ?_)
  have hs₁ : s₁.mem.provisioning = none := hmem.trans hs
  cases r with
  | error e => exact recorded_none hs₁
  | ok _ =>
  refine WP.bind_iff.mpr (.of_frame (f := Memory.provisioning) (P := Neutral)
    traceSpan_neutral traceSpan_frames fun r s₂ _ hmem _ _ => ?_)
  have hs₂ : s₂.mem.provisioning = none := hmem.trans hs₁
  cases r with
  | error e => exact recorded_none hs₂
  | ok _ =>
  refine WP.bind_iff.mpr (WP.perform_iff.mpr ?_)
  rw [hwrites]
  refine WP.bind_iff.mpr (WP.modify_iff.mpr (neutral_recorded ?_ ?_ ?_))
  · exact .bind (Prog.Only.perform.mpr trivial) fun _ => .bind (.modify _) fun _ =>
      .tryCatch (.bind (Prog.Only.perform.mpr trivial) fun _ =>
        .bind (Prog.Only.perform.mpr trivial) fun _ => Prog.Only.perform.mpr trivial)
        fun _ => .pure _
  · exact .bind (.perform _) fun _ => .bind (.modify fun _ => rfl) fun _ =>
      .tryCatch (.bind (.perform _) fun _ => .bind (.perform _) fun _ => .perform _)
        fun _ => .pure _
  · intro prov hprov
    obtain rfl := Option.some.inj hprov
    refine ⟨?_, hnow, hlt⟩
    rw [storedBy, List.foldl_append, List.foldl_cons, List.foldl_nil, storedStep,
      Function.update_self]

theorem clearRetry_neutral (t : ℚ) :
    (clearRetry t).Only Neutral ∧ (clearRetry t).Frames Memory.provisioning := by
  constructor
  · exact .ite (fun _ => .bind (.modify _) fun _ => Prog.Only.attempt.mpr trivial) fun _ => .pure _
  · exact .ite (.bind (.modify fun _ => rfl) fun _ => .attempt _) (.pure _)

theorem dispatch_recorded (hs : Recorded a s) (hnow : 0 < now)
    (hup : d.action = .scaleUp → st.currentReplicas < d.targetReplicas)
    (hwrites : ∀ n name value, env n (.command (.annotate name value)) = .ok ()) :
    WP env (dispatch cfg p st d now elapsed) s fun _ s' => Recorded a s' := by
  refine WP.bind_iff.mpr (WP.get_iff.mpr ?_)
  cases hact : d.action with
  | keep => exact hs
  | scaleDown =>
    simp only [doScaleDown]
    split
    · exact hs
    split
    · exact hs
    exact neutral_recorded drainThenScale_neutral
      (drainThenScale_frames (fun _ _ _ _ => rfl) p st d) hs
  | scaleUp =>
    simp only
    split
    · exact hs
    split
    · exact hs
    rename_i hnone
    have hfree : s.mem.provisioning = none := by
      cases hm : s.mem.provisioning with
      | none => rfl
      | some prov => exact absurd (by rw [hm]; rfl) hnone
    refine WP.bind_iff.mpr (.of_frame (clearRetry_neutral _).1 (clearRetry_neutral _).2
      fun r s₁ _ hmem _ _ => ?_)
    have hs₁ : s₁.mem.provisioning = none := hmem.trans hfree
    cases r with
    | error e => exact recorded_none hs₁
    | ok _ => exact doScaleUp_recorded hs₁ hnow (hup hact) hwrites

theorem processPool_recorded (hs : Recorded a s)
    (hwrites : ∀ n name value, env n (.command (.annotate name value)) = .ok ())
    (hclock : ∀ n t, env n .time = .ok t → 0 < t) :
    WP env (processPool cfg p st) s fun _ s' => Recorded a s' := by
  suffices hbody : WP env (processPoolBody cfg p st) s fun _ s' => Recorded a s' by
    refine WP.tryCatch_iff.mpr (hbody.mono fun r s' hs' => ?_)
    cases r with
    | ok _ => exact hs'
    | error e => exact hs'
  have hready : K8sClient.getReadyReplicas.Only Neutral :=
    .tryCatch (.bind (Prog.Only.perform.mpr trivial) fun _ => .pure _) fun e => by
      cases e <;> trivial
  have hframes : K8sClient.getReadyReplicas.Frames Memory.provisioning :=
    .tryCatch (.bind (.perform _) fun _ => .pure _) fun e => by
      cases e
      · exact .pure _
      · exact .throw _
  refine WP.bind_iff.mpr ((neutral_recorded hready hframes hs).mono fun r s₁ hs₁ => ?_)
  cases r with
  | error e => exact hs₁
  | ok ready =>
  refine WP.bind_iff.mpr ((provisioningPhase_recorded hs₁).mono fun r s₂ hs₂ => ?_)
  cases r with
  | error e => exact hs₂
  | ok _ =>
  refine WP.bind_iff.mpr ((neutral_recorded (checkpointPhase_reads.mono fun _ => Read.neutral)
    (checkpointPhase_frames fun _ _ => rfl) hs₂).mono fun r s₃ hs₃ => ?_)
  cases r with
  | error e => exact hs₃
  | ok age =>
  refine WP.bind_iff.mpr (WP.perform_iff.mpr ?_)
  have hs₄ : ∀ r, Recorded a ⟨s₃.mem, s₃.trace ++ [⟨.time, r⟩]⟩ := fun r => hs₃.concat trivial
  cases hnow : env s₃.trace.length .time with
  | error e => exact hs₄ _
  | ok now =>
  refine WP.bind_iff.mpr (WP.get_iff.mpr (WP.bind_iff.mpr
    ((neutral_recorded traceSpan_neutral traceSpan_frames (hs₄ _)).mono fun r s₅ hs₅ => ?_)))
  cases r with
  | error e => exact hs₅
  | ok _ =>
  refine dispatch_recorded hs₅ (hclock _ _ hnow) (fun hup => ?_) hwrites
  rw [evaluate_target (by rw [hup]; decide)]
  exact (evaluate_scaleUp_iff _ _ _ _ _).mp hup

/-! ## A new process -/

theorem getAnnotation_wp {name : Annotation}
    (hread : ∀ n v, env n (.readAnnotationText name) = .ok v → v = storedBy a s.trace name) :
    WP env (K8sClient.getAnnotation name) s fun r s' =>
      s' = ⟨s.mem, s.trace ++ [⟨.readAnnotationText name,
        env s.trace.length (.readAnnotationText name)⟩]⟩ ∧
      ∀ v, r = .ok v → v = .cleared ∨ v = storedBy a s.trace name := by
  refine WP.tryCatch_iff.mpr (WP.perform_iff.mpr ?_)
  cases henv : env s.trace.length (.readAnnotationText name) with
  | ok v' =>
    refine ⟨rfl, fun v hv => .inr ?_⟩
    obtain rfl := Except.ok.inj hv
    exact hread _ _ henv
  | error e =>
    cases e with
    | api =>
      refine ⟨rfl, fun v hv => .inl ?_⟩
      exact (Except.ok.inj hv).symm
    | other =>
      refine ⟨rfl, fun v hv => ?_⟩
      cases hv

theorem storedBy_neutrals {es' : List OpEvent} (h : ∀ e ∈ es', Neutral e.call) :
    storedBy a (es ++ es') .provisioning = storedBy a es .provisioning := by
  induction es' generalizing es with
  | nil => rw [List.append_nil]
  | cons e es' ih =>
    rw [List.append_cons, ih fun e' he' => h e' (List.mem_cons_of_mem e he'),
      storedBy_neutral (h e List.mem_cons_self)]

theorem restoreLastScaleAction_frames {τ : Type} {f : Memory → τ}
    (h : ∀ m t, f { m with lastScaleActionAt := t } = f m) : restoreLastScaleAction.Frames f := by
  refine .tryCatch (.bind getAnnotation_frames fun raw => .bind (.ite getAnnotation_frames
    (.pure _)) fun raw => ?_) fun _ => .modify fun m => h m _
  split
  · exact .modify fun m => h m _
  · exact .throw _

theorem restoreProvisioning_recorded (hmem : s.mem.provisioning = none)
    (hread : ∀ n v, env n (.readAnnotationText .provisioning) = .ok v →
      v = storedBy a s.trace .provisioning) :
    WP env restoreProvisioning s fun _ s' => Recorded a s' := by
  refine WP.tryCatch_iff.mpr (WP.bind_iff.mpr ((getAnnotation_wp hread).mono fun r s₁ hr => ?_))
  obtain ⟨rfl, hv⟩ := hr
  cases r with
  | error e =>
    refine WP.attempt_iff.mpr ?_
    exact recorded_none hmem
  | ok v =>
  dsimp only
  split
  · exact recorded_none hmem
  · rename_i prov
    split
    · rename_i hvalid
      refine WP.modify_iff.mpr fun prov' hprov' => ?_
      obtain rfl : prov = prov' := Option.some.inj hprov'
      refine ⟨?_, hvalid⟩
      rw [storedBy_neutral (by trivial)]
      exact ((hv _ rfl).resolve_left (by simp)).symm
    · refine WP.perform_iff.mpr ?_
      cases env _ (.command (.annotate .provisioning .cleared)) with
      | ok _ => exact recorded_none hmem
      | error e =>
        refine WP.attempt_iff.mpr ?_
        exact recorded_none hmem
  · refine WP.throw_iff.mpr (WP.attempt_iff.mpr ?_)
    exact recorded_none hmem

/-- A new process takes its record from the marker, or has none. -/
theorem initPool_recorded (hmem : s.mem.provisioning = none)
    (hreads : ∀ n name v, env n (.readAnnotationText name) = .ok v →
      v = storedBy a s.trace name) :
    WP env initPool s fun _ s' => Recorded a s' := by
  refine WP.bind_iff.mpr (.of_frame (f := Memory.provisioning) restoreLastScaleAction_neutral
    (restoreLastScaleAction_frames fun _ _ => rfl) fun r s₁ es hframe htrace hneutral => ?_)
  have hmem₁ : s₁.mem.provisioning = none := hframe.trans hmem
  have hstored : storedBy a s₁.trace .provisioning = storedBy a s.trace .provisioning := by
    rw [htrace]
    exact storedBy_neutrals hneutral
  cases r with
  | error e => exact recorded_none hmem₁
  | ok _ =>
  have hread : ∀ n v, env n (.readAnnotationText .provisioning) = .ok v →
      v = storedBy a s₁.trace .provisioning := fun n v hv => (hreads n _ v hv).trans hstored.symm
  refine WP.bind_iff.mpr ((restoreProvisioning_recorded hmem₁ hread).mono fun r s₂ hs₂ => ?_)
  cases r with
  | error e => exact hs₂
  | ok _ =>
    exact neutral_recorded restoreProvisioningRetry_neutral.1 restoreProvisioningRetry_neutral.2 hs₂

end Kelpflux.Proof.Operator
