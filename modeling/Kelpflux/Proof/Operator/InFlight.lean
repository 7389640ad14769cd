import Kelpflux.Proof.Operator.Reconcile

/-!
# Scale-ups in flight

A run of reconciles of a pool whose replicas only the operator patches, every
call succeeding (`Tick`). The record of a scale-up is written with its patch
and dropped by the rollback's, so it names the replicas asked for
(`RecordMatches`), unless a scale-down completes in between: `_do_scale_down`
leaves the record as it is. Without such a scale-down (`ScalesDownInFlight`)
the record is right all along the run, and a rollback undoes just the scale-up
that it records (`records_match`).
-/

namespace Kelpflux.Proof.Operator

open Framework Kelpflux.Impl.Operator

/-- A reconcile: what is observed, but for the replicas, and the answers to the
calls, which all succeed. -/
structure Tick where
  state : PartitionState
  answers : Nat → (c : Call) → c.Answer

def Tick.env (x : Tick) : OpEnv := fun n c => .ok (x.answers n c)

/-- The operator's memory of a pool, and the replicas that the StatefulSet asks
for: now, and before each patch, the latest first. -/
structure Pool where
  mem : Memory
  spec : Int
  earlier : List Int := []

/-- The replicas patched, in order. -/
def patchesOf (es : List OpEvent) : List Int := es.filterMap fun e =>
  match e.call with
  | .command (.patchReplicas n) => some n
  | _ => none

namespace Pool

def patch (w : Pool) (n : Int) : Pool := { w with spec := n, earlier := w.spec :: w.earlier }

/-- The pool after the calls `es`, which leave the memory `m`. -/
def after (w : Pool) (es : List OpEvent) (m : Memory) : Pool :=
  { (patchesOf es).foldl patch w with mem := m }

def observed (w : Pool) (x : Tick) : PartitionState := { x.state with currentReplicas := w.spec }

variable (cfg : Config) (p : PartitionConfig)

/-- The calls of a reconcile. -/
def calls (w : Pool) (x : Tick) : List OpEvent :=
  (processPool cfg p (w.observed x)).calls x.env ⟨w.mem, []⟩

/-- The calls of its block on a scale-up in flight. -/
def phaseCalls (w : Pool) (x : Tick) : List OpEvent :=
  match readyReplicas (x.env 0 .readStatefulSet) with
  | .ok ready => (provisioningPhase cfg ready).calls x.env
      ⟨w.mem, [⟨.readStatefulSet, x.env 0 .readStatefulSet⟩]⟩
  | .error _ => []

def step (w : Pool) (x : Tick) : Pool :=
  let s := ((processPool cfg p (w.observed x)).run x.env ⟨w.mem, []⟩).2
  w.after s.trace s.mem

end Pool

/-- A recorded scale-up aims at the replicas that are asked for, and these were
patched last, from no more replicas than it records. -/
def RecordMatches (w : Pool) : Prop :=
  ∀ prov, w.mem.provisioning = some prov → prov.targetReplicas = w.spec ∧
    prov.fromReplicas < prov.targetReplicas ∧
    ∃ n, w.earlier.head? = some n ∧ n ≤ prov.fromReplicas

/-- A rollback does not raise the replicas, and hides only ordinals that the
last patch added. -/
def RollbackSafe (cfg : Config) (w : Pool) (x : Tick) : Prop :=
  ∀ e ∈ w.phaseCalls cfg x,
    (∀ n, e.call = Call.command (.patchReplicas n) → n ≤ w.spec) ∧
    ∀ i reason, e.call = Call.command (.future i reason) →
      i < w.spec ∧ ∃ n, w.earlier.head? = some n ∧ n ≤ i

/-- A scale-up is recorded, is not ready and has not timed out. -/
def InFlight (cfg : Config) (w : Pool) (x : Tick) : Prop :=
  ∃ prov, w.mem.provisioning = some prov ∧
    (x.answers 0 .readStatefulSet).readyReplicas.getD 0 < prov.targetReplicas ∧
    ¬ TimesOut cfg w.mem x.env prov

/-- What a scale-down takes, by the readings among `es`: a lower aim, no jobs
running, the cooldown over, and drained nodes. -/
def MayScaleDown (p : PartitionConfig) (w : Pool) (x : Tick) (es : List OpEvent) : Prop :=
  aim p (w.observed x) < w.spec ∧ x.state.runningJobs ≤ 0 ∧
    (∃ t, ⟨.time, .ok t⟩ ∈ es ∧ p.scaleDownCooldown ≤ t - w.mem.lastScaleActionAt) ∧
    Drained p w.mem (range (aim p (w.observed x)) w.spec) es

/-- A scale-down completes while a scale-up is in flight. -/
def ScalesDownInFlight (cfg : Config) (p : PartitionConfig) (w : Pool) (x : Tick) : Prop :=
  InFlight cfg w x ∧ MayScaleDown p w x (w.calls cfg p x)

variable {cfg : Config} {p : PartitionConfig} {w : Pool} {x : Tick}

/-! ## Patches -/

/-- Not a patch of the replicas. -/
def NotPatch : Call → Prop
  | .command (.patchReplicas _) => False
  | _ => True

theorem Quiet.notPatch {c : Call} (h : Quiet c) : NotPatch c := by
  unfold NotPatch; split
  · exact h
  · trivial

theorem patchesOf_notPatch {es : List OpEvent} (h : ∀ e ∈ es, NotPatch e.call) :
    patchesOf es = [] := by
  refine List.filterMap_eq_nil_iff.mpr fun e he => ?_
  have := h e he
  split
  · rename_i hc; rw [hc] at this; exact this.elim
  · rfl

namespace Pool

theorem after_notPatch {es es' : List OpEvent} (h : ∀ e ∈ es', NotPatch e.call) (m m' : Memory) :
    w.after (es ++ es') m' = { w.after es m with mem := m' } := by
  simp only [after, patchesOf, List.filterMap_append]
  rw [show es'.filterMap _ = [] from patchesOf_notPatch h, List.append_nil]

theorem after_call {es : List OpEvent} {e : OpEvent} (h : NotPatch e.call) (m m' : Memory) :
    w.after (es ++ [e]) m' = { w.after es m with mem := m' } := by
  refine after_notPatch (fun e' he' => ?_) m m'
  obtain rfl := List.mem_singleton.mp he'
  exact h

theorem after_patch {es : List OpEvent} {n : Int} {r : Except Exc Unit} (m m' : Memory) :
    w.after (es ++ [⟨.command (.patchReplicas n), r⟩]) m' =
      { (w.after es m).patch n with mem := m' } := by
  simp [after, patchesOf, patch, List.foldl_append]

end Pool

/-! ## One reconcile -/

/-- The memory, but for how long the checkpoint has been missing. -/
def lessCheckpoint (m : Memory) : Memory := { m with checkpointMissingSince := none }

/-- Where a reconcile is after its block on a scale-up in flight: none is
recorded, and the replicas were not raised; or one still is in flight, and
nothing has changed. -/
def PhaseDone (cfg : Config) (w : Pool) (x : Tick) (s : OpState) : Prop :=
  (s.mem.provisioning = none ∧ (w.after s.trace s.mem).spec ≤ w.spec) ∨
  (InFlight cfg w x ∧ lessCheckpoint s.mem = lessCheckpoint w.mem ∧ patchesOf s.trace = [])

theorem PhaseDone.recordMatches {s : OpState} (h : PhaseDone cfg w x s) (hw : RecordMatches w) :
    RecordMatches (w.after s.trace s.mem) := by
  intro prov hprov
  rcases h with ⟨hnone, -⟩ | ⟨-, hmem, hpatch⟩
  · exact absurd (hnone.symm.trans hprov) (by simp)
  · have hafter : w.after s.trace s.mem = { w with mem := s.mem } := by
      rw [Pool.after, hpatch]; rfl
    have hsame : (lessCheckpoint s.mem).provisioning = w.mem.provisioning := by rw [hmem]; rfl
    rw [hafter] at hprov ⊢
    exact hw prov (hsame.symm.trans hprov)

/-- What a quiet block leaves. -/
theorem PhaseDone.quiet {s s' : OpState} {es : List OpEvent} (h : PhaseDone cfg w x s)
    (hmem : lessCheckpoint s'.mem = lessCheckpoint s.mem) (htrace : s'.trace = s.trace ++ es)
    (hes : ∀ e ∈ es, Quiet e.call) : PhaseDone cfg w x s' := by
  have hes' : ∀ e ∈ es, NotPatch e.call := fun e he => (hes e he).notPatch
  rcases h with ⟨hnone, hspec⟩ | ⟨hin, hw, hpatch⟩
  · refine .inl ⟨(congrArg Memory.provisioning hmem).trans hnone, ?_⟩
    rw [htrace, Pool.after_notPatch hes' s.mem]
    exact hspec
  · refine .inr ⟨hin, hmem.trans hw, ?_⟩
    rw [htrace, patchesOf, List.filterMap_append, ← patchesOf, hpatch, List.nil_append]
    exact patchesOf_notPatch hes'

theorem traceSpan_ok {s : OpState} {Q : Except Exc Unit → OpState → Prop}
    (h : ∀ s' es, s'.mem = s.mem → s'.trace = s.trace ++ es → (∀ e ∈ es, Quiet e.call) →
      Q (.ok ()) s') : WP x.env (traceSpan cfg) s Q := by
  unfold traceSpan
  split
  · exact h _ _ rfl rfl (by simp [Quiet])
  · exact h _ [] rfl (List.append_nil _).symm (by simp)

/-- From no recorded scale-up on, quiet calls that record none. -/
theorem phaseDone_of_none {α : Type} {q : Op α} (hq : q.Only Quiet)
    (hf : q.Frames Memory.provisioning) {s : OpState} (hnone : s.mem.provisioning = none)
    (hspec : (w.after s.trace s.mem).spec ≤ w.spec) :
    WP x.env q s fun _ s' => PhaseDone cfg w x s' :=
  WP.of_frame hq hf fun _ s' es hmem htrace hes => .inl ⟨hmem.trans hnone, by
    rw [htrace, Pool.after_notPatch (fun e he => (hes e he).notPatch) s.mem]
    exact hspec⟩

theorem provisioningReady_phaseDone {prov : Provisioning} {s : OpState}
    (h : (w.after s.trace s.mem).spec ≤ w.spec) :
    WP x.env (provisioningReady cfg prov) s fun _ s' => PhaseDone cfg w x s' := by
  simp only [provisioningReady, WP.bind_iff, wp_time, Tick.env]
  refine traceSpan_ok fun s₁ es _ htrace hes => ?_
  simp only [WP.modify_iff, annotate, wp_attempt]
  refine phaseDone_of_none
    (.tryCatch (.forM fun _ _ => Prog.Only.perform.mpr trivial) fun _ => .pure _)
    (.tryCatch (.forM fun _ _ => .perform _) fun _ => .pure _) rfl ?_
  rw [Pool.after_call (by trivial) s.mem, Pool.after_call (by trivial) s.mem,
    htrace, Pool.after_notPatch (fun e he => (hes e he).notPatch) s.mem,
    Pool.after_call (by trivial) s.mem]
  exact h

/-- The replicas go back to those before the scale-up. -/
theorem provisioningTimeout_phaseDone {prov : Provisioning} {s : OpState}
    (h : prov.fromReplicas ≤ w.spec) :
    WP x.env (provisioningTimeout cfg prov) s fun _ s' => PhaseDone cfg w x s' := by
  simp only [provisioningTimeout, WP.bind_iff]
  refine WP.forM (fun _ _ => True) trivial (fun _ _ _ _ => by simp) fun s₁ _ => ?_
  simp only [wp_perform, wp_time, Tick.env, WP.modify_iff, annotate, wp_attempt]
  refine .inl ⟨rfl, ?_⟩
  rw [Pool.after_call (by trivial) s₁.mem, Pool.after_call (by trivial) s₁.mem,
    Pool.after_call (by trivial) s₁.mem, Pool.after_call (by trivial) s₁.mem,
    Pool.after_patch s₁.mem]
  exact h

theorem provisioningPhase_phaseDone (hw : RecordMatches w) :
    WP x.env (provisioningPhase cfg ((x.answers 0 .readStatefulSet).readyReplicas.getD 0))
      ⟨w.mem, [⟨.readStatefulSet, x.env 0 .readStatefulSet⟩]⟩ fun _ s' => PhaseDone cfg w x s' := by
  simp only [provisioningPhase, WP.bind_iff, WP.get_iff]
  cases hprov : w.mem.provisioning with
  | none => exact .inl ⟨hprov, le_refl _⟩
  | some prov =>
    obtain ⟨htarget, hlt, -⟩ := hw prov hprov
    have hflight : ∀ s' : OpState,
        (x.answers 0 .readStatefulSet).readyReplicas.getD 0 < prov.targetReplicas →
        ¬ TimesOut cfg w.mem x.env prov → s'.mem = w.mem → patchesOf s'.trace = [] →
        PhaseDone cfg w x s' := fun s' hready hin hmem hpatch =>
      .inr ⟨⟨prov, hprov, hready, hin⟩, by rw [hmem], hpatch⟩
    dsimp only
    split
    · exact provisioningReady_phaseDone (le_refl _)
    split
    · simp only [WP.bind_iff, wp_time, Tick.env]
      split
      · exact provisioningTimeout_phaseDone (by omega)
      · refine hflight _ (by omega) ?_ rfl rfl
        rintro ⟨-, -, -, t, ht, hlate⟩
        obtain rfl := Except.ok.inj ht
        contradiction
    · exact hflight _ (by omega) (fun h => absurd h.2.2.1 ‹_›) rfl rfl

theorem doScaleUp_recordMatches {st : PartitionState} {d : ScalingDecision} {now : ℚ} {s : OpState}
    (hup : st.currentReplicas < d.targetReplicas)
    (hspec : (w.after s.trace s.mem).spec ≤ st.currentReplicas) :
    WP x.env (doScaleUp cfg st d now) s fun _ s' => RecordMatches (w.after s'.trace s'.mem) := by
  simp only [doScaleUp, WP.bind_iff, WP.get_iff, WP.modify_iff]
  refine WP.forM (fun _ s' => (w.after s'.trace s'.mem).spec ≤ st.currentReplicas) hspec
    (fun node _ s₁ h₁ => ?_) fun s₁ h₁ => ?_
  · simp only [wp_attempt]
    rw [Pool.after_call (by trivial) s₁.mem]
    exact h₁
  refine traceSpan_ok fun s₂ es hmem htrace hes => ?_
  simp only [wp_perform, Tick.env, WP.tryCatch_iff, WP.bind_iff]
  obtain ⟨n, hn⟩ : ∃ n, (w.after (s₂.trace ++ [⟨.command (.annotate .provisioning
      (.marker ⟨now, st.currentReplicas, d.targetReplicas⟩)), .ok ()⟩]) s₁.mem).spec = n ∧
      n ≤ st.currentReplicas := by
    refine ⟨_, rfl, ?_⟩
    rw [Pool.after_call (by trivial) s₁.mem, htrace,
      Pool.after_notPatch (fun e he => (hes e he).notPatch) s₁.mem]
    exact h₁
  intro prov hprov
  rw [Pool.after_call (by trivial) s₁.mem, Pool.after_call (by trivial) s₁.mem,
    Pool.after_call (by trivial) s₁.mem, Pool.after_patch s₁.mem] at hprov ⊢
  obtain rfl := Option.some.inj hprov
  exact ⟨rfl, hup, n, congrArg some hn.1, hn.2⟩

theorem drainThenScale_frames {τ : Type} {f : Memory → τ}
    (hf : ∀ m nodes started last, f { m with
      drainingNodes := nodes
      drainingStarted := started
      lastScaleActionAt := last } = f m) (p : PartitionConfig) (st : PartitionState)
    (d : ScalingDecision) : (drainThenScale p st d).Frames f := by
  refine .bind .get fun m => .bind (.modify fun m => hf m _ _ _) fun _ =>
    .bind (.perform _) fun nowTs =>
    .bind (.forM fun node _ => .bind (.attempt _) fun _ => .modify fun m => hf m _ _ _) fun _ =>
    .bind (.modify fun m => ?_) fun _ => .bind .get fun m' =>
    .bind forceKillExpired_frames fun killed => .bind allIdle_frames fun allIdle =>
    .ite ?_ (.pure _)
  · split
    · exact hf m _ _ _
    · rfl
  · exact .bind (.perform _) fun _ => .bind (.forM fun _ _ => .attempt _) fun _ =>
      .bind (.modify fun m => hf m _ _ _) fun _ => .attempt _

/-- With a scale-up in flight, a scale-down that does not complete changes
nothing of it. -/
theorem drainThenScale_recordMatches {d : ScalingDecision} {s : OpState} (hw : RecordMatches w)
    (hs : PhaseDone cfg w x s) (hd : d.targetReplicas = aim p (w.observed x))
    (hdown : aim p (w.observed x) < w.spec) (hrun : x.state.runningJobs ≤ 0) {now : ℚ}
    (hnow : ⟨.time, .ok now⟩ ∈ s.trace)
    (hcool : p.scaleDownCooldown ≤ now - s.mem.lastScaleActionAt) :
    WP x.env (drainThenScale p (w.observed x) d) s fun _ s' =>
      ¬ (InFlight cfg w x ∧ MayScaleDown p w x s'.trace) →
        RecordMatches (w.after s'.trace s'.mem) := by
  intro hx
  have hprov :=
    drainThenScale_frames (f := Memory.provisioning) (fun _ _ _ _ => rfl) p (w.observed x) d
    x.env s
  have htrace := (drainThenScale p (w.observed x) d).trace_eq x.env s
  set es := (drainThenScale p (w.observed x) d).calls x.env s
  set s' := ((drainThenScale p (w.observed x) d).run x.env s).2
  rcases hs with ⟨hnone, -⟩ | ⟨hin, hmem, hpatch⟩
  · intro prov hsome
    exact absurd (hsome.symm.trans (hprov.trans hnone)) (by simp)
  have hes : ∀ e ∈ es, NotPatch e.call := by
    intro e he
    by_contra hpatched
    have hdrained := (mem_drainThenScale he fun hq => hpatched hq.notPatch).2
    refine hx ⟨hin, hdown, hrun, ⟨now, ?_, ?_⟩, ?_⟩
    · rw [htrace]; exact List.mem_append_left _ hnow
    · have hlast : (lessCheckpoint s.mem).lastScaleActionAt = w.mem.lastScaleActionAt := by
        rw [hmem]; rfl
      rw [← hlast]; exact hcool
    · have hnodes : (lessCheckpoint s.mem).drainingNodes = w.mem.drainingNodes := by rw [hmem]; rfl
      have hstarted : (lessCheckpoint s.mem).drainingStarted = w.mem.drainingStarted := by
        rw [hmem]; rfl
      rw [← hd, htrace]
      exact (hdrained.mono (List.subset_append_right _ _)).congr hnodes hstarted
  have hsame : (lessCheckpoint s.mem).provisioning = w.mem.provisioning := by rw [hmem]; rfl
  intro prov hsome
  rw [htrace, Pool.after_notPatch hes s.mem, Pool.after, hpatch] at hsome ⊢
  exact hw prov (hsame.symm.trans (hprov.symm.trans hsome))

theorem dispatch_recordMatches {g : Bool} {age : Option Int} {missing : Option ℚ} {now : ℚ}
    {s : OpState} (hw : RecordMatches w) (hs : PhaseDone cfg w x s)
    (hnow : ⟨.time, .ok now⟩ ∈ s.trace) :
    WP x.env (dispatch cfg p (w.observed x)
        (CheckpointAwareQueuePolicy.evaluate g p (w.observed x) age missing) now
        (now - s.mem.lastScaleActionAt)) s fun _ s' =>
      ¬ (InFlight cfg w x ∧ MayScaleDown p w x s'.trace) →
        RecordMatches (w.after s'.trace s'.mem) := by
  have hkeep : ∀ {P : Prop}, P → RecordMatches (w.after s.trace s.mem) :=
    fun _ => hs.recordMatches hw
  simp only [dispatch, WP.bind_iff, WP.get_iff]
  split
  · rename_i hup
    split
    · exact hkeep
    split
    · exact hkeep
    rename_i hnone
    have hspec : (w.after s.trace s.mem).spec ≤ w.spec := by
      rcases hs with ⟨-, hspec⟩ | ⟨⟨prov, hprov, -⟩, hmem, -⟩
      · exact hspec
      · have hsame : (lessCheckpoint s.mem).provisioning = w.mem.provisioning := by
          rw [hmem]; rfl
        exact absurd (Option.isSome_of_eq_some (hsame.trans hprov)) hnone
    have hlt : (w.observed x).currentReplicas < (CheckpointAwareQueuePolicy.evaluate g p
        (w.observed x) age missing).targetReplicas := by
      rw [evaluate_target (by rw [hup]; decide)]
      exact (evaluate_scaleUp_iff _ _ _ _ _).mp hup
    unfold clearRetry
    split
    · simp only [WP.bind_iff, WP.modify_iff, annotate, wp_attempt]
      refine (doScaleUp_recordMatches hlt ?_).mono fun _ _ h _ => h
      rw [Pool.after_call (by trivial) s.mem]
      exact hspec
    · exact (doScaleUp_recordMatches hlt hspec).mono fun _ _ h _ => h
  · rename_i hdown
    unfold doScaleDown
    split
    · exact hkeep
    split
    · exact hkeep
    exact drainThenScale_recordMatches hw hs (evaluate_target (by rw [hdown]; decide))
      ((evaluate_scaleDown_iff _ _ _ _ _).mp hdown).1 (not_lt.mp ‹_›) hnow (not_lt.mp ‹_›)
  · exact hkeep

theorem step_recordMatches (hw : RecordMatches w) (hx : ¬ ScalesDownInFlight cfg p w x) :
    RecordMatches (w.step cfg p x) := by
  suffices hwp : WP x.env (processPool cfg p (w.observed x)) ⟨w.mem, []⟩ fun _ s' =>
      ¬ (InFlight cfg w x ∧ MayScaleDown p w x s'.trace) →
        RecordMatches (w.after s'.trace s'.mem) from hwp hx
  have hcatch : ∀ {q : Op Unit} {s : OpState} {R : OpState → Prop},
      WP x.env q s (fun _ s' => R s') →
      WP x.env (tryCatch q fun _ => pure ()) s fun _ s' => R s' :=
    fun hq => WP.tryCatch_iff.mpr (hq.mono fun r _ hr => by cases r <;> exact hr)
  refine hcatch (WP.bind_iff.mpr ?_)
  rw [WP, getReadyReplicas_run]
  refine WP.bind_iff.mpr ((provisioningPhase_phaseDone hw).mono fun r s₁ h₁ => ?_)
  cases r with
  | error e => exact fun _ => h₁.recordMatches hw
  | ok =>
  refine WP.bind_iff.mpr (WP.of_frame (f := lessCheckpoint) checkpointPhase_quiet
    (checkpointPhase_frames fun _ _ => rfl)
    fun r s₂ es hmem htrace hes => ?_)
  have h₂ : PhaseDone cfg w x s₂ := h₁.quiet hmem htrace hes
  cases r with
  | error e => exact fun _ => h₂.recordMatches hw
  | ok am =>
  simp only [WP.bind_iff, wp_time, Tick.env, WP.get_iff]
  have h₃ : PhaseDone cfg w x ⟨s₂.mem, s₂.trace ++ [⟨.time, .ok (x.answers s₂.trace.length .time)⟩]⟩ :=
    h₂.quiet rfl rfl (by simp [Quiet])
  refine traceSpan_ok fun s₄ es₄ hmem₄ htrace₄ hes₄ => ?_
  have h₄ : PhaseDone cfg w x s₄ := h₃.quiet (by rw [hmem₄]) htrace₄ hes₄
  have hlast : s₄.mem.lastScaleActionAt = s₂.mem.lastScaleActionAt := by rw [hmem₄]
  rw [← hlast]
  exact dispatch_recordMatches hw h₄ (by rw [htrace₄]; simp)

theorem rollbackSafe_of_recordMatches (hw : RecordMatches w) : RollbackSafe cfg w x := by
  intro e he
  by_cases hq : Quiet e.call
  · refine ⟨fun n hc => ?_, fun i reason hc => ?_⟩ <;> rw [hc] at hq <;> exact hq.elim
  obtain ⟨prov, t, hprov, hlt, hpos, ht, hlate, he⟩ := (mem_provisioningPhase hq).mp he
  obtain ⟨htarget, hfrom, n, hn, hle⟩ := hw prov hprov
  rcases ((provisioningTimeout_only prov).calls _ _ e he).resolve_left hq with
    hc | ⟨i, hi, hc⟩ <;> rw [hc]
  · refine ⟨fun n' hn' => ?_, fun i reason hi => ?_⟩
    · cases hn'; omega
    · cases hi
  · have := mem_range.mp hi
    refine ⟨fun n' hn' => ?_, fun i' reason hi' => ?_⟩
    · cases hn'
    · cases hi'; exact ⟨by omega, n, hn, by omega⟩

/-- In a run in which no scale-down completes while a scale-up is in flight,
the record of a scale-up names the replicas last patched before every
reconcile and at the end, and every rollback undoes just the scale-up that it
records. -/
theorem records_match {w₀ : Pool} (h₀ : w₀.mem.provisioning = none) {xs : List Tick}
    (hxs : Along (Pool.step cfg p) (fun w x => ¬ ScalesDownInFlight cfg p w x) w₀ xs) :
    Along (Pool.step cfg p) (fun w x => RecordMatches w ∧ RollbackSafe cfg w x) w₀ xs ∧
      RecordMatches (run (Pool.step cfg p) w₀ xs) := by
  have hinit : RecordMatches w₀ := fun prov hprov => absurd (h₀.symm.trans hprov) (by simp)
  have hstep : ∀ w x, RecordMatches w → ¬ ScalesDownInFlight cfg p w x →
      RecordMatches (w.step cfg p x) := fun w x => step_recordMatches
  exact ⟨(hxs.invariant hstep hinit).mono fun w x h => ⟨h.1, rollbackSafe_of_recordMatches h.1⟩,
    hxs.reach hstep hinit⟩

/-- A pool scales from three workers to four, which are ready a minute later. -/
theorem records_match_ready :
    let pool : PartitionConfig :=
      { partition := "gpu", workerStatefulset := "slurm-worker-gpu", minReplicas := 0,
        maxReplicas := 8, scaleUpStep := 1, scaleDownStep := 1, scaleDownCooldown := 60 }
    let state : PartitionState :=
      { partition := "gpu", workerStatefulset := "slurm-worker-gpu", currentReplicas := 3,
        pendingJobs := 1, runningJobs := 0, busyNodes := 0, scalePendingJobs := 1 }
    let w : Pool := { mem := {}, spec := 3 }
    let xs : List Tick := [⟨state, quietAnswers ⟨some 3, some 3⟩ 1000⟩,
      ⟨state, quietAnswers ⟨some 4, some 4⟩ 1060⟩]
    Along (Pool.step {} pool) (fun w x => RecordMatches w ∧ RollbackSafe {} w x) w xs ∧
      RecordMatches (run (Pool.step {} pool) w xs) := by
  intro pool state w xs
  refine records_match rfl ⟨?_, ?_, trivial⟩
  · rintro ⟨⟨prov, hprov, -⟩, -⟩
    cases hprov
  · rintro ⟨⟨prov, hprov, hready, -⟩, -⟩
    have hrecord : (w.step {} pool ⟨state, quietAnswers ⟨some 3, some 3⟩ 1000⟩).mem.provisioning =
        some ⟨1000, 3, 4⟩ := by decide +kernel
    obtain rfl := Option.some.inj (hrecord.symm.trans hprov)
    exact absurd hready (by decide)

/-- The job is gone before the fourth worker is ready: two scale-downs leave
two workers, and then the scale-up times out and three are asked for. -/
theorem records_do_not_match :
    let pool : PartitionConfig :=
      { partition := "gpu", workerStatefulset := "slurm-worker-gpu", minReplicas := 0,
        maxReplicas := 8, scaleUpStep := 1, scaleDownStep := 1, scaleDownCooldown := 60 }
    let state : PartitionState :=
      { partition := "gpu", workerStatefulset := "slurm-worker-gpu", currentReplicas := 3,
        pendingJobs := 1, runningJobs := 0, busyNodes := 0, scalePendingJobs := 1 }
    let idle : PartitionState := { state with pendingJobs := 0, scalePendingJobs := 0 }
    let w : Pool := { mem := {}, spec := 3 }
    let xs : List Tick := [⟨state, quietAnswers ⟨some 3, some 3⟩ 1000⟩,
      ⟨idle, quietAnswers ⟨some 4, some 3⟩ 1070⟩, ⟨idle, quietAnswers ⟨some 3, some 3⟩ 1140⟩]
    let late : Tick := ⟨idle, quietAnswers ⟨some 2, some 2⟩ 1300⟩
    (run (Pool.step {} pool) w xs).mem.provisioning = some ⟨1000, 3, 4⟩ ∧
      (run (Pool.step {} pool) w xs).spec = 2 ∧
      (run (Pool.step {} pool) w (xs ++ [late])).spec = 3 ∧
      ¬ Along (Pool.step {} pool) (fun w x => RecordMatches w ∧ RollbackSafe {} w x) w
        (xs ++ [late]) := by
  intro pool state idle w xs late
  have hrecord : (run (Pool.step {} pool) w xs).mem.provisioning = some ⟨1000, 3, 4⟩ := by
    decide +kernel
  have hspec : (run (Pool.step {} pool) w xs).spec = 2 := by decide +kernel
  refine ⟨hrecord, hspec, by decide +kernel, fun h => ?_⟩
  have htarget := (h.2.2.2.1.1 ⟨1000, 3, 4⟩ hrecord).1
  exact absurd (htarget.trans hspec) (by decide)

end Kelpflux.Proof.Operator
