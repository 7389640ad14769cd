import Kelpflux.Proof.Operator.Owed

/-!
# Programs keep the back-off

At each call of a reconcile, and of the start of a process, a new process would
find what a back-off needs, but in the window, and no scale-up starts while one
is owed (`BackoffGuard`). So it is of a reconcile that does not read a scale-up
that was rolled back as ready (`processPool_waiting`), and of a new process that
reads the marker (`initPool_timedOut`) or the retry time (`initPool_held`).
-/

namespace Kelpflux.Proof.Backoff

open Framework Kelpflux.Impl.Operator Kelpflux.Proof.Operator

variable {clock : ℕ → ℚ} {a : Annotation → AnnotationValue} {cfg : Config} {p : PartitionConfig}
  {st : PartitionState} {d : ScalingDecision} {env : OpEnv} {s : OpState} {prov : Provisioning}
  {es : List OpEvent} {now elapsed t : ℚ}

/-! ## The programs -/

/-- What holds at each call: a new process would find what it needs, but in the
window, and no scale-up starts while a back-off is owed. -/
def BackoffGuard (clock : ℕ → ℚ) (cfg : Config) (a : Annotation → AnnotationValue)
    (es : List OpEvent) (c : Call) : Prop :=
  (Kept clock cfg a es ∨ InWindow es) ∧
    ∀ prov, c = .command (.annotate .provisioning (.marker prov)) → ¬ Owed clock cfg es

theorem guard_of_over {c : Call} (h : ¬ Owed clock cfg es) : BackoffGuard clock cfg a es c :=
  ⟨.inl (kept_of_over h), fun _ _ => h⟩

theorem guard_of_neutral {c : Call} (h : Kept clock cfg a es ∨ InWindow es) (hc : NotMarker c) :
    BackoffGuard clock cfg a es c := by
  refine ⟨h, fun prov hprov => ?_⟩
  rw [hprov] at hc
  exact hc.elim

/-- With nothing owed, programs that patch nothing. -/
theorem over_ensures (hmono : Monotone clock) {α : Type} {q : Op α} (ho : q.Only NotPatch)
    (hs : ¬ Owed clock cfg s.trace) :
    Ensures (BackoffGuard clock cfg a) env q s fun _ s' => ¬ Owed clock cfg s'.trace :=
  .of_frame (f := fun _ => ()) ho (fun _ _ => rfl) (fun es => ¬ Owed clock cfg es) hs
    (fun _ _ he hes => over_concat hmono (notRollback_of_notPatch he) hes)
    (fun _ _ _ hes => guard_of_over hes) fun _ _ _ hs' => hs'

/-- And those that do not roll back. -/
theorem over_unmarked_ensures (hmono : Monotone clock) {α : Type} {q : Op α} (ho : q.Only NotMark)
    (hs : ¬ Owed clock cfg s.trace) (hmarked : (debt clock cfg s.trace).marked = false) :
    Ensures (BackoffGuard clock cfg a) env q s fun _ s' => ¬ Owed clock cfg s'.trace :=
  .of_frame (f := fun _ => ()) ho (fun _ _ => rfl)
    (fun es => ¬ Owed clock cfg es ∧ (debt clock cfg es).marked = false) ⟨hs, hmarked⟩
    (fun _ _ he hes =>
      ⟨over_concat hmono (notRollback_of_unmarked hes.2) hes.1, unmarked_concat he⟩)
    (fun _ _ _ hes => guard_of_over hes.1) fun _ _ _ hs' => hs'.1

/-- The part of the memory that a back-off is about. -/
def backoffMem (m : Memory) : Option ℚ × Option Provisioning :=
  (m.provisioningRetryAt, m.provisioning)

theorem Waiting.congr {s' : OpState} (h : Waiting clock cfg a ⟨s.mem, s'.trace⟩)
    (hmem : backoffMem s'.mem = backoffMem s.mem) : Waiting clock cfg a s' := by
  obtain ⟨hretry, hprov⟩ := Prod.mk.inj hmem
  intro t hdue hlt
  rw [hretry, hprov]
  exact h t hdue hlt

/-- Calls that patch nothing, nor touch the annotations. -/
theorem waiting_ensures (hmono : Monotone clock) {α : Type} {q : Op α}
    (ho : q.Only fun c => Aside c ∧ NotPatch c) (hf : q.Frames backoffMem)
    (hs : Waiting clock cfg a s) :
    Ensures (BackoffGuard clock cfg a) env q s fun _ s' => Waiting clock cfg a s' :=
  .of_frame ho hf (fun es => Waiting clock cfg a ⟨s.mem, es⟩) hs
    (fun _ _ he hes => hes.concat hmono he.1 (notRollback_of_notPatch he.2))
    (fun _ _ hc hes => guard_of_neutral (.inl hes.kept) hc.1.neutral.notMarker)
    fun _ _ hmem hs' => hs'.congr hmem

/-- Calls that do not roll back. -/
theorem waiting_unmarked_ensures (hmono : Monotone clock) {α : Type} {q : Op α}
    (ho : q.Only fun c => Aside c ∧ NotMark c) (hf : q.Frames backoffMem)
    (hs : Waiting clock cfg a s) (hmarked : (debt clock cfg s.trace).marked = false) :
    Ensures (BackoffGuard clock cfg a) env q s fun _ s' => Waiting clock cfg a s' :=
  .of_frame ho hf
    (fun es => Waiting clock cfg a ⟨s.mem, es⟩ ∧ (debt clock cfg es).marked = false)
    ⟨hs, hmarked⟩
    (fun _ _ he hes =>
      ⟨hes.1.concat hmono he.1 (notRollback_of_unmarked hes.2), unmarked_concat he.2⟩)
    (fun _ _ hc hes => guard_of_neutral (.inl hes.1.kept) hc.1.neutral.notMarker)
    fun _ _ hmem hs' => hs'.1.congr hmem

/-- The marker stays until the patch is made, and what the patch owes is written
after it. -/
theorem provisioningTimeout_waiting (hmono : Monotone clock)
    (hwrites : ∀ n name value, env n (.command (.annotate name value)) = .ok ())
    (hclock : ∀ n, env n .time = .ok (clock n)) (hs : TimedOut clock cfg a prov s.trace)
    (hmem : s.mem.provisioning = some prov) :
    Ensures (BackoffGuard clock cfg a) env (provisioningTimeout cfg prov) s fun _ s' =>
      Waiting clock cfg a s' := by
  refine Ensures.bind_iff.mpr (.of_frame (f := Memory.provisioning)
    (rollbackMarks_neutral (range prov.fromReplicas prov.targetReplicas))
    (.forM fun _ _ => .attempt _) (fun es => TimedOut clock cfg a prov es) hs
    (fun _ _ he hes => hes.concat hmono he)
    (fun _ _ hc hes => guard_of_neutral (.inl hes.kept) hc.notMarker) fun r s₁ hmem₁ hs₁ => ?_)
  cases r with
  | error e => exact hs₁.waiting (hmem₁.trans hmem)
  | ok _ =>
  refine Ensures.bind_iff.mpr (Ensures.perform_iff.mpr
    ⟨guard_of_neutral (.inl hs₁.kept) trivial, ?_⟩)
  have hs₂ : ∀ r, TimedOut clock cfg a prov (s₁.trace ++
      [⟨.command (.patchReplicas prov.fromReplicas), r⟩]) := fun r => hs₁.concat hmono trivial
  cases env s₁.trace.length (.command (.patchReplicas prov.fromReplicas)) with
  | error e => exact (hs₂ _).waiting (hmem₁.trans hmem)
  | ok _ =>
  set tr₂ := s₁.trace ++ [⟨.command (.patchReplicas prov.fromReplicas), .ok ()⟩] with htr₂
  have hkept₂ : TimedOut clock cfg a prov tr₂ := hs₂ _
  refine Ensures.bind_iff.mpr (Ensures.perform_iff.mpr
    ⟨guard_of_neutral (.inl hkept₂.kept) trivial, ?_⟩)
  have hkept₃ : TimedOut clock cfg a prov (tr₂ ++ [⟨.time, .ok (clock tr₂.length)⟩]) :=
    hkept₂.concat hmono trivial
  rw [hclock]
  refine Ensures.bind_iff.mpr (Ensures.modify_iff.mpr (Ensures.bind_iff.mpr
    (Ensures.attempt_iff.mpr ⟨guard_of_neutral (.inl hkept₃.kept) trivial, ?_⟩)))
  rw [hwrites]
  dsimp only
  -- the window
  refine Ensures.bind_iff.mpr (Ensures.attempt_iff.mpr ⟨guard_of_neutral (.inr ?_) trivial, ?_⟩)
  · refine ⟨s₁.trace, prov.fromReplicas, clock tr₂.length, [], ?_, .inl rfl⟩
    rw [htr₂]
    simp
  rw [hwrites]
  refine Ensures.attempt_iff.mpr ⟨guard_of_neutral (.inr ?_) trivial, ?_⟩
  · refine ⟨s₁.trace, prov.fromReplicas, clock tr₂.length,
      [⟨.command (.annotate .lastScaleAction (.time (clock tr₂.length))), .ok ()⟩], ?_,
      .inr ⟨_, rfl⟩⟩
    rw [htr₂]
    simp
  rw [hwrites]
  dsimp only
  intro t hdue _
  refine .inl ⟨clock tr₂.length + cfg.provisioningRetrySeconds, ?_, ⟨?_, ?_⟩, rfl, rfl⟩
  · have hplain : ∀ (es : List OpEvent) (e : OpEvent), NotPatch e.call →
        due clock cfg (es ++ [e]) = due clock cfg es := fun _ _ h =>
      due_notRollback (notRollback_of_notPatch h)
    rw [hplain, hplain, hplain, hplain] at hdue
    · exact due_le hmono hdue
    all_goals trivial
  · rw [storedBy_annotate, Function.update_self]
  · rw [storedBy_annotate, Function.update_of_ne (by decide), storedBy_annotate,
      Function.update_of_ne (by decide), storedBy_annotate, Function.update_self]

theorem provisioningPhase_waiting (hmono : Monotone clock)
    (hwrites : ∀ n name value, env n (.command (.annotate name value)) = .ok ())
    (hclock : ∀ n, env n .time = .ok (clock n)) (hs : Waiting clock cfg a s)
    (hrecorded : Recorded a s) {ready : Int}
    (hready : Owed clock cfg s.trace → ∀ prov, s.mem.provisioning = some prov →
      ready < prov.targetReplicas) :
    Ensures (BackoffGuard clock cfg a) env (provisioningPhase cfg ready) s fun _ s' =>
      Waiting clock cfg a s' := by
  refine Ensures.bind_iff.mpr (Ensures.get_iff.mpr ?_)
  cases hprov : s.mem.provisioning with
  | none =>
    simp only [hprov]
    exact Ensures.pure_iff.mpr hs
  | some prov =>
  simp only [hprov]
  split
  · rename_i hle
    have hover : ¬ Owed clock cfg s.trace := by
      intro howed
      have := hready howed prov hprov
      omega
    exact (over_ensures hmono ((provisioningReady_quiet prov).mono fun _ => Quiet.notPatch)
      hover).mono fun _ _ => waiting_of_over
  split
  swap
  · exact Ensures.pure_iff.mpr hs
  rename_i htimeout
  refine Ensures.bind_iff.mpr (Ensures.perform_iff.mpr
    ⟨guard_of_neutral (.inl hs.kept) trivial, ?_⟩)
  have hs₁ : Waiting clock cfg a ⟨s.mem, s.trace ++ [⟨.time, env s.trace.length .time⟩]⟩ :=
    hs.concat hmono trivial (notRollback_of_notPatch trivial)
  rw [hclock] at hs₁ ⊢
  dsimp only
  split
  · rename_i hover
    obtain ⟨hstored, hpos, hlt⟩ := hrecorded prov hprov
    refine provisioningTimeout_waiting hmono hwrites hclock ⟨?_, hpos, hlt, htimeout, ?_⟩ hprov
    · rw [storedBy_neutral (by trivial)]
      exact hstored
    · exact hover.trans (sub_le_sub_right (clock_concat hmono _ _) _)
  · exact Ensures.pure_iff.mpr hs₁

theorem ScalesDown.aside {c : Call} (h : ScalesDown c) : Aside c ∧ NotMark c := by
  constructor
  · unfold Aside
    split
    · cases h
    · cases h
    · trivial
  · unfold NotMark
    split
    · rw [show _ = _ from h]
      decide
    · trivial

theorem Quiet.notMark {c : Call} (h : Quiet c) : NotMark c := by
  unfold NotMark
  split
  · exact h.elim
  · trivial

theorem doScaleUp_notMark : (doScaleUp cfg st d now).Only NotMark :=
  (doScaleUp_only d now).mono fun _ h => by
    rcases h with h | rfl | rfl
    · exact Quiet.notMark h
    · trivial
    · trivial

/-- A scale-up that is let through has nothing to wait for. -/
theorem dispatch_waiting (hmono : Monotone clock) (hs : Waiting clock cfg a s)
    (hmarked : (debt clock cfg s.trace).marked = false) (hnow : now ≤ clock s.trace.length) :
    Ensures (BackoffGuard clock cfg a) env (dispatch cfg p st d now elapsed) s fun _ s' =>
      Waiting clock cfg a s' := by
  refine Ensures.bind_iff.mpr (Ensures.get_iff.mpr ?_)
  cases d.action with
  | keep => exact Ensures.pure_iff.mpr hs
  | scaleDown =>
    simp only [doScaleDown]
    split
    · exact Ensures.pure_iff.mpr hs
    split
    · exact Ensures.pure_iff.mpr hs
    exact waiting_unmarked_ensures hmono
      (drainThenScale_calls.mono fun _ => ScalesDown.aside)
      (drainThenScale_frames (fun _ _ _ _ => rfl) p st d) hs hmarked
  | scaleUp =>
    simp only
    split
    · exact Ensures.pure_iff.mpr hs
    split
    · exact Ensures.pure_iff.mpr hs
    rename_i hretry hnone
    have hover : ¬ Owed clock cfg s.trace := by
      rintro ⟨t, hdue, hlt⟩
      rcases hs t hdue hlt with ⟨retryAt, hle, -, hmem, -⟩ | ⟨prov, -, hmem⟩
      · rw [hmem, Option.getD_some] at hretry
        linarith
      · rw [hmem] at hnone
        exact hnone rfl
    have honly : (do clearRetry (s.mem.provisioningRetryAt.getD 0); doScaleUp cfg st d now).Only
        NotMark :=
      .bind (.ite (fun _ => .bind (.modify _) fun _ => Prog.Only.attempt.mpr trivial)
        fun _ => .pure _) fun _ => doScaleUp_notMark
    exact (over_unmarked_ensures hmono honly hover hmarked).mono fun _ _ => waiting_of_over


theorem Read.aside {c : Call} (h : Read c) : Aside c ∧ NotMark c ∧ NotPatch c := by
  cases c with
  | command c => exact h.elim
  | _ => exact ⟨trivial, trivial, trivial⟩

theorem Owed.of_concat (hmono : Monotone clock) {e : OpEvent} (he : NotPatch e.call)
    (h : Owed clock cfg (es ++ [e])) : Owed clock cfg es := by
  by_contra hover
  exact over_concat hmono (notRollback_of_notPatch he) hover h

theorem traceSpan_waiting (hmono : Monotone clock) (hs : Waiting clock cfg a s)
    (hmarked : (debt clock cfg s.trace).marked = false) :
    Ensures (BackoffGuard clock cfg a) env (traceSpan cfg) s fun _ s' =>
      Waiting clock cfg a s' ∧ (debt clock cfg s'.trace).marked = false ∧
        s.trace.length ≤ s'.trace.length := by
  unfold traceSpan
  split
  · refine Ensures.perform_iff.mpr ⟨guard_of_neutral (.inl hs.kept) trivial, ?_, ?_, ?_⟩
    · exact hs.concat hmono trivial (notRollback_of_notPatch trivial)
    · exact unmarked_concat trivial
    · simp
  · exact Ensures.pure_iff.mpr ⟨hs, hmarked, le_refl _⟩

/-- A reconcile keeps the back-off. -/
theorem processPool_waiting (hmono : Monotone clock)
    (hwrites : ∀ n name value, env n (.command (.annotate name value)) = .ok ())
    (hclock : ∀ n, env n .time = .ok (clock n)) (hs : Waiting clock cfg a s)
    (hrecorded : Recorded a s)
    (hready : Owed clock cfg s.trace → ∀ prov, s.mem.provisioning = some prov →
      ∀ ready, readyReplicas (env s.trace.length .readStatefulSet) = .ok ready →
        ready < prov.targetReplicas) :
    Ensures (BackoffGuard clock cfg a) env (processPool cfg p st) s fun _ s' =>
      Waiting clock cfg a s' := by
  suffices hbody : Ensures (BackoffGuard clock cfg a) env (processPoolBody cfg p st) s fun _ s' =>
      Waiting clock cfg a s' by
    refine Ensures.tryCatch_iff.mpr (hbody.mono fun r s' hs' => ?_)
    cases r with
    | ok _ => exact hs'
    | error e => exact Ensures.pure_iff.mpr hs'
  have hs₁ : ∀ r, Waiting clock cfg a ⟨s.mem, s.trace ++ [⟨.readStatefulSet, r⟩]⟩ := fun r =>
    hs.concat hmono trivial (notRollback_of_notPatch trivial)
  have hread : Ensures (BackoffGuard clock cfg a) env K8sClient.getReadyReplicas s fun r s' =>
      r = readyReplicas (env s.trace.length .readStatefulSet) ∧
      s' = ⟨s.mem, s.trace ++ [⟨.readStatefulSet, env s.trace.length .readStatefulSet⟩]⟩ := by
    refine Ensures.tryCatch_iff.mpr (Ensures.bind_iff.mpr (Ensures.perform_iff.mpr
      ⟨guard_of_neutral (.inl hs.kept) trivial, ?_⟩))
    rcases env s.trace.length .readStatefulSet with (_ | _) | sts
    · exact Ensures.pure_iff.mpr ⟨rfl, rfl⟩
    · exact ⟨trivial, rfl, rfl⟩
    · exact Ensures.pure_iff.mpr ⟨rfl, rfl⟩
  refine Ensures.bind_iff.mpr (hread.mono fun r s₁ ⟨hr, hs₁'⟩ => ?_)
  subst hs₁'
  cases r with
  | error e => exact hs₁ _
  | ok ready =>
  refine Ensures.bind_iff.mpr ((provisioningPhase_waiting hmono hwrites hclock (hs₁ _)
    (hrecorded.concat trivial) fun howed prov hprov => ?_).mono fun r s₂ hs₂ => ?_)
  · exact hready (Owed.of_concat hmono (by trivial) howed) prov hprov ready hr.symm
  cases r with
  | error e => exact hs₂
  | ok _ =>
  refine Ensures.bind_iff.mpr ((waiting_ensures hmono (checkpointPhase_reads.mono fun _ h =>
    ⟨(Read.aside h).1, (Read.aside h).2.2⟩) (checkpointPhase_frames fun _ _ => rfl) hs₂).mono
    fun r s₃ hs₃ => ?_)
  cases r with
  | error e => exact hs₃
  | ok _ =>
  refine Ensures.bind_iff.mpr (Ensures.perform_iff.mpr
    ⟨guard_of_neutral (.inl hs₃.kept) trivial, ?_⟩)
  rw [hclock]
  have hs₄ : Waiting clock cfg a ⟨s₃.mem, s₃.trace ++ [⟨.time, .ok (clock s₃.trace.length)⟩]⟩ :=
    hs₃.concat hmono trivial (notRollback_of_notPatch trivial)
  refine Ensures.bind_iff.mpr (Ensures.get_iff.mpr (Ensures.bind_iff.mpr
    ((traceSpan_waiting hmono hs₄ (unmarked_concat trivial)).mono fun r s₅ hs₅ => ?_)))
  cases r with
  | error e => exact hs₅.1
  | ok _ =>
  refine dispatch_waiting hmono hs₅.1 hs₅.2.1 ((clock_concat hmono _ _).trans (hmono hs₅.2.2))

/-! ## A new process -/

/-- The marker of a scale-up whose time is over is taken over. -/
theorem initPool_timedOut (hmono : Monotone clock) (hs : TimedOut clock cfg a prov s.trace)
    (hread : ∀ n, env n (.readAnnotationText .provisioning) = .ok (.marker prov)) :
    Ensures (BackoffGuard clock cfg a) env initPool s fun r s' =>
      TimedOut clock cfg a prov s'.trace ∧ (r = .ok () → s'.mem.provisioning = some prov) := by
  have hneutral : ∀ es (e : OpEvent), Neutral e.call → TimedOut clock cfg a prov es →
      TimedOut clock cfg a prov (es ++ [e]) := fun _ _ he hes => hes.concat hmono he
  have hguard : ∀ es c, Neutral c → TimedOut clock cfg a prov es →
      BackoffGuard clock cfg a es c := fun _ _ hc hes =>
    guard_of_neutral (.inl hes.kept) hc.notMarker
  refine Ensures.bind_iff.mpr (.of_frame (f := fun _ => ()) restoreLastScaleAction_neutral
    (fun _ _ => rfl) _ hs hneutral hguard fun r s₁ _ hs₁ => ?_)
  cases r with
  | error e => exact ⟨hs₁, nofun⟩
  | ok _ =>
  refine Ensures.bind_iff.mpr (Ensures.tryCatch_iff.mpr (Ensures.bind_iff.mpr
    (Ensures.tryCatch_iff.mpr (Ensures.perform_iff.mpr ⟨hguard _ _ trivial hs₁, ?_⟩))))
  rw [hread]
  show Ensures _ env (if prov.startedAt > 0 ∧ prov.targetReplicas > prov.fromReplicas
    then _ else _) _ _
  rw [if_pos ⟨hs.2.1, hs.2.2.1⟩]
  refine Ensures.modify_iff.mpr ?_
  dsimp only
  refine .of_frame restoreProvisioningRetry_neutral.1 restoreProvisioningRetry_neutral.2 _
    (hneutral _ _ trivial hs₁) hneutral hguard fun r s₃ hmem hs₃ => ⟨hs₃, fun _ => hmem⟩

theorem Held.kept {retryAt : ℚ} (hle : t ≤ retryAt) (h : Held clock cfg a t retryAt es) :
    Kept clock cfg a es := by
  intro t' hdue _
  obtain rfl : t = t' := Option.some.inj (h.1.symm.trans hdue)
  exact .inl ⟨retryAt, hle, h.2⟩

theorem Held.concat {retryAt : ℚ} {e : OpEvent} (he : Read e.call)
    (h : Held clock cfg a t retryAt es) : Held clock cfg a t retryAt (es ++ [e]) :=
  ⟨(due_notRollback (notRollback_of_notPatch (Read.aside he).2.2)).trans h.1,
    h.2.concat (Read.aside he).1⟩

theorem Held.guard {retryAt : ℚ} {c : Call} (hle : t ≤ retryAt)
    (h : Held clock cfg a t retryAt es) (hc : NotMarker c) : BackoffGuard clock cfg a es c :=
  guard_of_neutral (.inl (h.kept hle)) hc

/-- There is no marker, however it is read. -/
theorem restoreProvisioning_held {retryAt : ℚ} (hle : t ≤ retryAt)
    (hs : Held clock cfg a t retryAt s.trace)
    (hwrites : ∀ n name value, env n (.command (.annotate name value)) = .ok ())
    (hread : ∀ n v, env n (.readAnnotationText .provisioning) = .ok v → v = .cleared) :
    Ensures (BackoffGuard clock cfg a) env restoreProvisioning s fun _ s' =>
      Held clock cfg a t retryAt s'.trace ∧ s'.mem = s.mem := by
  refine Ensures.tryCatch_iff.mpr (Ensures.bind_iff.mpr (Ensures.tryCatch_iff.mpr
    (Ensures.perform_iff.mpr ⟨hs.guard hle trivial, ?_⟩)))
  have hs₁ : ∀ r, Held clock cfg a t retryAt
      (s.trace ++ [⟨.readAnnotationText .provisioning, r⟩]) := fun r => hs.concat trivial
  cases hv : env s.trace.length (.readAnnotationText .provisioning) with
  | ok v =>
    obtain rfl := hread _ _ hv
    exact Ensures.pure_iff.mpr ⟨hs₁ _, rfl⟩
  | error e =>
    cases e with
    | api => exact Ensures.pure_iff.mpr (Ensures.pure_iff.mpr ⟨hs₁ _, rfl⟩)
    | other =>
      refine ⟨trivial, Ensures.attempt_iff.mpr ⟨(hs₁ _).guard hle trivial, ⟨?_, ?_, ?_⟩, rfl⟩⟩
      · refine (due_notRollback (notRollback_of_notPatch ?_)).trans (hs₁ _).1
        trivial
      · rw [hwrites, storedBy_annotate, Function.update_of_ne (by decide)]
        exact (hs₁ _).2.1
      · rw [hwrites, storedBy_annotate, Function.update_self]

/-- The retry time is taken over, if it is not over. -/
theorem restoreProvisioningRetry_held (hmono : Monotone clock) {retryAt : ℚ} (hle : t ≤ retryAt)
    (hs : Held clock cfg a t retryAt s.trace) (hmem : s.mem.provisioning = none)
    (hclock : ∀ n, env n .time = .ok (clock n))
    (hread : ∀ n, env n (.readAnnotationText .provisioningRetry) = .ok (.time retryAt) ∨
      env n (.readAnnotationText .provisioningRetry) = .error .other) :
    Ensures (BackoffGuard clock cfg a) env restoreProvisioningRetry s fun r s' =>
      Kept clock cfg a s'.trace ∧ (r = .ok () → Waiting clock cfg a s') := by
  refine Ensures.bind_iff.mpr (Ensures.tryCatch_iff.mpr (Ensures.perform_iff.mpr
    ⟨hs.guard hle trivial, ?_⟩))
  have hs₁ : ∀ r, Held clock cfg a t retryAt
      (s.trace ++ [⟨.readAnnotationText .provisioningRetry, r⟩]) := fun r => hs.concat trivial
  rcases hread s.trace.length with hv | hv
  swap
  · rw [hv]
    exact ⟨trivial, (hs₁ _).kept hle, nofun⟩
  rw [hv]
  refine Ensures.bind_iff.mpr (Ensures.perform_iff.mpr ⟨(hs₁ _).guard hle trivial, ?_⟩)
  have hs₂ : ∀ r, Held clock cfg a t retryAt
      (s.trace ++ [⟨.readAnnotationText .provisioningRetry, .ok (.time retryAt)⟩] ++
        [⟨.time, r⟩]) := fun r => (hs₁ _).concat trivial
  rw [hclock]
  dsimp only
  split
  · refine Ensures.modify_iff.mpr ⟨(hs₂ _).kept hle, fun _ t' hdue' _ => ?_⟩
    obtain rfl : t = t' := Option.some.inj ((hs₂ _).1.symm.trans hdue')
    exact .inl ⟨retryAt, hle, (hs₂ _).2, rfl, hmem⟩
  · rename_i hpast
    have hover : ¬ Owed clock cfg (s.trace ++
        [⟨.readAnnotationText .provisioningRetry, .ok (.time retryAt)⟩] ++
        [⟨.time, .ok (clock (s.trace ++
          [(⟨.readAnnotationText .provisioningRetry, .ok (.time retryAt)⟩ : OpEvent)]).length)⟩]) := by
      rintro ⟨t', hdue', hlt⟩
      obtain rfl : t = t' := Option.some.inj ((hs₂ _).1.symm.trans hdue')
      exact hpast (((clock_concat hmono _ _).trans_lt hlt).trans_le hle)
    have hclears : (perform (.annotate .provisioningRetry .cleared)).Only NotPatch :=
      Prog.Only.perform.mpr trivial
    exact (over_ensures hmono (.ite (fun _ => hclears) fun _ => .pure _) hover).mono
      fun r s' hover => ⟨kept_of_over hover, fun _ => waiting_of_over hover⟩

theorem initPool_held (hmono : Monotone clock) {retryAt : ℚ} (hle : t ≤ retryAt)
    (hs : Held clock cfg a t retryAt s.trace) (hmem : s.mem.provisioning = none)
    (hclock : ∀ n, env n .time = .ok (clock n))
    (hwrites : ∀ n name value, env n (.command (.annotate name value)) = .ok ())
    (hmarker : ∀ n v, env n (.readAnnotationText .provisioning) = .ok v → v = .cleared)
    (hretry : ∀ n, env n (.readAnnotationText .provisioningRetry) = .ok (.time retryAt) ∨
      env n (.readAnnotationText .provisioningRetry) = .error .other) :
    Ensures (BackoffGuard clock cfg a) env initPool s fun r s' =>
      Kept clock cfg a s'.trace ∧ (r = .ok () → Waiting clock cfg a s') := by
  refine Ensures.bind_iff.mpr (.of_frame (f := Memory.provisioning) restoreLastScaleAction_reads
    (restoreLastScaleAction_frames fun _ _ => rfl) (Held clock cfg a t retryAt) hs
    (fun _ _ he hes => hes.concat he) (fun _ _ hc hes => hes.guard hle hc.neutral.notMarker)
    fun r s₁ hmem₁ hs₁ => ?_)
  cases r with
  | error e => exact ⟨hs₁.kept hle, nofun⟩
  | ok _ =>
  refine Ensures.bind_iff.mpr ((restoreProvisioning_held hle hs₁ hwrites hmarker).mono
    fun r s₂ ⟨hs₂, hmem₂⟩ => ?_)
  cases r with
  | error e => exact ⟨hs₂.kept hle, nofun⟩
  | ok _ =>
  refine restoreProvisioningRetry_held hmono hle hs₂ ?_ hclock hretry
  rw [hmem₂]
  exact hmem₁.trans hmem

end Kelpflux.Proof.Backoff
