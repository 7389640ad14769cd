import Kelpflux.Proof.Operator.Recorded

/-!
# Patches that raise the replicas

A patch that raises the replicas a reconcile has observed is a scale-up's, right
after its marker, or a rollback's, right after the mark of an ordinal that it takes
back (`Announced`): so it is at every call of a reconcile (`processPool_announced`)
and of a run (`log_announced`). Of those that are no rollback's, one follows
another only when the gate has opened between the two (`scaleUps_serialized`).
-/

namespace Kelpflux.Proof.Operator

open Framework Kelpflux.Impl.Operator

/-- The ordinal that a rollback marks. -/
def markedOrdinal : Call → Option Int
  | .command (.future i reason) => if reason = "provisioning-timeout" then some i else none
  | _ => none

/-- The mark of an ordinal that a rollback to `target` takes back. -/
def TakesBack (target : Int) (e : OpEvent) : Prop := ∃ i ∈ markedOrdinal e.call, target ≤ i

instance (target : Int) : DecidablePred (TakesBack target) := fun _ =>
  inferInstanceAs (Decidable (∃ i ∈ markedOrdinal _, _))

/-- A call, and the replicas that its turn has observed. -/
structure Logged where
  replicas : Int
  event : OpEvent
deriving DecidableEq

/-- The calls of a run. -/
def Deployment.log (cfg : Config) (p : PartitionConfig) : Deployment → List Turn → List Logged
  | _, [] => []
  | w, x :: xs =>
    ((w.step cfg p x).events.drop w.events.length).map (Logged.mk x.state.currentReplicas) ++
      Deployment.log cfg p (w.step cfg p x) xs

/-- The last of the calls is a patch that raises the replicas, and not that of a
rollback, before which an ordinal is marked that it takes back. -/
def Raises (current target : Int) (log : List Logged) : Prop :=
  ∃ before r, log = before ++ [⟨current, ⟨.command (.patchReplicas target), r⟩⟩] ∧
    current < target ∧ ∀ o ∈ before.getLast?, ¬ TakesBack target o.event

/-- Between two scale-ups, all pods of the first are read as ready or its time is
over. -/
def Serialized (log : List Logged) : Prop :=
  ∀ current target current' target' l₁ l₂ l₃, log = l₁ ++ l₂ ++ l₃ → Raises current target l₁ →
    Raises current' target' l₂ → ∃ o ∈ l₂, Releases current target o.event

variable {a : Annotation → AnnotationValue} {cfg : Config} {p : PartitionConfig}
  {st : PartitionState} {d : ScalingDecision} {env : OpEnv} {s : OpState} {prov : Provisioning}
  {es : List OpEvent} {now elapsed : ℚ} {w : Deployment} {x : Turn} {xs : List Turn}

/-! ## What stands before a patch -/

/-- The last of the calls is the marker of the scale-up, or the mark of an ordinal
that is taken back. -/
def Announced (current target : Int) (es : List OpEvent) : Prop :=
  ∃ e ∈ es.getLast?, TakesBack target e ∨
    ∃ t, e.call = .command (.annotate .provisioning (.marker ⟨t, current, target⟩))

/-- What holds at each call of a reconcile that has observed so many replicas. -/
def PatchGuard (current : Int) (es : List OpEvent) (c : Call) : Prop :=
  ∀ target, c = .command (.patchReplicas target) → current < target → Announced current target es

variable {current : Int}

theorem patchGuard_of_notPatch {c : Call} (h : NotPatch c) : PatchGuard current es c := by
  rintro target rfl -
  exact h.elim

theorem notPatch_announced {α : Type} {q : Op α} (ho : q.Only NotPatch) :
    q.Guards (PatchGuard current) env s :=
  ho.guards fun _ _ => patchGuard_of_notPatch

/-- A rollback marks the ordinals that it takes back. -/
theorem provisioningTimeout_announced (hlt : prov.fromReplicas < prov.targetReplicas) :
    (provisioningTimeout cfg prov).Guards (PatchGuard current) env s := by
  have hmarked : Ensures (PatchGuard current) env
      ((range prov.fromReplicas prov.targetReplicas).forM fun i =>
        (attempt (.future i "provisioning-timeout"))) s fun _ s' =>
      ∃ e ∈ s'.trace.getLast?, TakesBack prov.fromReplicas e := by
    refine .forM (fun nodes s₁ => (∀ i ∈ nodes, prov.fromReplicas ≤ i) ∧
      (nodes = range prov.fromReplicas prov.targetReplicas ∨
        ∃ e ∈ s₁.trace.getLast?, TakesBack prov.fromReplicas e))
      ⟨fun i hi => (mem_range.mp hi).1, .inl rfl⟩ (fun i nodes s₁ h => ?_) fun s₁ h => ?_
    · obtain ⟨hi, hnodes⟩ := List.forall_mem_cons.mp h.1
      exact Ensures.attempt_iff.mpr ⟨patchGuard_of_notPatch trivial, hnodes,
        .inr ⟨_, List.getLast?_concat, i, rfl, hi⟩⟩
    · refine h.2.resolve_left fun hnil => ?_
      have hfrom : prov.fromReplicas ∈ range prov.fromReplicas prov.targetReplicas :=
        mem_range.mpr ⟨le_refl _, hlt⟩
      rw [← hnil] at hfrom
      exact List.not_mem_nil hfrom
  refine Prog.guards_bind.mpr ⟨hmarked.1, hmarked.2.mono fun r s₁ ⟨e, he, hmark⟩ => ?_⟩
  cases r with
  | error e => trivial
  | ok _ =>
  refine .bind ?_ fun _ _ => notPatch_announced ?_
  · refine ⟨fun target htarget _ => ⟨e, he, .inl ?_⟩, trivial⟩
    obtain rfl := Command.patchReplicas.inj (Call.command.inj htarget)
    exact hmark
  · exact .bind (Prog.Only.perform.mpr trivial) fun _ => .bind (.modify _) fun _ =>
      .bind (Prog.Only.attempt.mpr trivial) fun _ => .bind (Prog.Only.attempt.mpr trivial)
        fun _ => Prog.Only.attempt.mpr trivial

theorem traceSpan_notPatch : (traceSpan cfg).Only NotPatch :=
  traceSpan_quiet.mono fun _ => Quiet.notPatch

/-- A scale-up writes its marker, and patches. -/
theorem doScaleUp_announced (hcurrent : st.currentReplicas = current) :
    (doScaleUp cfg st d now).Guards (PatchGuard current) env s := by
  refine .bind (notPatch_announced .get) fun m s₁ => .bind (notPatch_announced (.modify _))
    fun _ s₂ => .bind (notPatch_announced (.forM fun _ _ => Prog.Only.attempt.mpr trivial))
    fun _ s₃ => .bind (notPatch_announced traceSpan_notPatch) fun _ s₄ => ?_
  refine Prog.guards_bind.mpr ⟨⟨patchGuard_of_notPatch trivial, trivial⟩, WP.perform_iff.mpr ?_⟩
  cases env s₄.trace.length _ with
  | error e => trivial
  | ok _ =>
  refine Prog.guards_bind.mpr ⟨trivial, WP.modify_iff.mpr ?_⟩
  refine .bind ⟨fun target htarget _ => ?_, trivial⟩ fun _ _ => notPatch_announced ?_
  · obtain rfl := Command.patchReplicas.inj (Call.command.inj htarget)
    refine ⟨_, List.getLast?_concat, .inr ⟨now, ?_⟩⟩
    rw [← hcurrent]
  · exact .bind (.modify _) fun _ => .tryCatch (.bind (Prog.Only.perform.mpr trivial) fun _ =>
      .bind (Prog.Only.perform.mpr trivial) fun _ => Prog.Only.perform.mpr trivial) fun _ => .pure _

/-- A scale-down lowers the replicas. -/
theorem drainThenScale_announced (hle : d.targetReplicas ≤ current) :
    (drainThenScale p st d).Guards (PatchGuard current) env s := by
  refine Prog.guards_iff.mpr fun es e es' hes target htarget hlt => ?_
  have he : e ∈ (drainThenScale p st d).calls env s := by
    rw [hes]
    exact List.mem_append_right _ List.mem_cons_self
  have hquiet : ¬ Quiet e.call := by
    rw [htarget]
    exact id
  rcases (mem_drainThenScale he hquiet).1 with hpatch | ⟨i, -, hmark⟩
  · rw [htarget] at hpatch
    obtain rfl := Command.patchReplicas.inj (Call.command.inj hpatch)
    omega
  · rw [htarget] at hmark
    cases hmark

theorem dispatch_announced (hcurrent : st.currentReplicas = current)
    (hdown : d.action = .scaleDown → d.targetReplicas ≤ current) :
    (dispatch cfg p st d now elapsed).Guards (PatchGuard current) env s := by
  refine .bind (notPatch_announced .get) fun m s₁ => ?_
  have hskip : ∀ s', (pure () : Op Unit).Guards (PatchGuard current) env s' :=
    fun _ => notPatch_announced (.pure _)
  cases hact : d.action with
  | keep => exact hskip _
  | scaleDown =>
    simp only [doScaleDown]
    split
    · exact hskip _
    split
    · exact hskip _
    exact drainThenScale_announced (hdown hact)
  | scaleUp =>
    simp only
    split
    · exact hskip _
    split
    · exact hskip _
    exact .bind (notPatch_announced ((clearRetry_quiet _).mono fun _ => Quiet.notPatch))
      fun _ _ => doScaleUp_announced hcurrent

theorem provisioningPhase_announced {ready : Int}
    (hs : ∀ prov ∈ s.mem.provisioning, prov.fromReplicas < prov.targetReplicas) :
    (provisioningPhase cfg ready).Guards (PatchGuard current) env s := by
  refine Prog.guards_bind.mpr ⟨notPatch_announced .get, WP.get_iff.mpr ?_⟩
  dsimp only
  split
  · exact notPatch_announced (.pure _)
  rename_i prov hprov
  split
  · exact notPatch_announced ((provisioningReady_quiet prov).mono fun _ => Quiet.notPatch)
  split
  · refine .bind (notPatch_announced (Prog.Only.perform.mpr trivial)) fun t s₁ => ?_
    split
    · exact provisioningTimeout_announced (hs prov hprov)
    · exact notPatch_announced (.pure _)
  · exact notPatch_announced (.pure _)

theorem getReadyReplicas_notPatch : K8sClient.getReadyReplicas.Only NotPatch :=
  .tryCatch (.bind (Prog.Only.perform.mpr trivial) fun _ => .pure _) fun e => by
    cases e <;> trivial

/-- Each patch of a reconcile that raises the replicas is announced. -/
theorem processPool_announced
    (hs : ∀ prov ∈ s.mem.provisioning, prov.fromReplicas < prov.targetReplicas) :
    (processPool cfg p st).Guards (PatchGuard st.currentReplicas) env s := by
  refine .tryCatch ?_ fun _ _ => notPatch_announced (.pure _)
  have hframes : K8sClient.getReadyReplicas.Frames Memory.provisioning :=
    .tryCatch (.bind (.perform _) fun _ => .pure _) fun e => by
      cases e
      · exact .pure _
      · exact .throw _
  refine Prog.guards_bind.mpr ⟨notPatch_announced getReadyReplicas_notPatch,
    WP.of_frame getReadyReplicas_notPatch hframes fun r s₁ _ hmem _ _ => ?_⟩
  cases r with
  | error e => trivial
  | ok ready =>
  refine .bind (provisioningPhase_announced (hmem ▸ hs)) fun _ s₂ => ?_
  refine .bind (notPatch_announced (checkpointPhase_reads.mono fun _ h => h.quiet.notPatch))
    fun age s₃ => .bind (notPatch_announced (Prog.Only.perform.mpr trivial)) fun t s₄ =>
    .bind (notPatch_announced .get) fun m s₅ =>
    .bind (notPatch_announced traceSpan_notPatch) fun _ s₆ => dispatch_announced rfl fun hdown => ?_
  rw [evaluate_target (by rw [hdown]; decide)]
  exact ((evaluate_scaleDown_iff _ _ _ _ _).mp hdown).1.le

/-! ## Runs -/

theorem restoreProvisioning_notPatch : restoreProvisioning.Only NotPatch := by
  refine .tryCatch (.bind (getAnnotation_reads.mono fun _ h => h.quiet.notPatch) fun v => ?_)
    fun _ => Prog.Only.attempt.mpr trivial
  split
  · exact .pure _
  · exact .ite (fun _ => .modify _) fun _ => Prog.Only.perform.mpr trivial
  · exact .throw _

theorem restoreProvisioningRetry_notPatch : restoreProvisioningRetry.Only NotPatch := by
  refine .bind (getAnnotation_reads.mono fun _ h => h.quiet.notPatch) fun raw => ?_
  split
  · exact .modify _
  · exact .bind (Prog.Only.perform.mpr trivial) fun _ => .ite (fun _ => .modify _) fun _ =>
      .ite (fun _ => Prog.Only.perform.mpr trivial) fun _ => .pure _

theorem initPool_notPatch : initPool.Only NotPatch :=
  .bind (restoreLastScaleAction_reads.mono fun _ h => h.quiet.notPatch) fun _ =>
    .bind restoreProvisioning_notPatch fun _ => restoreProvisioningRetry_notPatch

/-- A record of the process, if it runs, is that of its annotation. -/
def Deployment.Known (a : Annotation → AnnotationValue) (w : Deployment) : Prop :=
  ∀ m, w.mem = some m → Recorded a ⟨m, w.events⟩

/-- A turn whose annotations are written, and read as they were written, and whose
clock is past its epoch. -/
def Legible (a : Annotation → AnnotationValue) (w : Deployment) (x : Turn) : Prop :=
  Readable a w x ∧ ∀ n t, x.env n .time = .ok t → 0 < t

theorem Served.legible (h : Served a w x) : Legible a w x := by
  refine ⟨⟨h.writes, fun n name v hv => ?_⟩, h.clock⟩
  rw [h.reads] at hv
  exact (Except.ok.inj hv).symm

/-- What a turn adds to the calls. -/
theorem exists_step_events (cfg : Config) (p : PartitionConfig) (w : Deployment) (x : Turn) :
    ∃ es, es <+: (w.prog cfg p x).calls x.env ⟨w.mem.getD {}, w.events⟩ ∧
      (w.step cfg p x).events = w.events ++ es := by
  have htrace := (w.prog cfg p x).trace_eq x.env ⟨w.mem.getD {}, w.events⟩
  unfold Deployment.step
  generalize (w.prog cfg p x).run x.env ⟨w.mem.getD {}, w.events⟩ = rs at *
  obtain ⟨r, s⟩ := rs
  cases x.crash with
  | some n =>
    refine ⟨_, List.take_prefix n _, ?_⟩
    show s.trace.take _ = _
    rw [htrace, List.take_length_add_append]
  | none => cases r <;> exact ⟨_, List.prefix_refl _, htrace⟩

theorem step_events (cfg : Config) (p : PartitionConfig) (w : Deployment) (x : Turn) :
    (w.step cfg p x).events = w.events ++ (w.step cfg p x).events.drop w.events.length := by
  obtain ⟨es, -, hes⟩ := exists_step_events cfg p w x
  rw [hes, List.drop_left]

theorem event_mk (n : Int) (es : List OpEvent) : (es.map (Logged.mk n)).map Logged.event = es := by
  rw [List.map_map]
  exact List.map_id es

theorem run_events (xs : List Turn) : (run (Deployment.step cfg p) w xs).events =
    w.events ++ (w.log cfg p xs).map Logged.event := by
  induction xs generalizing w with
  | nil => exact (List.append_nil _).symm
  | cons x xs ih =>
    rw [run_cons, ih, Deployment.log, List.map_append, event_mk, ← List.append_assoc, ← step_events]

theorem step_known (hw : w.Known a) (hx : Legible a w x) : (w.step cfg p x).Known a := by
  have hprog : WP x.env (w.prog cfg p x) ⟨w.mem.getD {}, w.events⟩ fun _ s' => Recorded a s' := by
    unfold Deployment.prog
    cases hm : w.mem with
    | none => exact initPool_recorded rfl hx.1.reads
    | some m => exact processPool_recorded (hw m hm) hx.1.writes hx.2
  unfold Deployment.step
  unfold WP at hprog
  generalize (w.prog cfg p x).run x.env ⟨w.mem.getD {}, w.events⟩ = rs at *
  obtain ⟨r, s⟩ := rs
  intro m hm
  cases hcrash : x.crash with
  | some n =>
    rw [hcrash] at hm
    cases hm
  | none =>
    rw [hcrash] at hm
    cases r with
    | error e => cases hm
    | ok _ =>
      obtain rfl : s.mem = m := Option.some.inj hm
      exact hprog

theorem prog_announced (hw : w.Known a) : (w.prog cfg p x).Guards
    (PatchGuard x.state.currentReplicas) x.env ⟨w.mem.getD {}, w.events⟩ := by
  unfold Deployment.prog
  cases hm : w.mem with
  | none => exact notPatch_announced initPool_notPatch
  | some m => exact processPool_announced fun prov hprov => (hw m hm prov hprov).2.2

/-- Each patch of a run that raises the replicas is announced. -/
theorem log_announced (hw : w.Known a)
    (hxs : Along (Deployment.step cfg p) (Legible a) w xs) {before after : List Logged} {o : Logged}
    (h : w.log cfg p xs = before ++ o :: after) :
    PatchGuard o.replicas (w.events ++ before.map Logged.event) o.event.call := by
  induction xs generalizing w before with
  | nil => exact absurd h.symm (List.append_ne_nil_of_right_ne_nil _ (List.cons_ne_nil _ _))
  | cons x xs ih =>
    obtain ⟨hx, hxs⟩ := hxs
    obtain ⟨es, ⟨rest, hprefix⟩, hes⟩ := exists_step_events cfg p w x
    rw [Deployment.log, hes, List.drop_left] at h
    rcases List.append_eq_append_iff.mp h with ⟨later, rfl, hlater⟩ | ⟨rest', hmap, hrest⟩
    · have hrun := ih (step_known hw hx) hxs hlater
      rw [hes] at hrun
      rwa [List.map_append, event_mk, ← List.append_assoc]
    · cases rest' with
      | nil =>
        rw [List.append_nil] at hmap
        have hlog : (w.step cfg p x).log cfg p xs = [] ++ o :: after := hrest.symm
        have hrun := ih (step_known hw hx) hxs hlog
        rwa [hes, List.map_nil, List.append_nil, ← event_mk x.state.currentReplicas es, hmap] at hrun
      | cons o' rest' =>
        obtain ⟨rfl, -⟩ := List.cons.inj hrest
        obtain ⟨es₁, es₂, rfl, hbefore, ho⟩ := List.map_eq_append_iff.mp hmap
        obtain ⟨e, es₃, rfl, rfl, -⟩ := List.map_eq_cons_iff.mp ho
        rw [List.append_assoc] at hprefix
        have hcall := Prog.guards_iff.mp (prog_announced hw) es₁ e _ hprefix.symm
        rwa [← hbefore, event_mk]

/-- After calls that end in a patch, or at first, a patch that raises the replicas
and is no rollback's has its marker right before it. -/
theorem Raises.marked {target : Int} {l₀ l l' : List Logged}
    (hguard : ∀ before o after, l₀ ++ l ++ l' = before ++ o :: after →
      PatchGuard o.replicas (before.map Logged.event) o.event.call)
    (hl₀ : ∀ o ∈ l₀.getLast?, ∃ n, o.event.call = .command (.patchReplicas n))
    (h : Raises current target l) : ∃ t, ScalesUpTo ⟨t, current, target⟩ (l.map Logged.event) := by
  obtain ⟨before, r, rfl, hlt, hmark⟩ := h
  obtain ⟨e, he, hannounced⟩ := hguard (l₀ ++ before)
    ⟨current, ⟨.command (.patchReplicas target), r⟩⟩ l' (by simp) target rfl hlt
  rcases List.eq_nil_or_concat' before with rfl | ⟨before, o, rfl⟩
  · rw [List.append_nil, List.getLast?_map] at he
    obtain ⟨o, ho, rfl⟩ := Option.map_eq_some_iff.mp he
    obtain ⟨n, hn⟩ := hl₀ o ho
    rcases hannounced with hmarked | ⟨t, ht⟩
    · obtain ⟨i, hi, -⟩ := hmarked
      rw [hn] at hi
      cases hi
    · rw [hn] at ht
      cases ht
  · rw [← List.append_assoc, List.getLast?_map, List.getLast?_concat] at he
    obtain rfl : o.event = e := Option.some.inj he
    obtain ⟨t, ht⟩ := hannounced.resolve_left (hmark o List.getLast?_concat)
    refine ⟨t, before.map Logged.event, ?_⟩
    obtain ⟨replicas, call, reply⟩ := o
    obtain rfl : call = _ := ht
    exact ⟨reply, r, by simp⟩

/-- In every run of reconciles, crashes and restarts, from any annotations on, no
patch that raises the replicas follows another one, but for those of rollbacks,
before all pods of that one have been read as ready or its time is over. -/
theorem scaleUps_serialized (hxs : Along (Deployment.step cfg p) (Served a) ⟨none, []⟩ xs) :
    Serialized (Deployment.log cfg p ⟨none, []⟩ xs) := by
  have hok : Deployment.Ok a ⟨none, []⟩ := by
    refine ⟨fun es₁ prov r es₂ h => ?_, fun prov hg => ?_, fun m' _ => gated_of_open rfl⟩
    · exact absurd h.symm (List.append_ne_nil_of_right_ne_nil _ (List.cons_ne_nil _ _))
    · cases hg
  have hwaits := (hxs.reach (fun _ _ hw hx => step_ok hw hx) hok).waits
  have hknown : Deployment.Known a ⟨none, []⟩ := fun m hm => by cases hm
  rw [run_events, List.nil_append] at hwaits
  intro current target current' target' l₁ l₂ l₃ hlog h₁ h₂
  rw [hlog] at hwaits
  have hguard : ∀ before o after, l₁ ++ l₂ ++ l₃ = before ++ o :: after →
      PatchGuard o.replicas (before.map Logged.event) o.event.call := by
    intro before o after h
    simpa using log_announced hknown (hxs.mono fun _ _ => Served.legible) (hlog.trans h)
  have hfirst : ∀ before o after, [] ++ l₁ ++ (l₂ ++ l₃) = before ++ o :: after →
      PatchGuard o.replicas (before.map Logged.event) o.event.call := fun before o after h =>
    hguard before o after (by simpa using h)
  obtain ⟨t, hup⟩ := Raises.marked hfirst nofun h₁
  have hlast : ∀ o ∈ l₁.getLast?, ∃ n, o.event.call = .command (.patchReplicas n) := by
    obtain ⟨before, r, rfl, -, -⟩ := h₁
    intro o ho
    rw [List.getLast?_concat] at ho
    obtain rfl := Option.some.inj ho
    exact ⟨target, rfl⟩
  obtain ⟨t', hup'⟩ := Raises.marked hguard hlast h₂
  rw [List.map_append, List.map_append] at hwaits
  obtain ⟨e, he, hrel⟩ := hwaits.released hup hup'
  obtain ⟨o, ho, rfl⟩ := List.mem_map.mp he
  exact ⟨o, ho, hrel⟩

/-! ## Two scale-ups -/

/-- The annotations hold `stored`; else as `quietEnv`. -/
def storedEnv (stored : Annotation → AnnotationValue) (sts : StatefulSet) (now : ℚ) : OpEnv :=
  fun n c =>
    match c with
    | .readAnnotationText name => .ok (stored name)
    | c => quietEnv sts now n c

theorem storedEnv_served {stored : Annotation → AnnotationValue} {sts : StatefulSet} {now : ℚ}
    {crash : Option ℕ} (hnow : 0 < now) (hstored : ∀ name, stored name = storedBy a w.events name) :
    Served a w ⟨st, storedEnv stored sts now, crash⟩ := by
  refine ⟨fun _ _ _ => rfl, fun _ name => congrArg Except.ok (hstored name), ?_⟩
  rintro n t ⟨⟩
  exact hnow

/-- One job waits. -/
def waiting (replicas : Int) : PartitionState :=
  { idle replicas 0 with pendingJobs := 1, scalePendingJobs := 1 }

/-- A job waits. The operator dies after the patch of a scale-up, is started again,
and scales up once more when all pods are ready. -/
theorem scaleUps_serialized_crash :
    let marked : Annotation → AnnotationValue :=
      Function.update (fun _ => .cleared) .provisioning (.marker ⟨1000, 2, 3⟩)
    let log := Deployment.log {} fourWorkers ⟨none, []⟩
      [⟨waiting 2, storedEnv (fun _ => .cleared) ⟨some 2, some 2⟩ 990, none⟩,
        ⟨waiting 2, storedEnv (fun _ => .cleared) ⟨some 2, some 2⟩ 1000, some 7⟩,
        ⟨waiting 3, storedEnv marked ⟨some 3, some 2⟩ 1010, none⟩,
        ⟨waiting 3, storedEnv marked ⟨some 3, some 3⟩ 1030, none⟩]
    Serialized log ∧ ∃ l₁ l₂ l₃, log = l₁ ++ l₂ ++ l₃ ∧ Raises 2 3 l₁ ∧ Raises 3 4 l₂ := by
  intro marked log
  refine ⟨scaleUps_serialized (a := fun _ => .cleared) ⟨storedEnv_served (by decide) fun _ => rfl,
    storedEnv_served (by decide) fun _ => rfl, storedEnv_served (by decide) fun name => ?_,
    storedEnv_served (by decide) fun name => ?_, trivial⟩, log.take 12, (log.drop 12).take 17, log.drop 29,
    by decide +kernel, ⟨log.take 11, .ok (), by decide +kernel, by decide, by decide +kernel⟩,
    ⟨(log.drop 12).take 16, .ok (), by decide +kernel, by decide, by decide +kernel⟩⟩
  · cases name <;> decide +kernel
  · cases name <;> decide +kernel

end Kelpflux.Proof.Operator
