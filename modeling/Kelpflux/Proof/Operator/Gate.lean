import Kelpflux.Framework.Guards
import Kelpflux.Impl.Operator.App
import Kelpflux.Proof.Operator.Drains
import Mathlib.Logic.Function.Basic

/-!
# The gate of scale-ups, across restarts

An operator that dies after any of its calls and is started again (`Turn`). Its
scale-ups are gated by the record of the one in flight: the gate that the calls
so far make (`gateOf`) is closed by the marker that a scale-up writes, and opened
by a reading of all its pods as ready or by its timeout. While the gate is
closed the annotation holds the marker (`Marked`), and the memory of a running
operator the record (`Gated`): after a crash `initPool` takes it over from there.
So no scale-up starts while the gate is closed (`step_ok`, `Waits.released`).
-/

namespace Kelpflux.Proof.Operator

open Framework Kelpflux.Impl.Operator

/-- The annotations after a call. -/
def storedStep (a : Annotation → AnnotationValue) : OpEvent → Annotation → AnnotationValue
  | ⟨.command (.annotate name value), .ok _⟩ => Function.update a name value
  | _ => a

def storedBy (a : Annotation → AnnotationValue) (es : List OpEvent) :
    Annotation → AnnotationValue := es.foldl storedStep a

/-- A reconcile reads as many ready replicas as a scale-up aims at, or hides an
ordinal that the scale-up added because its time is over. -/
def Releases (current target : Int) : OpEvent → Prop
  | ⟨.readStatefulSet, r⟩ =>
    match readyReplicas r with
    | .ok ready => target ≤ ready
    | .error _ => False
  | ⟨.command (.future i reason), _⟩ =>
    reason = "provisioning-timeout" ∧ i ∈ range current target
  | _ => False

instance (current target : Int) : DecidablePred (Releases current target) := fun e => by
  unfold Releases
  split
  · split <;> infer_instance
  · infer_instance
  · infer_instance

/-- The scale-up that the gate is closed for, after a call. -/
def gateStep (g : Option Provisioning) (e : OpEvent) : Option Provisioning :=
  match e with
  | ⟨.command (.annotate .provisioning (.marker prov)), _⟩ => some prov
  | e => g.filter fun prov => ¬ Releases prov.fromReplicas prov.targetReplicas e

def gateOf (es : List OpEvent) : Option Provisioning := es.foldl gateStep none

/-- An operator's memory of a pool, if it is running, and all calls so far. -/
structure Deployment where
  mem : Option Memory
  events : List OpEvent

/-- A turn: a reconcile, or the start of the process if none is running. It ends
by itself, or the process dies after some of the calls. -/
structure Turn where
  state : PartitionState
  env : OpEnv
  crash : Option Nat

namespace Deployment

variable (cfg : Config) (p : PartitionConfig)

/-- What a turn runs. -/
def prog (w : Deployment) (x : Turn) : Op Unit :=
  if w.mem.isSome then processPool cfg p x.state else initPool

def step (w : Deployment) (x : Turn) : Deployment :=
  let (r, s) := (w.prog cfg p x).run x.env ⟨w.mem.getD {}, w.events⟩
  match x.crash, r with
  | some n, _ => ⟨none, s.trace.take (w.events.length + n)⟩
  | none, .ok _ => ⟨some s.mem, s.trace⟩
  | none, .error _ => ⟨none, s.trace⟩

end Deployment

/-- Annotations are written, and read as they were written; the clock is past
its epoch. -/
structure Served (a : Annotation → AnnotationValue) (w : Deployment) (x : Turn) : Prop where
  writes : ∀ n name value, x.env n (.command (.annotate name value)) = .ok ()
  reads : ∀ n name, x.env n (.readAnnotationText name) = .ok (storedBy a w.events name)
  clock : ∀ n t, x.env n .time = .ok t → 0 < t

/-- The last two of the calls `es` are those of a scale-up: its marker, and its
patch. -/
def ScalesUpTo (prov : Provisioning) (es : List OpEvent) : Prop :=
  ∃ es₀ r r', es = es₀ ++ [⟨.command (.annotate .provisioning (.marker prov)), r⟩,
    ⟨.command (.patchReplicas prov.targetReplicas), r'⟩]

variable {a : Annotation → AnnotationValue} {cfg : Config} {p : PartitionConfig}
  {st : PartitionState} {d : ScalingDecision} {env : OpEnv} {s : OpState} {prov : Provisioning}
  {es : List OpEvent} {now elapsed : ℚ}

/-! ## The gate -/

/-- No scale-up starts while the gate is closed. -/
def Waits (es : List OpEvent) : Prop :=
  ∀ es₁ prov r es₂, es = es₁ ++ ⟨.command (.annotate .provisioning (.marker prov)), r⟩ :: es₂ →
    gateOf es₁ = none

/-- While the gate is closed the annotation holds the marker of a scale-up, which
`initPool` takes over. -/
def Marked (a : Annotation → AnnotationValue) (es : List OpEvent) : Prop :=
  ∀ prov, gateOf es = some prov → storedBy a es .provisioning = .marker prov ∧
    0 < prov.startedAt ∧ prov.fromReplicas < prov.targetReplicas

/-- And the operator's memory holds its record. -/
def Gated (a : Annotation → AnnotationValue) (s : OpState) : Prop :=
  Marked a s.trace ∧ ∀ prov, gateOf s.trace = some prov → s.mem.provisioning = some prov

/-- Not the marker of a scale-up. -/
def NotMarker : Call → Prop
  | .command (.annotate .provisioning (.marker _)) => False
  | _ => True

/-- Not a change of its annotation. -/
def Neutral : Call → Prop
  | .command (.annotate .provisioning _) => False
  | _ => True

theorem Neutral.notMarker {c : Call} (h : Neutral c) : NotMarker c := by
  unfold NotMarker
  split
  · exact h
  · trivial

theorem Read.neutral {c : Call} (h : Read c) : Neutral c := by
  unfold Neutral
  split
  · exact h
  · trivial

theorem gateOf_concat (es : List OpEvent) (e : OpEvent) :
    gateOf (es ++ [e]) = gateStep (gateOf es) e := by
  simp [gateOf]

/-- Other calls only open the gate. -/
theorem gateStep_notMarker {g : Option Provisioning} {e : OpEvent} (h : NotMarker e.call)
    (hg : gateStep g e = some prov) : g = some prov ∧ ¬ Releases prov.fromReplicas prov.targetReplicas e := by
  unfold gateStep at hg
  split at hg
  · exact h.elim
  · obtain ⟨hg, hrel⟩ := Option.filter_eq_some_iff.mp hg
    exact ⟨hg, of_decide_eq_true hrel⟩

theorem gateStep_none {e : OpEvent} (h : NotMarker e.call) : gateStep none e = none := by
  cases hg : gateStep none e with
  | none => rfl
  | some prov => cases (gateStep_notMarker h hg).1

theorem gateStep_kept {e : OpEvent} (h : NotMarker e.call) (hrel : ¬ Releases prov.fromReplicas prov.targetReplicas e) :
    gateStep (some prov) e = some prov := by
  unfold gateStep
  split
  · exact h.elim
  · exact Option.filter_some_pos (decide_eq_true hrel)

/-- A call that writes no annotation of a name leaves what is stored of it. -/
theorem storedBy_frame {name : Annotation} {e : OpEvent}
    (h : ∀ value, e.call ≠ .command (.annotate name value)) :
    storedBy a (es ++ [e]) name = storedBy a es name := by
  rw [storedBy, List.foldl_append]
  show storedStep _ e _ = _
  unfold storedStep
  split
  · rename_i name' value _
    refine Function.update_of_ne (fun hname => ?_) _ _
    exact h value (by rw [hname])
  · rfl

theorem storedBy_neutral {e : OpEvent} (h : Neutral e.call) :
    storedBy a (es ++ [e]) .provisioning = storedBy a es .provisioning :=
  storedBy_frame fun value hcall => by
    rw [hcall] at h
    exact h

/-- A gate stays closed until a call opens it. -/
theorem gateOf_kept {tr rest : List OpEvent} (hw : Waits (tr ++ es ++ rest))
    (hg : gateOf tr = some prov) (hes : ∀ e ∈ es, ¬ Releases prov.fromReplicas prov.targetReplicas e) :
    gateOf (tr ++ es) = some prov := by
  induction es generalizing tr with
  | nil => rwa [List.append_nil]
  | cons e es ih =>
    have hmarker : NotMarker e.call := by
      unfold NotMarker
      split
      · rename_i prov' hc
        obtain ⟨c, r⟩ := e
        obtain rfl : c = _ := hc
        have := hw tr prov' r (es ++ rest) (List.append_assoc _ _ _)
        rw [hg] at this
        cases this
      · trivial
    rw [List.append_cons] at hw ⊢
    refine ih hw ?_ fun e' he' => hes e' (List.mem_cons_of_mem _ he')
    rw [gateOf_concat, hg]
    exact gateStep_kept hmarker (hes e List.mem_cons_self)

/-- Between two scale-ups the gate opens. -/
theorem Waits.released {prov prov' : Provisioning} {es₁ es₂ es₃ : List OpEvent}
    (hw : Waits (es₁ ++ es₂ ++ es₃)) (h₁ : ScalesUpTo prov es₁) (h₂ : ScalesUpTo prov' es₂) :
    ∃ e ∈ es₂, Releases prov.fromReplicas prov.targetReplicas e := by
  obtain ⟨es₁, r, r', rfl⟩ := h₁
  obtain ⟨es₂, q, q', rfl⟩ := h₂
  by_contra hnone
  have hgate : gateOf (es₁ ++ [⟨.command (.annotate .provisioning (.marker prov)), r⟩,
      ⟨.command (.patchReplicas prov.targetReplicas), r'⟩]) = some prov := by
    rw [List.append_cons, gateOf_concat, gateOf_concat]
    exact gateStep_kept trivial id
  rw [← List.append_assoc (es₁ ++ _), List.append_assoc] at hw
  have hkept := gateOf_kept hw hgate fun e he hrel => hnone ⟨e, List.mem_append_left _ he, hrel⟩
  have hopen := hw _ prov' q _ rfl
  rw [hkept] at hopen
  cases hopen

/-! ## The programs -/

/-- What holds at each call: the annotation is as it should be, and no scale-up
starts while the gate is closed. -/
def GateGuard (a : Annotation → AnnotationValue) (es : List OpEvent) (c : Call) : Prop :=
  Marked a es ∧
    ∀ prov, c = .command (.annotate .provisioning (.marker prov)) → gateOf es = none

theorem marked_of_open (h : gateOf es = none) : Marked a es := by
  intro prov hprov
  rw [h] at hprov
  cases hprov

theorem gated_of_open (h : gateOf s.trace = none) : Gated a s := by
  refine ⟨marked_of_open h, fun prov hprov => ?_⟩
  rw [h] at hprov
  cases hprov

/-- With the gate open it stays so without a marker. -/
theorem open_ensures {α : Type} {q : Op α} (ho : q.Only NotMarker) (hg : gateOf s.trace = none)
    {R : Except Exc α → OpState → Prop} (hR : ∀ r s', gateOf s'.trace = none → R r s') :
    Ensures (GateGuard a) env q s R := by
  refine .of_frame (f := fun _ => ()) ho (fun _ _ => rfl) (fun es => gateOf es = none) hg ?_ ?_
    fun r s' _ hs' => hR r s' hs'
  · intro es e he hes
    rw [gateOf_concat, hes]
    exact gateStep_none he
  · exact fun es c _ hes => ⟨marked_of_open hes, fun _ _ => hes⟩

theorem Marked.concat (hes : Marked a es) {e : OpEvent} (he : Neutral e.call) :
    Marked a (es ++ [e]) := by
  intro prov hg
  rw [gateOf_concat] at hg
  rw [storedBy_neutral he]
  exact hes prov (gateStep_notMarker he.notMarker hg).1

theorem Gated.concat (hs : Gated a s) {e : OpEvent} (he : Neutral e.call) :
    Gated a ⟨s.mem, s.trace ++ [e]⟩ := by
  refine ⟨hs.1.concat he, fun prov hg => ?_⟩
  rw [gateOf_concat] at hg
  exact hs.2 prov (gateStep_notMarker he.notMarker hg).1

theorem Gated.guard (hs : Gated a s) {c : Call} (hc : Neutral c) : GateGuard a s.trace c := by
  refine ⟨hs.1, fun prov hp => ?_⟩
  rw [hp] at hc
  exact hc.elim

/-- Calls that do not touch the annotation, nor the record. -/
theorem neutral_ensures {α : Type} {q : Op α} (ho : q.Only Neutral)
    (hf : q.Frames Memory.provisioning) (hs : Gated a s) {R : Except Exc α → OpState → Prop}
    (hR : ∀ r s', Gated a s' → R r s') : Ensures (GateGuard a) env q s R := by
  refine .of_frame ho hf (fun es => Gated a ⟨s.mem, es⟩) hs (fun es e he hes => hes.concat he)
    (fun es c hc hes => hes.guard hc) fun r s' hmem hs' => hR r s' ⟨hs'.1, fun prov hg => ?_⟩
  rw [hmem]
  exact hs'.2 prov hg

theorem traceSpan_neutral : (traceSpan cfg).Only Neutral :=
  .ite (fun _ => Prog.Only.perform.mpr trivial) fun _ => .pure _

theorem Quiet.notMarker {c : Call} (h : Quiet c) : NotMarker c := by
  unfold NotMarker
  split
  · exact h
  · trivial

/-- The marks of a rollback open the gate. -/
theorem provisioningTimeout_gated (hs : Gated a s) (hprov : s.mem.provisioning = some prov) :
    Ensures (GateGuard a) env (provisioningTimeout cfg prov) s fun _ s' => Gated a s' := by
  refine Ensures.bind_iff.mpr (.forM (fun xs s₁ => Gated a s₁ ∧ s₁.mem = s.mem ∧
    (gateOf s₁.trace = some prov → xs = range prov.fromReplicas prov.targetReplicas))
    ⟨hs, rfl, fun _ => rfl⟩ (fun x xs s₁ ⟨hs₁, hmem, hmarks⟩ => ?_) fun s₁ ⟨hs₁, hmem, hmarks⟩ => ?_)
  · refine Ensures.attempt_iff.mpr ⟨hs₁.guard trivial, hs₁.concat trivial, hmem, fun hg => ?_⟩
    rw [gateOf_concat] at hg
    obtain ⟨hg, hrel⟩ := gateStep_notMarker (by trivial) hg
    refine (hrel ⟨rfl, ?_⟩).elim
    rw [← hmarks hg]
    exact List.mem_cons_self
  have hopen : gateOf s₁.trace = none := by
    cases hg : gateOf s₁.trace with
    | none => rfl
    | some prov' =>
      have hrecord := hs₁.2 prov' hg
      rw [hmem, hprov] at hrecord
      obtain rfl := Option.some.inj hrecord
      have hlt := (hs₁.1 prov hg).2.2
      have hfrom : prov.fromReplicas ∈ range prov.fromReplicas prov.targetReplicas :=
        mem_range.mpr ⟨le_refl _, hlt⟩
      rw [← hmarks hg] at hfrom
      exact absurd hfrom List.not_mem_nil
  refine open_ensures ?_ hopen fun _ _ => gated_of_open
  exact .bind (Prog.Only.perform.mpr trivial) fun _ => .bind (Prog.Only.perform.mpr trivial)
    fun _ => .bind (.modify _) fun _ => .bind (Prog.Only.attempt.mpr trivial) fun _ =>
    .bind (Prog.Only.attempt.mpr trivial) fun _ => Prog.Only.attempt.mpr trivial

/-- With the gate closed, not all pods are ready. -/
theorem provisioningPhase_gated {ready : Int} (hs : Gated a s)
    (hready : ∀ prov, gateOf s.trace = some prov → ready < prov.targetReplicas) :
    Ensures (GateGuard a) env (provisioningPhase cfg ready) s fun _ s' => Gated a s' := by
  refine Ensures.bind_iff.mpr (Ensures.get_iff.mpr ?_)
  cases hprov : s.mem.provisioning with
  | none =>
    simp only [hprov]
    exact Ensures.pure_iff.mpr hs
  | some prov =>
  simp only [hprov]
  split
  · have hopen : gateOf s.trace = none := by
      cases hg : gateOf s.trace with
      | none => rfl
      | some prov' =>
        obtain rfl : prov = prov' := Option.some.inj (hprov.symm.trans (hs.2 prov' hg))
        have := hready prov hg
        omega
    exact open_ensures ((provisioningReady_quiet prov).mono fun _ => Quiet.notMarker) hopen fun _ _ => gated_of_open
  split
  swap
  · exact Ensures.pure_iff.mpr hs
  refine Ensures.bind_iff.mpr (Ensures.perform_iff.mpr ⟨hs.guard trivial, ?_⟩)
  have hs₁ : ∀ r, Gated a ⟨s.mem, s.trace ++ [⟨.time, r⟩]⟩ := fun r => hs.concat trivial
  cases env s.trace.length .time with
  | error e => exact hs₁ _
  | ok t =>
    dsimp only
    split
    · exact provisioningTimeout_gated (hs₁ _) hprov
    · exact Ensures.pure_iff.mpr (hs₁ _)

/-- What a scale-down calls. -/
def ScalesDown : Call → Prop
  | .time => True
  | .command (.drain _) => True
  | .command (.future _ reason) => reason = "operator-scale-down"
  | .command (.patchReplicas _) => True
  | .command (.annotate name _) => name = .lastScaleAction
  | c => Reaps c

theorem Reaps.scalesDown {c : Call} (h : Reaps c) : ScalesDown c := by
  cases c with
  | command c => cases c <;> first | exact h | exact h.elim
  | time => trivial
  | _ => exact h

theorem ScalesDown.neutral {c : Call} (h : ScalesDown c) : Neutral c := by
  unfold Neutral
  split
  · cases h
  · trivial

theorem drainThenScale_calls : (drainThenScale p st d).Only ScalesDown := by
  refine .bind .get fun m => .bind (.modify _) fun _ => .bind (Prog.Only.perform.mpr trivial)
    fun nowTs => .bind (.forM fun node _ => .bind (Prog.Only.attempt.mpr trivial) fun _ =>
      .modify _) fun _ => .bind (.modify _) fun _ => .bind .get fun m' =>
    .bind (forceKillExpired_reaps.mono fun _ => Reaps.scalesDown) fun killed =>
    .bind (allIdle_reaps.mono fun _ => Reaps.scalesDown) fun allIdle => .ite (fun _ => ?_)
      fun _ => .pure _
  exact .bind (Prog.Only.perform.mpr trivial) fun _ =>
    .bind (.forM fun _ _ => Prog.Only.attempt.mpr rfl) fun _ => .bind (.modify _) fun _ =>
    Prog.Only.attempt.mpr rfl

theorem drainThenScale_neutral : (drainThenScale p st d).Only Neutral :=
  drainThenScale_calls.mono fun _ => ScalesDown.neutral

/-- A scale-up with the gate open closes it. -/
theorem doScaleUp_gated (hopen : gateOf s.trace = none) (hnow : 0 < now)
    (hlt : st.currentReplicas < d.targetReplicas)
    (hwrites : ∀ n name value, env n (.command (.annotate name value)) = .ok ()) :
    Ensures (GateGuard a) env (doScaleUp cfg st d now) s fun _ s' => Gated a s' := by
  refine Ensures.bind_iff.mpr (Ensures.get_iff.mpr (Ensures.bind_iff.mpr
    (Ensures.modify_iff.mpr (Ensures.bind_iff.mpr (open_ensures ?_ ?_ fun r s₁ hopen => ?_)))))
  · exact .forM fun _ _ => Prog.Only.attempt.mpr trivial
  · exact hopen
  cases r with
  | error e => exact gated_of_open hopen
  | ok _ =>
  refine Ensures.bind_iff.mpr (open_ensures (traceSpan_neutral.mono fun _ => Neutral.notMarker)
    hopen fun r s₂ hopen => ?_)
  cases r with
  | error e => exact gated_of_open hopen
  | ok _ =>
  refine Ensures.bind_iff.mpr (Ensures.perform_iff.mpr ⟨⟨marked_of_open hopen, fun _ _ => hopen⟩, ?_⟩)
  rw [hwrites]
  refine Ensures.bind_iff.mpr (Ensures.modify_iff.mpr ?_)
  set prov : Provisioning := ⟨now, st.currentReplicas, d.targetReplicas⟩ with hprov
  have hs₃ : Gated a ⟨{ s₂.mem with provisioning := some prov }, s₂.trace ++
      [⟨.command (.annotate .provisioning (.marker prov)), .ok ()⟩]⟩ := by
    have hgate : gateOf (s₂.trace ++ [⟨.command (.annotate .provisioning (.marker prov)),
        .ok ()⟩]) = some prov := gateOf_concat _ _
    refine ⟨fun prov' hg => ?_, fun prov' hg => ?_⟩
    · obtain rfl : prov = prov' := Option.some.inj (hgate.symm.trans hg)
      refine ⟨?_, hnow, hlt⟩
      rw [storedBy, List.foldl_append, List.foldl_cons, List.foldl_nil, storedStep,
        Function.update_self]
    · exact hgate.symm.trans hg
  refine neutral_ensures ?_ ?_ hs₃ fun _ _ => id
  · exact .bind (Prog.Only.perform.mpr trivial) fun _ => .bind (.modify _) fun _ =>
      .tryCatch (.bind (Prog.Only.perform.mpr trivial) fun _ =>
        .bind (Prog.Only.perform.mpr trivial) fun _ => Prog.Only.perform.mpr trivial)
        fun _ => .pure _
  · exact .bind (.perform _) fun _ => .bind (.modify fun _ => rfl) fun _ =>
      .tryCatch (.bind (.perform _) fun _ => .bind (.perform _) fun _ => .perform _)
        fun _ => .pure _

theorem dispatch_gated (hs : Gated a s) (hnow : 0 < now)
    (hup : d.action = .scaleUp → st.currentReplicas < d.targetReplicas)
    (hwrites : ∀ n name value, env n (.command (.annotate name value)) = .ok ()) :
    Ensures (GateGuard a) env (dispatch cfg p st d now elapsed) s fun _ s' => Gated a s' := by
  refine Ensures.bind_iff.mpr (Ensures.get_iff.mpr ?_)
  cases hact : d.action with
  | keep => exact Ensures.pure_iff.mpr hs
  | scaleDown =>
    simp only [doScaleDown]
    split
    · exact Ensures.pure_iff.mpr hs
    split
    · exact Ensures.pure_iff.mpr hs
    exact neutral_ensures drainThenScale_neutral
      (drainThenScale_frames (fun _ _ _ _ => rfl) p st d) hs fun _ _ => id
  | scaleUp =>
    simp only
    split
    · exact Ensures.pure_iff.mpr hs
    split
    · exact Ensures.pure_iff.mpr hs
    rename_i hnone
    have hopen : gateOf s.trace = none := by
      cases hg : gateOf s.trace with
      | none => rfl
      | some prov => exact absurd (by rw [hs.2 prov hg]; rfl) hnone
    refine Ensures.bind_iff.mpr (open_ensures
      ((clearRetry_quiet _).mono fun _ => Quiet.notMarker) hopen fun r s₁ hopen => ?_)
    cases r with
    | error e => exact gated_of_open hopen
    | ok _ => exact doScaleUp_gated hopen hnow (hup hact) hwrites

/-- A reconcile keeps the gate. -/
theorem processPool_gated (hs : Gated a s)
    (hwrites : ∀ n name value, env n (.command (.annotate name value)) = .ok ())
    (hclock : ∀ n t, env n .time = .ok t → 0 < t) :
    Ensures (GateGuard a) env (processPool cfg p st) s fun _ s' => Gated a s' := by
  suffices hbody : Ensures (GateGuard a) env (processPoolBody cfg p st) s fun _ s' =>
      Gated a s' by
    refine Ensures.tryCatch_iff.mpr (hbody.mono fun r s' hs' => ?_)
    cases r with
    | ok _ => exact hs'
    | error e => exact Ensures.pure_iff.mpr hs'
  have hread : Ensures (GateGuard a) env K8sClient.getReadyReplicas s fun r s' => Gated a s' ∧
      ∀ ready, r = .ok ready → ∀ prov, gateOf s'.trace = some prov → ready < prov.targetReplicas := by
    refine Ensures.tryCatch_iff.mpr (Ensures.bind_iff.mpr (Ensures.perform_iff.mpr
      ⟨hs.guard trivial, ?_⟩))
    have hgated : ∀ r, Gated a ⟨s.mem, s.trace ++ [⟨.readStatefulSet, r⟩]⟩ := fun r =>
      hs.concat trivial
    have hlow : ∀ r ready prov, readyReplicas r = .ok ready →
        gateOf (s.trace ++ [⟨.readStatefulSet, r⟩]) = some prov → ready < prov.targetReplicas := by
      intro r ready prov hr hg
      rw [gateOf_concat] at hg
      have hrel := (gateStep_notMarker (by trivial) hg).2
      simp only [Releases, hr, not_le] at hrel
      exact hrel
    rcases env s.trace.length .readStatefulSet with (_ | _) | sts
    · refine Ensures.pure_iff.mpr ⟨hgated _, fun ready hr prov hg => hlow _ ready prov ?_ hg⟩
      exact hr
    · exact ⟨trivial, hgated _, nofun⟩
    · refine Ensures.pure_iff.mpr ⟨hgated _, fun ready hr prov hg => hlow _ ready prov ?_ hg⟩
      exact hr
  refine Ensures.bind_iff.mpr (hread.mono fun r s₁ ⟨hs₁, hlow⟩ => ?_)
  cases r with
  | error e => exact hs₁
  | ok ready =>
  refine Ensures.bind_iff.mpr ((provisioningPhase_gated hs₁ (hlow ready rfl)).mono
    fun r s₂ hs₂ => ?_)
  cases r with
  | error e => exact hs₂
  | ok _ =>
  refine Ensures.bind_iff.mpr (neutral_ensures (checkpointPhase_reads.mono fun _ => Read.neutral)
    (checkpointPhase_frames fun _ _ => rfl) hs₂ fun r s₃ hs₃ => ?_)
  cases r with
  | error e => exact hs₃
  | ok a =>
  refine Ensures.bind_iff.mpr (Ensures.perform_iff.mpr ⟨hs₃.guard trivial, ?_⟩)
  have hs₄ := fun r => hs₃.concat (e := ⟨.time, r⟩) trivial
  cases hnow : env s₃.trace.length .time with
  | error e => exact hs₄ _
  | ok now =>
  refine Ensures.bind_iff.mpr (Ensures.get_iff.mpr (Ensures.bind_iff.mpr
    (neutral_ensures traceSpan_neutral traceSpan_frames (hs₄ _) fun r s₅ hs₅ => ?_)))
  cases r with
  | error e => exact hs₅
  | ok _ =>
  refine dispatch_gated hs₅ (hclock _ _ hnow) (fun hup => ?_) hwrites
  rw [evaluate_target (by rw [hup]; decide)]
  exact (evaluate_scaleUp_iff _ _ _ _ _).mp hup

/-! ## A new process -/

theorem getAnnotation_reads {name : Annotation} : (K8sClient.getAnnotation name).Only Read :=
  .tryCatch (Prog.Only.perform.mpr trivial) fun e => by cases e <;> trivial

theorem getAnnotation_frames {τ : Type} {f : Memory → τ} {name : Annotation} :
    (K8sClient.getAnnotation name).Frames f :=
  .tryCatch (.perform _) fun e => by
    cases e
    · exact .pure _
    · exact .throw _

theorem restoreLastScaleAction_reads : restoreLastScaleAction.Only Read := by
  refine .tryCatch (.bind getAnnotation_reads fun raw => .bind (.ite (fun _ => getAnnotation_reads)
    fun _ => .pure _) fun raw => ?_) fun _ => .modify _
  split
  · exact .modify _
  · exact .throw _

theorem restoreLastScaleAction_neutral : restoreLastScaleAction.Only Neutral :=
  restoreLastScaleAction_reads.mono fun _ => Read.neutral

theorem restoreProvisioning_notMarker : restoreProvisioning.Only NotMarker := by
  refine .tryCatch (.bind (getAnnotation_reads.mono fun _ h => h.neutral.notMarker) fun v => ?_)
    fun _ => Prog.Only.attempt.mpr trivial
  split
  · exact .pure _
  · exact .ite (fun _ => .modify _) fun _ => Prog.Only.perform.mpr trivial
  · exact .throw _

theorem restoreProvisioningRetry_neutral : restoreProvisioningRetry.Only Neutral ∧
    restoreProvisioningRetry.Frames Memory.provisioning := by
  constructor
  · refine .bind (getAnnotation_reads.mono fun _ => Read.neutral) fun raw => ?_
    split
    · exact .modify _
    · exact .bind (Prog.Only.perform.mpr trivial) fun _ => .ite (fun _ => .modify _) fun _ =>
        .ite (fun _ => Prog.Only.perform.mpr trivial) fun _ => .pure _
  · refine .bind getAnnotation_frames fun raw => ?_
    split
    · exact .modify fun _ => rfl
    · exact .bind (.perform _) fun _ => .ite (.modify fun _ => rfl) (.ite (.perform _) (.pure _))

/-- The record is taken over from its annotation. -/
theorem restoreProvisioning_gated (hs : Marked a s.trace)
    (hread : env s.trace.length (.readAnnotationText .provisioning) =
      .ok (storedBy a s.trace .provisioning)) :
    Ensures (GateGuard a) env restoreProvisioning s fun _ s' => Gated a s' := by
  cases hg : gateOf s.trace with
  | none => exact open_ensures restoreProvisioning_notMarker hg fun _ _ => gated_of_open
  | some prov =>
  obtain ⟨hstored, hpos, hlt⟩ := hs prov hg
  rw [hstored] at hread
  refine Ensures.tryCatch_iff.mpr (Ensures.bind_iff.mpr (Ensures.tryCatch_iff.mpr
    (Ensures.perform_iff.mpr ⟨⟨hs, fun _ => nofun⟩, ?_⟩)))
  rw [hread]
  show Ensures (GateGuard a) env (if prov.startedAt > 0 ∧ prov.targetReplicas > prov.fromReplicas
    then _ else _) _ _
  rw [if_pos ⟨hpos, hlt⟩]
  refine Ensures.modify_iff.mpr ⟨hs.concat trivial, fun prov' hg' => ?_⟩
  rw [gateOf_concat] at hg'
  exact hg.symm.trans (gateStep_notMarker (by trivial) hg').1

theorem initPool_gated (hs : Marked a s.trace)
    (hreads : ∀ n name, env n (.readAnnotationText name) = .ok (storedBy a s.trace name)) :
    Ensures (GateGuard a) env initPool s fun r s' => Marked a s'.trace ∧
      (r = .ok () → Gated a s') := by
  refine Ensures.bind_iff.mpr (.of_frame (f := fun _ => ()) restoreLastScaleAction_neutral
    (fun _ _ => rfl) (fun es => Marked a es ∧
      storedBy a es .provisioning = storedBy a s.trace .provisioning) ⟨hs, rfl⟩ ?_ ?_ ?_)
  · exact fun es e he ⟨hes, hstored⟩ => ⟨hes.concat he, (storedBy_neutral he).trans hstored⟩
  · refine fun es c hc hes => ⟨hes.1, fun prov hp => ?_⟩
    rw [hp] at hc
    exact hc.elim
  rintro r s₁ - ⟨hs₁, hstored⟩
  cases r with
  | error e => exact ⟨hs₁, nofun⟩
  | ok _ =>
  have hread : env s₁.trace.length (.readAnnotationText .provisioning) =
      .ok (storedBy a s₁.trace .provisioning) := by
    rw [hreads, hstored]
  refine Ensures.bind_iff.mpr ((restoreProvisioning_gated hs₁ hread).mono fun r s₂ hs₂ => ?_)
  cases r with
  | error e => exact ⟨hs₂.1, nofun⟩
  | ok _ =>
    exact neutral_ensures restoreProvisioningRetry_neutral.1 restoreProvisioningRetry_neutral.2
      hs₂ fun r s₃ hs₃ => ⟨hs₃.1, fun _ => hs₃⟩

/-! ## Runs -/

/-- What every turn keeps. -/
structure Deployment.Ok (a : Annotation → AnnotationValue) (w : Deployment) : Prop where
  waits : Waits w.events
  marked : Marked a w.events
  gated : ∀ m, w.mem = some m → Gated a ⟨m, w.events⟩

theorem waits_iff : Waits es ↔ Prog.AllCalls (fun es₁ (c : Call) =>
    ∀ prov, c = .command (.annotate .provisioning (.marker prov)) → gateOf es₁ = none) es := by
  constructor
  · intro h es₁ e es₂ heq prov hprov
    obtain ⟨c, r⟩ := e
    obtain rfl : c = _ := hprov
    exact h es₁ prov r es₂ heq
  · exact fun h es₁ prov r es₂ heq => h es₁ _ es₂ heq prov rfl

/-- Wherever a program is cut short. -/
theorem take_ok {α : Type} {q : Op α} {R : Except Exc α → OpState → Prop}
    (hq : Ensures (GateGuard a) env q s R) (hR : ∀ r s', R r s' → Marked a s'.trace)
    (hs : Waits s.trace) (n : Nat) :
    Waits ((q.run env s).2.trace.take (s.trace.length + n)) ∧
      Marked a ((q.run env s).2.trace.take (s.trace.length + n)) := by
  constructor
  · have hcalls := (hq.1.mono fun _ _ h => h.2).allCalls (waits_iff.mp hs)
    exact waits_iff.mpr (hcalls.take _)
  · rcases hq.1.take n with ⟨c, hc⟩ | hall
    · exact hc.1
    · rw [hall]
      exact hR _ _ hq.2

theorem step_ok {w : Deployment} {x : Turn} (hw : w.Ok a) (hx : Served a w x) :
    (w.step cfg p x).Ok a := by
  have hprog : Ensures (GateGuard a) x.env (w.prog cfg p x) ⟨w.mem.getD {}, w.events⟩
      fun r s' => Marked a s'.trace ∧ (r = .ok () → Gated a s') := by
    unfold Deployment.prog
    cases hm : w.mem with
    | none => exact initPool_gated hw.marked hx.reads
    | some m =>
      exact (processPool_gated (hw.gated m hm) hx.writes hx.clock).mono
        fun r s' hs' => ⟨hs'.1, fun _ => hs'⟩
  have htake := take_ok hprog (fun _ _ h => h.1) hw.waits
  have hend := htake ((w.prog cfg p x).calls x.env ⟨w.mem.getD {}, w.events⟩).length
  rw [Prog.trace_eq, List.take_length_add_append, List.take_length, ← Prog.trace_eq] at hend
  have hgated := hprog.2.2
  unfold Deployment.step
  generalize (w.prog cfg p x).run x.env ⟨w.mem.getD {}, w.events⟩ = rs at *
  obtain ⟨r, s⟩ := rs
  cases x.crash with
  | some n =>
    refine ⟨(htake n).1, (htake n).2, fun m hm => ?_⟩
    cases hm
  | none =>
    cases r with
    | error e =>
      refine ⟨hend.1, hend.2, fun m hm => ?_⟩
      cases hm
    | ok _ =>
      refine ⟨hend.1, hend.2, fun m hm => ?_⟩
      obtain rfl : s.mem = m := Option.some.inj hm
      exact hgated rfl

end Kelpflux.Proof.Operator
