import Kelpflux.Proof.Operator.ScaleUps
import Mathlib.Order.Monotone.Basic
import Mathlib.Tactic.Linarith

/-!
# What a rollback owes

A rollback patches the replicas back and owes the pool a back-off (`due`). While
it is owed, the annotations keep what a new process needs for it (`Kept`), and
the memory of a running one has it (`Waiting`): the retry time, or the marker of
the scale-up that was rolled back, whose time is over, so that it is rolled back
again. Only between the clearing of the marker and the writing of the retry time
there is neither (`InWindow`). Here is what calls that are none of these keep.
-/

namespace Kelpflux.Proof.Backoff

open Framework Kelpflux.Impl.Operator Kelpflux.Proof.Operator

/-- A patch that was made. -/
def Patched : OpEvent → Prop
  | ⟨.command (.patchReplicas _), .ok _⟩ => True
  | _ => False

instance : DecidablePred Patched := fun e => by
  unfold Patched
  split <;> infer_instance

/-- The last two of the calls `es` are those of a rollback: a mark, and the patch
that was made. -/
def RollsBack (es : List OpEvent) : Prop :=
  ∃ es₀ i r n, es = es₀ ++ [⟨.command (.future i "provisioning-timeout"), r⟩,
    ⟨.command (.patchReplicas n), .ok ()⟩]

/-- The mark of an ordinal that is rolled back. -/
def IsMark (e : OpEvent) : Prop := (markedOrdinal e.call).isSome

instance : DecidablePred IsMark := fun _ => inferInstanceAs (Decidable (_ = _))

section Clock

-- the time of each call
variable (clock : ℕ → ℚ) (cfg : Config)

/-- What is owed: the number of calls so far, whether the last is a mark, and the
end of the last rollback's back-off. -/
structure Debt where
  calls : ℕ := 0
  marked : Bool := false
  due : Option ℚ := none

def debtStep (d : Debt) (e : OpEvent) : Debt where
  calls := d.calls + 1
  marked := IsMark e
  due := if d.marked ∧ Patched e then some (clock d.calls + cfg.provisioningRetrySeconds) else d.due

def debt (es : List OpEvent) : Debt := es.foldl (debtStep clock cfg) {}

def due (es : List OpEvent) : Option ℚ := (debt clock cfg es).due

/-- A back-off is not over. -/
def Owed (es : List OpEvent) : Prop := ∃ t, due clock cfg es = some t ∧ clock es.length < t

/-- The annotation holds the marker of a scale-up whose time is over. -/
def TimedOut (a : Annotation → AnnotationValue) (prov : Provisioning) (es : List OpEvent) : Prop :=
  storedBy a es .provisioning = .marker prov ∧ 0 < prov.startedAt ∧
    prov.fromReplicas < prov.targetReplicas ∧ 0 < cfg.provisioningTimeoutSeconds ∧
    cfg.provisioningTimeoutSeconds ≤ clock es.length - prov.startedAt

/-- The annotations hold the time until which no scale-up is issued. -/
def HoldsRetry (a : Annotation → AnnotationValue) (retryAt : ℚ) (es : List OpEvent) : Prop :=
  storedBy a es .provisioningRetry = .time retryAt ∧ storedBy a es .provisioning = .cleared

/-- A back-off until `t` is covered by the retry time. -/
def Held (a : Annotation → AnnotationValue) (t retryAt : ℚ) (es : List OpEvent) : Prop :=
  due clock cfg es = some t ∧ HoldsRetry a retryAt es

/-- What a new process needs is kept while a back-off is owed. -/
def Kept (a : Annotation → AnnotationValue) (es : List OpEvent) : Prop :=
  ∀ t, due clock cfg es = some t → clock es.length < t →
    (∃ retryAt, t ≤ retryAt ∧ HoldsRetry a retryAt es) ∨ ∃ prov, TimedOut clock cfg a prov es

/-- And the operator's memory has it. -/
def Waiting (a : Annotation → AnnotationValue) (s : OpState) : Prop :=
  ∀ t, due clock cfg s.trace = some t → clock s.trace.length < t →
    (∃ retryAt, t ≤ retryAt ∧ HoldsRetry a retryAt s.trace ∧
      s.mem.provisioningRetryAt = some retryAt ∧ s.mem.provisioning = none) ∨
    ∃ prov, TimedOut clock cfg a prov s.trace ∧ s.mem.provisioning = some prov

/-- A rollback has cleared the marker, and not yet written the retry time. -/
def InWindow (es : List OpEvent) : Prop :=
  ∃ es₀ n t rest, es = es₀ ++ ⟨.command (.patchReplicas n), .ok ()⟩ :: ⟨.time, .ok t⟩ ::
    ⟨.command (.annotate .provisioning .cleared), .ok ()⟩ :: rest ∧
    (rest = [] ∨ ∃ v, rest = [⟨.command (.annotate .lastScaleAction v), .ok ()⟩])

end Clock

variable {clock : ℕ → ℚ} {a : Annotation → AnnotationValue} {cfg : Config} {p : PartitionConfig}
  {st : PartitionState} {d : ScalingDecision} {env : OpEnv} {s : OpState} {prov : Provisioning}
  {es : List OpEvent} {now elapsed t : ℚ}

/-! ## What is owed -/

theorem debt_concat (es : List OpEvent) (e : OpEvent) :
    debt clock cfg (es ++ [e]) = debtStep clock cfg (debt clock cfg es) e := by
  simp [debt]

theorem debt_calls (es : List OpEvent) : (debt clock cfg es).calls = es.length := by
  induction es using List.reverseRecOn with
  | nil => rfl
  | append_singleton es e ih =>
    rw [debt_concat, List.length_append, ← ih]
    rfl

theorem due_concat (es : List OpEvent) (e : OpEvent) :
    due clock cfg (es ++ [e]) =
      if (debt clock cfg es).marked ∧ Patched e then
        some (clock es.length + cfg.provisioningRetrySeconds) else due clock cfg es := by
  unfold due
  rw [debt_concat, debtStep, debt_calls]

theorem marked_concat (es : List OpEvent) (e : OpEvent) :
    (debt clock cfg (es ++ [e])).marked = decide (IsMark e) := by
  rw [debt_concat]
  rfl

/-- A back-off ends no later than one that started now. -/
theorem due_le (hmono : Monotone clock) (h : due clock cfg es = some t) :
    t ≤ clock es.length + cfg.provisioningRetrySeconds := by
  induction es using List.reverseRecOn with
  | nil => cases h
  | append_singleton es e ih =>
    have hlater : clock es.length ≤ clock (es ++ [e]).length := hmono (by simp)
    rw [due_concat] at h
    split at h
    · obtain rfl := Option.some.inj h
      linarith
    · have := ih h
      linarith

/-- The end of a back-off is only put off. -/
theorem due_grows (hmono : Monotone clock) (h : due clock cfg es = some t) (es' : List OpEvent) :
    ∃ t', due clock cfg (es ++ es') = some t' ∧ t ≤ t' := by
  induction es' using List.reverseRecOn with
  | nil =>
    rw [List.append_nil]
    exact ⟨t, h, le_refl t⟩
  | append_singleton es' e ih =>
    obtain ⟨t', hdue, hle⟩ := ih
    rw [← List.append_assoc, due_concat]
    split
    · exact ⟨_, rfl, hle.trans (due_le hmono hdue)⟩
    · exact ⟨t', hdue, hle⟩

theorem RollsBack.due (h : RollsBack es) :
    due clock cfg es = some (clock (es.length - 1) + cfg.provisioningRetrySeconds) := by
  obtain ⟨es₀, i, r, n, rfl⟩ := h
  rw [List.append_cons, due_concat, if_pos]
  · simp
  · refine ⟨?_, trivial⟩
    rw [marked_concat]
    exact decide_eq_true rfl

/-! ## What calls keep -/

/-- Neither of the two annotations is touched. -/
def Aside : Call → Prop
  | .command (.annotate .provisioning _) => False
  | .command (.annotate .provisioningRetry _) => False
  | _ => True

/-- Not a mark of a rollback. -/
def NotMark : Call → Prop
  | .command (.future _ reason) => reason ≠ "provisioning-timeout"
  | _ => True

theorem Aside.neutral {c : Call} (h : Aside c) : Neutral c := by
  unfold Neutral
  split
  · exact h
  · trivial

theorem storedBy_retry {e : OpEvent} (h : Aside e.call) :
    storedBy a (es ++ [e]) .provisioningRetry = storedBy a es .provisioningRetry :=
  storedBy_frame fun value hcall => by
    rw [hcall] at h
    exact h

theorem storedBy_annotate {name : Annotation} {v : AnnotationValue} :
    storedBy a (es ++ [⟨.command (.annotate name v), .ok ()⟩]) =
      Function.update (storedBy a es) name v := by
  rw [storedBy, List.foldl_append]
  rfl

/-- A call that does not make a rollback owe anything. -/
def NotRollback (clock : ℕ → ℚ) (cfg : Config) (es : List OpEvent) (e : OpEvent) : Prop :=
  ¬ ((debt clock cfg es).marked ∧ Patched e)

theorem due_notRollback {e : OpEvent} (h : NotRollback clock cfg es e) :
    due clock cfg (es ++ [e]) = due clock cfg es := by
  rw [due_concat, if_neg h]

theorem notRollback_of_notPatch {e : OpEvent} (h : NotPatch e.call) :
    NotRollback clock cfg es e := by
  rintro ⟨-, hpatched⟩
  unfold Patched at hpatched
  split at hpatched
  · exact h
  · exact hpatched

theorem notRollback_of_unmarked {e : OpEvent} (h : (debt clock cfg es).marked = false) :
    NotRollback clock cfg es e := by
  rintro ⟨hmarked, -⟩
  rw [h] at hmarked
  cases hmarked

theorem unmarked_concat {e : OpEvent} (h : NotMark e.call) :
    (debt clock cfg (es ++ [e])).marked = false := by
  rw [marked_concat]
  apply decide_eq_false
  intro hmark
  unfold IsMark markedOrdinal at hmark
  split at hmark
  · rename_i hc
    rw [hc] at h
    split at hmark
    · rename_i hreason
      exact h hreason
    · cases hmark
  · cases hmark

theorem clock_concat (hmono : Monotone clock) (es : List OpEvent) (e : OpEvent) :
    clock es.length ≤ clock (es ++ [e]).length := hmono (by simp)

theorem over_concat (hmono : Monotone clock) {e : OpEvent} (he : NotRollback clock cfg es e)
    (h : ¬ Owed clock cfg es) : ¬ Owed clock cfg (es ++ [e]) := by
  rintro ⟨t, hdue, hlt⟩
  rw [due_notRollback he] at hdue
  exact h ⟨t, hdue, (clock_concat hmono es e).trans_lt hlt⟩

theorem TimedOut.concat (hmono : Monotone clock) {e : OpEvent} (he : Neutral e.call)
    (h : TimedOut clock cfg a prov es) : TimedOut clock cfg a prov (es ++ [e]) := by
  obtain ⟨hstored, hpos, hlt, htimeout, hover⟩ := h
  refine ⟨(storedBy_neutral he).trans hstored, hpos, hlt, htimeout, ?_⟩
  have := clock_concat hmono es e
  linarith

theorem HoldsRetry.concat {retryAt : ℚ} {e : OpEvent} (he : Aside e.call)
    (h : HoldsRetry a retryAt es) : HoldsRetry a retryAt (es ++ [e]) :=
  ⟨(storedBy_retry he).trans h.1, (storedBy_neutral he.neutral).trans h.2⟩

theorem kept_of_over (h : ¬ Owed clock cfg es) : Kept clock cfg a es :=
  fun t hdue hlt => absurd ⟨t, hdue, hlt⟩ h

theorem waiting_of_over (h : ¬ Owed clock cfg s.trace) : Waiting clock cfg a s :=
  fun t hdue hlt => absurd ⟨t, hdue, hlt⟩ h

theorem TimedOut.kept (h : TimedOut clock cfg a prov es) : Kept clock cfg a es :=
  fun _ _ _ => .inr ⟨prov, h⟩

theorem TimedOut.waiting (h : TimedOut clock cfg a prov s.trace)
    (hmem : s.mem.provisioning = some prov) : Waiting clock cfg a s :=
  fun _ _ _ => .inr ⟨prov, h, hmem⟩

theorem Waiting.kept (h : Waiting clock cfg a s) : Kept clock cfg a s.trace := by
  intro t hdue hlt
  rcases h t hdue hlt with ⟨retryAt, hle, hholds, -⟩ | ⟨prov, htimed, -⟩
  · exact .inl ⟨retryAt, hle, hholds⟩
  · exact .inr ⟨prov, htimed⟩

theorem Waiting.concat (hmono : Monotone clock) {e : OpEvent} (hs : Waiting clock cfg a s)
    (haside : Aside e.call) (he : NotRollback clock cfg s.trace e) :
    Waiting clock cfg a ⟨s.mem, s.trace ++ [e]⟩ := by
  intro t hdue hlt
  rw [due_notRollback he] at hdue
  rcases hs t hdue ((clock_concat hmono _ e).trans_lt hlt) with
    ⟨retryAt, hle, hholds, hmem⟩ | ⟨prov, htimed, hmem⟩
  · exact .inl ⟨retryAt, hle, hholds.concat haside, hmem⟩
  · exact .inr ⟨prov, htimed.concat hmono haside.neutral, hmem⟩

end Kelpflux.Proof.Backoff
