import Kelpflux.Impl.Scheduler.JobSubmit
import Kelpflux.Proof.Scheduler.Shadow

/-!
# The priority that the submit plugin leaves

Slurm keeps a priority in 32 bits, of which two values are sentinels. The plugin
adds the server's boost to whatever number the description carries, a sentinel
too. It leaves a sound priority just where the sum, the score's priority and the
demo's all stay below the sentinels (`BelowSentinels`): `priority_kept_iff`.
-/

namespace Kelpflux.Proof.Scheduler

open Framework Impl.Scheduler Impl.Scheduler.JobSubmit Impl.Scheduler.RlHook
  Impl.Scheduler.Serve

variable {F : Type}

/-- `NO_VAL`, which a job without a priority of its own carries. -/
def noVal : ℤ := 0xFFFFFFFE

/-- `INFINITE` -/
def infiniteVal : ℤ := 0xFFFFFFFF

/-- What a 32-bit field can hold. -/
def IsUInt32 (p : ℤ) : Prop := 0 ≤ p ∧ p < 2 ^ 32

/-- The priority after a submission, against the one before and the boost that
the server returned. -/
structure PriorityKept (before after boost : Option ℤ) : Prop where
  fits : ∀ p ∈ after, IsUInt32 p
  special : ∀ p ∈ after, p = noVal ∨ p = infiniteVal ∨ p = 0 → before = some p
  raised : ∀ b ∈ boost, 0 < b → ∀ q ∈ before, ∃ p ∈ after, q ≤ p % 2 ^ 32

namespace PriorityKept

variable {before boost : Option ℤ} {p : ℤ}

/-- A priority that stays as it is. -/
theorem same (h : IsUInt32 p) : PriorityKept (some p) (some p) boost where
  fits := by simpa using h
  special := by simp
  raised := by
    intro b _ _ q hq
    obtain rfl := Option.some.inj hq
    exact ⟨p, rfl, (Int.emod_eq_of_lt h.1 h.2).ge⟩

/-- A priority below the sentinels, which a boost raises. -/
theorem of_lt (hpos : 0 < p) (hlt : p < noVal) (hle : ∀ b ∈ boost, ∀ q ∈ before, q ≤ p) :
    PriorityKept before (some p) boost where
  fits := by
    intro p' hp
    obtain rfl := Option.some.inj hp
    unfold IsUInt32
    unfold noVal at hlt
    omega
  special := by
    intro p' hp hspecial
    obtain rfl := Option.some.inj hp
    unfold noVal infiniteVal at *
    omega
  raised := by
    intro b hb _ q hq
    unfold noVal at hlt
    refine ⟨p, rfl, ?_⟩
    rw [Int.emod_eq_of_lt (by omega) (by omega)]
    exact hle b hb q hq

theorem lt_noVal (h : PriorityKept before (some p) boost) (hne : before ≠ some p) : p < noVal := by
  have hfits := (h.fits p rfl).2
  by_contra hge
  refine hne (h.special p rfl ?_)
  unfold noVal infiniteVal at *
  omega

/-- No priority, where there was none. -/
theorem unset : PriorityKept none none boost where
  fits := nofun
  special := nofun
  raised := fun _ _ _ => nofun

end PriorityKept

/-! ## What the plugin does to the priority -/

/-- The boost of an answer that does not abstain. -/
def boostOf (resp : Option (DecideResponse F)) : Option ℤ :=
  resp.bind fun r => if r.abstain = false ∧ 0 < r.priorityBoost then some r.priorityBoost else none

/-- A description's priority, boosted unless it is held. -/
def boosted (priority : Option ℤ) : Option ℤ → Option ℤ
  | none => priority
  | some b => if priority = some 0 then some 0 else some (priority.getD 0 + b)

theorem boost_priority {jobDesc jobDesc' : RlHook.JobDesc}
    (h : jobDesc'.priority = jobDesc.priority) (b : ℤ) :
    (if b > 0 ∧ jobDesc'.priority ≠ some 0 then
        ({ jobDesc' with priority := some (jobDesc'.priority.getD 0 + b) }, true)
      else (jobDesc', false)).1.priority =
      boosted jobDesc.priority (if 0 < b then some b else none) := by
  rw [h]
  by_cases hb : 0 < b
  · rw [if_pos hb, boosted]
    by_cases hheld : jobDesc.priority = some 0
    · rw [if_neg fun hand => hand.2 hheld, if_pos hheld]
      exact h.trans hheld
    · rw [if_pos ⟨hb, hheld⟩, if_neg hheld]
  · rw [if_neg hb, if_neg fun hand => hb hand.1]
    exact h

theorem rlApply_priority {globals : Globals} {resp : Option (DecideResponse F)}
    {jobDesc : RlHook.JobDesc} (henabled : globals.rlEnabled = true) :
    (rlApply globals resp jobDesc).1.priority = boosted jobDesc.priority (boostOf resp) := by
  unfold rlApply rlCallDecide boostOf
  rw [if_pos henabled]
  cases resp with
  | none => rfl
  | some r =>
    have htraced := (traced_frame jobDesc r.otelTraceparent).1
    simp only [Option.map_some, Option.bind_some]
    cases habstain : r.abstain with
    | true => exact htraced
    | false =>
      simp only [Bool.false_eq_true, if_false, true_and]
      cases pinned globals ⟨r.priorityBoost, r.rlSelected, false, r.nodeJ, r.otelTraceparent⟩ with
      | none => exact boost_priority htraced _
      | some name =>
        have hpin : RlHook.JobDesc.priority
            { traced jobDesc r.otelTraceparent with reqNodes := some name } = jobDesc.priority :=
          htraced
        exact boost_priority hpin _

/-- The score's priority, for a job that has none. -/
def nudge (cfg : Config) (answers : Answers F) (jobDesc : JobSubmit.JobDesc) : Option ℤ :=
  let delta := scoreDelta cfg jobDesc answers.predScore
  if cfg.scoreApply = true ∧ 0 < delta then some delta else none

theorem nudge_pos {cfg : Config} {answers : Answers F} {jobDesc : JobSubmit.JobDesc} {p : ℤ}
    (h : nudge cfg answers jobDesc = some p) : 0 < p := by
  unfold nudge at h
  dsimp only at h
  split at h
  · rename_i hdelta
    obtain rfl := Option.some.inj h
    exact hdelta.2
  · cases h

theorem boostOf_pos {resp : Option (DecideResponse F)} {b : ℤ} (h : boostOf resp = some b) :
    0 < b := by
  obtain ⟨r, -, h⟩ := Option.bind_eq_some_iff.mp h
  split at h
  · rename_i hr
    obtain rfl := Option.some.inj h
    exact hr.2
  · cases h

theorem timeLimit_priority (cfg : Config) (jobDesc : JobSubmit.JobDesc) (pred : Option ℚ) :
    (maybeApplyPredictedTimeLimit cfg jobDesc pred).priority = jobDesc.priority := by
  unfold maybeApplyPredictedTimeLimit
  split
  · rfl
  · split
    · rfl
    · split
      · rfl
      · dsimp only
        split <;> rfl

theorem scored_priority (cfg : Config) (answers : Answers F) (jobDesc : JobSubmit.JobDesc) :
    (scored cfg answers jobDesc).priority = jobDesc.priority.or (nudge cfg answers jobDesc) := by
  unfold scored nudge
  dsimp only
  rw [timeLimit_priority]
  cases hprio : jobDesc.priority with
  | some p => simp [timeLimit_priority, hprio]
  | none =>
    simp only [Option.isNone_none, Bool.and_true, Bool.and_eq_true, decide_eq_true_eq,
      Option.none_or]
    split
    · rfl
    · rw [timeLimit_priority, hprio]

/-! ## Which priorities are kept -/

section Kept

variable {before nudged boost : Option ℤ} {p b : ℤ}

/-- Of a priority that the plugin writes for the one before. -/
theorem kept_overwritten_iff (hfield : ∀ q ∈ before, IsUInt32 q) (hpos : 0 < p) :
    PriorityKept before (some p) none ↔ p < noVal ∨ before = some p := by
  constructor
  · intro h
    by_cases hsame : before = some p
    · exact .inr hsame
    · exact .inl (h.lt_noVal hsame)
  · rintro (hlt | rfl)
    · exact .of_lt hpos hlt nofun
    · exact PriorityKept.same (hfield p rfl)

/-- Of the score's priority. -/
theorem kept_nudged_iff (hnudged : ∀ p ∈ nudged, 0 < p) :
    PriorityKept none (Option.or none nudged) boost ↔ ∀ p ∈ nudged, p < noVal := by
  rw [Option.none_or]
  cases nudged with
  | none => exact iff_of_true .unset nofun
  | some p =>
    constructor
    · intro h p' hp
      obtain rfl := Option.some.inj hp
      exact h.lt_noVal nofun
    · exact fun h => .of_lt (hnudged p rfl) (h p rfl) fun _ _ => nofun

/-- Of the boost of a priority that the job has. -/
theorem kept_boosted_iff (hp : IsUInt32 p) (hb : 0 < b) :
    PriorityKept (some p) (boosted (Option.or (some p) nudged) (some b)) boost ↔
      p = 0 ∨ p + b < noVal := by
  rw [boosted, Option.some_or, Option.getD_some]
  by_cases hheld : p = 0
  · subst hheld
    rw [if_pos rfl]
    exact iff_of_true (.same hp) (.inl rfl)
  · rw [if_neg fun h => hheld (Option.some.inj h)]
    refine Iff.trans ?_ (or_iff_right hheld).symm
    constructor
    · refine fun h => h.lt_noVal fun h => ?_
      have := Option.some.inj h
      omega
    · intro hlt
      refine .of_lt (by have := hp.1; omega) hlt fun _ _ q hq => ?_
      obtain rfl := Option.some.inj hq
      omega

/-- Of the boost of the score's priority. -/
theorem kept_nudged_boosted_iff (hnudged : ∀ p ∈ nudged, 0 < p) (hb : 0 < b) :
    PriorityKept none (boosted (Option.or none nudged) (some b)) boost ↔
      nudged.getD 0 + b < noVal := by
  have hnonneg : 0 ≤ nudged.getD 0 := by
    cases nudged with
    | none => exact le_rfl
    | some p => exact (hnudged p rfl).le
  have hheld : nudged ≠ some 0 := fun h => lt_irrefl _ (hnudged 0 h)
  rw [boosted, Option.none_or, if_neg hheld]
  exact ⟨fun h => h.lt_noVal nofun, fun hlt => .of_lt (by omega) hlt fun _ _ => nofun⟩

end Kept

section Submit

variable (cfg : Config) (globals : Globals) (answers : Answers F) (ofInt : ℤ → F) (now : F)
  (jobDesc : JobSubmit.JobDesc)

/-- The server's answer, where the plugin asks for one. -/
def answered : Option (DecideResponse F) :=
  if demoBoosted cfg jobDesc || !globals.rlEnabled then none
  else answers.server (rlBody ofInt now (scored cfg answers jobDesc))

/-- The priority that a submission leaves. -/
theorem submit_priority : (slurmJobSubmit cfg globals answers ofInt now jobDesc).priority =
    if demoBoosted cfg jobDesc then some cfg.demoBoostPriority
    else boosted (jobDesc.priority.or (nudge cfg answers jobDesc))
      (boostOf (answered cfg globals answers ofInt now jobDesc)) := by
  unfold slurmJobSubmit answered
  split
  · rfl
  · rename_i hdemo
    rw [← scored_priority]
    cases henabled : globals.rlEnabled with
    | true =>
      simp only [hdemo, Bool.or_self, Bool.not_true, Bool.false_eq_true, if_true, if_false]
      exact rlApply_priority henabled
    | false =>
      simp only [Bool.false_eq_true, if_false, Bool.not_false, Bool.or_true, if_true]
      rfl

/-- No number that the plugin writes reaches the sentinels: the demo's priority,
unless the job has it already, the score's for a job without one, and the sum of
the boost and what the job has. -/
def BelowSentinels : Prop :=
  if demoBoosted cfg jobDesc then
    cfg.demoBoostPriority < noVal ∨ jobDesc.priority = some cfg.demoBoostPriority
  else
    match boostOf (answered cfg globals answers ofInt now jobDesc), jobDesc.priority with
    | some b, some p => p = 0 ∨ p + b < noVal
    | some b, none => (nudge cfg answers jobDesc).getD 0 + b < noVal
    | none, some _ => True
    | none, none => ∀ p ∈ nudge cfg answers jobDesc, p < noVal

/-- A submission leaves a priority that a 32-bit field holds, that is no sentinel
and not 0 unless it was, and that no boost lowers, exactly when nothing that the
plugin writes reaches the sentinels. -/
theorem priority_kept_iff (hfield : ∀ p ∈ jobDesc.priority, IsUInt32 p) :
    PriorityKept jobDesc.priority (slurmJobSubmit cfg globals answers ofInt now jobDesc).priority
      ((answered cfg globals answers ofInt now jobDesc).map fun r => r.priorityBoost) ↔
    BelowSentinels cfg globals answers ofInt now jobDesc := by
  rw [submit_priority]
  unfold BelowSentinels
  split
  · rename_i hdemo
    have hpos : 0 < cfg.demoBoostPriority := by
      unfold demoBoosted at hdemo
      simp only [Bool.and_eq_true, decide_eq_true_eq] at hdemo
      exact hdemo.1
    have hboost : answered cfg globals answers ofInt now jobDesc = none := by
      unfold answered
      rw [hdemo, Bool.true_or, if_pos rfl]
    rw [hboost]
    exact kept_overwritten_iff hfield hpos
  · have hnudge : ∀ p ∈ nudge cfg answers jobDesc, 0 < p := fun _ => nudge_pos
    cases hb : boostOf (answered cfg globals answers ofInt now jobDesc) with
    | none =>
      rw [boosted]
      cases hprio : jobDesc.priority with
      | some p => exact iff_of_true (.same (hfield p hprio)) trivial
      | none => exact kept_nudged_iff hnudge
    | some b =>
      cases hprio : jobDesc.priority with
      | some p => exact kept_boosted_iff (hfield p hprio) (boostOf_pos hb)
      | none => exact kept_nudged_boosted_iff hnudge (boostOf_pos hb)

end Submit

/-! ## A job without a priority of its own -/

/-- The chart's defaults, and a server that boosts by its default of 1000. -/
def liveConfig : Config where
  scoreApply := false
  vramTiers := vramTable []
  predEnabled := false

def liveGlobals : Globals where
  rlEnabled := true
  rlPlacement := false
  rlNodeNames := none

def liveAnswers : Answers ℚ where
  predScore := none
  predLimit := none
  server _ := some
    { priorityBoost := 1000
      rlSelected := true
      abstain := false
      abstainReason := none
      rlSelectedJobId := some "0"
      nodeJ := some 0
      gpuK := some 0
      value := 0
      entropy := 0
      shadow := false }

/-- Boosted, `NO_VAL` leaves the field. -/
theorem no_val_boosted :
    (slurmJobSubmit liveConfig liveGlobals liveAnswers Int.cast 0
      { priority := some noVal }).priority = some 4294968294 ∧
    ¬ PriorityKept (some noVal)
      (slurmJobSubmit liveConfig liveGlobals liveAnswers Int.cast 0
        { priority := some noVal }).priority (some 1000) := by
  have hprio : (slurmJobSubmit liveConfig liveGlobals liveAnswers Int.cast 0
      { priority := some noVal }).priority = some 4294968294 := rfl
  refine ⟨hprio, fun h => ?_⟩
  have := (h.fits _ hprio).2
  omega

theorem priority_kept_boosted :
    PriorityKept (some 5)
      (slurmJobSubmit liveConfig liveGlobals liveAnswers Int.cast 0 { priority := some 5 }).priority
      ((answered liveConfig liveGlobals liveAnswers Int.cast 0 { priority := some 5 }).map
        fun r => r.priorityBoost) :=
  (priority_kept_iff liveConfig liveGlobals liveAnswers Int.cast 0 { priority := some 5 }
    (by simp [IsUInt32])).mpr (.inr (by decide))

end Kelpflux.Proof.Scheduler
