import Kelpflux.Impl.Scheduler.JobSubmit
import Mathlib.Tactic.Linarith

/-!
# The time limit that the submit plugin predicts

The plugin rounds a prediction up to whole minutes and caps it (`predictedMin`).
It means to overwrite a user's limit of more than twice the prediction, but does
so from just twice on, and the cap takes what it writes below the prediction:
`time_limit_promised_iff`. What holds of every prediction is `time_limit_sound`.
-/

namespace Kelpflux.Proof.Scheduler

open Impl.Scheduler Impl.Scheduler.JobSubmit

variable (cfg : Config)

/-- The cap of a prediction, in minutes. -/
def fallbackMin : ℤ := ⌊cfg.predFallbackHours * 3600 / 60⌋

/-- The minutes that a prediction of `s` seconds is written as. -/
def predictedMin (s : ℚ) : ℤ := max 1 (min ⌈s / 60⌉ (fallbackMin cfg))

/-- What a prediction of `s` seconds may do to the user's limit: it is written
as `limit` minutes, no shorter than the prediction or the cap, and the user set
no limit or one of twice as long. -/
structure Overwrites (user : Option ℤ) (s : ℚ) (limit : ℤ) : Prop where
  covers : min s (60 * fallbackMin cfg) ≤ 60 * limit
  least : 1 ≤ limit
  capped : limit ≤ max 1 (fallbackMin cfg)
  user : user.getD 0 ≤ 0 ∨ 2 * min s (60 * fallbackMin cfg) ≤ 60 * (user.getD 0)

/-- What the plugin means: the user set no limit or one of more than twice the
prediction, and `limit` is no shorter than the prediction. -/
structure Promised (user : Option ℤ) (s : ℚ) (limit : ℤ) : Prop where
  user : user.getD 0 ≤ 0 ∨ 2 * (s / 60) < user.getD 0
  covers : s ≤ 60 * limit

/-- The user's limit is not just twice the prediction; and the prediction is within
the cap, or the limit shorter than twice the cap. -/
structure Within (user : Option ℤ) (s : ℚ) : Prop where
  notTwice : 0 < user.getD 0 → Even (user.getD 0) → s ≠ 30 * user.getD 0
  capped : 60 * max 1 (fallbackMin cfg) < s →
    0 < user.getD 0 ∧ user.getD 0 < 2 * max 1 (fallbackMin cfg)

variable {cfg} {user : Option ℤ} {s : ℚ}

theorem predictedMin_covers (s : ℚ) : min s (60 * fallbackMin cfg) ≤ 60 * predictedMin cfg s := by
  have hceil : s ≤ 60 * (⌈s / 60⌉ : ℚ) := by
    have := Int.le_ceil (s / 60)
    linarith
  have hmin : min s (60 * (fallbackMin cfg : ℚ)) ≤ 60 * (min ⌈s / 60⌉ (fallbackMin cfg) : ℤ) := by
    rcases le_total ⌈s / 60⌉ (fallbackMin cfg) with hle | hle
    · rw [min_eq_left hle]
      exact (min_le_left _ _).trans hceil
    · rw [min_eq_right hle]
      exact min_le_right _ _
  have hle : ((min ⌈s / 60⌉ (fallbackMin cfg) : ℤ) : ℚ) ≤ (predictedMin cfg s : ℚ) :=
    Int.cast_le.mpr (le_max_right _ _)
  linarith

/-- Within the cap, nothing but the rounding adds to a prediction. -/
theorem predictedMin_of_le (h : s ≤ 60 * max 1 (fallbackMin cfg)) :
    predictedMin cfg s = max 1 ⌈s / 60⌉ := by
  have hceil : ⌈s / 60⌉ ≤ max 1 (fallbackMin cfg) := by
    refine Int.ceil_le.mpr ?_
    linarith
  unfold predictedMin
  omega

/-- Beyond it, a prediction is written as the cap. -/
theorem predictedMin_of_lt (h : 60 * max 1 (fallbackMin cfg) < s) :
    predictedMin cfg s = max 1 (fallbackMin cfg) := by
  have hceil : max 1 (fallbackMin cfg) < ⌈s / 60⌉ := by
    refine Int.lt_ceil.mpr ?_
    linarith
  unfold predictedMin
  omega

/-- A limit of the user's that is not below twice the one written. -/
theorem overwrites_of_le (h : ¬ (0 < user.getD 0 ∧ user.getD 0 < predictedMin cfg s * 2)) :
    Overwrites cfg user s (predictedMin cfg s) where
  covers := predictedMin_covers s
  least := le_max_left _ _
  capped := max_le_max le_rfl (min_le_right _ _)
  user := by
    rcases le_or_gt (user.getD 0) 0 with hunset | hset
    · exact .inl hunset
    · right
      have htwice : ((predictedMin cfg s * 2 : ℤ) : ℚ) ≤ (user.getD 0 : ℤ) :=
        Int.cast_le.mpr (not_lt.mp fun hlt => h ⟨hset, hlt⟩)
      have hcovers : min s (60 * fallbackMin cfg) ≤ 60 * predictedMin cfg s :=
        predictedMin_covers s
      push_cast at htwice
      linarith

/-- What the plugin does with a prediction, where it applies predictions. -/
theorem maybeApply_eq (jobDesc : JobDesc) (happly : (cfg.predEnabled && cfg.predApplyTimeLimit) = true)
    (hs : 0 < s) : maybeApplyPredictedTimeLimit cfg jobDesc (some s) =
      if 0 < jobDesc.timeLimit.getD 0 ∧ jobDesc.timeLimit.getD 0 < predictedMin cfg s * 2 then jobDesc
      else { jobDesc with timeLimit := some (predictedMin cfg s) } := by
  unfold maybeApplyPredictedTimeLimit
  rw [if_neg (by simp [happly])]
  dsimp only
  rw [if_neg (not_le.mpr hs)]
  rfl

/-- And else. -/
theorem maybeApply_none (jobDesc : JobDesc) {pred : Option ℚ}
    (h : (cfg.predEnabled && cfg.predApplyTimeLimit) = true → ∀ s, pred = some s → s ≤ 0) :
    maybeApplyPredictedTimeLimit cfg jobDesc pred = jobDesc := by
  unfold maybeApplyPredictedTimeLimit
  split
  · rfl
  rename_i happly
  rw [Bool.not_eq_true', Bool.not_eq_false] at happly
  cases pred with
  | none => rfl
  | some s => exact if_pos (h happly s rfl)

/-- A description is left as it is, or its time limit alone is overwritten, as
the prediction may overwrite it. -/
theorem time_limit_sound (cfg : Config) (jobDesc : JobDesc) (pred : Option ℚ) :
    maybeApplyPredictedTimeLimit cfg jobDesc pred = jobDesc ∨
    ∃ s limit, pred = some s ∧ 0 < s ∧ Overwrites cfg jobDesc.timeLimit s limit ∧
      maybeApplyPredictedTimeLimit cfg jobDesc pred
        = { jobDesc with timeLimit := some limit } := by
  by_cases h : (cfg.predEnabled && cfg.predApplyTimeLimit) = true ∧ ∃ s, pred = some s ∧ 0 < s
  swap
  · refine .inl (maybeApply_none jobDesc fun happly s hpred => not_lt.mp fun hs => ?_)
    exact h ⟨happly, s, hpred, hs⟩
  obtain ⟨happly, s, rfl, hs⟩ := h
  rw [maybeApply_eq jobDesc happly hs]
  split
  · exact .inl rfl
  · rename_i huser
    exact .inr ⟨s, predictedMin cfg s, rfl, hs, overwrites_of_le huser, rfl⟩

/-! ## What is promised -/

theorem le_predictedMin (h : s ≤ 60 * max 1 (fallbackMin cfg)) : s ≤ 60 * predictedMin cfg s := by
  rw [predictedMin_of_le h]
  have hceil := Int.le_ceil (s / 60)
  have hmax : ((⌈s / 60⌉ : ℤ) : ℚ) ≤ (max 1 ⌈s / 60⌉ : ℤ) := Int.cast_le.mpr (le_max_right _ _)
  linarith

/-- Half of an even limit is written as it is. -/
theorem predictedMin_half {k : ℤ} (hk : 0 < k) (hs : s = 60 * k)
    (h : s ≤ 60 * max 1 (fallbackMin cfg)) : predictedMin cfg s = k := by
  have hceil : ⌈s / 60⌉ = k := by
    rw [hs, mul_div_cancel_left₀ _ (by norm_num : (60 : ℚ) ≠ 0), Int.ceil_intCast]
  rw [predictedMin_of_le h, hceil]
  omega

/-- A limit that is overwritten is overwritten as promised, exactly within these
bounds. -/
theorem promised_iff : (¬ (0 < user.getD 0 ∧ user.getD 0 < predictedMin cfg s * 2) →
    Promised user s (predictedMin cfg s)) ↔ Within cfg user s := by
  rcases le_or_gt s (60 * max 1 (fallbackMin cfg)) with hle | hlt
  · have hcovers : s ≤ 60 * predictedMin cfg s := le_predictedMin hle
    constructor
    · refine fun h => ⟨fun hpos ⟨k, hk⟩ heq => ?_, fun hlt => absurd hle (not_le.mpr hlt)⟩
      have hs : s = 60 * k := by
        rw [heq, hk]
        push_cast
        ring
      have hwritten : predictedMin cfg s = k := predictedMin_half (by omega) hs hle
      rcases (h (by omega)).user with hunset | hset
      · omega
      · rw [heq] at hset
        linarith
    · intro h hnot
      refine ⟨?_, hcovers⟩
      rcases le_or_gt (user.getD 0) 0 with hunset | hpos
      · exact .inl hunset
      · have htwice : predictedMin cfg s * 2 ≤ user.getD 0 := not_lt.mp fun hlt => hnot ⟨hpos, hlt⟩
        have htwice' : (predictedMin cfg s : ℚ) * 2 ≤ user.getD 0 := by exact_mod_cast htwice
        refine .inr (lt_of_le_of_ne (by linarith) fun heq => ?_)
        -- Then nothing was rounded, and the limit is twice what is written.
        have hsame : predictedMin cfg s * 2 = user.getD 0 := by
          refine le_antisymm htwice ?_
          have : (user.getD 0 : ℚ) ≤ predictedMin cfg s * 2 := by linarith
          exact_mod_cast this
        exact h.notTwice hpos ⟨predictedMin cfg s, by omega⟩ (by linarith)
  · have hwritten : predictedMin cfg s = max 1 (fallbackMin cfg) := predictedMin_of_lt hlt
    have hshort : ¬ Promised user s (predictedMin cfg s) := fun h =>
      absurd hlt (not_lt.mpr (hwritten ▸ h.covers))
    constructor
    · intro h
      have huser := not_not.mp (mt h hshort)
      rw [hwritten] at huser
      refine ⟨fun _ _ heq => ?_, fun _ => ⟨huser.1, by omega⟩⟩
      have hless : (user.getD 0 : ℚ) < (max 1 (fallbackMin cfg) : ℤ) * 2 := by
        exact_mod_cast huser.2
      linarith
    · intro h hnot
      obtain ⟨hpos, hless⟩ := h.capped hlt
      exact absurd ⟨hpos, by omega⟩ hnot

/-- A description is left as it is, or its time limit alone is overwritten as
promised, exactly if no prediction is applied or it is within these bounds. -/
theorem time_limit_promised_iff (cfg : Config) (jobDesc : JobDesc) (pred : Option ℚ) :
    (maybeApplyPredictedTimeLimit cfg jobDesc pred = jobDesc ∨
      ∃ s limit, pred = some s ∧ Promised jobDesc.timeLimit s limit ∧
        maybeApplyPredictedTimeLimit cfg jobDesc pred = { jobDesc with timeLimit := some limit }) ↔
    ((cfg.predEnabled && cfg.predApplyTimeLimit) = true → ∀ s, pred = some s → 0 < s →
      Within cfg jobDesc.timeLimit s) := by
  by_cases h : (cfg.predEnabled && cfg.predApplyTimeLimit) = true ∧ ∃ s, pred = some s ∧ 0 < s
  swap
  · refine iff_of_true (.inl (maybeApply_none jobDesc fun happly s hpred => not_lt.mp fun hs => ?_))
      fun happly s hpred hs => ?_
    · exact h ⟨happly, s, hpred, hs⟩
    · exact absurd ⟨happly, s, hpred, hs⟩ h
  obtain ⟨happly, s, rfl, hs⟩ := h
  rw [maybeApply_eq jobDesc happly hs]
  have hbounds : (_ → ∀ s', some s = some s' → 0 < s' → Within cfg jobDesc.timeLimit s') ↔
      Within cfg jobDesc.timeLimit s :=
    ⟨fun h => h happly s rfl hs, fun h _ s' hs' _ => Option.some.inj hs' ▸ h⟩
  rw [hbounds, ← promised_iff]
  split
  · rename_i hkept
    exact iff_of_true (.inl rfl) fun h => absurd hkept h
  · rename_i hnot
    constructor
    · rintro (hsame | ⟨s', limit, hs', hpromised, hwritten⟩) -
      · have hlimit : some (predictedMin cfg s) = jobDesc.timeLimit := congrArg JobDesc.timeLimit hsame
        have hleast : 1 ≤ predictedMin cfg s := le_max_left _ _
        rw [← hlimit, Option.getD_some] at hnot
        omega
      · obtain rfl := Option.some.inj hs'
        have hlimit : some (predictedMin cfg s) = some limit := congrArg JobDesc.timeLimit hwritten
        exact Option.some.inj hlimit ▸ hpromised
    · exact fun h => .inr ⟨s, predictedMin cfg s, rfl, h hnot, rfl⟩

/-- The chart's cap of four hours. -/
def predicting : Config where
  scoreApply := false
  vramTiers := vramTable []
  predEnabled := true

/-- A limit of just twice the prediction is overwritten. -/
theorem twice_overwritten : ¬ ∀ (cfg : Config) (jobDesc : JobDesc) (s : ℚ) (limit : ℤ),
    (maybeApplyPredictedTimeLimit cfg jobDesc (some s)).timeLimit = some limit →
    jobDesc.timeLimit ≠ some limit → Promised jobDesc.timeLimit s limit := by
  intro h
  have hwritten : (maybeApplyPredictedTimeLimit predicting { timeLimit := some 60 }
      (some 1800)).timeLimit = some 30 := by decide +kernel
  rcases (h predicting { timeLimit := some 60 } 1800 30 hwritten (by decide)).user with huser | huser
  · exact absurd huser (by decide)
  · norm_num at huser

end Kelpflux.Proof.Scheduler
