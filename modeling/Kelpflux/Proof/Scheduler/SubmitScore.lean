import Kelpflux.Impl.Scheduler.JobSubmit
import Mathlib.Algebra.Order.Field.Rat

/-!
# The submit plugin's score against its reference

The plugin's patterns and the reference's read the same requests (`parseMpsReq_eq`,
`parseVramReq_eq`), and over an ascending table of tiers both calculate the same
factors of them: `compute_score_eq`.
-/

namespace Kelpflux.Proof.Scheduler

open Framework Framework.Python Impl.Scheduler.JobSubmit Impl.Sim.Score

/-! ## Requests -/

theorem leadingDigits_eq (cs : List Char) : leadingDigits cs =
    if cs.takeWhile Char.isDigit = [] then none
    else some (Lua.digitsValue (cs.takeWhile Char.isDigit)) := by
  unfold leadingDigits
  split
  · rename_i h
    rw [if_pos h]
  · rename_i h
    rw [if_neg h]
    rfl

/-- What the digits after a pattern's text write. -/
theorem map_digits (start : List Char) :
    (if start.takeWhile Char.isDigit = [] then none
      else Lua.run [] (fun _ => some (start.takeWhile Char.isDigit))
        (start.dropWhile Char.isDigit)).map Lua.digitsValue = leadingDigits start := by
  rw [leadingDigits_eq]
  split
  · rfl
  · rfl

theorem captureAt_mps (cs : List Char) :
    (mpsPattern.captureAt cs).map Lua.digitsValue = readMps cs := by
  unfold readMps after
  rw [mpsPattern, Lua.captureAt_plus (.inr fun _ _ => rfl), Lua.run_append, Lua.run_lit]
  split
  · generalize cs.drop "mps".length = rest
    show (Lua.single _ _ rest).map Lua.digitsValue = _
    cases rest with
    | nil => rfl
    | cons c rest =>
      rw [Lua.single]
      dsimp only
      by_cases hc : c = ':' ∨ c = '='
      · rw [if_pos (by simpa using hc), if_pos hc]
        exact map_digits rest
      · rw [if_neg (by simpa using hc), if_neg hc]
        rfl
  · rfl

theorem captureAt_vram (cs : List Char) :
    (vramPattern.captureAt cs).map Lua.digitsValue = readVram cs := by
  have hg : ∀ xs : List Char, "g".toList <+: xs ↔ xs.head? = some 'g' := by
    intro xs
    cases xs with
    | nil => simp
    | cons x xs => simp [eq_comm]
  have hpost : ∀ (c : Char) (cs x : List Char), c.isDigit = true →
      Lua.run (Lua.lit "g") (fun _ => some x) (c :: cs) = none := by
    intro c cs x hc
    rw [Lua.run_lit, if_neg]
    intro h
    obtain rfl := Option.some.inj ((hg _).mp h)
    exact absurd hc (by decide)
  unfold readVram after
  rw [vramPattern, Lua.captureAt_plus (.inl hpost), Lua.run_lit]
  split
  · generalize cs.drop "vram-".length = rest
    rw [Option.bind_some, leadingDigits_eq, Lua.run_lit]
    simp only [hg]
    split <;> split <;> rfl
  · rfl

theorem parseReq_eq {p : Lua.Pattern} {read : List Char → Option ℕ}
    (h : ∀ cs, (p.captureAt cs).map Lua.digitsValue = read cs) (s : String) :
    ((p.capture s.toList).map Lua.digitsValue) = search read s.toList := by
  unfold Lua.Pattern.capture
  rw [Lua.map_search, funext h]

theorem parseMpsReq_eq (tresPerNode : Option String) :
    parseMpsReq tresPerNode = parseSubmitMpsReq tresPerNode := by
  cases tresPerNode with
  | none => rfl
  | some s =>
    unfold parseMpsReq parseReq parseSubmitMpsReq
    simp only [parseReq_eq captureAt_mps]

theorem parseVramReq_eq (features : Option String) :
    parseVramReq features = parseSubmitVramReq features := by
  cases features with
  | none => rfl
  | some s =>
    unfold parseVramReq parseReq parseSubmitVramReq
    simp only [parseReq_eq captureAt_vram]

/-! ## Factors -/

theorem clamp01_eq (x : ℚ) : Impl.Scheduler.JobSubmit.clamp01 x = Impl.Sim.Score.clamp01 x := by
  unfold Impl.Scheduler.JobSubmit.clamp01 Impl.Sim.Score.clamp01
  split
  · rename_i h
    rw [min_eq_right (by linarith), max_eq_left h.le]
  · rename_i h
    split
    · rename_i h1
      rw [min_eq_left h1.le, max_eq_right zero_le_one]
    · rename_i h1
      rw [min_eq_right (not_lt.mp h1), max_eq_right (not_lt.mp h)]

/-- An ascending table is sorted as it stands. -/
theorem sortedLt_of_pairwise {xs : List ℚ} (h : xs.Pairwise (· ≤ ·)) :
    sortedLt (fun a b => a < b) xs = xs := by
  unfold sortedLt
  have hpair : xs.Pairwise fun a b => ¬ (decide (b < a) = true) := by
    simpa using h
  exact List.Pairwise.insertionSort_eq hpair

/-- The last tier of an ascending table is the largest. -/
theorem max?_eq_getLastD {xs : List ℚ} (hne : xs ≠ []) (h : xs.Pairwise (· ≤ ·)) :
    xs.max? = some (xs.getLastD 0) := by
  rw [List.getLastD_eq_getLast?, List.getLast?_eq_some_getLast hne, Option.getD_some,
    List.max?_eq_some_iff]
  refine ⟨List.getLast_mem hne, fun x hx => ?_⟩
  rw [← List.dropLast_append_getLast hne] at h hx
  rcases List.mem_append.mp hx with hx | hx
  · exact (List.pairwise_append.mp h).2.2 x hx _ List.mem_cons_self
  · exact (List.mem_singleton.mp hx).le

theorem vramTable_ne_nil (values : List ℚ) : vramTable values ≠ [] := by
  unfold vramTable
  split
  · exact List.cons_ne_nil _ _
  · assumption

theorem vramTable_pairwise {values : List ℚ} (h : values.Pairwise (· ≤ ·)) :
    (vramTable values).Pairwise (· ≤ ·) := by
  unfold vramTable
  split
  · simp
    norm_num
  · exact h

/-- Over an ascending table of tiers, with the predictor off, the plugin's score
and factors are the reference's, whatever the job asks for. -/
theorem compute_score_eq (cfg : Config) (values : List ℚ)
    (jobDesc : Impl.Scheduler.JobSubmit.JobDesc) (pred : Option ℚ)
    (htable : cfg.vramTiers = vramTable values) (hasc : values.Pairwise (· ≤ ·))
    (hpred : cfg.predEnabled = false) :
    submitScoreFactors jobDesc.tresPerNode jobDesc.features cfg.mpsPerNode cfg.vramTiers cfg.weights =
      .ok (computeScore cfg jobDesc pred) := by
  have hne : cfg.vramTiers ≠ [] := htable ▸ vramTable_ne_nil values
  have hpair : cfg.vramTiers.Pairwise (· ≤ ·) := htable ▸ vramTable_pairwise hasc
  have hpredRuntime : fPredRuntime cfg pred = 1 / 2 := by
    unfold fPredRuntime
    rw [hpred]
    rfl
  unfold submitScoreFactors computeScore
  simp only [sortedLt_of_pairwise hpair, max?_eq_getLastD hne hpair, ← parseMpsReq_eq,
    ← parseVramReq_eq, ← clamp01_eq, hpredRuntime]
  rfl

theorem compute_score_sample :
    submitScoreFactors (some "gpu:rtx4070:1,mps:25") (some "gpu-rtx4070&vram-12g") 100 [12, 24] {} =
      .ok (computeScore { scoreApply := true, vramTiers := [12, 24], predEnabled := false }
        { tresPerNode := some "gpu:rtx4070:1,mps:25", features := some "gpu-rtx4070&vram-12g" }
        none) :=
  compute_score_eq { scoreApply := true, vramTiers := [12, 24], predEnabled := false } [12, 24]
    { tresPerNode := some "gpu:rtx4070:1,mps:25", features := some "gpu-rtx4070&vram-12g" } none
    (by simp [vramTable]) (by simp; norm_num) rfl

end Kelpflux.Proof.Scheduler
