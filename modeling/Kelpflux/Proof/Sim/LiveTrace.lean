import Kelpflux.Framework.Lists
import Kelpflux.Impl.Sim.LiveTrace
import Mathlib.Algebra.Order.Group.Basic

/-!
# Traces of the live cluster

A row of `sacct` gives at most one job, which asks for a GPU and a slot
(`readRow_normal`), or is counted once (`outcomes_counted`). Times from the first
submission on keep the order of the jobs (`sortJobs_since`). So a normalized trace
is what its rows say (`trace_normalized`).
-/

namespace Kelpflux.Proof.Sim

open Framework Framework.Python Impl.Sim Impl.Sim.LiveTrace

variable {rt : Runtime} {timestamp : String → Option ℚ} {includeCpu : Bool} {minRuntime : ℚ}

/-! ## Rows -/

/-- What the job of a row has. -/
structure Normal (minRuntime : ℚ) (job : NormalizedJob) : Prop where
  jobId : job.jobId ≠ "" ∧ contains job.jobId "." = false
  state : stateOk job.liveState = true
  gpuCount : 1 ≤ job.gpuCount
  mpsReq : 1 ≤ job.mpsReq
  runtime : minRuntime ≤ job.runtime
  liveWait : job.liveWait = max 0 (job.liveStartTs - job.submitTs)

theorem readRow_normal {row : Row} {job : NormalizedJob}
    (h : readRow rt timestamp includeCpu minRuntime row = .ok (.emitted job)) :
    Normal minRuntime job := by
  unfold readRow at h
  obtain ⟨jobId, -, h⟩ := bind_eq_ok.mp h
  split at h
  · cases h
  rename_i hid
  obtain ⟨state, -, h⟩ := bind_eq_ok.mp h
  split at h
  · cases h
  rename_i hstate
  obtain ⟨submitText, -, h⟩ := bind_eq_ok.mp h
  obtain ⟨startText, -, h⟩ := bind_eq_ok.mp h
  obtain ⟨endText, -, h⟩ := bind_eq_ok.mp h
  obtain ⟨elapsedText, -, h⟩ := bind_eq_ok.mp h
  obtain ⟨elapsed, -, h⟩ := bind_eq_ok.mp h
  dsimp only at h
  split at h
  swap
  · cases h
  rename_i submit start _ _
  obtain ⟨allocTres, -, h⟩ := bind_eq_ok.mp h
  obtain ⟨reqTres, -, h⟩ := bind_eq_ok.mp h
  obtain ⟨tresReq, -, h⟩ := bind_eq_ok.mp h
  obtain ⟨tresPerNode, -, h⟩ := bind_eq_ok.mp h
  split at h
  · cases h
  obtain ⟨partition, -, h⟩ := bind_eq_ok.mp h
  obtain ⟨nodeList, -, h⟩ := bind_eq_ok.mp h
  obtain ⟨user, -, h⟩ := bind_eq_ok.mp h
  obtain ⟨jobName, -, h⟩ := bind_eq_ok.mp h
  obtain ⟨reqTres', -, h⟩ := bind_eq_ok.mp h
  cases h
  constructor
  case jobId => simpa using hid
  case state => simpa using hstate
  case gpuCount =>
    dsimp only
    split <;> omega
  case mpsReq =>
    dsimp only
    split <;> omega
  case runtime => exact le_max_left _ _
  case liveWait => rfl

/-- Each row gives a job or is counted, once. -/
theorem outcomes_counted (outcomes : List Outcome) : outcomes.length =
    (outcomes.filterMap Outcome.job?).length + outcomes.countP (Outcome.skippedFor .step) +
      outcomes.countP (Outcome.skippedFor .cpu) + outcomes.countP (Outcome.skippedFor .state) +
      outcomes.countP (Outcome.skippedFor .time) := by
  induction outcomes with
  | nil => rfl
  | cons outcome outcomes ih =>
    cases outcome with
    | emitted job =>
      simp only [List.length_cons, List.filterMap_cons, Outcome.job?, List.countP_cons,
        Outcome.skippedFor, Bool.false_eq_true, if_false]
      omega
    | skipped why =>
      cases why <;>
        · simp [List.filterMap_cons, Outcome.job?, Outcome.skippedFor]
          omega

/-! ## Times -/

theorem sortJobs_since (first : ℚ) (jobs : List NormalizedJob) :
    sortJobs (jobs.map (.since first)) = (sortJobs jobs).map (.since first) := by
  refine (List.map_insertionSort _ _ _ _ fun a _ b _ => ?_).symm
  show Before a b ↔ (a.submitTs - first < b.submitTs - first ∨
    a.submitTs - first = b.submitTs - first ∧ a.jobId ≤ b.jobId)
  rw [sub_lt_sub_iff_right, sub_left_inj]
  rfl

theorem sortJobs_pairwise (jobs : List NormalizedJob) : (sortJobs jobs).Pairwise Before := by
  have : Std.Total Before := ⟨fun a b => by
    unfold Before
    rcases lt_trichotomy a.submitTs b.submitTs with hlt | heq | hgt
    · exact .inl (.inl hlt)
    · rcases le_total a.jobId b.jobId with hle | hle
      · exact .inl (.inr ⟨heq, hle⟩)
      · exact .inr (.inr ⟨heq.symm, hle⟩)
    · exact .inr (.inl hgt)⟩
  have : IsTrans NormalizedJob Before := ⟨fun a b c => by
    rintro (hab | ⟨hab, hid⟩) (hbc | ⟨hbc, hid'⟩)
    · exact .inl (hab.trans hbc)
    · exact .inl (hab.trans_eq hbc)
    · exact .inl (hab.trans_lt hbc)
    · exact .inr ⟨hab.trans hbc, hid.trans hid'⟩⟩
  exact List.pairwise_insertionSort Before jobs

/-- Relative times are from the first submission on. -/
theorem relative_since (jobs : List NormalizedJob) :
    ∃ first, relative jobs = jobs.map (.since first) ∧
    (∀ job ∈ jobs, first ≤ job.submitTs) ∧ (jobs ≠ [] → ∃ job ∈ jobs, job.submitTs = first) := by
  unfold relative
  split
  · rename_i hnone
    rw [List.min?_eq_none_iff, List.map_eq_nil_iff] at hnone
    subst hnone
    exact ⟨0, rfl, fun job h => absurd h List.not_mem_nil, fun h => absurd rfl h⟩
  · rename_i first hfirst
    obtain ⟨hmem, hle⟩ := List.min?_eq_some_iff.mp hfirst
    obtain ⟨job, hjob, heq⟩ := List.mem_map.mp hmem
    exact ⟨first, rfl, fun job h => hle _ (List.mem_map_of_mem h), fun _ => ⟨job, hjob, heq⟩⟩

/-- A trace of relative times is that of absolute times, shifted to start at zero. -/
theorem sortJobs_relative (jobs : List NormalizedJob) :
    ∃ first, sortJobs (relative jobs) = (sortJobs jobs).map (.since first) ∧
      (∀ job ∈ sortJobs (relative jobs), 0 ≤ job.submitTs) ∧
      ∀ job, (sortJobs (relative jobs)).head? = some job → job.submitTs = 0 := by
  obtain ⟨first, hrelative, hfirst, hleast⟩ := relative_since jobs
  have hshift : sortJobs (relative jobs) = (sortJobs jobs).map (.since first) := by
    rw [hrelative, sortJobs_since]
  have hmem (job : NormalizedJob) : job ∈ sortJobs jobs ↔ job ∈ jobs :=
    (List.perm_insertionSort Before jobs).mem_iff
  have hnonneg : ∀ job ∈ sortJobs (relative jobs), 0 ≤ job.submitTs := by
    intro job hjob
    rw [hshift] at hjob
    obtain ⟨job, hsorted, rfl⟩ := List.mem_map.mp hjob
    exact sub_nonneg.mpr (hfirst job ((hmem job).mp hsorted))
  refine ⟨first, hshift, hnonneg, fun job hhead => ?_⟩
  have hordered := sortJobs_pairwise (relative jobs)
  obtain ⟨rest, hrest⟩ := List.head?_eq_some_iff.mp hhead
  have hne : jobs ≠ [] := by
    rintro rfl
    rw [hshift] at hrest
    cases hrest
  obtain ⟨least, hleast, hzero⟩ := hleast hne
  -- The job of the first submission is not before the head of the list.
  have hlisted : least.since first ∈ job :: rest := by
    rw [← hrest, hshift]
    exact List.mem_map_of_mem ((hmem least).mpr hleast)
  have hatZero : (least.since first).submitTs = 0 := sub_eq_zero.mpr hzero
  refine le_antisymm ?_ (hnonneg job (hrest ▸ List.mem_cons_self))
  rw [← hatZero]
  rcases List.mem_cons.mp hlisted with heq | hlater
  · rw [heq]
  · rw [hrest] at hordered
    rcases (List.pairwise_cons.mp hordered).1 _ hlater with hlt | ⟨heq, -⟩
    · exact hlt.le
    · exact heq.le

theorem Normal.since {job : NormalizedJob} (h : Normal minRuntime job) (first : ℚ) :
    Normal minRuntime (job.since first) where
  jobId := h.jobId
  state := h.state
  gpuCount := h.gpuCount
  mpsReq := h.mpsReq
  runtime := h.runtime
  liveWait := by
    show job.liveWait = max 0 (job.liveStartTs - first - (job.submitTs - first))
    rw [h.liveWait, sub_sub_sub_cancel_right]

/-! ## The trace -/

/-- A trace of relative times is one job for each row that gives one, in the order
of submission, and counts the rows. -/
structure Normalized (minRuntime : ℚ) (outcomes : List Outcome) (first : ℚ)
    (jobs : List NormalizedJob) (stats : LiveTraceStats) : Prop where
  perm : jobs.Perm ((outcomes.filterMap Outcome.job?).map (.since first))
  ordered : jobs.Pairwise Before
  normal : ∀ job ∈ jobs, Normal minRuntime job
  nonneg : ∀ job ∈ jobs, 0 ≤ job.submitTs
  zero : ∀ job, jobs.head? = some job → job.submitTs = 0
  emitted : stats.emittedJobs = jobs.length
  counted : stats.rawRows = stats.emittedJobs + stats.skippedSteps + stats.skippedCpu +
    stats.skippedState + stats.skippedTime

theorem emitted_normal {rows : List Row} {outcomes : List Outcome}
    (h : List.Forall₂ (fun row outcome => readRow rt timestamp includeCpu minRuntime row =
      .ok outcome) rows outcomes) :
    ∀ job ∈ outcomes.filterMap Outcome.job?, Normal minRuntime job := by
  intro job hjob
  obtain ⟨outcome, hmem, hsome⟩ := List.mem_filterMap.mp hjob
  cases outcome with
  | skipped why => cases hsome
  | emitted job' =>
    obtain rfl : job' = job := Option.some.inj hsome
    obtain ⟨row, -, hrow⟩ := exists_of_forall₂ h _ hmem
    exact readRow_normal hrow

theorem sacct_ok_iff {relativeTime : Bool} {rows : List Row} {jobs : List NormalizedJob}
    {stats : LiveTraceStats} :
    sacctToNormalized rt timestamp includeCpu minRuntime relativeTime rows = .ok (jobs, stats) ↔
      ∃ outcomes, rows.mapM (readRow rt timestamp includeCpu minRuntime) = .ok outcomes ∧
        jobs = sortJobs (if relativeTime then relative (outcomes.filterMap Outcome.job?)
          else outcomes.filterMap Outcome.job?) ∧
        stats = .ofRows rows.length jobs.length outcomes := by
  unfold sacctToNormalized
  constructor
  · intro h
    obtain ⟨outcomes, hrows, h⟩ := bind_eq_ok.mp h
    cases h
    exact ⟨outcomes, hrows, rfl, rfl⟩
  · rintro ⟨outcomes, hrows, rfl, rfl⟩
    rw [hrows]
    rfl

/-- Every job of a trace has what its row gives, whatever its times are relative to. -/
theorem sacct_normal {relativeTime : Bool} {rows : List Row} {jobs : List NormalizedJob}
    {stats : LiveTraceStats}
    (h : sacctToNormalized rt timestamp includeCpu minRuntime relativeTime rows =
      .ok (jobs, stats)) : ∀ job ∈ jobs, Normal minRuntime job := by
  obtain ⟨outcomes, hrows, rfl, -⟩ := sacct_ok_iff.mp h
  have hnormal := emitted_normal (forall₂_of_mapM_ok hrows)
  intro job hjob
  have hjob := (List.perm_insertionSort Before _).mem_iff.mp hjob
  split at hjob
  · obtain ⟨first, hrelative, -⟩ := relative_since (outcomes.filterMap Outcome.job?)
    rw [hrelative] at hjob
    obtain ⟨job, hmem, rfl⟩ := List.mem_map.mp hjob
    exact (hnormal job hmem).since first
  · exact hnormal job hjob

theorem filterJobs_subset {completedOnly : Bool} {maxLiveWait : ℚ} {jobs : List NormalizedJob} :
    filterJobs completedOnly maxLiveWait jobs ⊆ jobs := by
  have hfirst : (if completedOnly = true then
      jobs.filter fun job => startsWith (upper job.liveState) "COMPLETED" else jobs) ⊆ jobs := by
    split
    · exact List.filter_subset_self jobs
    · exact List.Subset.refl jobs
  unfold filterJobs
  dsimp only
  split
  · exact fun job hjob => hfirst (List.mem_of_mem_filter hjob)
  · exact hfirst

/-- What a trace that was collected has: each row gives one job or is counted once;
jobs ask for a GPU and a slot; they are in the order of submission from zero on, as
they are by absolute times. -/
theorem trace_normalized (rt : Runtime) (timestamp : String → Option ℚ) (includeCpu : Bool)
    (minRuntime : ℚ) (rows : List Row) {jobs : List NormalizedJob} {stats : LiveTraceStats}
    (h : sacctToNormalized rt timestamp includeCpu minRuntime true rows = .ok (jobs, stats)) :
    ∃ (outcomes : List Outcome) (first : ℚ) (absolute : List NormalizedJob),
      List.Forall₂ (fun row outcome => readRow rt timestamp includeCpu minRuntime row =
        .ok outcome) rows outcomes ∧ Normalized minRuntime outcomes first jobs stats ∧
      sacctToNormalized rt timestamp includeCpu minRuntime false rows = .ok (absolute, stats) ∧
      jobs = absolute.map (.since first) := by
  obtain ⟨outcomes, hrows, rfl, rfl⟩ := sacct_ok_iff.mp h
  have hforall := forall₂_of_mapM_ok hrows
  have hnormal := emitted_normal hforall
  have hcounted := outcomes_counted outcomes
  obtain ⟨first, hshift, hnonneg, hzero⟩ := sortJobs_relative (outcomes.filterMap Outcome.job?)
  have hsorted := List.perm_insertionSort Before (outcomes.filterMap Outcome.job?)
  rw [if_pos rfl]
  have hperm : (sortJobs (relative (outcomes.filterMap Outcome.job?))).Perm
      ((outcomes.filterMap Outcome.job?).map (.since first)) := by
    rw [hshift]
    exact hsorted.map _
  refine ⟨outcomes, first, sortJobs (outcomes.filterMap Outcome.job?), hforall, ?_,
    sacct_ok_iff.mpr ⟨outcomes, hrows, rfl, ?_⟩, hshift⟩
  · constructor
    case perm => exact hperm
    case ordered => exact sortJobs_pairwise _
    case normal =>
      intro job hjob
      obtain ⟨job, hmem, rfl⟩ := List.mem_map.mp (hperm.mem_iff.mp hjob)
      exact (hnormal job hmem).since first
    case nonneg => exact hnonneg
    case zero => exact hzero
    case emitted => rfl
    case counted =>
      have hlength := hperm.length_eq
      rw [List.length_map] at hlength
      show rows.length = (sortJobs (relative (outcomes.filterMap Outcome.job?))).length + _ + _ +
        _ + _
      rw [hlength, hforall.length_eq]
      exact hcounted
  · rw [hshift, List.length_map]

/-- A row of `sacct`. -/
def sacctRow (jobId state submit allocTres : String) : Row where
  fields := [("JobID", some jobId), ("User", some "root"), ("JobName", some "train"),
    ("Partition", some "gpu-rtx4070"), ("State", some state), ("Submit", some submit),
    ("Start", some "08:58:17"), ("End", some "Unknown"), ("ElapsedRaw", some "5"),
    ("NodeList", some "worker-1"), ("AllocTRES", some allocTres), ("ReqTRES", none)]

/-- A job, a step of it, one that runs, one without a GPU, and one that was submitted
before them. -/
def sacctRows : List Row :=
  [sacctRow "129" "COMPLETED" "08:58:01" "cpu=2,gres/mps=25",
    sacctRow "129.batch" "COMPLETED" "08:58:01" "cpu=2",
    sacctRow "130" "RUNNING" "08:58:01" "cpu=2,gres/mps=25",
    sacctRow "135" "COMPLETED" "08:58:01" "cpu=4",
    sacctRow "128" "COMPLETED" "08:57:41" "cpu=2,gres/mps=50"]

def sacctRuntime : Runtime :=
  ⟨fun _ => "", fun _ => none, fun _ => none, fun _ => .error .jsonDecodeError⟩

def sacctClock (value : String) : Option ℚ :=
  if value = "08:57:41" then some 32261 else if value = "08:58:01" then some 32281
  else if value = "08:58:17" then some 32297 else none

theorem trace_normalized_sacctRows :
    ∃ jobs stats, sacctToNormalized sacctRuntime sacctClock false 1 true sacctRows =
        .ok (jobs, stats) ∧
      jobs.map (fun job => (job.jobId, job.submitTs)) = [("128", 0), ("129", 20)] ∧
      ∃ (outcomes : List Outcome) (first : ℚ) (absolute : List NormalizedJob),
        List.Forall₂ (fun row outcome => readRow sacctRuntime sacctClock false 1 row =
          .ok outcome) sacctRows outcomes ∧ Normalized 1 outcomes first jobs stats ∧
        sacctToNormalized sacctRuntime sacctClock false 1 false sacctRows =
          .ok (absolute, stats) ∧ jobs = absolute.map (.since first) := by
  have hshown : (sacctToNormalized sacctRuntime sacctClock false 1 true sacctRows).map
      (fun result => result.1.map fun job => (job.jobId, job.submitTs)) =
        .ok [("128", 0), ("129", 20)] := by
    decide +kernel
  cases hresult : sacctToNormalized sacctRuntime sacctClock false 1 true sacctRows with
  | error e =>
    rw [hresult] at hshown
    cases hshown
  | ok result =>
    rw [hresult] at hshown
    exact ⟨result.1, result.2, rfl, Except.ok.inj hshown,
      trace_normalized sacctRuntime sacctClock false 1 sacctRows hresult⟩

end Kelpflux.Proof.Sim
