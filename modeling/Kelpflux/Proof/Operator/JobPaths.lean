import Kelpflux.Proof.Operator.Collector
import Mathlib.Data.List.Find

/-!
# The two ways to the jobs of a partition

What slurmrestd answers and what `squeue` prints of the same jobs give the same
counts where each job requests one partition and its texts have no character that
the line of `squeue` is cut at (`paths_agree`). Two jobs that are misread can make
up for each other: a set and all its parts give the same counts just if each job
of it is read alike (`parts_agree_iff`).
-/

namespace Kelpflux.Proof.Collector

open Framework Framework.Python Kelpflux.Impl.Operator

/-- An active job; a text is empty where nothing is given. -/
structure Job where
  id : String
  state : String
  partitions : List String
  nodeList : String
  features : String
  tresPerNode : String
  reason : String
  active : state ∈ activeStates

namespace Job

/-- The job of slurmrestd. -/
def restJob (j : Job) : RestJob where
  jobState := j.state
  partition := joinComma j.partitions
  nodes := some j.nodeList
  features := some (.text j.features)
  tresPerNode := some j.tresPerNode
  stateReason := some j.reason
  reason := none

/-- `%f` -/
def printedFeatures (j : Job) : String := if j.features = "" then "(null)" else j.features

/-- `%b` -/
def printedTres (j : Job) : String := if j.tresPerNode = "" then "N/A" else j.tresPerNode

/-- `%R`: a pending job's reason, and another's nodes. -/
def printedReason (j : Job) : String :=
  if j.state = "PENDING" then "(" ++ j.reason ++ ")" else j.nodeList

/-- The line of `squeue`, `%i|%T|%N|%f|%b|%R`. -/
def line (j : Job) : List Char :=
  j.id.toList ++ '|' :: (j.state.toList ++ '|' :: (j.nodeList.toList ++ '|' ::
    (j.printedFeatures.toList ++ '|' :: (j.printedTres.toList ++ '|' :: j.printedReason.toList))))

end Job

/-- What `squeue` prints for a partition. -/
def printed (js : List Job) (X : String) : String :=
  String.ofList ((js.filter fun j => X ∈ j.partitions).flatMap fun j => j.line ++ ['\n'])

/-- The counts of the two paths are the same for every pool. -/
def Agree (rt : Runtime) (cfgs : List PartitionConfig) (X : String) (js : List Job) : Prop :=
  ∀ S, let rest := bucket (jobsByPoolAndStateRest rt cfgs (js.map Job.restJob) X) S
    let exec := bucket (jobsByPoolAndStateExec rt cfgs (printed js X) X) S
    exec.pending.length = rest.pending.length ∧
      exec.scalePending.length = rest.scalePending.length ∧
      exec.running.length = rest.running.length

/-! ## What a job counts as -/

inductive Kind where
  | pending
  /-- Pending, and its pool may grow for it. -/
  | scalePending
  | running
deriving DecidableEq

/-- The StatefulSet and the kind that a job counts as. -/
def countsAs (rt : Runtime) (cfgs : List PartitionConfig) (r : String × JobFields) :
    Option (String × Kind) := do
  let pool ← classifyJob cfgs r.2
  if r.1 = "PENDING" then
    return (pool.workerStatefulset, if canScaleForJob rt r.2 pool then .scalePending else .pending)
  else if r.1 ∈ activeStates then return (pool.workerStatefulset, .running)
  else none

/-- What is read of one job from slurmrestd. -/
def restReads (X : String) (j : Job) : List (String × JobFields) :=
  if joinComma j.partitions = X then [(j.state, SlurmRestClient.normalizeJob j.restJob)] else []

/-- And from the lines that `squeue` prints for it. -/
def execReads (X : String) (j : Job) : List (String × JobFields) :=
  if X ∈ j.partitions then
    (splitlines (j.line ++ ['\n'])).filterMap fun line => readLine (String.ofList line)
  else []

/-- Both paths read the job as none, or as one of the same pool and kind. -/
def ReadAlike (rt : Runtime) (cfgs : List PartitionConfig) (X : String) (j : Job) : Prop :=
  (execReads X j).filterMap (countsAs rt cfgs) = (restReads X j).filterMap (countsAs rt cfgs)

variable (rt : Runtime) (cfgs : List PartitionConfig) (X S : String)

theorem restJobs_eq (js : List Job) :
    jobsByPoolAndStateRest rt cfgs (js.map Job.restJob) X =
      (js.flatMap (restReads X)).foldl (addJob rt cfgs) (emptyBuckets cfgs X) := by
  unfold jobsByPoolAndStateRest
  congr 1
  unfold SlurmRestClient.listJobs
  induction js with
  | nil => rfl
  | cons j js ih =>
    rw [List.map_cons, List.flatMap_cons, ← ih, restReads, List.filter_cons]
    by_cases hX : joinComma j.partitions = X
    · rw [if_pos (by simp [j.active, hX, Job.restJob]), if_pos hX]
      rfl
    · rw [if_neg (by simp [hX, Job.restJob]), if_neg hX]
      rfl

theorem execJobs_eq (js : List Job) :
    jobsByPoolAndStateExec rt cfgs (printed js X) X =
      (js.flatMap (execReads X)).foldl (addJob rt cfgs) (emptyBuckets cfgs X) := by
  unfold jobsByPoolAndStateExec printed
  congr 1
  rw [String.toList_ofList, splitlines_flatMap]
  induction js with
  | nil => rfl
  | cons j js ih =>
    rw [List.flatMap_cons, List.filter_cons, execReads, ← ih]
    by_cases hX : X ∈ j.partitions
    · simp [hX, List.filterMap_append]
    · simp [hX]

/-- The lists of a pool that a job goes to, by what it counts as. -/
theorem countsAs_iff (r : String × JobFields) :
    (pendingFor cfgs S r = true ↔ countsAs rt cfgs r = some (S, .pending) ∨
        countsAs rt cfgs r = some (S, .scalePending)) ∧
      (scaleFor rt cfgs S r = true ↔ countsAs rt cfgs r = some (S, .scalePending)) ∧
      (runningFor cfgs S r = true ↔ countsAs rt cfgs r = some (S, .running)) := by
  unfold scaleFor pendingFor runningFor poolOf countsAs
  cases classifyJob cfgs r.2 with
  | none => simp
  | some pool =>
    by_cases hp : r.1 = "PENDING"
    · by_cases hs : canScaleForJob rt r.2 pool = true
      · simp [hp, hs]
      · simp [hp, hs]
    · by_cases hr : r.1 = "RUNNING" ∨ r.1 = "COMPLETING"
      · have hactive : r.1 ∈ activeStates := by
          simp [activeStates, hr]
        simp [hp, hr, hactive]
      · have hactive : r.1 ∉ activeStates := by
          simp [activeStates, hp, hr]
        simp [hp, hr, hactive]

theorem countP_eq (reads : List (String × JobFields)) :
    reads.countP (pendingFor cfgs S) = (reads.filterMap (countsAs rt cfgs)).count (S, .pending) +
        (reads.filterMap (countsAs rt cfgs)).count (S, .scalePending) ∧
      reads.countP (scaleFor rt cfgs S) =
        (reads.filterMap (countsAs rt cfgs)).count (S, .scalePending) ∧
      reads.countP (runningFor cfgs S) =
        (reads.filterMap (countsAs rt cfgs)).count (S, .running) := by
  induction reads with
  | nil => exact ⟨rfl, rfl, rfl⟩
  | cons r reads ih =>
    obtain ⟨hp, hs, hr⟩ := countsAs_iff rt cfgs S r
    obtain ⟨ihp, ihs, ihr⟩ := ih
    rw [List.countP_cons, List.countP_cons, List.countP_cons, List.filterMap_cons, ihp, ihs, ihr]
    cases hc : countsAs rt cfgs r with
    | none => simp [hp, hs, hr, hc]
    | some sk =>
      obtain ⟨S', k⟩ := sk
      by_cases hS : S' = S
      · cases k <;> simp [hp, hs, hr, hc, hS] <;> omega
      · simp [hp, hs, hr, hc, hS]

/-- The counts are the same just if as many jobs count as each kind. -/
theorem agree_iff (js : List Job) : Agree rt cfgs X js ↔
    ∀ c, ((js.flatMap (execReads X)).filterMap (countsAs rt cfgs)).count c =
      ((js.flatMap (restReads X)).filterMap (countsAs rt cfgs)).count c := by
  unfold Agree
  simp only [restJobs_eq, execJobs_eq]
  have hlengths : ∀ (reads : List (String × JobFields)) (S : String),
      (bucket (reads.foldl (addJob rt cfgs) (emptyBuckets cfgs X)) S).pending.length =
          (reads.filterMap (countsAs rt cfgs)).count (S, .pending) +
            (reads.filterMap (countsAs rt cfgs)).count (S, .scalePending) ∧
        (bucket (reads.foldl (addJob rt cfgs) (emptyBuckets cfgs X)) S).scalePending.length =
          (reads.filterMap (countsAs rt cfgs)).count (S, .scalePending) ∧
        (bucket (reads.foldl (addJob rt cfgs) (emptyBuckets cfgs X)) S).running.length =
          (reads.filterMap (countsAs rt cfgs)).count (S, .running) := by
    intro reads S
    obtain ⟨hp, hr, hs⟩ := byPool_lengths rt cfgs S (fun _ => reads) X
    obtain ⟨hp', hs', hr'⟩ := countP_eq rt cfgs S reads
    exact ⟨hp.trans hp', hs.trans hs', hr.trans hr'⟩
  simp only [hlengths]
  constructor
  · rintro h ⟨S, k⟩
    obtain ⟨hp, hs, hr⟩ := h S
    cases k with
    | pending => omega
    | scalePending => exact hs
    | running => exact hr
  · intro h S
    have hp := h (S, .pending)
    have hs := h (S, .scalePending)
    exact ⟨by omega, hs, h (S, .running)⟩

theorem length_restReads (j : Job) : ((restReads X j).filterMap (countsAs rt cfgs)).length ≤ 1 := by
  refine (List.length_filterMap_le _ _).trans ?_
  unfold restReads
  split
  · exact le_rfl
  · exact Nat.zero_le 1

/-- A job alone counts alike just if it is read alike. -/
theorem agree_singleton (j : Job) : Agree rt cfgs X [j] ↔ ReadAlike rt cfgs X j := by
  rw [agree_iff]
  unfold ReadAlike
  rw [List.flatMap_singleton, List.flatMap_singleton, ← List.perm_iff_count]
  constructor
  · intro hperm
    have hlen := length_restReads rt cfgs X j
    generalize (restReads X j).filterMap (countsAs rt cfgs) = rest at hperm hlen
    cases rest with
    | nil => exact hperm.eq_nil
    | cons c rest =>
      obtain rfl := List.length_eq_zero_iff.mp (Nat.le_zero.mp (Nat.le_of_succ_le_succ hlen))
      exact List.perm_singleton.mp hperm
  · intro h
    rw [h]

/-- Jobs that are read alike count alike. -/
theorem agree_of_readAlike {js : List Job} (h : ∀ j ∈ js, ReadAlike rt cfgs X j) :
    Agree rt cfgs X js := by
  rw [agree_iff]
  intro c
  rw [List.filterMap_flatMap, List.filterMap_flatMap]
  exact congrArg (List.count c) (List.flatMap_congr h)

/-- Over every part of a set of jobs. -/
theorem parts_agree_iff (js : List Job) :
    (∀ js', js'.Sublist js → Agree rt cfgs X js') ↔ ∀ j ∈ js, ReadAlike rt cfgs X j := by
  constructor
  · intro h j hj
    exact (agree_singleton rt cfgs X j).mp (h [j] (List.singleton_sublist.mpr hj))
  · intro h js' hsub
    exact agree_of_readAlike rt cfgs X fun j hj => h j (hsub.subset hj)

/-! ## Jobs that are read alike -/

/-- Nothing in a job's texts is taken for something else on the line of `squeue`. -/
structure Plain (cfgs : List PartitionConfig) (j : Job) : Prop where
  noBar : ∀ s ∈ [j.id, j.nodeList, j.features, j.tresPerNode], '|' ∉ s.toList
  oneLine : ∀ s ∈ [j.id, j.nodeList, j.features, j.tresPerNode],
    ∀ c ∈ s.toList, isLineBreak c = false
  /-- No pool takes what is printed for no resources for some of its own. -/
  tres : j.tresPerNode ∉ ["", "N/A", "none", "None"] ∨ ∀ pool ∈ cfgs, ∀ needle ∈ pool.matchGres,
    contains (j.printedTres ++ "   ") needle = contains "   " needle
  /-- Only a pending job's reason is printed. -/
  reason : j.state = "PENDING" →
    (∀ c ∈ j.reason.toList, isLineBreak c = false) ∧ strip j.reason = j.reason

/-- A job requests the partition alone, or not at all, and its texts are plain
where it does. -/
structure Clean (cfgs : List PartitionConfig) (X : String) (j : Job) : Prop where
  single : joinComma j.partitions = X ↔ X ∈ j.partitions
  plain : X ∈ j.partitions → Plain cfgs j

variable {cfgs X} {j : Job}

theorem splitMax_append {sep : Char} {xs : List Char} (h : sep ∉ xs) (n : Nat) (ys : List Char) :
    splitMax sep (n + 1) (xs ++ sep :: ys) = xs :: splitMax sep n ys := by
  induction xs with
  | nil => rw [List.nil_append, splitMax, if_pos rfl]
  | cons x xs ih =>
    rw [List.mem_cons, not_or] at h
    rw [List.cons_append, splitMax, if_neg (Ne.symm h.1), ih h.2]

theorem splitMax_zero (sep : Char) (xs : List Char) : splitMax sep 0 xs = [xs] := by
  cases xs <;> rfl

theorem rdropWhile_append_cons {p : Char → Bool} {c : Char} (hc : p c = false) (xs ys : List Char) :
    (xs ++ c :: ys).rdropWhile p = xs ++ c :: ys.rdropWhile p := by
  induction ys using List.reverseRecOn with
  | nil => exact List.rdropWhile_concat_neg _ _ _ (by simp [hc])
  | append_singleton ys y ih =>
    rw [← List.cons_append, ← List.append_assoc, List.rdropWhile_concat, List.rdropWhile_concat]
    split
    · exact ih
    · simp

theorem stripChars_parens (s : String) :
    stripChars ['(', ')'] ("(" ++ s ++ ")") = stripChars ['(', ')'] s := by
  unfold stripChars
  have htext : ("(" ++ s ++ ")").toList = '(' :: (s.toList ++ [')']) := by simp
  rw [htext, List.dropWhile_cons_of_pos (by decide), List.dropWhile_append]
  split
  · rename_i hempty
    rw [List.isEmpty_iff.mp hempty]
    rfl
  · rw [List.rdropWhile_concat_pos _ _ _ (by decide)]

namespace Plain

theorem no_bar_printed (h : Plain cfgs j) :
    '|' ∉ j.printedFeatures.toList ∧ '|' ∉ j.printedTres.toList := by
  unfold Job.printedFeatures Job.printedTres
  constructor
  · split
    · decide
    · exact h.noBar _ (by simp)
  · split
    · decide
    · exact h.noBar _ (by simp)

theorem no_bar_state (j : Job) : '|' ∉ j.state.toList := by
  have hactive := j.active
  unfold activeStates at hactive
  simp only [List.mem_cons, List.not_mem_nil, or_false] at hactive
  rcases hactive with h | h | h <;> rw [h] <;> decide

/-- What is printed is one line. -/
theorem line_oneLine (h : Plain cfgs j) : ∀ c ∈ j.line, isLineBreak c = false := by
  have hall : ∀ s ∈ [j.id, j.state, j.nodeList, j.printedFeatures, j.printedTres, j.printedReason],
      ∀ c ∈ s.toList, isLineBreak c = false := by
    simp only [List.forall_mem_cons, List.not_mem_nil, false_implies, implies_true, and_true]
    refine ⟨h.oneLine _ (by simp), ?_, h.oneLine _ (by simp), ?_, ?_, ?_⟩
    · have hactive := j.active
      unfold activeStates at hactive
      simp only [List.mem_cons, List.not_mem_nil, or_false] at hactive
      rcases hactive with hs | hs | hs <;> rw [hs] <;> simp [isLineBreak]
    · unfold Job.printedFeatures
      split
      · simp [isLineBreak]
      · exact h.oneLine _ (by simp)
    · unfold Job.printedTres
      split
      · simp [isLineBreak]
      · exact h.oneLine _ (by simp)
    · unfold Job.printedReason
      split
      · rename_i hp
        intro c hc
        simp only [String.toList_append, List.mem_append] at hc
        rcases hc with (hc | hc) | hc
        · obtain rfl := List.mem_singleton.mp hc
          decide
        · exact (h.reason hp).1 c hc
        · obtain rfl := List.mem_singleton.mp hc
          decide
      · exact h.oneLine _ (by simp)
  have hbar : isLineBreak '|' = false := by decide
  unfold Job.line
  simp only [List.forall_mem_append, List.forall_mem_cons]
  exact ⟨hall _ (by simp), hbar, hall _ (by simp), hbar, hall _ (by simp), hbar, hall _ (by simp),
    hbar, hall _ (by simp), hbar, hall _ (by simp)⟩

/-- And read back as the texts that are printed, but for white space at the end of
the last one. -/
theorem readLine_line (h : Plain cfgs j) : ∃ reason,
    readLine (String.ofList j.line) =
      some (j.state, ⟨j.nodeList, j.printedFeatures, j.printedTres, reason⟩) ∧
    (j.state = "PENDING" → reason = "(" ++ j.reason ++ ")") := by
  refine ⟨String.ofList (j.printedReason.toList.rdropWhile isSpace), ?_, fun hp => ?_⟩
  · obtain ⟨hf, ht⟩ := h.no_bar_printed
    have hbar : isSpace '|' = false := by decide
    have hid : '|' ∉ j.id.toList.dropWhile isSpace := fun hmem =>
      h.noBar j.id (by simp) (List.dropWhile_subset _ hmem)
    have hstrip : (strip (String.ofList j.line)).toList =
        j.id.toList.dropWhile isSpace ++ '|' :: (j.state.toList ++ '|' :: (j.nodeList.toList ++ '|' ::
          (j.printedFeatures.toList ++ '|' :: (j.printedTres.toList ++ '|' ::
            j.printedReason.toList.rdropWhile isSpace)))) := by
      unfold strip Job.line
      have hdrop : ∀ xs ys : List Char, (xs ++ '|' :: ys).dropWhile isSpace =
          xs.dropWhile isSpace ++ '|' :: ys := by
        intro xs ys
        rw [List.dropWhile_append]
        split
        · rename_i hempty
          rw [List.isEmpty_iff.mp hempty, List.dropWhile_cons_of_neg (by simp [hbar]), List.nil_append]
        · rfl
      rw [String.toList_ofList, String.toList_ofList, hdrop, rdropWhile_append_cons hbar,
        rdropWhile_append_cons hbar, rdropWhile_append_cons hbar, rdropWhile_append_cons hbar,
        rdropWhile_append_cons hbar]
    unfold readLine
    rw [hstrip, splitMax_append hid, splitMax_append (no_bar_state j),
      splitMax_append (h.noBar j.nodeList (by simp)), splitMax_append hf, splitMax_append ht,
      splitMax_zero]
    simp
  · unfold Job.printedReason
    have htext : ("(" ++ j.reason ++ ")").toList = ('(' :: j.reason.toList) ++ [')'] := by simp
    rw [if_pos hp, htext, List.rdropWhile_concat_neg _ _ _ (by decide), ← htext,
      String.ofList_toList]

/-- The job of slurmrestd has the same texts, but for what is not given. -/
theorem normalizeJob_eq (j : Job) : SlurmRestClient.normalizeJob j.restJob =
    ⟨orText (some j.nodeList) "(null)", j.features,
      if j.tresPerNode ∈ ["", "N/A", "none", "None"] then "" else j.tresPerNode, j.reason⟩ := by
  have hor : ∀ s : String, orText (some s) "" = s := by
    intro s
    unfold orText
    dsimp only
    split
    · exact Eq.symm ‹_›
    · rfl
  have hreason : orText (some j.reason) (orText none "") = j.reason := hor j.reason
  unfold SlurmRestClient.normalizeJob Job.restJob
  dsimp only
  rw [hreason, hor]
  by_cases hempty : j.tresPerNode = ""
  · simp [hempty]
  · simp [hempty]

theorem classify_eq (h : Plain cfgs j) (reason : String) :
    classifyJob cfgs ⟨j.nodeList, j.printedFeatures, j.printedTres, reason⟩ =
      classifyJob cfgs (SlurmRestClient.normalizeJob j.restJob) := by
  rw [normalizeJob_eq j]
  have hplaced : placedPool cfgs (orText (some j.nodeList) "(null)") = placedPool cfgs j.nodeList := by
    unfold orText placedPool
    dsimp only
    by_cases hempty : j.nodeList = ""
    · simp [hempty]
    · simp [hempty]
  have hfeatures : csvSet j.printedFeatures = csvSet j.features := by
    unfold Job.printedFeatures csvSet
    by_cases hempty : j.features = ""
    · simp [hempty]
    · simp [hempty]
  have hgres : ∀ pool ∈ cfgs, gresMatch (j.printedTres ++ "   ") pool.matchGres =
      gresMatch ((if j.tresPerNode ∈ ["", "N/A", "none", "None"] then "" else j.tresPerNode) ++ "   ")
        pool.matchGres := by
    have hblob : ∀ s : String, s ++ "   " ∉ ["", "(null)"] := by
      intro s hs
      have hlast : ∀ t : String, t ∈ ["", "(null)"] → t.toList.getLast? ≠ some ' ' := by decide
      refine hlast _ hs ?_
      simp
    intro pool hpool
    unfold gresMatch
    simp only [hblob, not_false_eq_true, decide_true, Bool.true_and]
    by_cases hnone : j.tresPerNode ∈ ["", "N/A", "none", "None"]
    · rw [if_pos hnone]
      rw [Bool.eq_iff_iff, List.any_eq_true, List.any_eq_true]
      refine exists_congr fun needle => and_congr_right fun hneedle => ?_
      rw [h.tres.resolve_left (not_not.mpr hnone) pool hpool needle hneedle, String.empty_append]
    · have hgiven : j.tresPerNode ≠ "" := by
        rintro hempty
        exact hnone (by simp [hempty])
      rw [if_neg hnone, Job.printedTres, if_neg hgiven]
  have hasks : cfgs.find? (asksFor ⟨j.nodeList, j.printedFeatures, j.printedTres, reason⟩) =
      cfgs.find? (asksFor ⟨orText (some j.nodeList) "(null)", j.features,
        if j.tresPerNode ∈ ["", "N/A", "none", "None"] then "" else j.tresPerNode, j.reason⟩) := by
    refine List.find?_congr fun pool hpool => ?_
    unfold asksFor
    rw [hfeatures, hgres pool hpool]
  unfold classifyJob
  dsimp only
  rw [hplaced, hasks]

theorem tresPerNodeFits_eq (j : Job) (pool : PartitionConfig) :
    tresPerNodeFits rt j.printedTres pool = tresPerNodeFits rt
      (if j.tresPerNode ∈ ["", "N/A", "none", "None"] then "" else j.tresPerNode) pool := by
  unfold Job.printedTres
  by_cases hnone : j.tresPerNode ∈ ["", "N/A", "none", "None"]
  · rw [if_pos hnone]
    simp only [List.mem_cons, List.not_mem_nil, or_false] at hnone
    rcases hnone with h | h | h | h <;> rw [h] <;> rfl
  · have hgiven : j.tresPerNode ≠ "" := by
      rintro hempty
      exact hnone (by simp [hempty])
    rw [if_neg hnone, if_neg hgiven]

theorem canScale_eq (h : Plain cfgs j) (hp : j.state = "PENDING") (pool : PartitionConfig) :
    canScaleForJob rt ⟨j.nodeList, j.printedFeatures, j.printedTres, "(" ++ j.reason ++ ")"⟩ pool =
      canScaleForJob rt (SlurmRestClient.normalizeJob j.restJob) pool := by
  rw [normalizeJob_eq j]
  have hstrip : strip ("(" ++ j.reason ++ ")") = "(" ++ j.reason ++ ")" := by
    have htext : ("(" ++ j.reason ++ ")").toList = ('(' :: j.reason.toList) ++ [')'] := by simp
    unfold strip
    rw [htext, List.cons_append, List.dropWhile_cons_of_neg (by decide), ← List.cons_append,
      List.rdropWhile_concat_neg _ _ _ (by decide), ← htext, String.ofList_toList]
  unfold canScaleForJob
  dsimp only
  rw [hstrip, stripChars_parens, (h.reason hp).2, tresPerNodeFits_eq]

/-- What is read of the line counts as what slurmrestd answers. -/
theorem countsAs_line (h : Plain cfgs j) : ∃ fields,
    readLine (String.ofList j.line) = some (j.state, fields) ∧
    countsAs rt cfgs (j.state, fields) =
      countsAs rt cfgs (j.state, SlurmRestClient.normalizeJob j.restJob) := by
  obtain ⟨reason, hline, hreason⟩ := h.readLine_line
  refine ⟨_, hline, ?_⟩
  unfold countsAs
  dsimp only
  rw [h.classify_eq]
  by_cases hp : j.state = "PENDING"
  · rw [hreason hp]
    simp only [h.canScale_eq rt hp]
  · simp only [if_neg hp]

end Plain

/-- A clean job is read alike. -/
theorem Clean.readAlike (h : Clean cfgs X j) : ReadAlike rt cfgs X j := by
  unfold ReadAlike execReads restReads
  by_cases hX : X ∈ j.partitions
  · obtain ⟨fields, hline, hcounts⟩ := (h.plain hX).countsAs_line rt
    rw [if_pos hX, if_pos (h.single.mpr hX), splitlines_line (h.plain hX).line_oneLine,
      List.filterMap_cons, hline, List.filterMap_nil]
    simp only [List.filterMap_cons, List.filterMap_nil, hcounts]
  · rw [if_neg hX, if_neg (mt h.single.mp hX)]

/-- The two paths give the same counts for clean jobs. -/
theorem paths_agree (js : List Job) (h : ∀ j ∈ js, Clean cfgs X j) : Agree rt cfgs X js :=
  agree_of_readAlike rt cfgs X fun j hj => (h j hj).readAlike rt

/-- A pending job with an alternative of features. -/
def eitherGpu : Job where
  id := "7"
  state := "PENDING"
  partitions := ["gpu"]
  nodeList := ""
  features := "rtx4070|rtx4080"
  tresPerNode := ""
  reason := "Resources"
  active := by decide

/-- One pool for all jobs. -/
def onePool : List PartitionConfig := [pool "gpu" "slurm-worker-gpu" true]

/-- A pending job with one feature. -/
def oneGpu : Job :=
  { eitherGpu with features := "rtx4070", tresPerNode := "gres/gpu:rtx4070:1" }

/-- A job of another partition. -/
def elsewhere : Job := { eitherGpu with partitions := ["cpu"] }

/-- A runtime to which no text is a number. -/
def noRuntime : Runtime :=
  ⟨fun _ => "", fun _ => none, fun _ => none, fun _ => .error .jsonDecodeError⟩

/-- Of these two the pool may grow for one, on both paths. -/
theorem paths_agree_oneGpu : Agree noRuntime onePool "gpu" [oneGpu, elsewhere] ∧
    (bucket (jobsByPoolAndStateExec noRuntime onePool (printed [oneGpu, elsewhere] "gpu") "gpu")
      "slurm-worker-gpu").scalePending.length = 1 := by
  refine ⟨paths_agree noRuntime [oneGpu, elsewhere] ?_, by decide +kernel⟩
  have hone : Plain onePool oneGpu := {
    noBar := by simp [oneGpu, eitherGpu]
    oneLine := by simp [oneGpu, eitherGpu, isLineBreak]
    tres := .inl (by decide)
    reason := fun _ => ⟨by simp [oneGpu, eitherGpu, isLineBreak], rfl⟩ }
  intro j hj
  rcases List.mem_pair.mp hj with rfl | rfl
  · exact ⟨by decide, fun _ => hone⟩
  · exact ⟨by decide, fun hX => absurd hX (by decide)⟩

/-- The pool may grow for the job on the one path, and not on the other. -/
theorem either_gpu_disagrees : ¬ Agree noRuntime onePool "gpu" [eitherGpu] := by
  rw [agree_singleton]
  unfold ReadAlike
  decide +kernel

end Kelpflux.Proof.Collector
