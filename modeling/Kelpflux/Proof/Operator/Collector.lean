import Kelpflux.Framework.Text
import Kelpflux.Impl.Operator.Collector

/-!
# Which jobs the collector counts

A pool's `PartitionState` counts the jobs of its StatefulSet's last pool's
partition that `_classify_job` puts in a pool of that StatefulSet (`entry_counts`).
-/

namespace Kelpflux.Proof.Collector

open Framework Kelpflux.Impl.Operator

variable (rt : Python.Runtime) (cfgs : List PartitionConfig) (S : String)

/-- The StatefulSet of the pool that a job is put in. -/
def poolOf (cfgs : List PartitionConfig) (fields : JobFields) : Option String :=
  (classifyJob cfgs fields).map PartitionConfig.workerStatefulset

/-- The job is one of the pool's pending jobs. -/
def pendingFor (cfgs : List PartitionConfig) (S : String) (job : String × JobFields) : Bool :=
  poolOf cfgs job.2 = some S && job.1 = "PENDING"

/-- The job is one of the pool's running jobs. -/
def runningFor (cfgs : List PartitionConfig) (S : String) (job : String × JobFields) : Bool :=
  poolOf cfgs job.2 = some S && job.1 ∈ ["RUNNING", "COMPLETING"]

/-- The job is a pending one for which the pool may grow. -/
def scaleFor (rt : Python.Runtime) (cfgs : List PartitionConfig) (S : String)
    (job : String × JobFields) : Bool :=
  pendingFor cfgs S job && (classifyJob cfgs job.2).any (canScaleForJob rt job.2)

/-- A pool's bucket, if it has one. -/
def bucket (d : JobsByPool) (S : String) : Buckets := (d.get? S).getD {}

/-! ## Buckets -/

theorem bucket_addJob (d : JobsByPool) (job : String × JobFields) :
    bucket (addJob rt cfgs d job) S = match classifyJob cfgs job.2 with
      | none => bucket d S
      | some pool => if pool.workerStatefulset = S
        then (bucket d S).append rt pool job.1 job.2 else bucket d S := by
  unfold addJob bucket
  cases classifyJob cfgs job.2 with
  | none => rfl
  | some pool =>
    dsimp only
    rw [Dict.get?_set]
    by_cases hS : pool.workerStatefulset = S
    · simp [hS]
    · simp [hS, Ne.symm hS]

theorem append_lengths (b : Buckets) (pool : PartitionConfig) (job : String × JobFields) :
    (b.append rt pool job.1 job.2).pending.length =
        b.pending.length + (if job.1 = "PENDING" then 1 else 0) ∧
      (b.append rt pool job.1 job.2).running.length =
        b.running.length + (if job.1 ∈ ["RUNNING", "COMPLETING"] then 1 else 0) ∧
      (b.append rt pool job.1 job.2).scalePending.length = b.scalePending.length +
        (if job.1 = "PENDING" ∧ canScaleForJob rt job.2 pool then 1 else 0) := by
  unfold Buckets.append activeStates
  by_cases hp : job.1 = "PENDING"
  · by_cases hs : canScaleForJob rt job.2 pool = true
    · simp [hp, hs]
    · simp [hp, hs]
  · by_cases hr : job.1 ∈ ["RUNNING", "COMPLETING"]
    · simp_all
    · simp_all

/-- The jobs of each kind that one job adds. -/
theorem addJob_lengths (d : JobsByPool) (job : String × JobFields) :
    (bucket (addJob rt cfgs d job) S).pending.length =
        (bucket d S).pending.length + (if pendingFor cfgs S job then 1 else 0) ∧
      (bucket (addJob rt cfgs d job) S).running.length =
        (bucket d S).running.length + (if runningFor cfgs S job then 1 else 0) ∧
      (bucket (addJob rt cfgs d job) S).scalePending.length =
        (bucket d S).scalePending.length + (if scaleFor rt cfgs S job then 1 else 0) := by
  rw [bucket_addJob]
  unfold scaleFor pendingFor runningFor poolOf
  cases classifyJob cfgs job.2 with
  | none => simp
  | some pool =>
    by_cases hS : pool.workerStatefulset = S
    · have := append_lengths rt (bucket d S) pool job
      simpa [hS] using this
    · simp [hS]

theorem foldl_addJob_lengths (jobs : List (String × JobFields)) (d : JobsByPool) :
    (bucket (jobs.foldl (addJob rt cfgs) d) S).pending.length =
        (bucket d S).pending.length + jobs.countP (pendingFor cfgs S) ∧
      (bucket (jobs.foldl (addJob rt cfgs) d) S).running.length =
        (bucket d S).running.length + jobs.countP (runningFor cfgs S) ∧
      (bucket (jobs.foldl (addJob rt cfgs) d) S).scalePending.length =
        (bucket d S).scalePending.length + jobs.countP (scaleFor rt cfgs S) := by
  induction jobs generalizing d with
  | nil => exact ⟨rfl, rfl, rfl⟩
  | cons job jobs ih =>
    obtain ⟨hp, hr, hs⟩ := addJob_lengths rt cfgs S d job
    obtain ⟨hp', hr', hs'⟩ := ih (addJob rt cfgs d job)
    rw [List.foldl_cons, List.countP_cons, List.countP_cons, List.countP_cons]
    omega

theorem bucket_empty (X : String) : bucket (emptyBuckets cfgs X) S = {} := by
  unfold bucket emptyBuckets
  rw [Dict.get?_ofList]
  cases hfind : List.find? (fun kv : String × Buckets => kv.1 = S) _ with
  | none => rfl
  | some kv =>
    have hmem := List.mem_reverse.mp (List.mem_of_find?_eq_some hfind)
    obtain ⟨p, -, rfl⟩ := List.mem_map.mp hmem
    rfl

/-- The jobs of a partition, as either path reads them. -/
def byPool (rt : Python.Runtime) (cfgs : List PartitionConfig)
    (jobs : String → List (String × JobFields)) (X : String) : JobsByPool :=
  (jobs X).foldl (addJob rt cfgs) (emptyBuckets cfgs X)

theorem byPool_lengths (jobs : String → List (String × JobFields)) (X : String) :
    (bucket (byPool rt cfgs jobs X) S).pending.length = (jobs X).countP (pendingFor cfgs S) ∧
      (bucket (byPool rt cfgs jobs X) S).running.length = (jobs X).countP (runningFor cfgs S) ∧
      (bucket (byPool rt cfgs jobs X) S).scalePending.length =
        (jobs X).countP (scaleFor rt cfgs S) := by
  have h := foldl_addJob_lengths rt cfgs S (jobs X) (emptyBuckets cfgs X)
  unfold byPool
  simpa [bucket_empty] using h

/-! ## Entries -/

/-- The last pool of a StatefulSet, of which its entry is. -/
def lastPool (cfgs : List PartitionConfig) (S : String) : Option PartitionConfig :=
  cfgs.reverse.find? fun p => p.workerStatefulset = S

/-- What the entry of a StatefulSet counts. -/
theorem entry_counts (jobs : String → List (String × JobFields)) (getReplicas : String → Int)
    (getBusyNodes : PartitionConfig → Int) :
    ((collectAllPartitionStates cfgs (byPool rt cfgs jobs) getReplicas getBusyNodes).get? S = none ∧
        lastPool cfgs S = none) ∨
      ∃ p e, lastPool cfgs S = some p ∧
        (collectAllPartitionStates cfgs (byPool rt cfgs jobs) getReplicas getBusyNodes).get? S =
          some e ∧
        e.pendingJobs = (jobs p.partition).countP (pendingFor cfgs S) ∧
        e.runningJobs = (jobs p.partition).countP (runningFor cfgs S) ∧
        e.scalePendingJobs = (jobs p.partition).countP (scaleFor rt cfgs S) := by
  unfold collectAllPartitionStates lastPool
  rw [Dict.get?_ofList, ← List.map_reverse, List.find?_map]
  simp only [Function.comp_def]
  cases hfind : cfgs.reverse.find? fun p => decide (p.workerStatefulset = S) with
  | none => exact .inl ⟨rfl, rfl⟩
  | some p =>
    have hS : p.workerStatefulset = S := by simpa using List.find?_some hfind
    obtain ⟨hp, hr, hs⟩ := byPool_lengths rt cfgs S jobs p.partition
    unfold bucket at hp hr hs
    refine .inr ⟨p, _, rfl, rfl, ?_, ?_, ?_⟩
    · dsimp only
      rw [hS, hp]
    · dsimp only
      rw [hS, hr]
    · dsimp only
      rw [hS, hs]

/-! ## One job among others -/

/-- How a path gets at the jobs of the partitions: the partitions that a job is
listed for, and what is read of it. -/
structure Path (J : Type) where
  partitions : J → List String
  read : J → Option (String × JobFields)

/-- The jobs of a partition. -/
def Path.jobs {J : Type} (path : Path J) (js : List J) (X : String) : List (String × JobFields) :=
  (js.filter fun j => X ∈ path.partitions j).filterMap path.read

/-- What slurmrestd answers with. -/
def restPath : Path RestJob where
  partitions j := [j.partition]
  read j := if j.jobState ∈ activeStates then some (j.jobState, SlurmRestClient.normalizeJob j)
    else none

/-- A job as `squeue` prints it, for each partition that it requests. -/
structure Printed where
  partitions : List String
  line : String
  oneLine : ∀ c ∈ line.toList, Python.isLineBreak c = false

def execPath : Path Printed where
  partitions := Printed.partitions
  read j := readLine j.line

/-- What `squeue` prints for a partition. -/
def squeue (js : List Printed) (X : String) : String :=
  String.ofList ((js.filter fun j => X ∈ j.partitions).flatMap fun j => j.line.toList ++ ['\n'])

theorem rest_eq (js : List RestJob) :
    jobsByPoolAndStateRest rt cfgs js = byPool rt cfgs (restPath.jobs js) := by
  funext X
  unfold jobsByPoolAndStateRest byPool
  congr 1
  unfold SlurmRestClient.listJobs Path.jobs restPath
  induction js with
  | nil => rfl
  | cons j js ih =>
    by_cases hX : j.partition = X
    · by_cases hactive : j.jobState ∈ activeStates
      · simp [hX, hactive, ih]
      · simp [hX, hactive, ih]
    · simp [hX, Ne.symm hX, ih]

theorem exec_eq (js : List Printed) :
    (fun X => jobsByPoolAndStateExec rt cfgs (squeue js X) X) = byPool rt cfgs (execPath.jobs js) := by
  funext X
  unfold jobsByPoolAndStateExec byPool squeue
  congr 1
  rw [String.toList_ofList, Python.splitlines_flatMap]
  unfold Path.jobs execPath
  induction js.filter fun j => X ∈ j.partitions with
  | nil => rfl
  | cons j js ih =>
    rw [List.flatMap_cons, List.filterMap_append, ih, Python.splitlines_line j.oneLine]
    simp [List.filterMap_cons]
    cases readLine j.line <;> rfl

section OneJob

variable {J : Type} {path : Path J} {collect : List J → Dict String PartitionState}
  {pre post js : List J} {job : J}

theorem countP_jobs {r : String × JobFields} (hread : path.read job = some r)
    (q : String × JobFields → Bool) (X : String) :
    (path.jobs (pre ++ job :: post) X).countP q =
      (path.jobs (pre ++ post) X).countP q +
        (if X ∈ path.partitions job ∧ q r = true then 1 else 0) := by
  unfold Path.jobs
  by_cases hX : X ∈ path.partitions job
  · simp [hX, hread, List.countP_cons]
    omega
  · simp [hX]

/-- A StatefulSet's entry has one job more with this one than without it. -/
def CountedIn (collect : List J → Dict String PartitionState) (pre post : List J) (job : J)
    (S : String) : Prop :=
  ∃ e e', (collect (pre ++ job :: post)).get? S = some e ∧ (collect (pre ++ post)).get? S = some e' ∧
    e.pendingJobs + e.runningJobs = e'.pendingJobs + e'.runningJobs + 1

/-- And one running job more. -/
def RunningIn (collect : List J → Dict String PartitionState) (pre post : List J) (job : J)
    (S : String) : Prop :=
  ∃ e e', (collect (pre ++ job :: post)).get? S = some e ∧ (collect (pre ++ post)).get? S = some e' ∧
    e.runningJobs = e'.runningJobs + 1

/-- A node list of nodes of the pool only: its name with one ordinal, or several in
brackets. -/
def NodesOf (pool : PartitionConfig) (nodeList : String) : Prop :=
  ∃ ordinals, nodeList.toList = pool.workerStatefulset.toList ++ '-' :: ordinals ∧
    ((ordinals ≠ [] ∧ ∀ c ∈ ordinals, c.isDigit) ∨
      ∃ inner, ordinals = '[' :: inner ++ [']'] ∧ inner ≠ [] ∧
        ∀ c ∈ inner, c.isDigit ∨ c = ',' ∨ c = '-')

/-- The job runs on nodes of the pool. -/
def PlacedOn (pool : PartitionConfig) (r : String × JobFields) : Prop :=
  r.1 ∈ ["RUNNING", "COMPLETING"] ∧ NodesOf pool r.2.nodeList

/-- Each active job of a configured partition is counted in the entry of just one
StatefulSet, and as a running one in that of the pool on whose nodes it is. -/
def Right (cfgs : List PartitionConfig) (path : Path J)
    (collect : List J → Dict String PartitionState) (js : List J) : Prop :=
  ∀ pre job post r, js = pre ++ job :: post → path.read job = some r → r.1 ∈ activeStates →
    (∃ p ∈ cfgs, p.partition ∈ path.partitions job) →
    (∃! S, CountedIn collect pre post job S) ∧
      ∀ pool ∈ cfgs, PlacedOn pool r → RunningIn collect pre post job pool.workerStatefulset

/-- Each such job is put in a pool of whose StatefulSet the last pool is of a
partition of the job, and no pool before that on whose nodes it is has another
StatefulSet with whose name its node list starts. -/
def Assigned (cfgs : List PartitionConfig) (path : Path J) (js : List J) : Prop :=
  ∀ job ∈ js, ∀ r, path.read job = some r → r.1 ∈ activeStates →
    (∃ p ∈ cfgs, p.partition ∈ path.partitions job) →
    (∃ S p, poolOf cfgs r.2 = some S ∧ lastPool cfgs S = some p ∧
        p.partition ∈ path.partitions job) ∧
      ∀ pool ∈ cfgs, PlacedOn pool r → ∃ first,
        (cfgs.find? fun p => Python.startsWith r.2.nodeList p.workerStatefulset) = some first ∧
        first.workerStatefulset = pool.workerStatefulset

section Entries

variable {getReplicas : String → Int} {getBusyNodes : PartitionConfig → Int}

/-- What one job more makes of a StatefulSet's entry. -/
theorem entry_with {r : String × JobFields} (hread : path.read job = some r) {e e' : PartitionState}
    (he : (collectAllPartitionStates cfgs (byPool rt cfgs (path.jobs (pre ++ job :: post)))
      getReplicas getBusyNodes).get? S = some e)
    (he' : (collectAllPartitionStates cfgs (byPool rt cfgs (path.jobs (pre ++ post)))
      getReplicas getBusyNodes).get? S = some e') :
    ∃ p, lastPool cfgs S = some p ∧
      e.pendingJobs = e'.pendingJobs +
        (if p.partition ∈ path.partitions job ∧ pendingFor cfgs S r = true then 1 else 0) ∧
      e.runningJobs = e'.runningJobs +
        (if p.partition ∈ path.partitions job ∧ runningFor cfgs S r = true then 1 else 0) := by
  rcases entry_counts rt cfgs S (path.jobs (pre ++ job :: post)) getReplicas getBusyNodes
    with ⟨hnone, -⟩ | ⟨p, e₁, hp, he₁, hpend, hrun, -⟩
  · cases hnone.symm.trans he
  rcases entry_counts rt cfgs S (path.jobs (pre ++ post)) getReplicas getBusyNodes
    with ⟨hnone, -⟩ | ⟨p', e₂, hp', he₂, hpend', hrun', -⟩
  · cases hnone.symm.trans he'
  obtain rfl := Option.some.inj (hp.symm.trans hp')
  obtain rfl := Option.some.inj (he₁.symm.trans he)
  obtain rfl := Option.some.inj (he₂.symm.trans he')
  refine ⟨p, hp, ?_, ?_⟩
  · rw [hpend, hpend', countP_jobs hread]
    push_cast
    rfl
  · rw [hrun, hrun', countP_jobs hread]
    push_cast
    rfl

theorem exists_entry (path : Path J) (getReplicas : String → Int)
    (getBusyNodes : PartitionConfig → Int) (js : List J)
    {p : PartitionConfig} (hp : lastPool cfgs S = some p) :
    ∃ e, (collectAllPartitionStates cfgs (byPool rt cfgs (path.jobs js)) getReplicas
      getBusyNodes).get? S = some e := by
  rcases entry_counts rt cfgs S (path.jobs js) getReplicas getBusyNodes
    with ⟨-, hnone⟩ | ⟨p, e, -, he, -⟩
  · cases hnone.symm.trans hp
  · exact ⟨e, he⟩

/-- An active job is a pending one or a running one of its pool. -/
theorem pending_or_running {r : String × JobFields} (hactive : r.1 ∈ activeStates) :
    (pendingFor cfgs S r = true ∧ runningFor cfgs S r = false ∧ poolOf cfgs r.2 = some S) ∨
      (pendingFor cfgs S r = false ∧ runningFor cfgs S r = true ∧ poolOf cfgs r.2 = some S) ∨
      (pendingFor cfgs S r = false ∧ runningFor cfgs S r = false ∧ poolOf cfgs r.2 ≠ some S) := by
  unfold pendingFor runningFor
  by_cases hpool : poolOf cfgs r.2 = some S
  · unfold activeStates at hactive
    rcases List.mem_cons.mp hactive with h | hactive
    · simp [h, hpool]
    · simp only [List.mem_cons, List.not_mem_nil, or_false] at hactive
      rcases hactive with h | h
      · simp [h, hpool]
      · simp [h, hpool]
  · simp [hpool]

theorem countedIn_iff {r : String × JobFields} (hread : path.read job = some r)
    (hactive : r.1 ∈ activeStates) :
    CountedIn (fun js => collectAllPartitionStates cfgs (byPool rt cfgs (path.jobs js)) getReplicas
      getBusyNodes) pre post job S ↔
    ∃ p, lastPool cfgs S = some p ∧ p.partition ∈ path.partitions job ∧ poolOf cfgs r.2 = some S := by
  constructor
  · rintro ⟨e, e', he, he', hsum⟩
    obtain ⟨p, hp, hpend, hrun⟩ := entry_with rt cfgs S hread he he'
    refine ⟨p, hp, ?_⟩
    by_cases hX : p.partition ∈ path.partitions job
    · refine ⟨hX, ?_⟩
      rcases pending_or_running cfgs S hactive with ⟨-, -, h⟩ | ⟨-, -, h⟩ | ⟨hp', hr', -⟩
      · exact h
      · exact h
      · simp only [hp', hr', Bool.false_eq_true, and_false, if_false] at hpend hrun
        omega
    · simp only [hX, false_and, if_false] at hpend hrun
      omega
  · rintro ⟨p, hp, hX, hpool⟩
    obtain ⟨e, he⟩ := exists_entry rt cfgs S path getReplicas getBusyNodes (pre ++ job :: post) hp
    obtain ⟨e', he'⟩ := exists_entry rt cfgs S path getReplicas getBusyNodes (pre ++ post) hp
    obtain ⟨p', hp', hpend, hrun⟩ := entry_with rt cfgs S hread he he'
    obtain rfl := Option.some.inj (hp.symm.trans hp')
    refine ⟨e, e', he, he', ?_⟩
    rcases pending_or_running cfgs S hactive with ⟨hp', hr', -⟩ | ⟨hp', hr', -⟩ | ⟨-, -, h⟩
    · simp only [hp', hr', hX, Bool.false_eq_true, and_false, and_true, if_false, if_true]
        at hpend hrun
      omega
    · simp only [hp', hr', hX, Bool.false_eq_true, and_false, and_true, if_false, if_true]
        at hpend hrun
      omega
    · exact absurd hpool h

theorem runningIn_iff {r : String × JobFields} (hread : path.read job = some r) :
    RunningIn (fun js => collectAllPartitionStates cfgs (byPool rt cfgs (path.jobs js)) getReplicas
      getBusyNodes) pre post job S ↔
    ∃ p, lastPool cfgs S = some p ∧ p.partition ∈ path.partitions job ∧
      runningFor cfgs S r = true := by
  constructor
  · rintro ⟨e, e', he, he', hsum⟩
    obtain ⟨p, hp, -, hrun⟩ := entry_with rt cfgs S hread he he'
    refine ⟨p, hp, ?_⟩
    by_contra hnot
    rw [if_neg hnot] at hrun
    omega
  · rintro ⟨p, hp, hX⟩
    obtain ⟨e, he⟩ := exists_entry rt cfgs S path getReplicas getBusyNodes (pre ++ job :: post) hp
    obtain ⟨e', he'⟩ := exists_entry rt cfgs S path getReplicas getBusyNodes (pre ++ post) hp
    obtain ⟨p', hp', -, hrun⟩ := entry_with rt cfgs S hread he he'
    obtain rfl := Option.some.inj (hp.symm.trans hp')
    rw [if_pos hX] at hrun
    exact ⟨e, e', he, he', hrun⟩

/-- A job on nodes of a pool is put in the first pool with whose name they start. -/
theorem classify_placed {pool : PartitionConfig} (hpool : pool ∈ cfgs) {fields : JobFields}
    (hnodes : NodesOf pool fields.nodeList) :
    ∃ first, (cfgs.find? fun p => Python.startsWith fields.nodeList p.workerStatefulset) =
        some first ∧
      poolOf cfgs fields = some first.workerStatefulset := by
  obtain ⟨ordinals, hlist, -⟩ := hnodes
  have hstarts : Python.startsWith fields.nodeList pool.workerStatefulset = true := by
    unfold Python.startsWith
    rw [List.isPrefixOf_iff_prefix, hlist]
    exact List.prefix_append _ _
  cases hfind : cfgs.find? fun p => Python.startsWith fields.nodeList p.workerStatefulset with
  | none => exact absurd hstarts (List.find?_eq_none.mp hfind pool hpool)
  | some first =>
    refine ⟨first, rfl, ?_⟩
    have hdash : '-' ∈ fields.nodeList.toList := by
      rw [hlist]
      exact List.mem_append_right _ List.mem_cons_self
    have hgiven : fields.nodeList ∉ ["", "(null)"] := by
      intro h
      rcases List.mem_cons.mp h with h | h
      · rw [h] at hdash
        exact absurd hdash (by decide)
      · rw [List.mem_singleton.mp h] at hdash
        exact absurd hdash (by decide)
    unfold poolOf classifyJob placedPool
    rw [if_neg hgiven, hfind]
    rfl

theorem right_iff (js : List J) :
    Right cfgs path (fun js => collectAllPartitionStates cfgs (byPool rt cfgs (path.jobs js))
      getReplicas getBusyNodes) js ↔ Assigned cfgs path js := by
  constructor
  · intro h job hjob r hread hactive hconf
    obtain ⟨pre, post, rfl⟩ := List.append_of_mem hjob
    obtain ⟨⟨S, hS, -⟩, hplaced⟩ := h pre job post r rfl hread hactive hconf
    refine ⟨?_, fun pool hpool hon => ?_⟩
    · obtain ⟨p, hp, hX, hS⟩ := (countedIn_iff rt cfgs S hread hactive).mp hS
      exact ⟨S, p, hS, hp, hX⟩
    · obtain ⟨p, -, -, hrun⟩ := (runningIn_iff rt cfgs _ hread).mp (hplaced pool hpool hon)
      obtain ⟨first, hfirst, hof⟩ := classify_placed cfgs hpool hon.2
      unfold runningFor at hrun
      rw [hof, Bool.and_eq_true, decide_eq_true_eq] at hrun
      exact ⟨first, hfirst, Option.some.inj hrun.1⟩
  · rintro h pre job post r rfl hread hactive hconf
    obtain ⟨⟨S, p, hS, hp, hX⟩, hplaced⟩ :=
      h job (List.mem_append_right _ List.mem_cons_self) r hread hactive hconf
    refine ⟨⟨S, (countedIn_iff rt cfgs S hread hactive).mpr ⟨p, hp, hX, hS⟩, fun S' hS' => ?_⟩,
      fun pool hpool hon => ?_⟩
    · obtain ⟨-, -, -, hS'⟩ := (countedIn_iff rt cfgs S' hread hactive).mp hS'
      exact Option.some.inj (hS'.symm.trans hS)
    · obtain ⟨first, hfirst, hof⟩ := classify_placed cfgs hpool hon.2
      obtain ⟨first', hfirst', hsame⟩ := hplaced pool hpool hon
      obtain rfl := Option.some.inj (hfirst.symm.trans hfirst')
      have hpoolS : pool.workerStatefulset = S :=
        hsame.symm.trans (Option.some.inj (hof.symm.trans hS))
      refine (runningIn_iff rt cfgs _ hread).mpr ⟨p, hpoolS ▸ hp, hX, ?_⟩
      unfold runningFor
      rw [hpoolS, hS, Bool.and_eq_true, decide_eq_true_eq, decide_eq_true_eq]
      exact ⟨rfl, hon.1⟩

end Entries

end OneJob

/-- On either path, over every listing of jobs. -/
theorem counted_once_iff (getReplicas : String → Int) (getBusyNodes : PartitionConfig → Int) :
    (∀ js : List RestJob, Right cfgs restPath (fun js => collectAllPartitionStates cfgs
        (jobsByPoolAndStateRest rt cfgs js) getReplicas getBusyNodes) js ↔
      Assigned cfgs restPath js) ∧
    ∀ js : List Printed, Right cfgs execPath (fun js => collectAllPartitionStates cfgs
        (fun X => jobsByPoolAndStateExec rt cfgs (squeue js X) X) getReplicas getBusyNodes) js ↔
      Assigned cfgs execPath js := by
  simp only [rest_eq, exec_eq]
  exact ⟨fun js => right_iff rt cfgs js, fun js => right_iff rt cfgs js⟩

def pool (partition workerStatefulset : String) (fallback : Bool) : PartitionConfig :=
  { partition, workerStatefulset, fallback
    minReplicas := 0, maxReplicas := 4, scaleUpStep := 1, scaleDownStep := 1
    scaleDownCooldown := 60 }

/-- Two pools, where the name of the one starts with that of the other. -/
def twoPools : List PartitionConfig :=
  [pool "gpu" "slurm-worker-gpu" true, pool "gpu-b" "slurm-worker-gpu-b" false]

/-- A job on a node of the second pool. -/
def runningJob : RestJob where
  jobState := "RUNNING"
  partition := "gpu-b"
  nodes := some "slurm-worker-gpu-b-0"
  features := none
  tresPerNode := none
  stateReason := some "None"
  reason := none

/-- It is counted for no pool. -/
theorem running_job_uncounted : ¬ Right twoPools restPath (fun js => collectAllPartitionStates
    twoPools (jobsByPoolAndStateRest ⟨fun _ => "", fun _ => none, fun _ => none,
      fun _ => .error .jsonDecodeError⟩ twoPools js) (fun _ => 1) (fun _ => 0)) [runningJob] := by
  simp only [rest_eq]
  rw [right_iff]
  intro h
  obtain ⟨⟨S, p, hS, hp, hX⟩, -⟩ := h runningJob List.mem_cons_self
    ("RUNNING", SlurmRestClient.normalizeJob runningJob) rfl (by decide)
    ⟨pool "gpu-b" "slurm-worker-gpu-b" false, by decide, by decide⟩
  have hof : poolOf twoPools (SlurmRestClient.normalizeJob runningJob) = some "slurm-worker-gpu" := by
    decide +kernel
  obtain rfl := Option.some.inj (hS.symm.trans hof)
  have hlast : lastPool twoPools "slurm-worker-gpu" = some (pool "gpu" "slurm-worker-gpu" true) := by
    decide +kernel
  obtain rfl := Option.some.inj (hp.symm.trans hlast)
  exact absurd hX (by decide)

end Kelpflux.Proof.Collector
