import Kelpflux.Proof.Sim.Replay

/-!
# Runs of the runner

A turn of the loop brings all jobs together one step nearer to their end, so the
loop ends (`loop_terminates`); what holds of every state that a run passes
through is shown for its moves (`Instant.ready`). When no events are left the
cluster is empty and no pending job fits it (`Quiet`), so the completed jobs are
those that fit the empty cluster (`run_correct`). All this is about requests of
no negative amounts: one of them lends out slots that the cluster does not have
(`negative_request_overbooks`).
-/

namespace Kelpflux.Proof.Runner

open Framework Kelpflux.Impl.Sim Kelpflux.Proof.Sim

variable {cfg : Config} {S : Type}

/-! ## What a run passes through -/

/-- The states of a dispatch: those after the jobs that were started so far. -/
inductive During (backfill : Bool) : List ReplayJob → Replay cfg S → Replay cfg S → Prop where
  | now {js st} : During backfill js st st
  | started {j js st m plan cluster} (h : st.cluster.tryAllocate j.toJob = (some plan, cluster))
    (hrest : During backfill js (st.startJob j cluster) m) : During backfill (j :: js) st m
  | skipped {j js st m} (h : ¬ st.cluster.canAllocate j.toJob) (hbackfill : backfill = true)
    (hrest : During backfill js st m) : During backfill (j :: js) st m

/-- The states of a run from `st` on: before and after each event, and those of
the dispatches. -/
inductive Instant (sch : Scheduler cfg S) (byId : Dict String ReplayJob) :
    Replay cfg S → Replay cfg S → Prop where
  | now {st} : Instant sch byId st st
  | popped {st} (h : st.events ≠ []) : Instant sch byId st (st.popEvent byId)
  | dispatching {st m} (h : st.events ≠ [])
    (hm : During sch.backfill ((st.popEvent byId).order sch).1 ((st.popEvent byId).order sch).2 m) :
    Instant sch byId st m
  | later {st m} (h : st.events ≠ []) (hrest : Instant sch byId (st.turn sch byId) m) :
    Instant sch byId st m

/-- The scheduler permutes the pending jobs. -/
def Permutes (sch : Scheduler cfg S) : Prop :=
  ∀ pending c now s, (sch.order pending c now s).1.Perm pending

/-- The jobs that have ended. -/
def completed (m : MetricCollector) : List String :=
  Dict.keys (m.records.filter fun kv => kv.2.endTs.isSome)

/-! ## A turn of the loop -/

section Turn

variable {jobs : List ReplayJob} {st m : Replay cfg S} {sch : Scheduler cfg S}
  {byId : Dict String ReplayJob}

theorem During.ready {backfill : Bool} {js : List ReplayJob} (hd : During backfill js st m)
    (hjobs : WellFormed jobs) (h : Ready jobs st) (hnodup : js.Nodup) (hsub : js ⊆ st.pending) :
    Ready jobs m := by
  induction hd with
  | now => exact h
  | started halloc _ ih =>
    obtain ⟨hnot, hrest⟩ := List.nodup_cons.mp hnodup
    obtain ⟨hj, hjs⟩ := List.cons_subset.mp hsub
    have hmem := (h.pending _ hj).1
    obtain ⟨hmps, hram⟩ := hjobs.requests _ hmem
    refine ih (h.startJob hjobs.nodup hj hmps hram (hjobs.runtime _ hmem) halloc) hrest ?_
    intro j' hj'
    refine (List.mem_erase_of_ne ?_).mpr (hjs hj')
    intro heq
    exact hnot (heq ▸ hj')
  | skipped _ _ _ ih =>
    exact ih h (List.nodup_cons.mp hnodup).2 (List.cons_subset.mp hsub).2

/-- A dispatch ends in one of its states. -/
theorem During.dispatch (backfill : Bool) (js : List ReplayJob) (st : Replay cfg S) :
    During backfill js st (st.dispatch backfill js) := by
  induction js generalizing st with
  | nil => exact .now
  | cons j js ih =>
    unfold Replay.dispatch
    split
    · rename_i plan cluster halloc
      exact .started halloc (ih _)
    · rename_i cluster halloc
      split
      · rename_i hbackfill
        exact .skipped (tryAllocate_none halloc) hbackfill (ih st)
      · exact .now

/-- What a scheduler puts in order are pending jobs, each once. -/
theorem order_pending (hperm : Permutes sch) (h : Ready jobs st) :
    (st.order sch).1.Nodup ∧ (st.order sch).1 ⊆ (st.order sch).2.pending := by
  have horder : (st.order sch).1.Perm st.pending := hperm st.pending st.cluster st.now st.scheduler
  have hpending : (ids st.pending).Nodup :=
    (List.nodup_append.mp (List.nodup_append.mp h.nodup).1).2.1
  exact ⟨horder.nodup_iff.mpr (List.Nodup.of_map _ hpending), horder.subset⟩

theorem dispatching_ready (hperm : Permutes sch) (hjobs : WellFormed jobs) (h : Ready jobs st)
    (hd : During sch.backfill (st.order sch).1 (st.order sch).2 m) : Ready jobs m := by
  obtain ⟨hnodup, hsub⟩ := order_pending hperm h
  exact hd.ready hjobs (h.order sch) hnodup hsub

theorem turn_ready (hperm : Permutes sch) (hjobs : WellFormed jobs)
    (hbyId : ∀ j ∈ jobs, byId.get? j.jobId = some j) (h : Ready jobs st) :
    Ready jobs (st.turn sch byId) :=
  (dispatching_ready hperm hjobs (h.popEvent hbyId) (During.dispatch _ _ _)).sampleUtil

/-- Every state that a run passes through. -/
theorem Instant.ready (hi : Instant sch byId st m) (hperm : Permutes sch) (hjobs : WellFormed jobs)
    (hbyId : ∀ j ∈ jobs, byId.get? j.jobId = some j) (h : Ready jobs st) : Ready jobs m := by
  induction hi with
  | now => exact h
  | popped => exact h.popEvent hbyId
  | dispatching _ hm => exact dispatching_ready hperm hjobs (h.popEvent hbyId) hm
  | later _ _ ih => exact ih (turn_ready hperm hjobs hbyId h)

/-! ## The end of the loop -/

/-- The steps that the jobs have to go, of the two from the queue to the end. -/
def stepsLeft (st : Replay cfg S) : ℕ :=
  2 * (queued .submit st.events).length + st.pending.length + (queued .jobEnd st.events).length

theorem During.stepsLeft {backfill : Bool} {js : List ReplayJob} (hd : During backfill js st m)
    (hnodup : js.Nodup) (hsub : js ⊆ st.pending) : stepsLeft m = stepsLeft st := by
  induction hd with
  | now => rfl
  | @started j js st m plan cluster halloc _ ih =>
    obtain ⟨hnot, hrest⟩ := List.nodup_cons.mp hnodup
    obtain ⟨hj, hjs⟩ := List.cons_subset.mp hsub
    rw [ih hrest ?_]
    · unfold Runner.stepsLeft Replay.startJob
      dsimp only
      rw [(queued_heappush _ _ _).length_eq, (queued_heappush _ _ _).length_eq, queued_cons,
        queued_cons, if_neg (by simp), if_pos rfl, List.length_cons, List.length_erase_of_mem hj]
      have := List.length_pos_of_mem hj
      omega
    · intro j' hj'
      refine (List.mem_erase_of_ne ?_).mpr (hjs hj')
      intro heq
      exact hnot (heq ▸ hj')
  | skipped _ _ _ ih =>
    exact ih (List.nodup_cons.mp hnodup).2 (List.cons_subset.mp hsub).2

theorem turn_stepsLeft (hperm : Permutes sch) (hbyId : ∀ j ∈ jobs, byId.get? j.jobId = some j)
    (h : Ready jobs st) (hevents : st.events ≠ []) :
    stepsLeft (st.turn sch byId) + 1 = stepsLeft st := by
  obtain ⟨hnodup, hsub⟩ := order_pending hperm (h.popEvent hbyId)
  have hdispatch : stepsLeft (st.turn sch byId) = stepsLeft (st.popEvent byId) :=
    (During.dispatch sch.backfill _ _).stepsLeft hnodup hsub
  rw [hdispatch]
  obtain ⟨e, es, hcons⟩ := List.exists_cons_of_ne_nil hevents
  obtain ⟨j, hj, hid, ⟨hk, hpop⟩ | ⟨hk, hpop⟩⟩ := h.popEvent_cases hbyId hcons
  · rw [hpop]
    unfold stepsLeft
    dsimp only
    rw [hcons, queued_cons, queued_cons, if_pos hk, if_neg (by rw [hk]; decide), List.length_append,
      List.length_cons, List.length_cons, List.length_nil]
    omega
  · rw [hpop]
    unfold stepsLeft
    dsimp only
    rw [hcons, queued_cons, queued_cons, if_neg (by rw [hk]; decide), if_pos hk, List.length_cons]
    omega

/-- No event left, and no pending job that fits. -/
def Quiet (st : Replay cfg S) : Prop :=
  st.events = [] → ∀ j ∈ st.pending, ¬ st.cluster.canAllocate j.toJob

theorem heappush_ne_nil (events : List Event) (e : Event) : heappush events e ≠ [] := by
  intro hnil
  have hlength := (List.perm_orderedInsert Event.le e events).length_eq
  rw [show events.orderedInsert Event.le e = [] from hnil] at hlength
  cases hlength

theorem During.events_ne {backfill : Bool} {js : List ReplayJob} (hd : During backfill js st m)
    (h : st.events ≠ []) : m.events ≠ [] := by
  induction hd with
  | now => exact h
  | started _ _ ih => exact ih (heappush_ne_nil _ _)
  | skipped _ _ _ ih => exact ih h

/-- A dispatch that leaves no events has started nothing, and nothing fits. -/
theorem dispatch_quiet {js : List ReplayJob} (h : (st.dispatch true js).events = []) :
    st.dispatch true js = st ∧ ∀ j ∈ js, ¬ st.cluster.canAllocate j.toJob := by
  induction js with
  | nil => exact ⟨rfl, by simp⟩
  | cons j js ih =>
    unfold Replay.dispatch at h ⊢
    split at h
    · rename_i plan cluster halloc
      exact absurd h ((During.dispatch true js _).events_ne (heappush_ne_nil _ _))
    · rename_i cluster halloc
      rw [if_pos rfl] at h
      obtain ⟨hsame, hnone⟩ := ih h
      rw [if_pos rfl]
      refine ⟨hsame, ?_⟩
      rw [List.forall_mem_cons]
      exact ⟨tryAllocate_none halloc, hnone⟩

theorem turn_quiet (hperm : Permutes sch) (hbackfill : sch.backfill = true) :
    Quiet (st.turn sch byId) := by
  intro hevents
  have hdispatch : (((st.popEvent byId).order sch).2.dispatch true
      ((st.popEvent byId).order sch).1).events = [] := by
    rw [← hbackfill]
    exact hevents
  obtain ⟨hsame, hnone⟩ := dispatch_quiet hdispatch
  have hturn : st.turn sch byId = ((st.popEvent byId).order sch).2.sampleUtil := by
    rw [← hsame, ← hbackfill]
    rfl
  rw [hturn]
  intro j hj
  exact hnone j ((hperm _ _ _ _).symm.subset hj)

/-- With a turn for each step that is left the loop ends. -/
theorem loop_terminates (hperm : Permutes sch) (hjobs : WellFormed jobs)
    (hbyId : ∀ j ∈ jobs, byId.get? j.jobId = some j) {fuel : ℕ} (h : Ready jobs st)
    (hfuel : stepsLeft st ≤ fuel) : ∃ m, Replay.loop sch byId fuel st = some m := by
  induction fuel generalizing st with
  | zero =>
    have hevents : st.events = [] := by
      by_contra hne
      have := turn_stepsLeft hperm hbyId h hne
      omega
    exact ⟨st, by rw [Replay.loop, if_pos hevents]⟩
  | succ fuel ih =>
    rw [Replay.loop]
    split
    · exact ⟨st, rfl⟩
    · rename_i hevents
      have hless := turn_stepsLeft hperm hbyId h hevents
      exact ih (turn_ready hperm hjobs hbyId h) (by omega)

/-- Where it ends no job is left that could go on. -/
theorem loop_ends (hperm : Permutes sch) (hbackfill : sch.backfill = true) {fuel : ℕ}
    (hquiet : Quiet st) (hloop : Replay.loop sch byId fuel st = some m) :
    Instant sch byId st m ∧ m.events = [] ∧ Quiet m := by
  induction fuel generalizing st with
  | zero =>
    rw [Replay.loop] at hloop
    split at hloop
    · rename_i hevents
      obtain rfl := Option.some.inj hloop
      exact ⟨.now, hevents, hquiet⟩
    · cases hloop
  | succ fuel ih =>
    rw [Replay.loop] at hloop
    split at hloop
    · rename_i hevents
      obtain rfl := Option.some.inj hloop
      exact ⟨.now, hevents, hquiet⟩
    · rename_i hevents
      obtain ⟨hm, hend⟩ := ih (turn_quiet hperm hbackfill) hloop
      exact ⟨.later hevents hm, hend⟩

/-- At the end the cluster is empty. -/
theorem Ready.cluster_empty (h : Ready jobs st) (hevents : st.events = []) :
    st.cluster = Cluster.init cfg := by
  obtain ⟨pl, haccounts⟩ := h.accounts
  have hactive := h.active
  rw [hevents, haccounts.active] at hactive
  have hpl : pl = [] := by
    have hkeys := hactive.length_eq
    rw [Dict.keys_mapVal] at hkeys
    exact List.map_eq_nil_iff.mp (List.eq_nil_of_length_eq_zero hkeys)
  subst hpl
  exact haccounts.eq_init

end Turn

/-! ## Runs -/

section Runs

variable {jobs : List ReplayJob} {st : Replay cfg S}

theorem init_stepsLeft (scheduler : S) {latency : LatencyModel} (jobs : List ReplayJob) :
    stepsLeft (Replay.init cfg scheduler latency jobs) = 2 * jobs.length := by
  obtain ⟨hsubmits, hends⟩ := init_queued (traceJobs jobs)
  have hlength := hsubmits.length_eq
  rw [ids_traceJobs, ids, List.length_map] at hlength
  show 2 * (queued .submit ((submissions (traceJobs jobs)).foldl heappush [])).length + 0 +
    (queued .jobEnd ((submissions (traceJobs jobs)).foldl heappush [])).length = _
  rw [hends, hlength]
  rfl

theorem init_quiet (scheduler : S) {latency : LatencyModel} (jobs : List ReplayJob) :
    Quiet (Replay.init cfg scheduler latency jobs) :=
  fun _ _ hj => absurd hj List.not_mem_nil

/-- The record of a job that was started, when there are no more events. -/
theorem Ready.record_times (h : Ready jobs st) (hevents : st.events = []) {j : ReplayJob}
    (hj : j ∈ jobs) {r : JobRecord} (hr : st.metrics.records.get? j.jobId = some r) {s : ℚ}
    (hs : r.startTs = some s) : j.submitTs ≤ s ∧ r.endTs = some (s + j.runtime) := by
  by_cases hin : j.jobId ∈ remaining st
  · have hwait : j.jobId ∈ waiting st := by
      unfold remaining at hin
      rw [hevents] at hin
      simpa [queued] using hin
    obtain rfl := Option.some.inj ((h.unstarted j hj hwait).symm.trans hr)
    cases hs
  · obtain ⟨s', hrecord, hstart⟩ := h.done j hj hin
    obtain rfl := Option.some.inj (hrecord.symm.trans hr)
    obtain rfl := Option.some.inj hs
    exact ⟨hstart.1, rfl⟩

theorem mem_completed {m : MetricCollector} (hnodup : m.records.keys.Nodup) {id : String} :
    id ∈ completed m ↔ ∃ r, m.records.get? id = some r ∧ r.endTs.isSome := by
  unfold completed
  constructor
  · intro h
    obtain ⟨⟨id', r⟩, hmem, rfl⟩ := List.mem_map.mp h
    obtain ⟨hmem, hend⟩ := List.mem_filter.mp hmem
    exact ⟨r, Dict.get?_of_mem hnodup hmem, hend⟩
  · intro h
    obtain ⟨r, hget, hend⟩ := h
    exact List.mem_map.mpr ⟨(id, r), List.mem_filter.mpr ⟨Dict.get?_mem hget, hend⟩, rfl⟩

/-- The completed jobs, when there are no more events and no job fits. -/
theorem Ready.completed_iff (h : Ready jobs st) (hjobs : WellFormed jobs)
    (hevents : st.events = []) (hquiet : Quiet st) (id : String) :
    id ∈ completed st.metrics ↔
      ∃ j ∈ jobs, j.jobId = id ∧ (Cluster.init cfg).canAllocate j.toJob := by
  have hremaining : remaining st = ids st.pending := by
    unfold remaining waiting
    rw [hevents]
    simp [queued]
  rw [mem_completed (h.records ▸ hjobs.nodup)]
  constructor
  · rintro ⟨r, hr, hend⟩
    have hid : id ∈ ids jobs := h.records ▸ Dict.mem_keys_of_get? hr
    obtain ⟨j, hj, rfl⟩ := List.mem_map.mp hid
    refine ⟨j, hj, rfl, ?_⟩
    by_cases hin : j.jobId ∈ remaining st
    · have hwait : j.jobId ∈ waiting st :=
        List.mem_append_right _ (hremaining ▸ hin)
      obtain rfl := Option.some.inj ((h.unstarted j hj hwait).symm.trans hr)
      cases hend
    · obtain ⟨-, -, -, hcan⟩ := h.done j hj hin
      exact hcan
  · rintro ⟨j, hj, rfl, hcan⟩
    have hout : j.jobId ∉ remaining st := by
      rw [hremaining]
      intro hin
      obtain ⟨j', hj', hid⟩ := List.mem_map.mp hin
      obtain rfl : j' = j :=
        List.inj_on_of_nodup_map hjobs.nodup (h.pending j' hj').1 hj hid
      refine hquiet hevents j' hj' ?_
      rw [h.cluster_empty hevents]
      exact hcan
    obtain ⟨s, hrecord, -⟩ := h.done j hj hout
    exact ⟨_, hrecord, rfl⟩

/-- What a run of the trace should do. -/
structure RunsWell (nNodes gpusPerNode mpsPerGpu : ℕ)
    (sch : Scheduler (clusterConfig nNodes gpusPerNode mpsPerGpu) S) (scheduler : S)
    (latency : LatencyModel) (jobs : List ReplayJob) : Prop where
  /-- Its loop ends. -/
  terminates : ∃ turns, ∀ fuel ≥ turns,
    (runTrace nNodes gpusPerNode mpsPerGpu sch scheduler latency jobs fuel).isSome
  /-- The cluster is within its capacity all the time. -/
  capacity : ∀ m, Instant sch (byJobId jobs) (Replay.init _ scheduler latency jobs) m →
    WithinCapacity m.cluster
  /-- A job that was started was submitted before, and has ended `runtime` later. -/
  times : ∀ fuel metrics cluster,
    runTrace nNodes gpusPerNode mpsPerGpu sch scheduler latency jobs fuel = some (metrics, cluster) →
    ∀ j ∈ jobs, ∀ r, metrics.records.get? j.jobId = some r → ∀ s, r.startTs = some s →
      j.submitTs ≤ s ∧ r.endTs = some (s + j.runtime)
  /-- The jobs that have ended are those that the empty cluster has room for. -/
  completed : ∀ fuel metrics cluster,
    runTrace nNodes gpusPerNode mpsPerGpu sch scheduler latency jobs fuel = some (metrics, cluster) →
    ∀ id, id ∈ Runner.completed metrics ↔ ∃ j ∈ jobs, j.jobId = id ∧
      (Cluster.init (clusterConfig nNodes gpusPerNode mpsPerGpu)).canAllocate j.toJob

/-- With a scheduler that permutes the pending jobs and backfills, a latency
that is never negative and a trace of distinct ids and no negative amounts. -/
theorem run_correct {nNodes gpusPerNode mpsPerGpu : ℕ}
    {sch : Scheduler (clusterConfig nNodes gpusPerNode mpsPerGpu) S} {latency : LatencyModel}
    (hjobs : WellFormed jobs) (hlatency : NonnegLatency latency) (hperm : Permutes sch)
    (hbackfill : sch.backfill = true) (scheduler : S) :
    RunsWell nNodes gpusPerNode mpsPerGpu sch scheduler latency jobs := by
  have hready : Ready jobs
      (Replay.init (clusterConfig nNodes gpusPerNode mpsPerGpu) scheduler latency jobs) :=
    init_ready scheduler hjobs hlatency
  have hbyId := get?_byJobId hjobs
  have hend : ∀ fuel metrics cluster,
      runTrace nNodes gpusPerNode mpsPerGpu sch scheduler latency jobs fuel = some (metrics, cluster) →
      ∃ m : Replay (clusterConfig nNodes gpusPerNode mpsPerGpu) S, Ready jobs m ∧ m.events = [] ∧
        Quiet m ∧ metrics.records = m.metrics.records := by
    intro fuel metrics cluster hrun
    obtain ⟨m, hloop, hm⟩ := Option.map_eq_some_iff.mp hrun
    obtain ⟨rfl, -⟩ := Prod.mk.inj hm
    obtain ⟨hi, hevents, hquiet⟩ := loop_ends hperm hbackfill (init_quiet scheduler jobs) hloop
    exact ⟨m, hi.ready hperm hjobs hbyId hready, hevents, hquiet, rfl⟩
  exact {
    terminates := by
      refine ⟨2 * jobs.length, fun fuel hfuel => ?_⟩
      obtain ⟨m, hloop⟩ := loop_terminates hperm hjobs hbyId hready
        ((init_stepsLeft scheduler jobs).trans_le hfuel)
      unfold runTrace
      rw [hloop]
      rfl
    capacity := fun m hi => by
      obtain ⟨pl, haccounts⟩ := (hi.ready hperm hjobs hbyId hready).accounts
      exact accounts_within haccounts
    times := fun fuel metrics cluster hrun j hj r hr s hs => by
      obtain ⟨m, hm, hevents, -, hrecords⟩ := hend fuel metrics cluster hrun
      exact hm.record_times hevents hj (hrecords ▸ hr) hs
    completed := fun fuel metrics cluster hrun id => by
      obtain ⟨m, hm, hevents, hquiet, hrecords⟩ := hend fuel metrics cluster hrun
      have hcompleted : Runner.completed metrics = Runner.completed m.metrics := by
        unfold Runner.completed
        rw [hrecords]
      rw [hcompleted]
      exact hm.completed_iff hjobs hevents hquiet id }

end Runs

/-! ## Traces on one GPU -/

/-- First come, first served, with backfill. -/
def arrivalOrder (cfg : Config) : Scheduler cfg Unit where
  order pending _ _ s := (pending, s)
  backfill := true

theorem arrivalOrder_permutes (cfg : Config) : Permutes (arrivalOrder cfg) :=
  fun pending _ _ _ => List.Perm.refl pending

/-- A job of one GPU that is submitted at time 0. -/
def oneGpuJob (jobId : String) (mpsReq : ℤ) (runtime : ℚ) : ReplayJob where
  jobId := jobId
  gpuCount := 1
  mpsReq := mpsReq
  ramReq := 0
  gpuType := "rtx4070"
  submitTs := 0
  runtime := runtime

/-- A job that waits for the first, and one that is larger than the cluster. -/
theorem run_correct_three_jobs :
    RunsWell 1 1 100 (arrivalOrder _) () (LatencyModel.liveBasic 1 0 3 3 15 15 300)
      [oneGpuJob "a" 100 10, oneGpuJob "b" 50 0, { oneGpuJob "c" 100 5 with gpuCount := 2 }] := by
  refine run_correct ⟨?_, ?_, ?_⟩ (liveBasic_nonneg 1 0 3 3 15 15 300) (arrivalOrder_permutes _) rfl ()
  · decide
  · decide +kernel
  · decide +kernel

/-- A request of -50 slots lends them out, and its end takes them back. -/
theorem negative_request_overbooks :
    let jobs := [oneGpuJob "lends" (-50) 10, oneGpuJob "takes" 80 20, oneGpuJob "rest" 70 20]
    (ids jobs).Nodup ∧ (∀ j ∈ jobs, 0 ≤ j.runtime) ∧ NonnegLatency (LatencyModel.ofFixed 0) ∧
      Permutes (arrivalOrder (clusterConfig 1 1 100)) ∧
      (arrivalOrder (clusterConfig 1 1 100)).backfill = true ∧
      ¬ RunsWell 1 1 100 (arrivalOrder _) () (LatencyModel.ofFixed 0) jobs := by
  intro jobs
  refine ⟨by decide, by decide +kernel, ofFixed_nonneg 0, arrivalOrder_permutes _, rfl, fun h => ?_⟩
  let sch := arrivalOrder (clusterConfig 1 1 100)
  let start := Replay.init (clusterConfig 1 1 100) () (LatencyModel.ofFixed 0) jobs
  let third := (((start.turn sch (byJobId jobs)).turn sch (byJobId jobs)).turn sch (byJobId jobs))
  have hinstant : Instant sch (byJobId jobs) start (third.popEvent (byJobId jobs)) := by
    apply Instant.later (by decide +kernel)
    apply Instant.later (by decide +kernel)
    apply Instant.later (by decide +kernel)
    exact Instant.popped (by decide +kernel)
  have hfree := ((h.capacity _ hinstant).mps (0 : Fin 1) (0 : Fin 1)).1
  have hnegative :
      ((third.popEvent (byJobId jobs)).cluster.nodes (0 : Fin 1)).gpus (0 : Fin 1) = -50 := by
    decide +kernel
  rw [hnegative] at hfree
  exact absurd hfree (by decide)

end Kelpflux.Proof.Runner
