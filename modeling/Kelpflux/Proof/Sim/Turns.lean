import Kelpflux.Impl.Sim.Registry
import Kelpflux.Proof.Sim.Runner

/-!
# The order in which jobs start

A scheduler that puts a job before another, and that never has room for the
other alone (`KeepsTurns`), starts the first no later, up to the spread of the
start delays (`run_inTurn`): a started job leaves no more room than there was
(`canAllocate_of_fuller`), so the job that was tried first still does not fit.
First come, first served keeps the order of submission (`fcfs_in_order`), and so
all that is behind a job that never fits is never started
(`fcfs_completed_iff`). The schedulers of the registry keep the turns of jobs
that ask for the same (`alike_in_order`).
-/

namespace Kelpflux.Proof.Runner

open Framework Kelpflux.Impl.Sim Kelpflux.Proof.Sim

variable {cfg : Config} {S : Type}

/-! ## Room on a fuller cluster -/

section Fuller

variable {c c' : Cluster cfg} {pl : Placement cfg} {job : Job}

/-- Nothing is free on `c'` that is not on `c`. -/
structure Fuller (c c' : Cluster cfg) : Prop where
  mps : ∀ n g, (c'.nodes n).gpus g ≤ (c.nodes n).gpus g
  whole : ∀ n g, (c'.nodes n).gpus g = cfg.mpsPerGpu → (c.nodes n).gpus g = cfg.mpsPerGpu
  ram : ∀ n ramReq, c'.ramOk n ramReq → c.ramOk n ramReq

theorem freeFor_le (h : Fuller c c') (job : Job) (n : Fin cfg.nNodes) :
    freeFor c' job n ≤ freeFor c job n := by
  unfold freeFor
  by_cases hram : c'.ramOk n job.ramReq
  · rw [if_pos hram, if_pos (h.ram n _ hram)]
    apply List.Sublist.length_le
    apply List.monotone_filter_right
    intro g hg
    simpa using h.whole n g (by simpa using hg)
  · rw [if_neg hram]
    exact Nat.zero_le _

theorem canAllocate_of_fuller (h : Fuller c c') (hcan : c'.canAllocate job) :
    c.canAllocate job := by
  rw [canAllocate_iff] at hcan ⊢
  split
  · rename_i hfrac
    rw [if_pos hfrac] at hcan
    obtain ⟨n, g, hslots, hram⟩ := hcan
    exact ⟨n, g, hslots.trans (h.mps n g), h.ram n _ hram⟩
  · rename_i hfrac
    rw [if_neg hfrac] at hcan
    have hsum : wholeGpus c' job ≤ wholeGpus c job := List.sum_le_sum fun n _ => freeFor_le h job n
    omega

/-- A plan that is reserved only takes. -/
theorem reserve_fuller (h : Accounts c pl) {plan : Plan cfg} (hram : 0 ≤ job.ramReq)
    (hfits : Fits c job plan) : Fuller c (c.reserve job plan) := by
  have hnode := updateRam_addMps c.nodes (-1) plan (· + job.ramReq)
  have hgpus : ∀ n g,
      ((c.reserve job plan).nodes n).gpus g = (c.nodes n).gpus g - usage plan n g := by
    intro n g
    rw [show (c.reserve job plan).nodes n = _ from hnode n]
    ring
  constructor
  · intro n g
    have := hfits.nonneg n g
    rw [hgpus]
    omega
  · intro n g hwhole
    have := hfits.nonneg n g
    have := (h.mps_mem n g).2
    rw [hgpus] at hwhole
    omega
  · intro n ramReq hok
    unfold Cluster.ramOk at hok ⊢
    rw [show (c.reserve job plan).nodes n = _ from hnode n] at hok
    dsimp only at hok
    split at hok
    · linarith
    · exact hok

/-- Jobs that ask for the same fit the same clusters. -/
theorem canAllocate_congr {a b : Job} (hgpus : a.gpuCount = b.gpuCount) (hmps : a.mpsReq = b.mpsReq)
    (hram : a.ramReq = b.ramReq) (hcan : c.canAllocate b) : c.canAllocate a := by
  have hfrac : Cluster.fractional cfg a ↔ Cluster.fractional cfg b := by
    unfold Cluster.fractional
    rw [hgpus, hmps]
  have hwhole : wholeGpus c a = wholeGpus c b := by
    unfold wholeGpus freeFor
    rw [hram]
  rw [canAllocate_iff] at hcan ⊢
  by_cases h : Cluster.fractional cfg a
  · rw [if_pos (hfrac.mp h)] at hcan
    rw [if_pos h, hmps, hram]
    exact hcan
  · rw [if_neg (mt hfrac.mpr h)] at hcan
    rw [if_neg h, hgpus, hwhole]
    exact hcan

end Fuller

/-! ## Start times -/

/-- When a job was started. -/
def startOf (m : MetricCollector) (j : ReplayJob) : Option ℚ :=
  (m.records.get? j.jobId).bind fun r => r.startTs

theorem startOf_recordEnd (m : MetricCollector) (id : String) (t : ℚ) (j : ReplayJob) :
    startOf (m.recordEnd id t) j = startOf m j := by
  unfold startOf MetricCollector.recordEnd
  rw [get?_update]
  split
  · cases m.records.get? j.jobId <;> rfl
  · rfl

theorem startOf_recordStart_of_ne (m : MetricCollector) {id : String} (t : ℚ) {j : ReplayJob}
    (h : j.jobId ≠ id) : startOf (m.recordStart id t) j = startOf m j := by
  unfold startOf MetricCollector.recordStart
  rw [get?_update_of_ne _ _ h]

section Started

variable {jobs : List ReplayJob} {st : Replay cfg S} {j : ReplayJob}

theorem Ready.startOf_waiting (h : Ready jobs st) (hj : j ∈ jobs) (hwait : j.jobId ∈ waiting st) :
    startOf st.metrics j = none := by
  unfold startOf
  rw [h.unstarted j hj hwait]
  rfl

theorem Ready.startOf_started (h : Ready jobs st) (hj : j ∈ jobs) (hwait : j.jobId ∉ waiting st) :
    ∃ s, startOf st.metrics j = some s ∧ Startable cfg j s := by
  unfold startOf
  by_cases hin : j.jobId ∈ remaining st
  · have hend : j.jobId ∈ queued .jobEnd st.events := (List.mem_append.mp hin).resolve_left hwait
    obtain ⟨e, he, hid⟩ := List.mem_map.mp hend
    obtain ⟨he, hk⟩ := List.mem_filter.mp he
    obtain ⟨s, hrecord, -, hs⟩ := h.running j hj e he (of_decide_eq_true hk) hid
    exact ⟨s, by rw [hrecord]; rfl, hs⟩
  · obtain ⟨s, hrecord, hs⟩ := h.done j hj hin
    exact ⟨s, by rw [hrecord]; rfl, hs⟩

theorem Ready.startOf_start (h : Ready jobs st) (hj : j ∈ st.pending) (s : ℚ) :
    startOf (st.metrics.recordStart j.jobId s) j = some s := by
  have hwait : j.jobId ∈ waiting st := List.mem_append_right _ (List.mem_map_of_mem hj)
  unfold startOf MetricCollector.recordStart
  rw [get?_update, if_pos rfl, h.unstarted j (h.pending j hj).1 hwait]
  rfl

end Started

/-! ## Turns -/

/-- The delays of a latency model, whatever it has recorded. -/
def DelayWithin (m : LatencyModel) (lo hi : ℚ) : Prop :=
  ∀ active lastEnd job now,
    let m : LatencyModel := { m with activeByPool := active, lastEndByPool := lastEnd }
    lo ≤ m.startLatency job now ∧ m.startLatency job now ≤ hi

theorem ofFixed_within (fixedSeconds : ℚ) :
    DelayWithin (LatencyModel.ofFixed fixedSeconds) (max 0 fixedSeconds) (max 0 fixedSeconds) :=
  fun _ _ _ _ => ⟨le_rfl, le_rfl⟩

/-- What is added to the fixed delay is one of the model's delays. -/
theorem delayWithin_of_fields {m : LatencyModel} {most : ℚ}
    (hcpuWarm : 0 ≤ m.cpuWarmSeconds ∧ m.cpuWarmSeconds ≤ most)
    (hcpuCold : 0 ≤ m.cpuColdSeconds ∧ m.cpuColdSeconds ≤ most)
    (hgpuWarm : 0 ≤ m.gpuWarmSeconds ∧ m.gpuWarmSeconds ≤ most)
    (hgpuCold : 0 ≤ m.gpuColdSeconds ∧ m.gpuColdSeconds ≤ most)
    (hhard : 0 ≤ m.hardPlacementSeconds ∧ m.hardPlacementSeconds ≤ most) :
    DelayWithin m m.fixedSeconds (m.fixedSeconds + most) := by
  intro active lastEnd job now m'
  have hsum : ∀ {x}, 0 ≤ x ∧ x ≤ most →
      m.fixedSeconds ≤ m.fixedSeconds + x ∧ m.fixedSeconds + x ≤ m.fixedSeconds + most := by
    intro x hx
    constructor <;> linarith
  have hwarm : ∀ pool, 0 ≤ m.warmLatency pool ∧ m.warmLatency pool ≤ most := by
    intro pool
    unfold LatencyModel.warmLatency
    split
    · exact hgpuWarm
    · exact hcpuWarm
  have hcold : ∀ pool, 0 ≤ m.coldLatency pool ∧ m.coldLatency pool ≤ most := by
    intro pool
    unfold LatencyModel.coldLatency
    split
    · exact hgpuCold
    · exact hcpuCold
  show m.fixedSeconds ≤ LatencyModel.startLatency _ job now ∧
    LatencyModel.startLatency _ job now ≤ m.fixedSeconds + most
  unfold LatencyModel.startLatency
  dsimp only
  -- the mode, then the job's class, then the pool's last job
  split
  · constructor <;> linarith
  split
  · exact hsum hhard
  split
  · exact hsum hgpuWarm
  split
  · exact hsum hgpuCold
  split
  · exact hsum hcpuWarm
  split
  · exact hsum hcpuCold
  split
  · exact hsum (hwarm _)
  split
  · exact hsum (hcold _)
  split
  · exact hsum (hcold _)
  · exact hsum (hwarm _)

/-- The scheduler keeps the turns of some jobs: it puts a job before those that
it comes before, and skips it only where they would not fit either. -/
structure KeepsTurns (sch : Scheduler cfg S) (before : ReplayJob → ReplayJob → Prop) : Prop where
  earlier : ∀ {a b}, before a b → a.submitTs < b.submitTs
  ordered : ∀ pending c now s, (sch.order pending c now s).1.Pairwise fun a b => ¬ before b a
  alike : sch.backfill = true → ∀ {a b}, before a b → ∀ c : Cluster cfg, c.canAllocate b.toJob →
    c.canAllocate a.toJob

/-- Where a job has started, those before it have, at most `slack` later. -/
def InTurn (before : ReplayJob → ReplayJob → Prop) (slack : ℚ) (jobs : List ReplayJob)
    (m : MetricCollector) : Prop :=
  ∀ a ∈ jobs, ∀ b ∈ jobs, before a b → ∀ t, startOf m b = some t →
    ∃ s, startOf m a = some s ∧ s ≤ t + slack

/-- Between two turns of the loop. -/
structure TurnsKept (before : ReplayJob → ReplayJob → Prop) (lo hi : ℚ) (jobs : List ReplayJob)
    (st : Replay cfg S) : Prop where
  inTurn : InTurn before (hi - lo) jobs st.metrics
  delay : DelayWithin st.latency lo hi
  started : ∀ j ∈ jobs, ∀ s, startOf st.metrics j = some s → ∀ e ∈ st.events, s ≤ e.time + hi

/-- In a dispatch. -/
structure Starts (before : ReplayJob → ReplayJob → Prop) (lo hi : ℚ) (jobs : List ReplayJob)
    (st : Replay cfg S) : Prop where
  inTurn : InTurn before (hi - lo) jobs st.metrics
  delay : DelayWithin st.latency lo hi
  started : ∀ j ∈ jobs, ∀ s, startOf st.metrics j = some s → s ≤ st.now + hi
  ahead : ∀ e ∈ st.events, st.now ≤ e.time

section Turn

variable {jobs js : List ReplayJob} {st m : Replay cfg S} {sch : Scheduler cfg S}
  {byId : Dict String ReplayJob} {before : ReplayJob → ReplayJob → Prop} {lo hi : ℚ}

theorem Starts.turnsKept (h : Starts before lo hi jobs st) : TurnsKept before lo hi jobs st where
  inTurn := h.inTurn
  delay := h.delay
  started j hj s hs e he := by
    have := h.started j hj s hs
    have := h.ahead e he
    linarith

/-- What is started keeps the turns if no pending job comes before it. -/
theorem Starts.startJob (h : Starts before lo hi jobs st) (hready : Ready jobs st)
    (hjobs : WellFormed jobs) (hlo : 0 ≤ lo)
    (hearlier : ∀ {a b}, before a b → a.submitTs < b.submitTs) {j : ReplayJob}
    (hj : j ∈ st.pending) (hfirst : ∀ a ∈ st.pending, ¬ before a j) (cluster : Cluster cfg) :
    Starts before lo hi jobs (st.startJob j cluster) := by
  obtain ⟨hmem, hsubmit, hlater⟩ := hready.pending j hj
  obtain ⟨hless, hmore⟩ : lo ≤ st.latency.startLatency j st.now ∧
    st.latency.startLatency j st.now ≤ hi := h.delay _ _ j st.now
  have hself := hready.startOf_start hj (st.now + st.latency.startLatency j st.now)
  have hother : ∀ a ∈ jobs, a ≠ j →
      startOf (st.startJob j cluster).metrics a = startOf st.metrics a := by
    intro a ha hne
    refine startOf_recordStart_of_ne _ _ fun hid => hne ?_
    exact List.inj_on_of_nodup_map hjobs.nodup ha hmem hid
  have hruntime := hjobs.runtime j hmem
  constructor
  · intro a ha b hb hbefore t ht
    by_cases hbj : b = j
    · subst hbj
      obtain rfl := Option.some.inj (hself.symm.trans ht)
      have hne : a ≠ b := by
        rintro rfl
        exact lt_irrefl _ (hearlier hbefore)
      -- a job before it is neither to be submitted nor pending
      have hgone : a.jobId ∉ waiting st := by
        intro hwait
        rcases List.mem_append.mp hwait with hin | hin
        · obtain ⟨e, he, hid⟩ := List.mem_map.mp hin
          obtain ⟨he, hk⟩ := List.mem_filter.mp he
          have htime := hready.submits a ha e he (of_decide_eq_true hk) hid
          have := hlater e he
          have := hearlier hbefore
          linarith
        · obtain ⟨a', ha', hid⟩ := List.mem_map.mp hin
          have hmem' := (hready.pending a' ha').1
          obtain rfl : a' = a := List.inj_on_of_nodup_map hjobs.nodup hmem' ha hid
          exact hfirst a' ha' hbefore
      obtain ⟨s, hs, -⟩ := hready.startOf_started ha hgone
      refine ⟨s, (hother a ha hne).trans hs, ?_⟩
      have := h.started a ha s hs
      linarith
    · obtain ⟨s, hs, hle⟩ := h.inTurn a ha b hb hbefore t ((hother b hb hbj).symm.trans ht)
      refine ⟨s, (hother a ha ?_).trans hs, hle⟩
      rintro rfl
      have hwait : a.jobId ∈ waiting st := List.mem_append_right _ (List.mem_map_of_mem hj)
      rw [hready.startOf_waiting ha hwait] at hs
      cases hs
  · exact fun _ _ => h.delay _ _
  · intro a ha s hs
    by_cases haj : a = j
    · subst haj
      obtain rfl := Option.some.inj (hself.symm.trans hs)
      show st.now + _ ≤ st.now + hi
      linarith
    · exact h.started a ha s ((hother a ha haj).symm.trans hs)
  · intro e he
    rcases List.mem_cons.mp ((List.perm_orderedInsert Event.le _ st.events).subset he) with rfl | he
    · show st.now ≤ st.now + _ + j.runtime
      linarith
    · exact h.ahead e he

/-- Of the pending jobs, those that the dispatch has gone past do not fit. -/
theorem During.starts (hd : During sch.backfill js st m) (hkeeps : KeepsTurns sch before)
    (hjobs : WellFormed jobs) (hlo : 0 ≤ lo) (hready : Ready jobs st) (hnodup : js.Nodup)
    (hsub : js ⊆ st.pending) (hsorted : js.Pairwise fun a b => ¬ before b a)
    (hpast : ∀ a ∈ st.pending, a ∈ js ∨ sch.backfill = true ∧ ¬ st.cluster.canAllocate a.toJob)
    (h : Starts before lo hi jobs st) : Starts before lo hi jobs m := by
  induction hd with
  | now => exact h
  | @started j js st m plan cluster halloc _ ih =>
    obtain ⟨hnot, hnodup⟩ := List.nodup_cons.mp hnodup
    obtain ⟨hj, hjs⟩ := List.cons_subset.mp hsub
    obtain ⟨hahead, hsorted⟩ := List.pairwise_cons.mp hsorted
    have hmem := (hready.pending _ hj).1
    obtain ⟨hmps, hram⟩ := hjobs.requests _ hmem
    obtain ⟨hplan, rfl⟩ := tryAllocate_some halloc
    have hcan : st.cluster.canAllocate j.toJob := by simp [Cluster.canAllocate, hplan]
    obtain ⟨pl, haccounts⟩ := hready.accounts
    have hfuller : Fuller st.cluster (st.cluster.reserve j.toJob plan) :=
      reserve_fuller haccounts hram (plan_fits (fun n g => (haccounts.mps_mem n g).1) hmps hplan)
    refine ih (hready.startJob hjobs.nodup hj hmps hram (hjobs.runtime _ hmem) halloc) hnodup ?_
      hsorted ?_ (h.startJob hready hjobs hlo hkeeps.earlier hj ?_ _)
    · intro j' hj'
      refine (List.mem_erase_of_ne ?_).mpr (hjs hj')
      rintro rfl
      exact hnot hj'
    · intro a ha
      rcases hpast a (List.mem_of_mem_erase ha) with hin | ⟨hbackfill, hnone⟩
      · rcases List.mem_cons.mp hin with rfl | hin
        · have hpending : st.pending.Nodup := List.Nodup.of_map _
            (List.nodup_append.mp (List.nodup_append.mp hready.nodup).1).2.1
          exact absurd ha (List.Nodup.not_mem_erase hpending)
        · exact .inl hin
      · exact .inr ⟨hbackfill, fun hcan => hnone (canAllocate_of_fuller hfuller hcan)⟩
    · intro a ha hbefore
      rcases hpast a ha with hin | ⟨hbackfill, hnone⟩
      · rcases List.mem_cons.mp hin with rfl | hin
        · exact lt_irrefl _ (hkeeps.earlier hbefore)
        · exact hahead a hin hbefore
      · exact hnone (hkeeps.alike hbackfill hbefore _ hcan)
  | @skipped j js st m hnone hbackfill _ ih =>
    obtain ⟨-, hnodup⟩ := List.nodup_cons.mp hnodup
    obtain ⟨-, hjs⟩ := List.cons_subset.mp hsub
    refine ih hready hnodup hjs (List.pairwise_cons.mp hsorted).2 (fun a ha => ?_) h
    rcases hpast a ha with hin | hpast
    · rcases List.mem_cons.mp hin with rfl | hin
      · exact .inr ⟨hbackfill, hnone⟩
      · exact .inl hin
    · exact .inr hpast

theorem TurnsKept.popEvent (h : TurnsKept before lo hi jobs st) (hready : Ready jobs st)
    (hbyId : ∀ j ∈ jobs, byId.get? j.jobId = some j) (hevents : st.events ≠ []) :
    Starts before lo hi jobs (st.popEvent byId) := by
  obtain ⟨e, es, hcons⟩ := List.exists_cons_of_ne_nil hevents
  have hmem : e ∈ st.events := by simp [hcons]
  obtain ⟨hfirst, -⟩ := List.pairwise_cons.mp (hcons ▸ hready.sorted)
  have hahead : ∀ e' ∈ es, e.time ≤ e'.time := fun e' he' => Event.le_time (hfirst e' he')
  obtain ⟨j, -, -, ⟨-, hpop⟩ | ⟨-, hpop⟩⟩ := hready.popEvent_cases hbyId hcons
  · rw [hpop]
    exact ⟨h.inTurn, h.delay, fun j' hj' s hs => h.started j' hj' s hs e hmem, hahead⟩
  · rw [hpop]
    constructor
    · intro a ha b hb hbefore t ht
      dsimp only at ht ⊢
      rw [startOf_recordEnd] at ht ⊢
      exact h.inTurn a ha b hb hbefore t ht
    · exact fun _ _ => h.delay _ _
    · intro j' hj' s hs
      dsimp only at hs
      rw [startOf_recordEnd] at hs
      exact h.started j' hj' s hs e hmem
    · exact hahead

theorem TurnsKept.turn (h : TurnsKept before lo hi jobs st) (hkeeps : KeepsTurns sch before)
    (hperm : Permutes sch) (hjobs : WellFormed jobs) (hlo : 0 ≤ lo)
    (hbyId : ∀ j ∈ jobs, byId.get? j.jobId = some j) (hready : Ready jobs st)
    (hevents : st.events ≠ []) : TurnsKept before lo hi jobs (st.turn sch byId) := by
  have hpop := hready.popEvent hbyId
  obtain ⟨hnodup, hsub⟩ := order_pending hperm hpop
  have hstarts : Starts before lo hi jobs ((st.popEvent byId).order sch).2 :=
    { h.popEvent hready hbyId hevents with }
  have hdispatch := (During.dispatch sch.backfill _ _).starts hkeeps hjobs hlo (hpop.order sch)
    hnodup hsub (hkeeps.ordered _ _ _ _) (fun a ha => .inl ((hperm _ _ _ _).symm.subset ha)) hstarts
  exact { hdispatch.turnsKept with }

/-- What the turns of the loop keep holds at its end. -/
theorem loop_keeps (P : Replay cfg S → Prop)
    (hturn : ∀ st, st.events ≠ [] → P st → P (st.turn sch byId)) {fuel : ℕ} (h : P st)
    (hloop : Replay.loop sch byId fuel st = some m) : P m ∧ m.events = [] := by
  induction fuel generalizing st with
  | zero =>
    rw [Replay.loop] at hloop
    split at hloop
    · rename_i hevents
      obtain rfl := Option.some.inj hloop
      exact ⟨h, hevents⟩
    · cases hloop
  | succ fuel ih =>
    rw [Replay.loop] at hloop
    split at hloop
    · rename_i hevents
      obtain rfl := Option.some.inj hloop
      exact ⟨h, hevents⟩
    · rename_i hevents
      exact ih (hturn st hevents h) hloop

end Turn

/-! ## Whole runs -/

section Runs

variable {jobs : List ReplayJob} {nNodes gpusPerNode mpsPerGpu : ℕ}
  {sch : Scheduler (clusterConfig nNodes gpusPerNode mpsPerGpu) S}
  {before : ReplayJob → ReplayJob → Prop} {lo hi : ℚ} {latency : LatencyModel}

theorem DelayWithin.nonneg (h : DelayWithin latency lo hi) (hlo : 0 ≤ lo) : NonnegLatency latency :=
  fun active lastEnd job now => hlo.trans (h active lastEnd job now).1

theorem init_turnsKept (scheduler : S) (hjobs : WellFormed jobs) (h : DelayWithin latency lo hi) :
    TurnsKept before lo hi jobs (Replay.init cfg scheduler latency jobs) := by
  have hnone : ∀ j ∈ jobs, startOf (Replay.init cfg scheduler latency jobs).metrics j = none := by
    intro j hj
    show ((jobs.foldl MetricCollector.recordSubmit {}).records.get? j.jobId).bind _ = none
    rw [get?_records hjobs hj]
    rfl
  constructor
  · intro a ha b hb hbefore t ht
    rw [hnone b hb] at ht
    cases ht
  · exact h
  · intro j hj s hs
    rw [hnone j hj] at hs
    cases hs

/-- What a run ends in, with what the turns of its loop keep. -/
theorem runTrace_keeps (scheduler : S) (hjobs : WellFormed jobs) (hlo : 0 ≤ lo)
    (hdelay : DelayWithin latency lo hi) (hperm : Permutes sch) (hkeeps : KeepsTurns sch before)
    (P : Replay (clusterConfig nNodes gpusPerNode mpsPerGpu) S → Prop)
    (hinit : P (Replay.init _ scheduler latency jobs))
    (hturn : ∀ st : Replay _ S, P (st.turn sch (byJobId jobs))) {fuel : ℕ}
    {metrics : MetricCollector} {cluster : Cluster (clusterConfig nNodes gpusPerNode mpsPerGpu)}
    (hrun : runTrace nNodes gpusPerNode mpsPerGpu sch scheduler latency jobs fuel =
      some (metrics, cluster)) :
    ∃ m : Replay (clusterConfig nNodes gpusPerNode mpsPerGpu) S, Ready jobs m ∧ m.events = [] ∧
      InTurn before (hi - lo) jobs m.metrics ∧ P m ∧ metrics.records = m.metrics.records := by
  have hbyId := get?_byJobId hjobs
  obtain ⟨m, hloop, hm⟩ := Option.map_eq_some_iff.mp hrun
  obtain ⟨rfl, -⟩ := Prod.mk.inj hm
  obtain ⟨⟨hready, hkept, hP⟩, hevents⟩ := loop_keeps
    (fun st => Ready jobs st ∧ TurnsKept before lo hi jobs st ∧ P st)
    (fun st hevents h => ⟨turn_ready hperm hjobs hbyId h.1,
      h.2.1.turn hkeeps hperm hjobs hlo hbyId h.1 hevents, hturn st⟩)
    ⟨init_ready scheduler hjobs (hdelay.nonneg hlo), init_turnsKept scheduler hjobs hdelay, hinit⟩
    hloop
  exact ⟨m, hready, hevents, hkept.inTurn, hP, rfl⟩

/-- A scheduler that keeps the turns of jobs, on a trace of distinct ids and no
negative amounts. -/
theorem run_inTurn (scheduler : S) (hjobs : WellFormed jobs) (hlo : 0 ≤ lo)
    (hdelay : DelayWithin latency lo hi) (hperm : Permutes sch) (hkeeps : KeepsTurns sch before)
    {fuel : ℕ} {metrics : MetricCollector}
    {cluster : Cluster (clusterConfig nNodes gpusPerNode mpsPerGpu)}
    (hrun : runTrace nNodes gpusPerNode mpsPerGpu sch scheduler latency jobs fuel =
      some (metrics, cluster)) : InTurn before (hi - lo) jobs metrics := by
  obtain ⟨m, -, -, hinTurn, -, hrecords⟩ := runTrace_keeps scheduler hjobs hlo hdelay hperm hkeeps
    (fun _ => True) trivial (fun _ => trivial) hrun
  unfold InTurn startOf at hinTurn ⊢
  rw [hrecords]
  exact hinTurn

theorem runTrace_ends (scheduler : S) (hjobs : WellFormed jobs) (hlatency : NonnegLatency latency)
    (hperm : Permutes sch) {fuel : ℕ} (hfuel : 2 * jobs.length ≤ fuel) :
    ∃ r, runTrace nNodes gpusPerNode mpsPerGpu sch scheduler latency jobs fuel = some r := by
  obtain ⟨m, hloop⟩ := loop_terminates hperm hjobs (get?_byJobId hjobs)
    (init_ready scheduler hjobs hlatency) ((init_stepsLeft scheduler jobs).trans_le hfuel)
  exact ⟨_, by rw [runTrace, hloop]; rfl⟩

end Runs

/-! ## Orders by a key -/

/-- What is put in the order of a key keeps the turns that the key tells. -/
theorem insertionSort_turns {κ : Type} [LinearOrder κ] {before : ReplayJob → ReplayJob → Prop}
    (key : ReplayJob → κ) (h : ∀ a b, before a b → key a < key b) (pending : List ReplayJob) :
    (pending.insertionSort fun a b => key a ≤ key b).Pairwise fun a b => ¬ before b a :=
  haveI : Std.Total fun a b : ReplayJob => key a ≤ key b := ⟨fun _ _ => le_total _ _⟩
  haveI : IsTrans ReplayJob fun a b => key a ≤ key b := ⟨fun _ _ _ => le_trans⟩
  (List.pairwise_insertionSort _ pending).imp fun hle hbefore => (h _ _ hbefore).not_ge hle

/-! ## First come, first served -/

section Fcfs

/-- One job is submitted before the other. -/
def Earlier (a b : ReplayJob) : Prop := a.submitTs < b.submitTs

theorem fcfs_permutes (cfg : Config) : Permutes (fcfs cfg) :=
  fun _ _ _ _ => List.perm_insertionSort _ _

theorem arrivalKey_lt {a b : ReplayJob} (h : Earlier a b) : arrivalKey a < arrivalKey b :=
  Prod.Lex.toLex_lt_toLex.mpr (.inl h)

theorem fcfs_keepsTurns (cfg : Config) : KeepsTurns (fcfs cfg) Earlier where
  earlier h := h
  ordered pending _ _ _ := insertionSort_turns arrivalKey (fun _ _ h => arrivalKey_lt h) pending
  alike hbackfill := by cases hbackfill

variable {jobs : List ReplayJob} {nNodes gpusPerNode mpsPerGpu : ℕ} {lo hi : ℚ}
  {latency : LatencyModel}

/-- Jobs start in the order of their submission, up to the spread of the
delays. -/
theorem fcfs_in_order (hjobs : WellFormed jobs) (hlo : 0 ≤ lo) (hdelay : DelayWithin latency lo hi)
    {fuel : ℕ} (hfuel : 2 * jobs.length ≤ fuel) :
    ∃ metrics cluster,
      runTrace nNodes gpusPerNode mpsPerGpu (fcfs _) () latency jobs fuel =
        some (metrics, cluster) ∧
      ∀ a ∈ jobs, ∀ b ∈ jobs, a.submitTs < b.submitTs → ∀ t, startOf metrics b = some t →
        ∃ s, startOf metrics a = some s ∧ s ≤ t + (hi - lo) := by
  obtain ⟨⟨metrics, cluster⟩, hrun⟩ := runTrace_ends () hjobs (hdelay.nonneg hlo)
    (fcfs_permutes _) hfuel
  exact ⟨metrics, cluster, hrun,
    run_inTurn () hjobs hlo hdelay (fcfs_permutes _) (fcfs_keepsTurns _) hrun⟩

/-- A part of a GPU, two GPUs, and what fits beside the first but is behind the
second. -/
def queueJobs : List ReplayJob :=
  [oneGpuJob "a" 60 10, { oneGpuJob "b" 100 5 with gpuCount := 2, submitTs := 1 },
    { oneGpuJob "c" 60 10 with submitTs := 2 }]

theorem queueJobs_wellFormed : WellFormed queueJobs := by
  refine ⟨?_, ?_, ?_⟩
  · decide
  · decide +kernel
  · decide +kernel

theorem fcfs_in_order_three : ∃ metrics cluster,
    runTrace 1 2 100 (fcfs _) () (LatencyModel.ofFixed 2) queueJobs 6 = some (metrics, cluster) ∧
    ∀ a ∈ queueJobs, ∀ b ∈ queueJobs, a.submitTs < b.submitTs → ∀ t, startOf metrics b = some t →
      ∃ s, startOf metrics a = some s ∧ s ≤ t + (max 0 2 - max 0 2) :=
  fcfs_in_order queueJobs_wellFormed (le_max_left 0 2) (ofFixed_within 2) (by decide)

/-- A dispatch without backfill that leaves no events has started nothing: its
first job does not fit. -/
theorem dispatch_blocked {st : Replay cfg S} {j : ReplayJob} {js : List ReplayJob}
    (h : (st.dispatch false (j :: js)).events = []) :
    st.dispatch false (j :: js) = st ∧ ¬ st.cluster.canAllocate j.toJob := by
  unfold Replay.dispatch at h ⊢
  split at h
  · exact absurd h ((During.dispatch false js _).events_ne (heappush_ne_nil _ _))
  · rename_i halloc
    exact ⟨rfl, tryAllocate_none halloc⟩

/-- No event left, and each pending job waits for one that does not fit. -/
def HeadBlocks (st : Replay cfg S) : Prop :=
  st.events = [] → ∀ j ∈ st.pending, ∃ a ∈ st.pending, a.submitTs ≤ j.submitTs ∧
    ¬ st.cluster.canAllocate a.toJob

theorem turn_headBlocks (st : Replay cfg Unit) (byId : Dict String ReplayJob) :
    HeadBlocks (st.turn (fcfs cfg) byId) := by
  intro hevents j hj
  have hsorted := (fcfs_keepsTurns cfg).ordered (st.popEvent byId).pending
    (st.popEvent byId).cluster (st.popEvent byId).now ()
  have hperm := fcfs_permutes cfg (st.popEvent byId).pending (st.popEvent byId).cluster
    (st.popEvent byId).now ()
  have hturn : st.turn (fcfs cfg) byId =
      (((st.popEvent byId).order (fcfs cfg)).2.dispatch false
        ((st.popEvent byId).order (fcfs cfg)).1).sampleUtil := rfl
  cases hjs : ((st.popEvent byId).order (fcfs cfg)).1 with
  | nil =>
    rw [hturn, hjs] at hj
    have hnil : (st.popEvent byId).pending = [] := (hjs ▸ hperm).symm.eq_nil
    have hin : j ∈ (st.popEvent byId).pending := hj
    rw [hnil] at hin
    cases hin
  | cons a js =>
    rw [hjs] at hturn
    have hend : (((st.popEvent byId).order (fcfs cfg)).2.dispatch false (a :: js)).events = [] := by
      rw [hturn] at hevents
      exact hevents
    obtain ⟨hsame, hnone⟩ := dispatch_blocked hend
    rw [hturn, hsame] at hj ⊢
    refine ⟨a, hperm.subset (hjs ▸ List.mem_cons_self), ?_, hnone⟩
    rcases List.mem_cons.mp (hjs ▸ hperm.symm.subset hj) with rfl | hin
    · exact le_rfl
    · exact not_lt.mp ((List.pairwise_cons.mp (hjs ▸ hsorted)).1 j hin)

/-- A job is completed if all jobs that were submitted no later fit the empty
cluster, and only if it fits and those that were submitted earlier do. -/
theorem fcfs_completed (hjobs : WellFormed jobs) (hlo : 0 ≤ lo) (hdelay : DelayWithin latency lo hi)
    {fuel : ℕ} (hfuel : 2 * jobs.length ≤ fuel) :
    ∃ metrics cluster,
      runTrace nNodes gpusPerNode mpsPerGpu (fcfs _) () latency jobs fuel =
        some (metrics, cluster) ∧
      ∀ j ∈ jobs,
        ((∀ a ∈ jobs, a.submitTs ≤ j.submitTs →
            (Cluster.init (clusterConfig nNodes gpusPerNode mpsPerGpu)).canAllocate a.toJob) →
          j.jobId ∈ completed metrics) ∧
        (j.jobId ∈ completed metrics → ∀ a ∈ jobs, a = j ∨ a.submitTs < j.submitTs →
          (Cluster.init (clusterConfig nNodes gpusPerNode mpsPerGpu)).canAllocate a.toJob) := by
  obtain ⟨⟨metrics, cluster⟩, hrun⟩ := runTrace_ends () hjobs (hdelay.nonneg hlo) (fcfs_permutes _)
    hfuel
  refine ⟨metrics, cluster, hrun, fun j hj => ?_⟩
  obtain ⟨m, hready, hevents, hinTurn, hblocked, hrecords⟩ := runTrace_keeps () hjobs hlo hdelay
    (fcfs_permutes _) (fcfs_keepsTurns _) HeadBlocks (fun _ _ hin => absurd hin List.not_mem_nil)
    (fun st => turn_headBlocks st _) hrun
  have hwaiting : waiting m = ids m.pending := by
    unfold waiting
    rw [hevents]
    rfl
  have hremaining : remaining m = waiting m := by
    unfold remaining
    rw [hevents]
    exact List.append_nil _
  have hnodup : m.metrics.records.keys.Nodup := hready.records ▸ hjobs.nodup
  have hcompleted : j.jobId ∈ completed metrics ↔ j.jobId ∉ waiting m := by
    unfold completed
    rw [hrecords]
    refine (mem_completed hnodup).trans ⟨?_, fun hout => ?_⟩
    · rintro ⟨r, hr, hend⟩ hwait
      obtain rfl := Option.some.inj ((hready.unstarted j hj hwait).symm.trans hr)
      cases hend
    · obtain ⟨s, hrecord, -⟩ := hready.done j hj (hremaining ▸ hout)
      exact ⟨_, hrecord, rfl⟩
  rw [hcompleted]
  constructor
  · intro hfits hwait
    obtain ⟨j', hj', hid⟩ := List.mem_map.mp (hwaiting ▸ hwait)
    obtain rfl : j' = j := List.inj_on_of_nodup_map hjobs.nodup (hready.pending j' hj').1 hj hid
    obtain ⟨a, ha, hle, hnone⟩ := hblocked hevents j' hj'
    rw [hready.cluster_empty hevents] at hnone
    exact hnone (hfits a (hready.pending a ha).1 hle)
  · intro hout a ha hbefore
    obtain ⟨t, ht, hstart⟩ := hready.startOf_started hj hout
    rcases hbefore with rfl | hbefore
    · exact hstart.2
    · obtain ⟨s, hs, -⟩ := hinTurn a ha j hj hbefore t ht
      have hgone : a.jobId ∉ waiting m := by
        intro hwait
        rw [hready.startOf_waiting ha hwait] at hs
        cases hs
      obtain ⟨_, -, hfits⟩ := hready.startOf_started ha hgone
      exact hfits.2

/-- On one GPU the second never fits, and keeps the third waiting. -/
theorem fcfs_completed_three : ∃ metrics cluster,
    runTrace 1 1 100 (fcfs _) () (LatencyModel.ofFixed 2) queueJobs 6 = some (metrics, cluster) ∧
    ∀ j ∈ queueJobs,
      ((∀ a ∈ queueJobs, a.submitTs ≤ j.submitTs →
          (Cluster.init (clusterConfig 1 1 100)).canAllocate a.toJob) →
        j.jobId ∈ completed metrics) ∧
      (j.jobId ∈ completed metrics → ∀ a ∈ queueJobs, a = j ∨ a.submitTs < j.submitTs →
        (Cluster.init (clusterConfig 1 1 100)).canAllocate a.toJob) :=
  fcfs_completed queueJobs_wellFormed (le_max_left 0 2) (ofFixed_within 2) (by decide)

end Fcfs

/-! ## The schedulers of the registry -/

section Registry

/-- One job is submitted before another that asks for the same. -/
structure EarlierAlike (a b : ReplayJob) : Prop where
  submitTs : a.submitTs < b.submitTs
  gpuCount : a.gpuCount = b.gpuCount
  mpsReq : a.mpsReq = b.mpsReq
  ramReq : a.ramReq = b.ramReq
  gpuType : a.gpuType = b.gpuType
  runtime : a.runtime = b.runtime

/-- No job of the trace divides the score by zero. -/
structure AsksSlots (jobs : List ReplayJob) : Prop extends WellFormed jobs where
  slots : ∀ j ∈ jobs, 0 < j.mpsReq

/-- Nor do the keyword arguments, and a job that waits does not lose by it. -/
structure Weighs (kwargs : ScoreScheduler) : Prop where
  wAge : 0 ≤ kwargs.wAge
  ageRef : 0 < kwargs.ageRef
  mpsPerNode : 0 < kwargs.mpsPerNode

/-- The model's order is that of `ScoreScheduler.order`. -/
theorem scored_order (num : Numeric) (s : ScoreScheduler) (pending : List ReplayJob)
    (c : Cluster cfg) (now : ℚ) :
    (((scoreScheduler cfg num s).order pending c now ()).1.map fun j => j.toTraceJob) =
      s.order num (pending.map fun j => j.toTraceJob) c now := by
  apply List.map_insertionSort
  intro a _ b _
  rw [Prod.Lex.toLex_le_toLex, neg_lt_neg_iff, neg_inj]
  unfold arrivalKey
  rw [Prod.Lex.toLex_le_toLex]

theorem priorityOrder_turns {priority : ReplayJob → ℚ}
    (h : ∀ a b, EarlierAlike a b → priority b ≤ priority a) (pending : List ReplayJob) :
    (priorityOrder priority pending).Pairwise fun a b => ¬ EarlierAlike b a := by
  refine insertionSort_turns _ (fun a b hbefore => ?_) pending
  rw [Prod.Lex.toLex_lt_toLex, neg_lt_neg_iff, neg_inj]
  rcases (h a b hbefore).lt_or_eq with hlt | heq
  · exact .inl hlt
  · exact .inr ⟨heq.symm, arrivalKey_lt hbefore.submitTs⟩

/-- A job that has waited longer has no less priority, if it asks for as many
GPUs. -/
theorem priority_anti {s : MultifactorScheduler} (hage : 0 ≤ s.wAge) (href : 0 < s.ageRef)
    {a b : ReplayJob} (h : EarlierAlike a b) (now : ℚ) (maxGpu : ℤ) :
    s.priority b.toTraceJob now maxGpu ≤ s.priority a.toTraceJob now maxGpu := by
  have hless := h.submitTs
  have hwaited : (now - b.submitTs) / s.ageRef ≤ (now - a.submitTs) / s.ageRef :=
    div_le_div_of_nonneg_right (by linarith) href.le
  have hnorm : min 1 (max 0 ((now - b.submitTs) / s.ageRef)) ≤
      min 1 (max 0 ((now - a.submitTs) / s.ageRef)) := min_le_min_left 1 (max_le_max_left 0 hwaited)
  have hweighed := mul_le_mul_of_nonneg_left hnorm hage
  unfold MultifactorScheduler.priority
  rw [h.gpuCount]
  dsimp only
  linarith

theorem score_alike (num : Numeric) (s : ScoreScheduler) (c : Cluster cfg) {a b : ReplayJob}
    (h : EarlierAlike a b) : s.score num a.toTraceJob c = s.score num b.toTraceJob c := by
  unfold ScoreScheduler.score ScoreScheduler.fMpsFit ScoreScheduler.fVramFit
    ScoreScheduler.fFragmentation ScoreScheduler.fRuntimeShort
  rw [h.mpsReq, h.gpuType, h.gpuCount, h.runtime]

theorem total_anti {s : ScoreScheduler} (hage : 0 ≤ s.wAge) (href : 0 < s.ageRef) (num : Numeric)
    (pending : List TraceJob) (c : Cluster cfg) (now : ℚ) {a b : ReplayJob} (h : EarlierAlike a b) :
    s.total num pending c now b.toTraceJob ≤ s.total num pending c now a.toTraceJob := by
  unfold ScoreScheduler.total
  rw [score_alike num s c h]
  have hpriority := priority_anti hage href h now
  exact add_le_add (hpriority _) le_rfl

theorem alike_canAllocate {a b : ReplayJob} (h : EarlierAlike a b) (c : Cluster cfg)
    (hcan : c.canAllocate b.toJob) : c.canAllocate a.toJob :=
  canAllocate_congr h.gpuCount h.mpsReq h.ramReq hcan

theorem make_keepsTurns {num : Numeric} {kwargs : ScoreScheduler} (hkwargs : Weighs kwargs)
    {name : String} {sch : Scheduler cfg Unit} (h : make cfg num kwargs name = some sch) :
    Permutes sch ∧ KeepsTurns sch EarlierAlike := by
  unfold make at h
  split at h
  · obtain rfl := Option.some.inj h
    refine ⟨fcfs_permutes cfg, fun h => h.submitTs, fun pending _ _ _ => ?_, fun hbackfill => ?_⟩
    · exact insertionSort_turns arrivalKey (fun _ _ h => arrivalKey_lt h.submitTs) pending
    · cases hbackfill
  split at h
  · obtain rfl := Option.some.inj h
    refine ⟨fun _ _ _ _ => List.perm_insertionSort _ _, fun h => h.submitTs,
      fun pending _ now _ => ?_, fun _ _ _ => alike_canAllocate⟩
    exact priorityOrder_turns (fun _ _ h => priority_anti hkwargs.wAge hkwargs.ageRef h now _)
      pending
  split at h
  · obtain rfl := Option.some.inj h
    refine ⟨fun _ _ _ _ => List.perm_insertionSort _ _, fun h => h.submitTs,
      fun pending c now _ => ?_, fun _ _ _ => alike_canAllocate⟩
    exact priorityOrder_turns (fun _ _ h => total_anti hkwargs.wAge hkwargs.ageRef num _ c now h)
      pending
  · cases h

/-- Whichever scheduler a run is given by its name, of two jobs that ask for the
same the one submitted first starts first, up to the spread of the delays. -/
theorem alike_in_order {jobs : List ReplayJob} {nNodes gpusPerNode mpsPerGpu : ℕ} {lo hi : ℚ}
    {latency : LatencyModel} {num : Numeric} {kwargs : ScoreScheduler} (hkwargs : Weighs kwargs)
    {name : String} {sch : Scheduler (clusterConfig nNodes gpusPerNode mpsPerGpu) Unit}
    (hmake : make _ num kwargs name = some sch) (hjobs : AsksSlots jobs) (hlo : 0 ≤ lo)
    (hdelay : DelayWithin latency lo hi) {fuel : ℕ} (hfuel : 2 * jobs.length ≤ fuel) :
    ∃ metrics cluster,
      runTrace nNodes gpusPerNode mpsPerGpu sch () latency jobs fuel = some (metrics, cluster) ∧
      ∀ a ∈ jobs, ∀ b ∈ jobs, EarlierAlike a b → ∀ t, startOf metrics b = some t →
        ∃ s, startOf metrics a = some s ∧ s ≤ t + (hi - lo) := by
  obtain ⟨hperm, hkeeps⟩ := make_keepsTurns hkwargs hmake
  obtain ⟨⟨metrics, cluster⟩, hrun⟩ :=
    runTrace_ends () hjobs.toWellFormed (hdelay.nonneg hlo) hperm hfuel
  exact ⟨metrics, cluster, hrun, run_inTurn () hjobs.toWellFormed hlo hdelay hperm hkeeps hrun⟩

/-- On one node the score takes no square root. -/
def noNumeric : Numeric := ⟨fun _ => 0, fun _ => 0, fun _ => 0, fun _ => 0, fun _ => 0, 0⟩

/-- The first and the third ask for the same. -/
theorem alike_in_order_three : ∃ metrics cluster,
    runTrace 1 2 100 (scoreScheduler _ noNumeric {}) () (LatencyModel.liveBasic 1 0 3 3 15 15 300)
      queueJobs 6 = some (metrics, cluster) ∧
    ∀ a ∈ queueJobs, ∀ b ∈ queueJobs, EarlierAlike a b → ∀ t, startOf metrics b = some t →
      ∃ s, startOf metrics a = some s ∧ s ≤ t + (max 0 1 + 15 - max 0 1) := by
  have hmake : make (clusterConfig 1 2 100) noNumeric {} "score" =
      some (scoreScheduler _ noNumeric {}) := rfl
  have hdelay : DelayWithin (LatencyModel.liveBasic 1 0 3 3 15 15 300)
      (max 0 1) (max 0 1 + 15) := by
    apply delayWithin_of_fields
    all_goals decide +kernel
  refine alike_in_order ⟨?_, ?_, ?_⟩ hmake ⟨queueJobs_wellFormed, ?_⟩ (le_max_left 0 1) hdelay
    (by decide)
  · decide +kernel
  · decide +kernel
  · decide +kernel
  · decide

end Registry

end Kelpflux.Proof.Runner
