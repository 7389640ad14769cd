import Kelpflux.Impl.Sim.Runner
import Kelpflux.Proof.Sim.Capacity
import Kelpflux.Proof.Sim.Episode
import Mathlib.Algebra.Notation.Lemmas

/-!
# A replay's jobs

A job of the trace is queued for submission, pending, running or done, and its
record says which (`Ready`). An event that is popped (`Ready.popEvent`) and a
job that is started (`Ready.startJob`) move one job on; a job that is started
fits the empty cluster too (`canAllocate_init`).
-/

namespace Kelpflux.Proof.Runner

open Framework Kelpflux.Impl.Sim Kelpflux.Proof.Sim

variable {cfg : Config} {S : Type}

/-- No GPU and no host has given more than it has. -/
structure WithinCapacity (c : Cluster cfg) : Prop where
  mps : ∀ n g, 0 ≤ (c.nodes n).gpus g ∧ (c.nodes n).gpus g ≤ cfg.mpsPerGpu
  ram : ∀ n, 0 ≤ (c.nodes n).usedRamGb ∧
    (c.nodes n).usedRamGb ≤ (c.nodes n).ramGb * cfg.ramOvercommit + 1 / 10 ^ 9

/-- No delay is negative, whatever the model has recorded. -/
def NonnegLatency (m : LatencyModel) : Prop :=
  ∀ active lastEnd job now,
    0 ≤ ({ m with activeByPool := active, lastEndByPool := lastEnd } : LatencyModel).startLatency
      job now

/-- A trace of distinct ids, and of no negative runtimes and requests. -/
structure WellFormed (jobs : List ReplayJob) : Prop where
  nodup : (jobs.map fun j => j.jobId).Nodup
  runtime : ∀ j ∈ jobs, 0 ≤ j.runtime
  requests : ∀ j ∈ jobs, 0 ≤ j.mpsReq ∧ 0 ≤ j.ramReq

/-! ## Latency models -/

/-- A model of no negative fields. -/
theorem nonnegLatency_of_fields {m : LatencyModel} (hfixed : 0 ≤ m.fixedSeconds)
    (hcpuWarm : 0 ≤ m.cpuWarmSeconds) (hcpuCold : 0 ≤ m.cpuColdSeconds)
    (hgpuWarm : 0 ≤ m.gpuWarmSeconds) (hgpuCold : 0 ≤ m.gpuColdSeconds)
    (hhard : 0 ≤ m.hardPlacementSeconds) : NonnegLatency m := by
  intro active lastEnd job now
  have hwarm : ∀ pool, 0 ≤ m.warmLatency pool := by
    intro pool
    unfold LatencyModel.warmLatency
    split
    · exact hgpuWarm
    · exact hcpuWarm
  have hcold : ∀ pool, 0 ≤ m.coldLatency pool := by
    intro pool
    unfold LatencyModel.coldLatency
    split
    · exact hgpuCold
    · exact hcpuCold
  have hsum : ∀ {x : ℚ}, 0 ≤ x → 0 ≤ m.fixedSeconds + x := fun hx => add_nonneg hfixed hx
  -- the mode, then the job's class, then the pool's last job
  refine ite_nonneg hfixed (ite_nonneg (hsum hhard) (ite_nonneg (hsum hgpuWarm)
    (ite_nonneg (hsum hgpuCold) (ite_nonneg (hsum hcpuWarm) (ite_nonneg (hsum hcpuCold)
    (ite_nonneg (hsum (hwarm _)) ?_))))))
  split
  · exact hsum (hcold _)
  · exact ite_nonneg (hsum (hcold _)) (hsum (hwarm _))

theorem ofFixed_nonneg (fixedSeconds : ℚ) : NonnegLatency (LatencyModel.ofFixed fixedSeconds) :=
  fun _ _ _ _ => le_max_left 0 fixedSeconds

theorem liveBasic_nonneg
    (fixed cpuWarm cpuCold gpuWarm gpuCold hardPlacement coldAfter : ℚ) :
    NonnegLatency
      (LatencyModel.liveBasic fixed cpuWarm cpuCold gpuWarm gpuCold hardPlacement coldAfter) :=
  nonnegLatency_of_fields (le_max_left ..) (le_max_left ..) (le_max_left ..) (le_max_left ..)
    (le_max_left ..) (le_max_left ..)

/-! ## The invariant -/

def ids (jobs : List ReplayJob) : List String := jobs.map fun j => j.jobId

/-- The jobs that are not started. -/
def waiting (st : Replay cfg S) : List String := queued .submit st.events ++ ids st.pending

/-- Those that are not done. -/
def remaining (st : Replay cfg S) : List String := waiting st ++ queued .jobEnd st.events

/-- The job has a record with these times. -/
def Recorded (st : Replay cfg S) (j : ReplayJob) (startTs endTs : Option ℚ) : Prop :=
  st.metrics.records.get? j.jobId =
    some { JobRecord.submitted j with startTs := startTs, endTs := endTs }

/-- The job was started when it could be. -/
def Startable (cfg : Config) (j : ReplayJob) (startTs : ℚ) : Prop :=
  j.submitTs ≤ startTs ∧ (Cluster.init cfg).canAllocate j.toJob

structure Ready (jobs : List ReplayJob) (st : Replay cfg S) : Prop where
  nodup : (remaining st).Nodup
  trace : remaining st ⊆ ids jobs
  unstarted : ∀ j ∈ jobs, j.jobId ∈ waiting st → Recorded st j none none
  running : ∀ j ∈ jobs, ∀ e ∈ st.events, e.kind = .jobEnd → e.jobId = j.jobId →
    ∃ s, Recorded st j (some s) none ∧ e.time = s + j.runtime ∧ Startable cfg j s
  done : ∀ j ∈ jobs, j.jobId ∉ remaining st →
    ∃ s, Recorded st j (some s) (some (s + j.runtime)) ∧ Startable cfg j s
  submits : ∀ j ∈ jobs, ∀ e ∈ st.events, e.kind = .submit → e.jobId = j.jobId → e.time = j.submitTs
  pending : ∀ j ∈ st.pending, j ∈ jobs ∧ j.submitTs ≤ st.now ∧ ∀ e ∈ st.events, j.submitTs ≤ e.time
  sorted : st.events.Pairwise Event.le
  records : st.metrics.records.keys = ids jobs
  active : st.cluster.active.keys.Perm (queued .jobEnd st.events)
  accounts : ∃ pl, Accounts st.cluster pl
  latency : NonnegLatency st.latency

/-! ## Capacity -/

section Capacity

variable {c : Cluster cfg} {pl : Placement cfg}

theorem accounts_used_nonneg (h : Accounts c pl) (n : Fin cfg.nNodes) :
    0 ≤ (c.nodes n).usedRamGb := by
  rw [h.ram]
  apply taken_nonneg
  intro kv hkv
  exact ramOn_nonneg (h.placed kv hkv).1 n

theorem accounts_within (h : Accounts c pl) : WithinCapacity c where
  mps := h.mps_mem
  ram n := ⟨accounts_used_nonneg h n, h.ram_le n⟩

theorem ramOk_init (h : Accounts c pl) {n : Fin cfg.nNodes} {ramReq : ℚ} (hram : c.ramOk n ramReq) :
    (Cluster.init cfg).ramOk n ramReq := by
  unfold Cluster.ramOk at hram ⊢
  have hused := accounts_used_nonneg h n
  rw [← h.ramGb]
  show (0 : ℚ) + ramReq ≤ _
  linarith

/-- Of what is free on some cluster no less is free on the empty one. -/
theorem freeFor_init (h : Accounts c pl) (job : Job) (n : Fin cfg.nNodes) :
    freeFor c job n ≤ freeFor (Cluster.init cfg) job n := by
  unfold freeFor
  by_cases hram : c.ramOk n job.ramReq
  · rw [if_pos hram, if_pos (ramOk_init h hram)]
    have hall : ((Cluster.init cfg).nodes n).freeWholeGpus = List.finRange cfg.gpusPerNode := by
      simp [Node.freeWholeGpus, Cluster.init]
    rw [hall]
    exact List.length_filter_le _ _
  · rw [if_neg hram]
    exact Nat.zero_le _

theorem canAllocate_init (h : Accounts c pl) {job : Job} (hcan : c.canAllocate job) :
    (Cluster.init cfg).canAllocate job := by
  rw [canAllocate_iff] at hcan ⊢
  split
  · rename_i hfrac
    rw [if_pos hfrac] at hcan
    obtain ⟨n, g, hslots, hram⟩ := hcan
    exact ⟨n, g, hslots.trans (h.mps_mem n g).2, ramOk_init h hram⟩
  · rename_i hfrac
    rw [if_neg hfrac] at hcan
    have hsum : wholeGpus c job ≤ wholeGpus (Cluster.init cfg) job :=
      List.sum_le_sum fun n _ => freeFor_init h job n
    omega

end Capacity

theorem tryAllocate_some {c cluster : Cluster cfg} {job : Job} {plan : Plan cfg}
    (h : c.tryAllocate job = (some plan, cluster)) :
    c.plan job = some plan ∧ cluster = c.reserve job plan := by
  unfold Cluster.tryAllocate at h
  cases hp : c.plan job with
  | none =>
    rw [hp] at h
    exact absurd (congrArg Prod.fst h) (by simp [Cluster.allocate])
  | some plan' =>
    rw [hp] at h
    obtain ⟨hsame, hcluster⟩ := Prod.mk.inj h
    obtain rfl := Option.some.inj hsame
    exact ⟨rfl, hcluster.symm⟩

theorem tryAllocate_none {c cluster : Cluster cfg} {job : Job}
    (h : c.tryAllocate job = (none, cluster)) : ¬ c.canAllocate job := by
  unfold Cluster.canAllocate
  cases hp : c.plan job with
  | none => simp
  | some plan =>
    rw [Cluster.tryAllocate, hp] at h
    exact absurd (congrArg Prod.fst h) (by simp [Cluster.allocate])

/-! ## The records -/

theorem get?_update (m : MetricCollector) (id id' : String) (f : JobRecord → JobRecord) :
    (m.update id f).records.get? id' =
      if id' = id then (m.records.get? id').map f else m.records.get? id' := by
  unfold MetricCollector.update
  split
  · rename_i hnone
    split
    · rename_i heq
      rw [heq, hnone]
      rfl
    · rfl
  · rename_i r hsome
    show (m.records.set id (f r)).get? id' = _
    rw [Dict.get?_set]
    split
    · rename_i heq
      rw [heq, hsome]
      rfl
    · rfl

theorem get?_update_of_ne (m : MetricCollector) {id id' : String} (f : JobRecord → JobRecord)
    (h : id' ≠ id) : (m.update id f).records.get? id' = m.records.get? id' := by
  rw [get?_update, if_neg h]

theorem keys_update (m : MetricCollector) (id : String) (f : JobRecord → JobRecord) :
    (m.update id f).records.keys = m.records.keys := by
  unfold MetricCollector.update
  split
  · rfl
  · rename_i r hsome
    show (m.records.set id (f r)).keys = _
    rw [Dict.keys_set, if_pos (Dict.mem_keys_of_get? hsome)]

namespace Ready

variable {jobs : List ReplayJob} {st : Replay cfg S} {byId : Dict String ReplayJob}

theorem mem_remaining {e : Event} (he : e ∈ st.events) : e.jobId ∈ remaining st := by
  have hmem : e.jobId ∈ queued e.kind st.events :=
    List.mem_map_of_mem (List.mem_filter.mpr ⟨he, by simp⟩)
  unfold remaining waiting
  cases hk : e.kind with
  | submit =>
    rw [hk] at hmem
    simp [hmem]
  | jobEnd =>
    rw [hk] at hmem
    simp [hmem]

/-- An event's job is one of the trace. -/
theorem event_job (h : Ready jobs st) {e : Event} (he : e ∈ st.events) :
    ∃ j ∈ jobs, j.jobId = e.jobId :=
  List.mem_map.mp (h.trace (mem_remaining he))

theorem handle_submit (h : Ready jobs st) {e : Event} {es : List Event}
    (hevents : st.events = e :: es) (hk : e.kind = .submit) {j : ReplayJob} (hj : j ∈ jobs)
    (hid : j.jobId = e.jobId) :
    Ready jobs { st with events := es, now := e.time, pending := st.pending ++ [j] } := by
  have hmem : e ∈ st.events := by simp [hevents]
  obtain ⟨hfirst, hsorted⟩ := List.pairwise_cons.mp (hevents ▸ h.sorted)
  have hsub : ∀ e' ∈ es, e' ∈ st.events := fun e' he' => hevents ▸ List.mem_cons_of_mem e he'
  have hwait : (waiting { st with events := es, now := e.time, pending := st.pending ++ [j] }).Perm
      (waiting st) := by
    unfold waiting
    rw [hevents, queued_cons, if_pos hk, List.perm_iff_count]
    intro a
    simp only [ids, List.map_append, List.map_cons, List.map_nil, hid, List.count_append,
      List.count_cons, List.count_nil]
    omega
  have hends : queued .jobEnd es = queued .jobEnd st.events := by
    rw [hevents, queued_cons, if_neg (by rw [hk]; decide)]
  have hrest : (remaining { st with events := es, now := e.time, pending := st.pending ++ [j] }).Perm
      (remaining st) := by
    unfold remaining
    show (_ ++ queued .jobEnd es).Perm _
    rw [hends]
    exact hwait.append_right _
  exact {
    nodup := hrest.nodup_iff.mpr h.nodup
    trace := fun id hin => h.trace (hrest.subset hin)
    unstarted := fun j' hj' hin => h.unstarted j' hj' (hwait.subset hin)
    running := fun j' hj' e' he' => h.running j' hj' e' (hsub e' he')
    done := fun j' hj' hout => h.done j' hj' fun hin => hout (hrest.symm.subset hin)
    submits := fun j' hj' e' he' => h.submits j' hj' e' (hsub e' he')
    pending := fun j' hj' => by
      rcases List.mem_append.mp hj' with hj' | hj'
      · obtain ⟨htrace, -, hlater⟩ := h.pending j' hj'
        exact ⟨htrace, hlater e hmem, fun e' he' => hlater e' (hsub e' he')⟩
      · obtain rfl := List.mem_singleton.mp hj'
        have htime : e.time = j'.submitTs := h.submits j' hj e hmem hk hid.symm
        exact ⟨hj, htime.ge, fun e' he' => htime.symm.le.trans (Event.le_time (hfirst e' he'))⟩
    sorted := hsorted
    records := h.records
    active := hends ▸ h.active
    accounts := h.accounts
    latency := h.latency }

theorem handle_end (h : Ready jobs st) {e : Event} {es : List Event}
    (hevents : st.events = e :: es) (hk : e.kind = .jobEnd) (j : ReplayJob) :
    Ready jobs { st with
      events := es
      now := e.time
      cluster := st.cluster.release e.jobId
      metrics := st.metrics.recordEnd e.jobId e.time
      latency := st.latency.recordEnd j e.time } := by
  have hmem : e ∈ st.events := by simp [hevents]
  obtain ⟨-, hsorted⟩ := List.pairwise_cons.mp (hevents ▸ h.sorted)
  have hsub : ∀ e' ∈ es, e' ∈ st.events := fun e' he' => hevents ▸ List.mem_cons_of_mem e he'
  have hsubmits : queued .submit es = queued .submit st.events := by
    rw [hevents, queued_cons, if_neg (by rw [hk]; decide)]
  have hends : queued .jobEnd st.events = e.jobId :: queued .jobEnd es := by
    rw [hevents, queued_cons, if_pos hk]
  have hrest : (remaining st).Perm
      (e.jobId :: (queued .submit es ++ ids st.pending ++ queued .jobEnd es)) := by
    unfold remaining waiting
    rw [hends, hsubmits]
    exact List.perm_middle
  obtain ⟨hgone, hnodup⟩ := List.nodup_cons.mp (hrest.nodup_iff.mp h.nodup)
  -- the other jobs' records stay
  have hother : ∀ j' : ReplayJob, j'.jobId ≠ e.jobId →
      (st.metrics.recordEnd e.jobId e.time).records.get? j'.jobId =
        st.metrics.records.get? j'.jobId := by
    intro j' hne
    exact get?_update_of_ne _ _ hne
  exact {
    nodup := hnodup
    trace := fun id hin => h.trace (hrest.symm.subset (List.mem_cons_of_mem _ hin))
    unstarted := fun j' hj' hin => by
      have hin' : j'.jobId ∈ queued .submit es ++ ids st.pending := hin
      have hne : j'.jobId ≠ e.jobId := by
        intro heq
        exact hgone (List.mem_append_left _ (heq ▸ hin'))
      refine (hother j' hne).trans (h.unstarted j' hj' ?_)
      unfold waiting
      rw [← hsubmits]
      exact hin'
    running := fun j' hj' e' he' hk' hid' => by
      have hne : j'.jobId ≠ e.jobId := by
        intro heq
        refine hgone (List.mem_append_right _ (List.mem_map.mpr ⟨e', ?_, hid'.trans heq⟩))
        exact List.mem_filter.mpr ⟨he', by simp [hk']⟩
      obtain ⟨s, hrecord, hs⟩ := h.running j' hj' e' (hsub e' he') hk' hid'
      exact ⟨s, (hother j' hne).trans hrecord, hs⟩
    done := fun j' hj' hout => by
      by_cases heq : j'.jobId = e.jobId
      · obtain ⟨s, hrecord, htime, hs⟩ := h.running j' hj' e hmem hk heq.symm
        refine ⟨s, ?_, hs⟩
        unfold Recorded at hrecord ⊢
        show (st.metrics.recordEnd e.jobId e.time).records.get? j'.jobId = _
        rw [MetricCollector.recordEnd, get?_update, if_pos heq, hrecord, htime]
        rfl
      · have hout' : j'.jobId ∉ remaining st := by
          intro hin
          rcases List.mem_cons.mp (hrest.subset hin) with heq' | hin'
          · exact heq heq'
          · exact hout hin'
        obtain ⟨s, hrecord, hs⟩ := h.done j' hj' hout'
        exact ⟨s, (hother j' heq).trans hrecord, hs⟩
    submits := fun j' hj' e' he' => h.submits j' hj' e' (hsub e' he')
    pending := fun j' hj' => by
      obtain ⟨htrace, -, hlater⟩ := h.pending j' hj'
      exact ⟨htrace, hlater e hmem, fun e' he' => hlater e' (hsub e' he')⟩
    sorted := hsorted
    records := (keys_update _ _ _).trans h.records
    active := by
      have hactive := h.active
      rw [hends] at hactive
      have hkeys : st.cluster.active.keys.Nodup := by
        rw [h.active.nodup_iff]
        exact (List.nodup_append.mp h.nodup).2.1
      have herase := Dict.perm_erase hkeys (hactive.symm.subset List.mem_cons_self)
      show ((st.cluster.release e.jobId).active.keys).Perm _
      rw [release_active]
      exact (List.perm_cons _).mp (herase.trans hactive)
    accounts := by
      obtain ⟨pl, haccounts⟩ := h.accounts
      exact ⟨_, haccounts.release e.jobId⟩
    latency := fun _ _ => h.latency _ _ }

/-- What an event that is popped does to the state, by its kind. -/
theorem popEvent_cases (h : Ready jobs st)
    (hbyId : ∀ j ∈ jobs, byId.get? j.jobId = some j) {e : Event} {es : List Event}
    (hevents : st.events = e :: es) :
    ∃ j ∈ jobs, j.jobId = e.jobId ∧
      ((e.kind = .submit ∧
          st.popEvent byId = { st with events := es, now := e.time, pending := st.pending ++ [j] }) ∨
        e.kind = .jobEnd ∧
          st.popEvent byId = { st with
            events := es
            now := e.time
            cluster := st.cluster.release e.jobId
            metrics := st.metrics.recordEnd e.jobId e.time
            latency := st.latency.recordEnd j e.time }) := by
  obtain ⟨j, hj, hid⟩ := h.event_job (e := e) (by simp [hevents])
  have hget : byId.get? e.jobId = some j := by rw [← hid, hbyId j hj]
  have hpop : st.popEvent byId = ({ st with events := es }).handle byId e := by
    unfold Replay.popEvent
    rw [hevents]
  refine ⟨j, hj, hid, ?_⟩
  rw [hpop]
  cases hk : e.kind with
  | submit => exact .inl ⟨rfl, by simp only [Replay.handle, hget, hk]⟩
  | jobEnd => exact .inr ⟨rfl, by simp only [Replay.handle, hget, hk]⟩

theorem popEvent (h : Ready jobs st)
    (hbyId : ∀ j ∈ jobs, byId.get? j.jobId = some j) : Ready jobs (st.popEvent byId) := by
  cases hevents : st.events with
  | nil =>
    unfold Replay.popEvent
    rw [hevents]
    exact h
  | cons e es =>
    obtain ⟨j, hj, hid, ⟨hk, hpop⟩ | ⟨hk, hpop⟩⟩ := h.popEvent_cases hbyId hevents
    · rw [hpop]
      exact h.handle_submit hevents hk hj hid
    · rw [hpop]
      exact h.handle_end hevents hk j

/-- A pending job has no allocation. -/
theorem pending_inactive (h : Ready jobs st) {j : ReplayJob} (hj : j ∈ st.pending) :
    j.jobId ∉ st.cluster.active.keys := by
  rw [h.active.mem_iff]
  intro hend
  have hwait : j.jobId ∈ waiting st := List.mem_append_right _ (List.mem_map_of_mem hj)
  exact (List.nodup_append.mp h.nodup).2.2 _ hwait _ hend rfl

section Push

variable {e : Event}

theorem queued_submit_push (events : List Event) (hk : e.kind = .jobEnd) :
    (queued .submit (heappush events e)).Perm (queued .submit events) := by
  have := queued_heappush .submit events e
  rwa [queued_cons, if_neg (by rw [hk]; decide)] at this

theorem queued_end_push (events : List Event) (hk : e.kind = .jobEnd) :
    (queued .jobEnd (heappush events e)).Perm (e.jobId :: queued .jobEnd events) := by
  have := queued_heappush .jobEnd events e
  rwa [queued_cons, if_pos hk] at this

/-- A job that is started waits no more. -/
theorem waiting_start {j : ReplayJob} (hj : j ∈ st.pending) (hk : e.kind = .jobEnd) :
    (waiting st).Perm
      (j.jobId :: (queued .submit (heappush st.events e) ++ ids (st.pending.erase j))) := by
  have herase : (ids st.pending).Perm (j.jobId :: ids (st.pending.erase j)) :=
    (List.perm_cons_erase hj).map _
  exact ((queued_submit_push st.events hk).symm.append herase).trans List.perm_middle

/-- But it remains, as its end is queued. -/
theorem remaining_start {j : ReplayJob} (hj : j ∈ st.pending) (hk : e.kind = .jobEnd)
    (hid : e.jobId = j.jobId) :
    (remaining st).Perm (queued .submit (heappush st.events e) ++ ids (st.pending.erase j) ++
      queued .jobEnd (heappush st.events e)) := by
  unfold remaining
  refine ((waiting_start hj hk).append_right _).trans ?_
  have hends := queued_end_push st.events hk
  rw [hid] at hends
  exact (List.perm_middle.symm).trans (hends.symm.append_left _)

end Push

/-- A pending job that has a plan is started at `s`. -/
theorem start (h : Ready jobs st) (hids : (ids jobs).Nodup) {j : ReplayJob}
    (hj : j ∈ st.pending) {plan : Plan cfg} (hplan : st.cluster.plan j.toJob = some plan)
    (hmps : 0 ≤ j.mpsReq) (hram : 0 ≤ j.ramReq)
    {s : ℚ} (hs : st.now ≤ s) (hruntime : 0 ≤ j.runtime) {e : Event} (hk : e.kind = .jobEnd)
    (hid : e.jobId = j.jobId) (htime : e.time = s + j.runtime) (seq : ℕ) :
    Ready jobs { st with
      cluster := st.cluster.reserve j.toJob plan
      pending := st.pending.erase j
      metrics := st.metrics.recordStart j.jobId s
      latency := st.latency.recordStart j
      events := heappush st.events e
      seq := seq } := by
  obtain ⟨pl, haccounts⟩ := h.accounts
  have hinactive := h.pending_inactive hj
  obtain ⟨hmem, hsubmit, -⟩ := h.pending j hj
  have hpush : ∀ e', e' ∈ heappush st.events e → e' = e ∨ e' ∈ st.events := fun e' he' =>
    List.mem_cons.mp ((List.perm_orderedInsert Event.le e st.events).subset he')
  have hends : (queued .jobEnd (heappush st.events e)).Perm (j.jobId :: queued .jobEnd st.events) :=
    hid ▸ queued_end_push st.events hk
  have hwait := waiting_start hj hk
  have hrest := remaining_start hj hk hid
  have hfirst : j.jobId ∉ queued .submit (heappush st.events e) ++ ids (st.pending.erase j) :=
    (List.nodup_cons.mp (hwait.nodup_iff.mp (List.nodup_append.mp h.nodup).1)).1
  -- the other jobs' records stay
  have hother : ∀ j' : ReplayJob, j'.jobId ≠ j.jobId →
      (st.metrics.recordStart j.jobId s).records.get? j'.jobId =
        st.metrics.records.get? j'.jobId := by
    intro j' hne
    exact get?_update_of_ne _ _ hne
  exact {
    nodup := hrest.nodup_iff.mp h.nodup
    trace := fun id hin => h.trace (hrest.symm.subset hin)
    unstarted := fun j' hj' hin => by
      have hne : j'.jobId ≠ j.jobId := by
        intro heq
        exact hfirst (heq ▸ hin)
      exact (hother j' hne).trans
        (h.unstarted j' hj' (hwait.symm.subset (List.mem_cons_of_mem _ hin)))
    running := fun j' hj' e' he' hk' hid' => by
      rcases hpush e' he' with rfl | he'
      · obtain rfl : j' = j :=
          List.inj_on_of_nodup_map hids hj' hmem (hid'.symm.trans hid)
        have hrecord := h.unstarted j' hj' (hwait.symm.subset List.mem_cons_self)
        refine ⟨s, ?_, htime, by linarith, canAllocate_init haccounts ?_⟩
        · unfold Recorded at hrecord ⊢
          show (st.metrics.recordStart j'.jobId s).records.get? j'.jobId = _
          rw [MetricCollector.recordStart, get?_update, if_pos rfl, hrecord]
          rfl
        · simp [Cluster.canAllocate, hplan]
      · have hne : j'.jobId ≠ j.jobId := by
          intro heq
          refine (List.nodup_append.mp h.nodup).2.2 j.jobId (hwait.symm.subset List.mem_cons_self)
            j'.jobId ?_ heq.symm
          exact List.mem_map.mpr ⟨e', List.mem_filter.mpr ⟨he', by simp [hk']⟩, hid'⟩
        obtain ⟨t, hrecord, ht⟩ := h.running j' hj' e' he' hk' hid'
        exact ⟨t, (hother j' hne).trans hrecord, ht⟩
    done := fun j' hj' hout => by
      have hout' : j'.jobId ∉ remaining st := fun hin => hout (hrest.subset hin)
      have hne : j'.jobId ≠ j.jobId := by
        intro heq
        refine hout' (heq ▸ List.mem_append_left _ (hwait.symm.subset List.mem_cons_self))
      obtain ⟨t, hrecord, ht⟩ := h.done j' hj' hout'
      exact ⟨t, (hother j' hne).trans hrecord, ht⟩
    submits := fun j' hj' e' he' hk' => by
      rcases hpush e' he' with rfl | he'
      · rw [hk] at hk'
        cases hk'
      · exact h.submits j' hj' e' he' hk'
    pending := fun j' hj' => by
      obtain ⟨htrace, hnow, hlater⟩ := h.pending j' (List.mem_of_mem_erase hj')
      refine ⟨htrace, hnow, fun e' he' => ?_⟩
      rcases hpush e' he' with rfl | he'
      · rw [htime]
        linarith
      · exact hlater e' he'
    sorted := h.sorted.orderedInsert _ _
    records := (keys_update _ _ _).trans h.records
    active := by
      show (st.cluster.reserve j.toJob plan).active.keys.Perm _
      rw [Cluster.reserve, Dict.keys_set, if_neg hinactive]
      refine List.perm_append_comm.trans (List.Perm.trans ?_ hends.symm)
      exact h.active.cons _
    accounts := by
      refine ⟨_, haccounts.reserve ?_ hram ?_⟩
      · rwa [haccounts.active, Dict.keys_mapVal] at hinactive
      · exact plan_fits (fun n g => (haccounts.mps_mem n g).1) hmps hplan
    latency := fun _ _ => h.latency _ _ }

theorem startJob (h : Ready jobs st) (hids : (ids jobs).Nodup) {j : ReplayJob}
    (hj : j ∈ st.pending) (hmps : 0 ≤ j.mpsReq) (hram : 0 ≤ j.ramReq) (hruntime : 0 ≤ j.runtime)
    {plan : Plan cfg} {cluster : Cluster cfg}
    (halloc : st.cluster.tryAllocate j.toJob = (some plan, cluster)) :
    Ready jobs (st.startJob j cluster) := by
  obtain ⟨hplan, rfl⟩ := tryAllocate_some halloc
  have hdelay : 0 ≤ st.latency.startLatency j st.now := h.latency _ _ j st.now
  exact h.start hids hj hplan hmps hram (by linarith) hruntime rfl rfl rfl _

theorem order (h : Ready jobs st) (sch : Scheduler cfg S) : Ready jobs (st.order sch).2 :=
  { h with }

theorem sampleUtil (h : Ready jobs st) : Ready jobs st.sampleUtil :=
  { h with }

end Ready

/-! ## The start of a run -/

section Start

variable {jobs : List ReplayJob} (scheduler : S) {latency : LatencyModel}

/-- The trace as the queue has it. -/
def traceJobs (jobs : List ReplayJob) : List TraceJob := jobs.map fun j => j.toTraceJob

theorem ids_traceJobs (jobs : List ReplayJob) : Sim.ids (traceJobs jobs) = ids jobs := by
  unfold Sim.ids traceJobs ids
  rw [List.map_map]
  rfl

theorem init_records (hjobs : WellFormed jobs) :
    (jobs.foldl MetricCollector.recordSubmit {}).records =
      jobs.map fun j => (j.jobId, JobRecord.submitted j) := by
  have hfold : ∀ (js : List ReplayJob) (m : MetricCollector),
      (js.foldl MetricCollector.recordSubmit m).records =
        (js.map fun j => (j.jobId, JobRecord.submitted j)).foldl (fun d kv => Dict.set d kv.1 kv.2)
          m.records := by
    intro js
    induction js with
    | nil => exact fun _ => rfl
    | cons j js ih => exact fun m => ih (m.recordSubmit j)
  refine (hfold jobs {}).trans (Dict.ofList_eq ?_)
  rw [List.map_map]
  exact hjobs.nodup

theorem get?_records (hjobs : WellFormed jobs) {j : ReplayJob} (hj : j ∈ jobs) :
    (jobs.foldl MetricCollector.recordSubmit {}).records.get? j.jobId =
      some (JobRecord.submitted j) := by
  rw [init_records hjobs]
  apply Dict.get?_of_mem
  · unfold Dict.keys
    rw [List.map_map]
    exact hjobs.nodup
  · exact List.mem_map_of_mem hj

theorem get?_byJobId (hjobs : WellFormed jobs) :
    ∀ j ∈ jobs, (byJobId jobs).get? j.jobId = some j := by
  intro j hj
  have hkeys : ((jobs.map fun j => (j.jobId, j)).map Prod.fst).Nodup := by
    rw [List.map_map]
    exact hjobs.nodup
  apply Dict.get?_of_mem (Dict.nodup_ofList _)
  rw [Dict.ofList_eq hkeys]
  exact List.mem_map_of_mem hj

theorem init_queued (jobs : List TraceJob) :
    (queued .submit ((submissions jobs).foldl heappush [])).Perm (Sim.ids jobs) ∧
      queued .jobEnd ((submissions jobs).foldl heappush []) = [] := by
  obtain ⟨-, hperm⟩ := start_events jobs
  have hkind : ∀ e ∈ (submissions jobs).foldl heappush [], e.kind = .submit := by
    intro e he
    exact (submissions_submit (hperm.subset he)).1
  constructor
  · unfold queued
    rw [List.filter_eq_self.mpr fun e he => decide_eq_true (hkind e he)]
    exact (hperm.map _).trans (submissions_ids jobs)
  · unfold queued
    rw [List.map_eq_nil_iff, List.filter_eq_nil_iff]
    intro e he
    simp [hkind e he]

theorem init_ready (hjobs : WellFormed jobs) (hlatency : NonnegLatency latency) :
    Ready jobs (Replay.init cfg scheduler latency jobs) := by
  obtain ⟨hsubmits, hends⟩ := init_queued (traceJobs jobs)
  obtain ⟨hsorted, hperm⟩ := start_events (traceJobs jobs)
  have hevent : ∀ e ∈ (submissions (traceJobs jobs)).foldl heappush [],
      e.kind = .submit ∧ ∃ j ∈ jobs, e.jobId = j.jobId ∧ e.time = j.submitTs := by
    intro e he
    obtain ⟨hk, j, hj, hid, htime⟩ := submissions_submit (hperm.subset he)
    obtain ⟨j', hj', rfl⟩ := List.mem_map.mp hj
    exact ⟨hk, j', hj', hid, htime⟩
  have hrest : (remaining (Replay.init cfg scheduler latency jobs)).Perm (ids jobs) := by
    show (queued .submit ((submissions (traceJobs jobs)).foldl heappush []) ++ [] ++
      queued .jobEnd ((submissions (traceJobs jobs)).foldl heappush [])).Perm _
    rw [hends, List.append_nil, List.append_nil, ← ids_traceJobs]
    exact hsubmits
  exact {
    nodup := hrest.nodup_iff.mpr hjobs.nodup
    trace := hrest.subset
    unstarted := fun j hj _ => get?_records hjobs hj
    running := fun j hj e he hk => by
      rw [(hevent e he).1] at hk
      cases hk
    done := fun j hj hout =>
      absurd (hrest.symm.subset (List.mem_map_of_mem hj)) hout
    submits := fun j hj e he _ hid => by
      obtain ⟨-, j', hj', hid', htime⟩ := hevent e he
      obtain rfl : j' = j := List.inj_on_of_nodup_map hjobs.nodup hj' hj (hid'.symm.trans hid)
      exact htime
    pending := fun j hj => absurd hj List.not_mem_nil
    sorted := hsorted
    records := by
      show (jobs.foldl MetricCollector.recordSubmit {}).records.keys = ids jobs
      rw [init_records hjobs]
      unfold Dict.keys
      rw [List.map_map]
      rfl
    active := by
      show List.Perm [] (queued .jobEnd ((submissions (traceJobs jobs)).foldl heappush []))
      rw [hends]
    accounts := ⟨[], accounts_init⟩
    latency := hlatency }

end Start

end Kelpflux.Proof.Runner
