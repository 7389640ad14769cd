import Kelpflux.Impl.Sim.GymEnv
import Kelpflux.Proof.Sim.Cluster

/-!
# An episode's jobs

A job of the trace goes from the queued submissions to the pending list, to the
running jobs and to the completed ones, and is in one of them at a time
(`Consistent`). An event that is popped (`Ready.popEvent`) and an action that
places a job (`Ready.schedule`) each move one job on, so this holds at every
decision point of every episode (`episode_consistent`).
-/

namespace Kelpflux.Proof.Sim

open Framework Kelpflux.Impl.Sim

variable {env : EnvConfig}

/-- The jobs of the queued events of a kind. -/
def queued (kind : EventKind) (events : List Event) : List String :=
  (events.filter fun e => e.kind = kind).map fun e => e.jobId

def ids (jobs : List TraceJob) : List String := jobs.map fun j => j.jobId

def completedIds (st : RunState env) : List String := st.jctRecords.map Prod.fst

/-- The four sets make up the trace, the running jobs are those of the cluster,
and the counters agree. -/
structure Consistent (jobs : List TraceJob) (st : RunState env) : Prop where
  /-- Not yet submitted, pending, running and completed: the trace's jobs, each
  in one of them and once. -/
  sets : (queued .submit st.events ++ ids st.pending ++ queued .jobEnd st.events
    ++ completedIds st).Perm (ids jobs)
  /-- The jobs with an end event are those with a live allocation. -/
  running : st.cluster.active.keys.Perm (queued .jobEnd st.events)
  ram : st.cluster.activeRam.keys = st.cluster.active.keys
  completed : st.completed = st.jcts.length
  records : st.jctRecords.map Prod.snd = st.jcts
  jctSum : st.jctSum = st.jcts.sum

/-- The requests of a trace take no negative amounts. -/
def Nonneg (jobs : List TraceJob) : Prop := ∀ j ∈ jobs, 0 ≤ j.mpsReq ∧ 0 ≤ j.ramReq

/-- What a run keeps: the consistency, and an event queue that is in order and
in the future. -/
structure Ready (jobs : List TraceJob) (st : RunState env) : Prop extends Consistent jobs st where
  sorted : st.events.Pairwise Event.le
  later : ∀ e ∈ st.events, st.now ≤ e.time
  pending : ∀ j ∈ st.pending, j ∈ jobs
  byId : ∀ j ∈ jobs, st.byId.get? j.jobId = some j
  nJobs : st.nJobs = jobs.length
  accounts : Nonneg jobs → ∃ pl, Accounts st.cluster pl

/-! ## The queue -/

theorem Event.le_time {a b : Event} (h : a.le b) : a.time ≤ b.time := by
  rcases h with h | h
  · exact h.le
  · exact h.1.le

instance : Std.Total Event.le where
  total a b := by
    unfold Event.le
    rcases lt_trichotomy a.time b.time with h | h | h
    · exact Or.inl (Or.inl h)
    · rcases le_total a.seq b.seq with hs | hs
      · exact Or.inl (Or.inr ⟨h, hs⟩)
      · exact Or.inr (Or.inr ⟨h.symm, hs⟩)
    · exact Or.inr (Or.inl h)

instance : IsTrans Event Event.le where
  trans a b c hab hbc := by
    rcases hab with hab | ⟨hab, hs⟩
    · exact Or.inl (lt_of_lt_of_le hab (Event.le_time hbc))
    · rcases hbc with hbc | ⟨hbc, hs'⟩
      · exact Or.inl (hab ▸ hbc)
      · exact Or.inr ⟨hab.trans hbc, hs.trans hs'⟩

theorem queued_cons (kind : EventKind) (e : Event) (es : List Event) :
    queued kind (e :: es) = if e.kind = kind then e.jobId :: queued kind es else queued kind es := by
  unfold queued
  rw [List.filter_cons]
  split <;> simp_all

theorem queued_perm (kind : EventKind) {es es' : List Event} (h : es.Perm es') :
    (queued kind es).Perm (queued kind es') := (h.filter _).map _

theorem queued_heappush (kind : EventKind) (es : List Event) (e : Event) :
    (queued kind (heappush es e)).Perm (queued kind (e :: es)) :=
  queued_perm kind (List.perm_orderedInsert Event.le e es)

/-! ## The cluster's tables -/

theorem release_active {cfg : Config} (c : Cluster cfg) (jid : String) :
    (c.release jid).active = c.active.erase jid := by
  unfold Cluster.release
  split
  · rename_i hnone
    exact (Dict.erase_of_notMem (Dict.get?_eq_none.mp hnone)).symm
  · rfl

theorem release_activeRam {cfg : Config} {c : Cluster cfg} (jid : String)
    (h : c.activeRam.keys = c.active.keys) :
    (c.release jid).activeRam = c.activeRam.erase jid := by
  unfold Cluster.release
  split
  · rename_i hnone
    exact (Dict.erase_of_notMem (h ▸ Dict.get?_eq_none.mp hnone)).symm
  · rfl

/-- The run once a job is placed, until `t`. -/
def placedRun (st : RunState env) (chosen : TraceJob) (plan : Plan env.toConfig) (t : ℚ) :
    RunState env :=
  { st with
    cluster := st.cluster.reserve chosen.toJob plan
    pending := st.pending.erase chosen
    events := heappush st.events ⟨t, st.seq, .jobEnd, chosen.jobId⟩
    seq := st.seq + 1 }

namespace Ready

variable {jobs : List TraceJob} {st : RunState env}

theorem sets_nodup (h : Ready jobs st) (hids : (ids jobs).Nodup) :
    (queued .submit st.events ++ ids st.pending ++ queued .jobEnd st.events
      ++ completedIds st).Nodup :=
  h.sets.nodup_iff.mpr hids

theorem active_nodup (h : Ready jobs st) (hids : (ids jobs).Nodup) :
    st.cluster.active.keys.Nodup := by
  have hall := h.sets_nodup hids
  rw [h.running.nodup_iff]
  exact (List.nodup_append.mp (List.nodup_append.mp hall).1).2.1

/-- An event's job is one of the trace. -/
theorem event_job (h : Ready jobs st) {e : Event} (he : e ∈ st.events) :
    ∃ j ∈ jobs, j.jobId = e.jobId := by
  have hmem : e.jobId ∈ queued e.kind st.events :=
    List.mem_map_of_mem (List.mem_filter.mpr ⟨he, by simp⟩)
  have hin : e.jobId ∈ ids jobs := by
    rw [← h.sets.mem_iff]
    cases hk : e.kind with
    | submit =>
      rw [hk] at hmem
      simp [hmem]
    | jobEnd =>
      rw [hk] at hmem
      simp [hmem]
  exact List.mem_map.mp hin

/-- A pending job has no allocation. -/
theorem pending_inactive (h : Ready jobs st) (hids : (ids jobs).Nodup) {j : TraceJob}
    (hj : j ∈ st.pending) : j.jobId ∉ st.cluster.active.keys := by
  have hall := h.sets_nodup hids
  rw [h.running.mem_iff]
  intro hend
  have hpend : j.jobId ∈ queued .submit st.events ++ ids st.pending :=
    List.mem_append_right _ (List.mem_map_of_mem hj)
  exact (List.nodup_append.mp (List.nodup_append.mp hall).1).2.2 _ hpend _ hend rfl

/-! ## An event -/

/-- A job's submission moves it to the pending jobs. -/
theorem handle_submit (h : Ready jobs st) {e : Event} {es : List Event}
    (hevents : st.events = e :: es) (hk : e.kind = .submit) {j : TraceJob} (hj : j ∈ jobs)
    (hjid : j.jobId = e.jobId) :
    Ready jobs { st with events := es, now := e.time, pending := st.pending ++ [j] } := by
  obtain ⟨hfirst, hsorted⟩ := List.pairwise_cons.mp (hevents ▸ h.sorted)
  have hlater : ∀ e' ∈ es, e.time ≤ e'.time := fun e' he' => Event.le_time (hfirst e' he')
  have hsets := h.sets
  have hrunning := h.running
  rw [hevents, queued_cons, queued_cons] at hsets
  rw [hevents, queued_cons] at hrunning
  simp only [hk, if_true, reduceCtorEq, if_false] at hsets hrunning
  refine { h with
    sets := ?_
    running := hrunning
    sorted := hsorted
    later := hlater
    pending := ?_ }
  · refine List.Perm.trans ?_ hsets
    rw [List.perm_iff_count]
    intro a
    simp only [ids, List.map_append, List.map_cons, List.map_nil, hjid, List.count_append,
      List.count_cons, List.count_nil, completedIds]
    omega
  · intro j' hj'
    rcases List.mem_append.mp hj' with hj' | hj'
    · exact h.pending j' hj'
    · rw [List.mem_singleton.mp hj']
      exact hj

/-- A job's end gives its slots back, and is recorded. -/
theorem handle_end (h : Ready jobs st) (hids : (ids jobs).Nodup) {e : Event} {es : List Event}
    (hevents : st.events = e :: es) (hk : e.kind = .jobEnd) (j : TraceJob) :
    Ready jobs (({ st with events := es, now := e.time } : RunState env).onJobEnd e.jobId j) := by
  obtain ⟨hfirst, hsorted⟩ := List.pairwise_cons.mp (hevents ▸ h.sorted)
  have hlater : ∀ e' ∈ es, e.time ≤ e'.time := fun e' he' => Event.le_time (hfirst e' he')
  have hsets := h.sets
  have hrunning := h.running
  rw [hevents, queued_cons, queued_cons] at hsets
  rw [hevents, queued_cons] at hrunning
  simp only [hk, if_true, reduceCtorEq, if_false] at hsets hrunning
  have hactive : e.jobId ∈ st.cluster.active.keys :=
    hrunning.symm.subset List.mem_cons_self
  refine { h with
    sets := ?_
    running := ?_
    ram := ?_
    completed := ?_
    records := ?_
    jctSum := ?_
    sorted := hsorted
    later := hlater
    accounts := ?_ }
  · refine List.Perm.trans ?_ hsets
    rw [List.perm_iff_count]
    intro a
    simp only [RunState.onJobEnd, completedIds, List.map_append, List.map_cons, List.map_nil,
      List.count_append, List.count_cons, List.count_nil]
    omega
  · have herase := Dict.perm_erase (h.active_nodup hids) hactive
    have hrest : (e.jobId :: (st.cluster.active.erase e.jobId).keys).Perm
        (e.jobId :: queued .jobEnd es) := herase.trans hrunning
    show ((st.cluster.release e.jobId).active.keys).Perm _
    rw [release_active]
    exact (List.perm_cons _).mp hrest
  · show (st.cluster.release e.jobId).activeRam.keys = (st.cluster.release e.jobId).active.keys
    rw [release_active, release_activeRam _ h.ram, Dict.keys_erase, Dict.keys_erase, h.ram]
  · simp [RunState.onJobEnd, h.completed]
  · simp [RunState.onJobEnd, h.records]
  · simp [RunState.onJobEnd, h.jctSum]
  · intro hnonneg
    obtain ⟨pl, haccounts⟩ := h.accounts hnonneg
    exact ⟨_, haccounts.release e.jobId⟩

theorem popEvent (h : Ready jobs st) (hids : (ids jobs).Nodup) :
    Ready jobs st.popEvent ∧ st.now ≤ st.popEvent.now := by
  unfold RunState.popEvent
  split
  · exact ⟨h, le_refl _⟩
  rename_i e es hevents
  have hmem : e ∈ st.events := by simp [hevents]
  obtain ⟨j, hj, hjid⟩ := h.event_job hmem
  have hget : st.byId.get? e.jobId = some j := by rw [← hjid, h.byId j hj]
  have hnow : st.now ≤ e.time := h.later e hmem
  cases hk : e.kind with
  | submit =>
    have hst : { st with events := es }.handle e
        = { st with events := es, now := e.time, pending := st.pending ++ [j] } := by
      simp only [RunState.handle, hget, hk]
    rw [hst]
    exact ⟨h.handle_submit hevents hk hj hjid, hnow⟩
  | jobEnd =>
    have hst : { st with events := es }.handle e
        = ({ st with events := es, now := e.time } : RunState env).onJobEnd e.jobId j := by
      simp only [RunState.handle, hget, hk]
    rw [hst]
    exact ⟨h.handle_end hids hevents hk j, hnow⟩

/-! ## A placement -/

theorem schedule (h : Ready jobs st) (hids : (ids jobs).Nodup) {chosen : TraceJob}
    (hmem : chosen ∈ st.pending) {nodeJ gpuK : Nat} {plan : Plan env.toConfig}
    (hplan : st.cluster.planOn chosen.toJob nodeJ gpuK = some plan)
    {t : ℚ} (ht : st.now ≤ t) : Ready jobs (placedRun st chosen plan t) := by
  unfold placedRun
  have hinactive := h.pending_inactive hids hmem
  have hinactiveRam : chosen.jobId ∉ st.cluster.activeRam.keys := by rwa [h.ram]
  have hkeys : (st.cluster.reserve chosen.toJob plan).active.keys
      = st.cluster.active.keys ++ [chosen.jobId] := by
    rw [Cluster.reserve, Dict.keys_set, if_neg hinactive]
  have hkeysRam : (st.cluster.reserve chosen.toJob plan).activeRam.keys
      = st.cluster.activeRam.keys ++ [chosen.jobId] := by
    rw [Cluster.reserve, Dict.keys_set, if_neg hinactiveRam]
  have hpushed := List.perm_orderedInsert Event.le ⟨t, st.seq, .jobEnd, chosen.jobId⟩ st.events
  have hsubmits := queued_heappush .submit st.events ⟨t, st.seq, .jobEnd, chosen.jobId⟩
  have hends := queued_heappush .jobEnd st.events ⟨t, st.seq, .jobEnd, chosen.jobId⟩
  simp only [queued_cons, reduceCtorEq, if_true, if_false] at hsubmits hends
  have herase : (ids st.pending).Perm (chosen.jobId :: ids (st.pending.erase chosen)) :=
    (List.perm_cons_erase hmem).map _
  refine { h with
    sets := ?_
    running := ?_
    ram := ?_
    sorted := ?_
    later := ?_
    pending := ?_
    accounts := ?_ }
  · refine List.Perm.trans ?_ h.sets
    rw [List.perm_iff_count]
    intro a
    have hs := hsubmits.count_eq a
    have he := hends.count_eq a
    have hp := herase.count_eq a
    simp only [List.count_append, List.count_cons, completedIds] at hs he hp ⊢
    omega
  · show (st.cluster.reserve chosen.toJob plan).active.keys.Perm _
    rw [hkeys]
    refine List.perm_append_comm.trans (List.Perm.trans ?_ hends.symm)
    exact h.running.cons _
  · show (st.cluster.reserve chosen.toJob plan).activeRam.keys
      = (st.cluster.reserve chosen.toJob plan).active.keys
    rw [hkeys, hkeysRam, h.ram]
  · exact h.sorted.orderedInsert _ _
  · intro e he
    rcases List.mem_cons.mp (hpushed.subset he) with rfl | he
    · exact ht
    · exact h.later e he
  · intro j hj
    exact h.pending j (List.mem_of_mem_erase hj)
  · intro hnonneg
    obtain ⟨pl, haccounts⟩ := h.accounts hnonneg
    obtain ⟨hmps, hram⟩ := hnonneg chosen (h.pending chosen hmem)
    have hfits := planOn_fits (fun n g => (haccounts.mps_mem n g).1) hmps hplan
    refine ⟨_, haccounts.reserve ?_ hram hfits⟩
    rwa [haccounts.active, Dict.keys_mapVal] at hinactive

end Ready

/-! ## A step of the environment -/

variable {G : Type} (num : Numeric) (rand : Random G)

theorem realizedRuntime_pos (job : TraceJob) (plan : Plan env.toConfig)
    (c : Cluster env.toConfig) (seed : Option Int) (rng : G) :
    0 ≤ (realizedRuntime num rand env job plan c seed rng).1 := by
  have hmin : (0 : ℚ) ≤ minRuntimeS := by decide +kernel
  exact hmin.trans (le_max_left _ _)

variable {jobs : List TraceJob} {st : RunState env} {s : EnvState G env}

theorem topKJobs_mem {i : ℕ} {j : TraceJob} (h : st.topKJobs[i]? = some j) : j ∈ st.pending := by
  have hmem := List.mem_of_mem_take (List.mem_of_getElem? h)
  exact (List.perm_insertionSort _ _).subset hmem

/-- An action leaves the run as it is, or places a job that is pending. -/
theorem act_cases (s : EnvState G env) (action : ℕ) :
    (s.act num rand action).1.run = s.run ∨
      ∃ chosen plan t, chosen ∈ s.run.pending ∧ s.run.now ≤ t ∧
        (∃ nodeJ gpuK, s.run.cluster.planOn chosen.toJob nodeJ gpuK = some plan) ∧
        (s.act num rand action).1.run = placedRun s.run chosen plan t := by
  unfold EnvState.act
  split
  swap
  · split <;> exact .inl rfl
  unfold EnvState.place
  obtain ⟨jobI, nodeJ, gpuK, mode⟩ := decode env action
  dsimp only
  split
  · exact .inl rfl
  rename_i chosen hchosen
  unfold Cluster.tryAllocateOn
  cases hplan : s.run.cluster.planOn chosen.toJob nodeJ gpuK with
  | none => exact .inl rfl
  | some plan =>
    have hpos := realizedRuntime_pos num rand chosen plan
      (s.run.cluster.reserve chosen.toJob plan) s.episodeSeed s.rng
    exact .inr ⟨chosen, plan, _, topKJobs_mem hchosen, le_add_of_nonneg_right hpos,
      ⟨nodeJ, gpuK, hplan⟩, rfl⟩

theorem act_ready (h : Ready jobs s.run) (hids : (ids jobs).Nodup) (action : ℕ) :
    Ready jobs (s.act num rand action).1.run
      ∧ (s.act num rand action).1.run.now = s.run.now := by
  rcases act_cases num rand s action with
    heq | ⟨chosen, plan, t, hmem, ht, ⟨nodeJ, gpuK, hplan⟩, heq⟩
  · rw [heq]
    exact ⟨h, rfl⟩
  · rw [heq]
    exact ⟨h.schedule hids hmem hplan ht, rfl⟩

/-- What each event that is popped keeps, the events up to a decision keep. -/
theorem advance_keeps {P : RunState env → Prop} (hpop : ∀ st, P st → P st.popEvent) (h : P st)
    (es : List Event) : P (RunState.advance es st) := by
  induction es generalizing st with
  | nil => exact h
  | cons e es ih =>
    unfold RunState.advance
    split
    · exact h
    · exact ih (hpop st h)

theorem goOn_keeps {P : RunState env → Prop} (hpop : ∀ st, P st → P st.popEvent)
    (h : P { st with completionReward := 0 }) (scheduled : Bool) : P (st.goOn scheduled) := by
  unfold RunState.goOn
  dsimp only
  split
  · exact advance_keeps hpop h _
  · exact advance_keeps hpop (hpop _ h) _

/-- A popped event keeps the sets, and time does not go back. -/
theorem popEvent_later (hids : (ids jobs).Nodup) (t : ℚ) (st : RunState env)
    (h : Ready jobs st ∧ t ≤ st.now) : Ready jobs st.popEvent ∧ t ≤ st.popEvent.now := by
  obtain ⟨hpop, hnow⟩ := h.1.popEvent hids
  exact ⟨hpop, h.2.trans hnow⟩

theorem advance_ready (h : Ready jobs st) (hids : (ids jobs).Nodup) (es : List Event) :
    Ready jobs (RunState.advance es st) ∧ st.now ≤ (RunState.advance es st).now :=
  advance_keeps (popEvent_later hids st.now) ⟨h, le_refl _⟩ es

theorem goOn_ready (h : Ready jobs st) (hids : (ids jobs).Nodup) (scheduled : Bool) :
    Ready jobs (st.goOn scheduled) ∧ st.now ≤ (st.goOn scheduled).now :=
  goOn_keeps (popEvent_later hids st.now) ⟨{ h with }, le_refl _⟩ scheduled

theorem next_ready (h : Ready jobs s.run) (hids : (ids jobs).Nodup) (action : ℕ) :
    Ready jobs (s.next num rand action).run ∧ s.run.now ≤ (s.next num rand action).run.now := by
  obtain ⟨hact, hnow⟩ := act_ready num rand (s := { s with stepCount := s.stepCount + 1 }) h hids
    action
  have hgo := goOn_ready hact hids
    (({ s with stepCount := s.stepCount + 1 } : EnvState G env).act num rand action).2.2
  exact ⟨hgo.1, hnow.ge.trans hgo.2⟩

/-! ## The start of an episode -/

theorem submissions_ids (jobs : List TraceJob) :
    ((submissions jobs).map fun e => e.jobId).Perm (ids jobs) := by
  have hids : (submissions jobs).map (fun e => e.jobId) = ids (bySubmitTs jobs) :=
    List.ext_getElem (by simp [submissions, ids]) fun i _ _ => by simp [submissions, ids]
  rw [hids]
  exact (List.perm_insertionSort _ _).map _

/-- The events that `reset` queues. -/
theorem start_events (jobs : List TraceJob) :
    ((submissions jobs).foldl heappush []).Pairwise Event.le
      ∧ ((submissions jobs).foldl heappush []).Perm (submissions jobs) := by
  have hpush : ∀ es acc : List Event, acc.Pairwise Event.le →
      (es.foldl heappush acc).Pairwise Event.le ∧ (es.foldl heappush acc).Perm (acc ++ es) := by
    intro es
    induction es with
    | nil => simp
    | cons e es ih =>
      intro acc hacc
      obtain ⟨hsorted, hperm⟩ := ih (heappush acc e) (hacc.orderedInsert e acc)
      refine ⟨hsorted, hperm.trans ?_⟩
      have hpushed := (List.perm_orderedInsert Event.le e acc).append_right es
      exact hpushed.trans List.perm_middle.symm
  exact hpush (submissions jobs) [] List.Pairwise.nil

theorem submissions_submit {jobs : List TraceJob} {e : Event} (he : e ∈ submissions jobs) :
    e.kind = .submit ∧ ∃ j ∈ jobs, e.jobId = j.jobId ∧ e.time = j.submitTs := by
  obtain ⟨i, hi, rfl⟩ := List.mem_mapIdx.mp he
  refine ⟨rfl, (bySubmitTs jobs)[i], ?_, rfl, rfl⟩
  exact (List.perm_insertionSort _ _).subset (List.getElem_mem hi)

theorem start_ready (env : EnvConfig) (hids : (ids jobs).Nodup)
    (hsubmit : ∀ j ∈ jobs, 0 ≤ j.submitTs) : Ready jobs (RunState.start env jobs) := by
  obtain ⟨hsorted, hperm⟩ := start_events jobs
  have hkind : ∀ e ∈ (submissions jobs).foldl heappush [], e.kind = .submit := by
    intro e he
    exact (submissions_submit (hperm.subset he)).1
  have hsubmits : queued .submit ((submissions jobs).foldl heappush [])
      = ((submissions jobs).foldl heappush []).map fun e => e.jobId := by
    unfold queued
    rw [List.filter_eq_self.mpr]
    intro e he
    exact decide_eq_true (hkind e he)
  have hends : queued .jobEnd ((submissions jobs).foldl heappush []) = [] := by
    unfold queued
    rw [List.map_eq_nil_iff, List.filter_eq_nil_iff]
    intro e he
    simp [hkind e he]
  have hkeys : ((jobs.map fun j => (j.jobId, j)).map Prod.fst) = ids jobs := by
    rw [List.map_map]
    rfl
  constructor
  · constructor
    · show (queued .submit ((submissions jobs).foldl heappush []) ++ [] ++
        queued .jobEnd ((submissions jobs).foldl heappush []) ++ []).Perm _
      rw [hends, hsubmits, List.append_nil, List.append_nil, List.append_nil]
      exact (hperm.map _).trans (submissions_ids jobs)
    · show List.Perm [] (queued .jobEnd ((submissions jobs).foldl heappush []))
      rw [hends]
    · rfl
    · rfl
    · rfl
    · rfl
  · exact hsorted
  · intro e he
    obtain ⟨j, hj, -, htime⟩ := (submissions_submit (hperm.subset he)).2
    rw [htime]
    exact hsubmit j hj
  · intro j hj
    exact absurd hj List.not_mem_nil
  · intro j hj
    show (Dict.ofList (jobs.map fun j => (j.jobId, j))).get? j.jobId = some j
    apply Dict.get?_of_mem (Dict.nodup_ofList _)
    rw [Dict.ofList_eq (hkeys ▸ hids)]
    exact List.mem_map_of_mem hj
  · rfl
  · exact fun _ => ⟨[], accounts_init⟩

/-! ## Episodes -/

/-- Every job has completed, once, and the cluster is empty. -/
structure AllDone (jobs : List TraceJob) (st : RunState env) : Prop where
  completed : (completedIds st).Perm (ids jobs)
  pending : st.pending = []
  active : st.cluster.active = []
  activeRam : st.cluster.activeRam = []
  /-- With no negative requests, to the last slot and all RAM. -/
  cluster : Nonneg jobs → st.cluster = Cluster.init env.toConfig

theorem terminated_done (h : Ready jobs st) (hdone : st.terminated = true) : AllDone jobs st := by
  obtain ⟨hcount, hevents⟩ : st.nJobs ≤ st.completed ∧ st.events = [] := by
    simpa [RunState.terminated] using hdone
  have hactive : st.cluster.active = [] := by
    have hrunning := h.running
    rw [hevents] at hrunning
    exact List.map_eq_nil_iff.mp (List.perm_nil.mp hrunning)
  have hsets := h.sets
  rw [hevents] at hsets
  have hpending : st.pending = [] := by
    have hlen := hsets.length_eq
    have hrecords := congrArg List.length h.records
    simp only [queued, List.filter_nil, List.map_nil, List.nil_append, List.append_nil,
      List.length_append, ids, List.length_map, completedIds] at hlen hrecords
    rw [h.nJobs, h.completed] at hcount
    exact List.length_eq_zero_iff.mp (by omega)
  have hactiveRam : st.cluster.activeRam = [] := by
    have hkeys := h.ram
    rw [hactive] at hkeys
    exact List.map_eq_nil_iff.mp hkeys
  refine ⟨?_, hpending, hactive, hactiveRam, ?_⟩
  · rw [hpending] at hsets
    exact hsets
  · intro hnonneg
    obtain ⟨pl, haccounts⟩ := h.accounts hnonneg
    have hpl : pl = [] := by
      have hmap := haccounts.active
      rw [hactive] at hmap
      exact List.map_eq_nil_iff.mp hmap.symm
    subst hpl
    exact haccounts.eq_init

/-- At every decision point of every episode each job is in one of the four
sets, the running jobs are those with an end event and an allocation and the
counters agree; a step never takes the clock back, and when it says that the
episode has terminated all jobs have completed and the cluster is empty. -/
theorem episode_consistent (env : EnvConfig) (seed : Option Int) (jobs : List TraceJob)
    (hids : (ids jobs).Nodup) (hsubmit : ∀ j ∈ jobs, 0 ≤ j.submitTs) (actions : List ℕ) :
    let s := run (fun s action => (step num rand s action).1) (reset rand env seed jobs) actions
    Consistent jobs s.run ∧ ∀ action,
      s.run.now ≤ (step num rand s action).1.run.now ∧
        ((step num rand s action).2.terminated → AllDone jobs (step num rand s action).1.run) := by
  have hstart : Ready jobs (reset rand env seed jobs).run :=
    (advance_ready (start_ready env hids hsubmit) hids _).1
  have hrun : Ready jobs
      (run (fun s action => (step num rand s action).1) (reset rand env seed jobs) actions).run :=
    run_keeps (fun s : EnvState G env => Ready jobs s.run)
      (fun s action hs => (next_ready num rand hs hids action).1) hstart actions
  refine ⟨hrun.toConsistent, fun action => ?_⟩
  obtain ⟨hnext, hnow⟩ := next_ready num rand hrun hids action
  exact ⟨hnow, terminated_done hnext⟩

/-- Two jobs on one GPU: the first is placed, an illegal action and the no-op
follow, and the second is placed. -/
theorem episode_two_jobs :
    let env : EnvConfig := { nNodes := 1, gpusPerNode := 1, ram_given := Or.inl rfl,
                             ram_nonneg := by simp, overcommit_nonneg := by decide,
                             speeds_given := Or.inl rfl, types_given := Or.inl rfl }
    let jobs : List TraceJob := [⟨⟨"a", 1, 60, 1⟩, "rtx4070", 0, 30, "batch", 0⟩,
                                 ⟨⟨"b", 1, 60, 1⟩, "rtx3080", 5, 30, "batch", 0⟩]
    let num : Numeric := ⟨id, id, id, id, id, 3⟩
    let rand : Random Unit := ⟨fun u => (0, u), fun _ => 0, fun _ => (), fun _ => 0⟩
    let s := run (fun s action => (step num rand s action).1) (reset rand env none jobs) [0, 7, 16]
    Consistent jobs s.run ∧ ∀ action,
      s.run.now ≤ (step num rand s action).1.run.now ∧
        ((step num rand s action).2.terminated → AllDone jobs (step num rand s action).1.run) :=
  episode_consistent _ _ _ _ _ (by decide) (by decide +kernel) _

end Kelpflux.Proof.Sim
