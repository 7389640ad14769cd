import Kelpflux.Proof.Sim.Decisions
import Kelpflux.Proof.Sim.Shaping

/-!
# What an episode returns

The completion reward of a step is what is charged for the jobs that end in it
(`next_charged`). Over a run this adds up to one charge for each job that has
completed, whatever the actions are; the placements and the jobs left at an end
add their own parts (`return_eq`). An episode that terminates has charged each
job of the trace, once: `episode_return`.
-/

namespace Kelpflux.Proof.Sim

open Framework Kelpflux.Impl.Sim

variable {env : EnvConfig}

/-- What is charged for a job that ends `jct` seconds after its submission. -/
def jobCharge (env : EnvConfig) (j : TraceJob) (jct : ℚ) : ℚ :=
  -(jct / env.rewardScale)
    - (if 0 < env.fairnessCoef then env.fairnessCoef * (jct / env.rewardScale) ^ 2 else 0)
    - (if 0 < env.sloPenalty ∧ 0 < j.sloS ∧ j.sloS < jct then
        env.sloPenalty * (jct - j.sloS) / env.rewardScale else 0)

/-- What is charged for a record, of a job of the trace. -/
def recordCharge (env : EnvConfig) (byId : Dict String TraceJob) (r : String × ℚ) : ℚ :=
  ((byId.get? r.1).map fun j => jobCharge env j r.2).getD 0

/-- What has been charged for the completed jobs. -/
def charged (st : RunState env) : ℚ := (st.jctRecords.map (recordCharge env st.byId)).sum

theorem onJobEnd_reward (st : RunState env) (jid : String) (j : TraceJob) :
    (st.onJobEnd jid j).completionReward
      = st.completionReward + jobCharge env j (st.now - j.submitTs) := by
  unfold RunState.onJobEnd jobCharge
  dsimp only
  split_ifs <;> ring

/-- An event that is popped charges for what it records. -/
theorem popEvent_charged (st : RunState env) :
    st.popEvent.completionReward - charged st.popEvent = st.completionReward - charged st := by
  unfold RunState.popEvent
  split
  · rfl
  unfold RunState.handle
  dsimp only
  split
  · rfl
  rename_i e es _ _ j hj
  split
  · rfl
  have hrecord : recordCharge env st.byId (e.jobId, e.time - j.submitTs) =
      jobCharge env j (e.time - j.submitTs) := by
    unfold recordCharge
    rw [hj]
    rfl
  have hsum : charged (({ st with events := es, now := e.time } : RunState env).onJobEnd e.jobId j) =
      charged st + jobCharge env j (e.time - j.submitTs) := by
    show ((st.jctRecords ++ [(e.jobId, e.time - j.submitTs)]).map (recordCharge env st.byId)).sum = _
    rw [List.map_append, List.sum_append, List.map_singleton, List.sum_singleton, hrecord]
    rfl
  have hreward := onJobEnd_reward ({ st with events := es, now := e.time } : RunState env) e.jobId j
  rw [hsum, hreward]
  ring

variable {G : Type} (num : Numeric) (rand : Random G)

/-- The completion reward of a step is what it charges. -/
theorem next_charged (s : EnvState G env) (action : ℕ) :
    (s.next num rand action).run.completionReward
      = charged (s.next num rand action).run - charged s.run := by
  let s₀ : EnvState G env := { s with stepCount := s.stepCount + 1 }
  have hact : charged (s₀.act num rand action).1.run = charged s.run := by
    rcases act_cases num rand s₀ action with heq | ⟨chosen, plan, t, -, -, -, heq⟩
    · rw [heq]
    · rw [heq]
      rfl
  have hgo := @goOn_keeps _ (s₀.act num rand action).1.run
    (fun st => st.completionReward - charged st = 0 - charged s.run)
    (fun st h => (popEvent_charged st).trans h) (congrArg (0 - ·) hact)
    (s₀.act num rand action).2.2
  have hnext : (s.next num rand action).run =
      (s₀.act num rand action).1.run.goOn (s₀.act num rand action).2.2 := rfl
  rw [hnext]
  linarith

/-! ## A whole episode -/

/-- The reward of the placement in a step. -/
def placedReward (s : EnvState G env) (action : ℕ) : ℚ :=
  ({ s with stepCount := s.stepCount + 1 }.act num rand action).2.1

/-- What is charged for the pending jobs in a step that ends the episode. -/
def leftCharge (s : EnvState G env) (action : ℕ) : ℚ :=
  let s' := s.next num rand action
  if s'.run.terminated ∨ decide (s'.stepCount ≥ env.maxSteps) then
    -(s'.run.pending.map fun j => (s'.run.now - j.submitTs) / env.rewardScale).sum
  else 0

theorem reward_eq (hplain : ¬ Shaped env) (s : EnvState G env) (action : ℕ) :
    (step num rand s action).2.reward = charged (s.next num rand action).run - charged s.run +
      if env.rewardMode = .mo then 0
      else placedReward num rand s action + leftCharge num rand s action := by
  have hadded := added_eq num rand s action
  rw [if_neg hplain, added, sub_eq_zero] at hadded
  rw [hadded, ← next_charged, plainReward]
  cases env.rewardMode with
  | mo => exact (add_zero _).symm
  | jctAligned =>
    show placedReward num rand s action + _ + leftCharge num rand s action = _
    rw [if_neg (by decide)]
    ring

/-- Gains of three parts, one of which is a difference that telescopes. -/
theorem sum_gains {σ ι : Type} (next : σ → ι → σ) (φ : σ → ℚ) (f g h : σ → ι → ℚ)
    (hf : ∀ s x, f s x = φ (next s x) - φ s + (g s x + h s x)) (s : σ) (xs : List ι) :
    (gains next f s xs).sum =
      φ (run next s xs) - φ s + ((gains next g s xs).sum + (gains next h s xs).sum) := by
  induction xs generalizing s with
  | nil => simp [gains]
  | cons x xs ih =>
    simp only [gains, List.sum_cons, run_cons, ih, hf]
    ring

theorem gains_zero {σ ι : Type} {next : σ → ι → σ} (s : σ) (xs : List ι) :
    (gains next (fun _ _ => (0 : ℚ)) s xs).sum = 0 := by
  induction xs generalizing s with
  | nil => rfl
  | cons x xs ih => rw [gains, List.sum_cons, ih, zero_add]

/-- Over a run, the rewards add up to what is charged for the jobs that complete
in it, the placements' rewards and the charges for the jobs left. -/
theorem return_eq (hplain : ¬ Shaped env) (s : EnvState G env) (actions : List ℕ) :
    let next := fun s action => (step num rand s action).1
    (gains next (fun s action => (step num rand s action).2.reward) s actions).sum =
      charged (run next s actions).run - charged s.run +
        if env.rewardMode = .mo then 0
        else (gains next (placedReward num rand) s actions).sum +
          (gains next (leftCharge num rand) s actions).sum := by
  intro next
  by_cases hmode : env.rewardMode = .mo
  · have hsum := sum_gains next (fun s : EnvState G env => charged s.run)
      (fun s action => (step num rand s action).2.reward) (fun _ _ => 0) (fun _ _ => 0)
      (fun s action => by rw [reward_eq num rand hplain, if_pos hmode, zero_add (0 : ℚ)]; rfl) s
      actions
    rw [hsum, gains_zero, if_pos hmode, zero_add (0 : ℚ)]
  · have hsum := sum_gains next (fun s : EnvState G env => charged s.run)
      (fun s action => (step num rand s action).2.reward) (placedReward num rand)
      (leftCharge num rand)
      (fun s action => by rw [reward_eq num rand hplain, if_neg hmode]; rfl) s actions
    rw [hsum, if_neg hmode]

/-! ## Each job, once -/

variable {jobs : List TraceJob} {st : RunState env}

/-- No job has completed when a trace is started. -/
theorem start_charged (env : EnvConfig) (seed : Option Int) (jobs : List TraceJob) :
    charged (reset rand env seed jobs).run = 0 := by
  have hkeeps : (RunState.start env jobs).advanceToDecision.jctRecords = [] ∧
      ∀ e ∈ (RunState.start env jobs).advanceToDecision.events, e.kind = .submit := by
    refine @advance_keeps _ (RunState.start env jobs)
      (fun st => st.jctRecords = [] ∧ ∀ e ∈ st.events, e.kind = .submit) (fun st h => ?_)
      ⟨rfl, fun e he => (submissions_submit ((start_events jobs).2.subset he)).1⟩ _
    obtain ⟨hrecords, hkind⟩ := h
    unfold RunState.popEvent
    split
    · exact ⟨hrecords, hkind⟩
    rename_i e es hevents
    have hfirst : e.kind = .submit := hkind e (by simp [hevents])
    have hrest : ∀ e' ∈ es, e'.kind = .submit := fun e' he' => hkind e' (by simp [hevents, he'])
    unfold RunState.handle
    dsimp only
    split
    · exact ⟨hrecords, hrest⟩
    · rw [hfirst]
      exact ⟨hrecords, hrest⟩
  unfold charged
  rw [show (reset rand env seed jobs).run.jctRecords = [] from hkeeps.1]
  rfl

/-- Once all jobs have completed, each has been charged for, by its time. -/
theorem charged_all (h : Ready jobs st) (hids : (ids jobs).Nodup)
    (hdone : (completedIds st).Perm (ids jobs)) :
    charged st =
      (jobs.map fun j => jobCharge env j ((Dict.get? st.jctRecords j.jobId).getD 0)).sum := by
  let g : String → ℚ := fun jid =>
    recordCharge env st.byId (jid, (Dict.get? st.jctRecords jid).getD 0)
  have hkeys : (Dict.keys st.jctRecords).Nodup := hdone.nodup_iff.mpr hids
  have hrecords : st.jctRecords.map (recordCharge env st.byId) =
      (completedIds st).map g := by
    unfold completedIds
    rw [List.map_map]
    refine List.map_congr_left fun r hr => ?_
    show _ = recordCharge env st.byId (r.1, (Dict.get? st.jctRecords r.1).getD 0)
    rw [Dict.get?_of_mem hkeys (k := r.1) (v := r.2) hr]
    rfl
  have hjobs : (ids jobs).map g =
      jobs.map fun j => jobCharge env j ((Dict.get? st.jctRecords j.jobId).getD 0) := by
    unfold ids
    rw [List.map_map]
    refine List.map_congr_left fun j hj => ?_
    show recordCharge env st.byId (j.jobId, _) = _
    unfold recordCharge
    rw [h.byId j hj]
    rfl
  unfold charged
  rw [hrecords, (hdone.map g).sum_eq, hjobs]

/-- Without fairness and deadlines the charges are the times, scaled. -/
theorem charged_jctSum (h : Consistent jobs st) (hbyId : ∀ r ∈ st.jctRecords,
      ∃ j, st.byId.get? r.1 = some j)
    (hfair : env.fairnessCoef ≤ 0) (hslo : env.sloPenalty ≤ 0) :
    charged st = -(st.jctSum / env.rewardScale) := by
  rw [h.jctSum, ← h.records]
  unfold charged
  generalize st.jctRecords = records at hbyId ⊢
  induction records with
  | nil => simp
  | cons r records ih =>
    obtain ⟨j, hj⟩ := hbyId r List.mem_cons_self
    have hcharge : recordCharge env st.byId r = -(r.2 / env.rewardScale) := by
      unfold recordCharge jobCharge
      rw [hj, Option.map_some, Option.getD_some, if_neg (not_lt.mpr hfair),
        if_neg fun hlate => absurd hlate.1 (not_lt.mpr hslo)]
      ring
    rw [List.map_cons, List.sum_cons, ih fun r' hr' => hbyId r' (List.mem_cons_of_mem r hr'),
      hcharge, List.map_cons, List.sum_cons]
    ring

/-- A record is of a job of the trace. -/
theorem Ready.record_job (h : Ready jobs st) {r : String × ℚ} (hr : r ∈ st.jctRecords) :
    ∃ j, st.byId.get? r.1 = some j := by
  have hid : r.1 ∈ ids jobs :=
    h.sets.subset (List.mem_append_right _ (List.mem_map_of_mem hr))
  obtain ⟨j, hj, hjid⟩ := List.mem_map.mp hid
  exact ⟨j, hjid ▸ h.byId j hj⟩

/-- Whatever its actions are, an episode returns one charge for each job that
has completed, and for a JCT-aligned reward those of the placements and of the
jobs left. Once it has terminated that is a charge for each job of the trace, by
the time that is recorded of it; without fairness and deadlines it is the sum of
the completion times, scaled. -/
theorem episode_return (env : EnvConfig) (hplain : ¬ Shaped env) (seed : Option ℤ)
    (jobs : List TraceJob) (hids : (ids jobs).Nodup) (hsubmit : ∀ j ∈ jobs, 0 ≤ j.submitTs)
    (actions : List ℕ) :
    let next := fun s action => (step num rand s action).1
    let start := reset rand env seed jobs
    let last := (run next start actions).run
    (gains next (fun s action => (step num rand s action).2.reward) start actions).sum =
        charged last + (if env.rewardMode = .mo then 0
          else (gains next (placedReward num rand) start actions).sum +
            (gains next (leftCharge num rand) start actions).sum) ∧
      (last.terminated = true → charged last =
        (jobs.map fun j => jobCharge env j ((Dict.get? last.jctRecords j.jobId).getD 0)).sum) ∧
      (env.fairnessCoef ≤ 0 → env.sloPenalty ≤ 0 →
        charged last = -(last.jctSum / env.rewardScale)) := by
  intro next start last
  have hrun : Ready jobs last :=
    run_keeps (fun s : EnvState G env => Ready jobs s.run)
      (fun s action hs => (next_ready num rand hs hids action).1)
      (advance_ready (start_ready env hids hsubmit) hids _).1 actions
  refine ⟨?_, fun hdone => ?_, fun hfair hslo => ?_⟩
  · refine (return_eq num rand hplain start actions).trans ?_
    show charged last - charged start.run + _ = _
    rw [start_charged rand env seed jobs, sub_zero]
  · exact charged_all hrun hids (terminated_done hrun hdone).completed
  · exact charged_jctSum hrun.toConsistent (fun r hr => hrun.record_job hr) hfair hslo

/-- One node, with deadlines and fairness charged for. -/
def chargedNode : EnvConfig where
  nNodes := 1
  gpusPerNode := 1
  fairnessCoef := 1
  sloPenalty := 2
  ram_given := no_speeds
  ram_nonneg := Config.no_ram_nonneg
  overcommit_nonneg := Config.one_nonneg
  speeds_given := no_speeds
  types_given := no_types

/-- Two jobs on one GPU, the second of which waits and misses its deadline. -/
theorem episode_return_two :
    let jobs : List TraceJob := [⟨⟨"a", 1, 60, 1⟩, "rtx4070", 0, 30, "batch", 0⟩,
                                 ⟨⟨"b", 1, 60, 1⟩, "rtx3080", 5, 30, "inference", 10⟩]
    let num : Numeric := ⟨id, id, id, fun x => Nat.sqrt x.num.toNat / Nat.sqrt x.den, id, 3⟩
    let rand : Random Unit := ⟨fun u => (0, u), fun _ => 0, fun _ => (), fun _ => 0⟩
    let next := fun s action => (step num rand s action).1
    let last := (run next (reset rand chargedNode none jobs) [0, 16, 0, 16]).run
    last.terminated = true ∧ charged last =
      (jobs.map fun j => jobCharge chargedNode j ((Dict.get? last.jctRecords j.jobId).getD 0)).sum := by
  intro jobs num rand next last
  have hdone : last.terminated = true := by decide +kernel
  obtain ⟨-, hcharged, -⟩ := episode_return num rand chargedNode (by decide) none jobs (by decide)
    (by decide +kernel) [0, 16, 0, 16]
  exact ⟨hdone, hcharged hdone⟩

end Kelpflux.Proof.Sim
