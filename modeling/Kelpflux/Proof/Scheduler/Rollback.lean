import Kelpflux.Proof.Scheduler.Writes

/-!
# The rollback of a failed cycle

`rollbackUpdates` are the updates that `_restore_cycle_priorities` makes after a
write or the check of a cycle has failed: those of the snapshot's jobs that are
listed with another priority by then (`mem_restore_writes`), and all of them if
Slurm takes each (`restore_writes_all`). They are as they should be (`UpdateOk`)
exactly when every such job is one that the cycle had written, that was listed
with a priority before, and that is not held now (`rollback_ok_iff`).
-/

namespace Kelpflux.Proof.Scheduler

open Framework Framework.Python Impl.Scheduler

variable {σ : Type} {rt : Runtime} {env env' : ClientEnv} {current : Dict String Int}

/-! ## What is restored -/

theorem mem_mismatches {pending : Dict String Int} {jp : String × Int} :
    jp ∈ mismatches current pending ↔
      jp ∈ current ∧ ∃ p, pending.get? jp.1 = some p ∧ p ≠ jp.2 := by
  simp [mismatches, Option.any_eq_true]

theorem restoreJobs_emits (pending : Dict String Int) :
    (restoreJobs rt current pending : Client σ Unit).Emits priorityWrite
      (mismatches current pending) := by
  have h : (restoreJobs rt current pending : Client σ Unit).Emits priorityWrite
      ((mismatches current pending).flatMap (fun jp => [jp]) ++ []) :=
    .bind (.forM (fun jp : String × Int => setPriority_emits jp.1 jp.2) _) fun _ =>
      .of_only (.bind (Prog.Only.perform.mpr rfl) fun _ => .bind (.ofExcept _) fun _ => .ensure _ _)
  simpa using h

/-- Every update of a rollback is of a job listed with another priority. -/
theorem mem_restore_writes {s : ClientState σ} {jp : String × Int}
    (h : jp ∈ writesOf ((restoreCyclePriorities rt current).calls env s)) :
    ∃ doc listed, env s.trace.length Call.getJobs = .ok doc ∧
      pendingJobPriorities rt doc = .ok listed ∧ jp ∈ mismatches current listed := by
  obtain ⟨e, he, hw⟩ := mem_emitted.mp h
  have hne : ¬ Reads e.call := fun hr => by
    rw [hr] at hw
    cases hw
  unfold restoreCyclePriorities at he
  split at he
  · exact absurd he (by simp [pure])
  · have hget : (getJobs : Client σ Json).Only Reads := Prog.Only.perform.mpr rfl
    obtain ⟨doc, hdoc, he⟩ := hget.mem_calls_bind he hne
    obtain ⟨listed, hl, he⟩ := Prog.Only.mem_calls_bind (.ofExcept _) he hne
    exact ⟨doc, listed, hdoc, hl, (restoreJobs_emits listed env _).subset (mem_emitted.mpr ⟨e, he, hw⟩)⟩

theorem setPriority_taken {s : ClientState σ} {jobId : String} {p : Int}
    (h : env s.trace.length (Call.updateJob jobId (.priority p)) = .ok (Json.obj [])) :
    WP env (setPriority rt jobId p) s fun r s' => r = .ok () ∧ s.trace.length ≤ s'.trace.length := by
  unfold setPriority
  rw [WP.bind_iff, wp_updateJob, h]
  refine ⟨rfl, ?_⟩
  show _ ≤ (s.trace ++ _).length
  rw [List.length_append]
  omega

/-- A rollback whose updates are all taken makes all of them. -/
theorem restore_writes_all {s : ClientState σ} {doc : Json} {listed : Dict String Int}
    (hdoc : env s.trace.length Call.getJobs = .ok doc)
    (hlisted : pendingJobPriorities rt doc = .ok listed)
    (htaken : ∀ n jobId body, s.trace.length < n →
      env n (Call.updateJob jobId body) = .ok (Json.obj [])) :
    ∀ jp ∈ mismatches current listed,
      jp ∈ writesOf ((restoreCyclePriorities rt current).calls env s) := by
  intro jp hjp
  have hne : ¬ current.isEmpty := fun he => by
    rw [List.isEmpty_iff.mp he] at hjp
    cases hjp
  have hloop : ∀ s₁ : ClientState σ, s.trace.length < s₁.trace.length →
      (((mismatches current listed).forM fun jp =>
        (setPriority rt jp.1 jp.2 : Client σ Unit)).run env s₁).1 = .ok () := by
    intro s₁ hs₁
    have hwp : WP env ((mismatches current listed).forM fun jp =>
        (setPriority rt jp.1 jp.2 : Client σ Unit)) s₁ fun r _ => r = .ok () :=
      WP.forM (fun _ s' => s.trace.length < s'.trace.length) hs₁
        (fun jp _ s' hs' => WP.mono (setPriority_taken (htaken _ _ _ hs')) fun r s'' ⟨hr, hlen⟩ => by
          rw [hr]
          exact Nat.lt_of_lt_of_le hs' hlen)
        fun _ _ => rfl
    exact hwp
  have hd : ((getJobs : Client σ Json).run env s).1 = .ok doc := hdoc
  have hlen : s.trace.length < ((getJobs : Client σ Json).run env s).2.trace.length := by
    show _ < (s.trace ++ [_]).length
    rw [List.length_append, List.length_singleton]
    omega
  have hw : jp ∈ writesOf _ := forM_writes (fun jp => jp) (hloop _ hlen) jp hjp
  obtain ⟨e, he, hw⟩ := mem_emitted.mp hw
  unfold restoreCyclePriorities
  rw [if_neg hne]
  refine mem_emitted.mpr ⟨e, Prog.calls_bind_subset hd ?_, hw⟩
  refine Prog.calls_bind_subset
    (show (Prog.run env (Prog.ofExcept _) _).1 = .ok listed from hlisted) ?_
  exact Prog.mem_calls_bind.mpr (.inl he)

/-! ## Failed cycles -/

/-- A cycle that has failed at a write or at its check: the priorities it read
before, and the state its rollback starts in. -/
structure Failure where
  current : Dict String Int
  state : ClientState Cycle

/-- How a cycle fails, if it does, after it has started to write. -/
def failure? (rt : Runtime) (args : CycleArgs) (env : ClientEnv) : Option Failure :=
  match (planCycle rt args).run env ⟨{}, []⟩ with
  | (.ok (.write order current deadline), s) =>
    match (writePriorities rt order current deadline).run env ⟨{}, s.trace⟩ with
    | (.error _, s') => some ⟨current, s'⟩
    | _ => none
  | _ => none

/-- The updates that the rollback of a failed cycle makes. -/
def rollbackUpdates (rt : Runtime) (args : CycleArgs) (env : ClientEnv) : List (String × Int) :=
  match failure? rt args env with
  | some f => writesOf ((restoreCyclePriorities rt f.current).calls env f.state)
  | none => []

/-- Whether a listing shows a job as held, by its reason. -/
def heldIn (rt : Runtime) (doc : Json) (jobId : String) : Bool :=
  match docItems doc "jobs" with
  | .ok items => items.any fun item =>
    match item.get "job_id", strField rt item "state_reason" "reason" with
    | .ok id, .ok reason => id.toStr rt = jobId && heldReason reason
    | _, _ => false
  | .error _ => false

/-- An update of a rollback as it should be. The jobs of `current` were read as
not held; a zero that this cycle's own write left behind is not a hold. -/
structure UpdateOk (rt : Runtime) (env : ClientEnv) (f : Failure) (jobId : String) (p : Int) :
    Prop where
  /-- It is of a job that the cycle had written. -/
  written : jobId ∈ f.state.mem.written
  /-- It sets the priority that the job had before. -/
  original : f.current.get? jobId = some p
  /-- It does not hold the job. -/
  not_held : p ≠ 0
  /-- It does not release a job that somebody holds. -/
  not_released : ∀ doc, env f.state.trace.length Call.getJobs = .ok doc → ¬ heldIn rt doc jobId

theorem failure_eq_some {args : CycleArgs} {f : Failure} :
    failure? rt args env = some f ↔ ∃ order deadline s e,
      (planCycle rt args).run env ⟨{}, []⟩ = (.ok (.write order f.current deadline), s) ∧
      (writePriorities rt order f.current deadline).run env ⟨{}, s.trace⟩ = (.error e, f.state) := by
  unfold failure?
  constructor
  · intro h
    split at h
    · rename_i order current deadline s hp
      split at h
      · rename_i e s' hw
        obtain rfl := Option.some.inj h
        exact ⟨order, deadline, s, e, hp, hw⟩
      · cases h
    · cases h
  · rintro ⟨order, deadline, s, e, hp, hw⟩
    rw [hp]
    simp only [hw]

theorem failure_congr {args : CycleArgs} {f : Failure} (h : failure? rt args env = some f)
    (hagree : ∀ n < f.state.trace.length, env n = env' n) : failure? rt args env' = some f := by
  obtain ⟨order, deadline, s, e, hp, hw⟩ := failure_eq_some.mp h
  have hw' := Prog.run_congr (writePriorities rt order f.current deadline) (s := ⟨{}, s.trace⟩)
    (fun n _ hn => hagree n (by rwa [hw] at hn))
  have hle := (Prog.trace_extends env (writePriorities rt order f.current deadline)
    ⟨{}, s.trace⟩).length_le
  simp only [hw] at hle hw'
  have hp' := Prog.run_congr (planCycle rt args) (s := ⟨{}, []⟩)
    (fun n _ hn => hagree n (by simp only [hp] at hn; omega))
  rw [hp] at hp'
  exact failure_eq_some.mpr ⟨order, deadline, s, e, hp'.symm, hw'.symm⟩

theorem failure_nodup {args : CycleArgs} {f : Failure} (h : failure? rt args env = some f) :
    f.current.keys.Nodup := by
  obtain ⟨order, deadline, s, e, hp, -⟩ := failure_eq_some.mp h
  exact (planCycle_planned _ _ _ (congrArg Prod.fst hp) order f.current deadline rfl).2.2

/-- The rollback's calls are calls of the cycle. -/
theorem rollback_subset {args : CycleArgs} {f : Failure} (h : failure? rt args env = some f) :
    (restoreCyclePriorities rt f.current).calls env f.state ⊆
      (reorderCycle rt args).calls env ⟨{}, []⟩ := by
  obtain ⟨order, deadline, s, e, hp, hw⟩ := failure_eq_some.mp h
  intro x hx
  have hback : x ∈ (rollBack rt f.current >>= fun _ => (throw e : Daemon Unit)).calls env f.state :=
    Prog.mem_calls_bind.mpr (.inl (Prog.mem_calls_bind.mpr (.inl (Prog.mem_calls_tryCatch.mpr
      (.inl hx)))))
  have htry : x ∈ (do
      try writePriorities rt order f.current deadline
      catch e =>
        rollBack rt f.current
        throw e
      return order : Daemon (List String)).calls env ⟨{}, s.trace⟩ := by
    refine Prog.mem_calls_bind.mpr (.inl (Prog.mem_calls_tryCatch.mpr
      (.inr ⟨e, congrArg Prod.fst hw, ?_⟩)))
    rw [hw]
    exact hback
  unfold reorderCycle
  refine Prog.calls_bind_subset (congrArg Prod.fst hp) ?_
  rw [hp]
  exact Prog.calls_bind_subset rfl htry

/-- Whatever Slurm replies to a rollback's updates, they are as they should be,
exactly when every job of the snapshot that is listed with another priority is
one that the cycle had written, that had a priority in the snapshot, and that is
not held. -/
theorem rollback_ok_iff {args : CycleArgs} {f : Failure} (h : failure? rt args env = some f) :
    (∀ env', (∀ n ≤ f.state.trace.length, env n = env' n) →
      ∀ jp ∈ rollbackUpdates rt args env', UpdateOk rt env f jp.1 jp.2) ↔
    ∀ doc listed, env f.state.trace.length Call.getJobs = .ok doc →
      pendingJobPriorities rt doc = .ok listed → ∀ jp ∈ mismatches f.current listed,
        jp.1 ∈ f.state.mem.written ∧ jp.2 ≠ 0 ∧ ¬ heldIn rt doc jp.1 := by
  have hupdates : ∀ env', (∀ n ≤ f.state.trace.length, env n = env' n) →
      rollbackUpdates rt args env'
        = writesOf ((restoreCyclePriorities rt f.current).calls env' f.state) := by
    intro env' hagree
    rw [rollbackUpdates, failure_congr h fun n hn => hagree n (Nat.le_of_lt hn)]
  constructor
  · intro hok doc listed hdoc hlisted jp hjp
    -- Slurm takes every update from here on
    let env' : ClientEnv := fun n c =>
      if n ≤ f.state.trace.length then env n c else replyEnv (fun _ _ => .ok (.obj [])) n c
    have hagree : ∀ n ≤ f.state.trace.length, env n = env' n := fun n hn => by
      funext c
      exact (if_pos hn).symm
    have hmem : jp ∈ rollbackUpdates rt args env' := by
      rw [hupdates env' hagree]
      refine restore_writes_all ((congrFun (hagree _ (Nat.le_refl _)) _).symm.trans hdoc) hlisted
        (fun n jobId body hn => ?_) jp hjp
      exact if_neg (Nat.not_le.mpr hn)
    have hu := hok env' hagree jp hmem
    exact ⟨hu.written, hu.not_held, hu.not_released doc hdoc⟩
  · intro hsafe env' hagree jp hjp
    rw [hupdates env' hagree] at hjp
    obtain ⟨doc, listed, hdoc, hlisted, hm⟩ := mem_restore_writes hjp
    have hdoc : env f.state.trace.length Call.getJobs = .ok doc :=
      (congrFun (hagree _ (Nat.le_refl _)) _).trans hdoc
    obtain ⟨hwritten, hne, hheld⟩ := hsafe doc listed hdoc hlisted jp hm
    refine ⟨hwritten, Dict.get?_of_mem (failure_nodup h) (mem_mismatches.mp hm).1, hne,
      fun doc' hdoc' => ?_⟩
    rw [hdoc] at hdoc'
    exact Except.ok.inj hdoc' ▸ hheld

/-- A cycle in which Slurm refuses the updates of one job. -/
def refuseEnv (refused : String) (jobs : Nat → List Json) : ClientEnv := fun n c =>
  match c with
  | .updateJob jobId body =>
    if jobId = refused then .error (.other "HTTP 500") else cycleEnv jobs n (.updateJob jobId body)
  | c => cycleEnv jobs n c

/-- The jobs of `before` while the cycle ranks, and then those of `after`. -/
def whileRanking (before after : List Json) (n : Nat) : List Json := if n < 20 then before else after

/-- The cycle that fails to write job 7 rolls back job 8 alone. -/
theorem rollback_ok_two_jobs :
    let env := refuseEnv "7" (whileRanking [jobItem 7 100 2, jobItem 8 100 1]
      [jobItem 7 100 2, jobItem 8 5000000 1])
    ∃ f, failure? plainRuntime cycleArgs env = some f ∧
      ∀ jp ∈ rollbackUpdates plainRuntime cycleArgs env, UpdateOk plainRuntime env f jp.1 jp.2 := by
  intro env
  have hfail : (failure? plainRuntime cycleArgs env).map
      (fun f => (f.state.trace.length, f.current, f.state.mem.written))
        = some (23, [("8", 100), ("7", 100)], ["8"]) := by decide +kernel
  obtain ⟨f, hf, hfields⟩ := Option.map_eq_some_iff.mp hfail
  obtain ⟨hlen, hcurrent, hwritten⟩ : f.state.trace.length = 23 ∧
      f.current = [("8", 100), ("7", 100)] ∧ f.state.mem.written = ["8"] := by
    simpa using hfields
  refine ⟨f, hf, (rollback_ok_iff hf).mpr (fun doc listed hdoc hlisted => ?_) env fun _ _ => rfl⟩
  rw [hlen] at hdoc
  obtain rfl : jobsDoc [jobItem 7 100 2, jobItem 8 5000000 1] = doc := Except.ok.inj hdoc
  have h : pendingJobPriorities plainRuntime (jobsDoc [jobItem 7 100 2, jobItem 8 5000000 1])
      = .ok [("7", 100), ("8", 5000000)] := by decide +kernel
  obtain rfl : [("7", 100), ("8", 5000000)] = listed := Except.ok.inj (h.symm.trans hlisted)
  rw [hcurrent, hwritten]
  decide +kernel

/-- Job 7 ages while the cycle fails to write job 8. -/
theorem rollback_unwritten_job :
    let env := refuseEnv "8" (whileRanking [jobItem 7 100 2, jobItem 8 100 1]
      [jobItem 7 101 2, jobItem 8 100 1])
    ∃ f, failure? plainRuntime cycleArgs env = some f ∧
      ¬ ∀ jp ∈ rollbackUpdates plainRuntime cycleArgs env, UpdateOk plainRuntime env f jp.1 jp.2 := by
  intro env
  have hfail : (failure? plainRuntime cycleArgs env).map (fun f => f.state.mem.written)
      = some [] := by decide +kernel
  obtain ⟨f, hf, hwritten⟩ := Option.map_eq_some_iff.mp hfail
  refine ⟨f, hf, fun hok => ?_⟩
  have hmem : ("7", 100) ∈ rollbackUpdates plainRuntime cycleArgs env := by decide +kernel
  have hin := (hok _ hmem).written
  rw [hwritten] at hin
  cases hin

end Kelpflux.Proof.Scheduler
