import Kelpflux.Framework.Emits
import Kelpflux.Proof.Scheduler.Rank

/-!
# The priorities the reorder daemon writes

`priorityWrite` picks the priority updates out of a run's calls. Planning a
cycle makes none (`planCycle_reads`), and a plan's order lists at most
`MAX_PENDING_JOBS` jobs, each once (`planCycle_planned`). Its writes are some of
`orderPriorities`, in that order (`writePriorities_emits`).
-/

namespace Kelpflux.Proof.Scheduler

open Framework Framework.Python Impl.Scheduler

variable {σ : Type} {rt : Runtime} {args : CycleArgs} {env : ClientEnv}

/-- A priority update, as the job and its new priority. -/
def priorityWrite : interface.Call → Option (String × Int)
  | Call.updateJob jobId (.priority p) => some (jobId, p)
  | _ => none

/-- The priority updates among the calls of a run. -/
abbrev writesOf (es : List ClientEvent) : List (String × Int) := emitted priorityWrite es

/-- A call that updates no priority. -/
def Reads (c : interface.Call) : Prop := priorityWrite c = none

/-! ## Planning -/

theorem jobFromItem_reads (item : Json) : (jobFromItem rt args item : Client σ _).Only Reads := by
  refine .bind (Prog.Only.perform.mpr rfl) fun now => .bind (.ofExcept _) fun job => ?_
  cases job with
  | none => exact .pure _
  | some job => exact .bind (.ofExcept _) fun tres => .pure _

theorem eligibleJob_reads (item : Json) : (eligibleJob rt args item : Client σ _).Only Reads := by
  refine .bind (.ofExcept _) fun reads => ?_
  cases reads with
  | false => exact .pure _
  | true => exact .bind (jobFromItem_reads item) fun job => .pure _

theorem readState_reads : (readState rt args : Client σ _).Only Reads := by
  refine .bind (Prog.Only.perform.mpr rfl) fun jobsDoc =>
    .bind (Prog.Only.perform.mpr rfl) fun nodesDoc => .bind ?_ fun jobs =>
    .bind (.ofExcept _) fun discovered => .pure _
  refine .bind (.ofExcept _) fun items => .bind (.foldlM (fun eligible item _ => ?_) _) fun _ => .pure _
  exact .bind (eligibleJob_reads item) fun job => .pure _

theorem rankCycle_reads (deadline : ℚ) (jobs : List SlurmJob) (nodes : List SlurmNode) :
    (rankCycle rt args deadline jobs nodes).Only Reads := by
  refine .bind (.iterate (fun st => ?_) _ _) fun order => ?_
  · refine .ite (fun _ => .pure _) fun _ => .bind ?_ fun act => .ofExcept _
    refine .bind ?_ fun _ => .bind (Prog.Only.perform.mpr rfl) fun now => .tryCatch ?_ fun e => ?_
    · exact .bind (Prog.Only.perform.mpr rfl) fun now => .ensure _ _
    · exact .bind (Prog.Only.perform.mpr rfl) fun now => Prog.Only.perform.mpr rfl
    · exact .ite (fun _ => .throw _) fun _ => .pure _
  · cases order with
    | none => exact .throw _
    | some order => exact .pure _

theorem planCycle_reads : (planCycle rt args).Only Reads := by
  refine .bind (.ensure _ _) fun _ => .bind (Prog.Only.perform.mpr rfl) fun start =>
    .bind readState_reads fun state => .ite (fun _ => .pure _) fun _ =>
    .bind (.ensure _ _) fun _ => .bind ?_ fun _ => .bind (rankCycle_reads _ _ _) fun order =>
    .bind (Prog.Only.perform.mpr rfl) fun now => .bind (.ensure _ _) fun _ =>
    .bind readState_reads fun current => .bind (.ensure _ _) fun _ => .pure _
  exact .bind (Prog.Only.perform.mpr rfl) fun health => .bind (.ofExcept _) fun gotObs =>
    .bind (.ofExcept _) fun gotActions => .ensure _ _

/-- A plan's order lists no job twice, and no more than may be pending; its
snapshot has one priority for each job. -/
def Planned (plan : CyclePlan) : Prop :=
  ∀ order current deadline, plan = .write order current deadline →
    order.Nodup ∧ order.length ≤ maxPendingJobs ∧ current.keys.Nodup

theorem rankCycle_order (deadline : ℚ) (jobs : List SlurmJob) (nodes : List SlurmNode) :
    (rankCycle rt args deadline jobs nodes).Returns fun order =>
      order.Nodup ∧ order.length ≤ jobs.length := by
  intro env s order ho
  have hp := rankPending_perm _ _ _ _ _ env s order ho
  refine ⟨hp.nodup_iff.mpr (Dict.nodup_ofList _), ?_⟩
  have hlen := start_length (jobs.map .job) (Dict.ofList (nodes.map fun n => (n.name, n.freeMps)))
  rw [hp.length_eq, Dict.keys, List.length_map]
  rwa [List.length_map] at hlen

theorem planCycle_planned : (planCycle rt args).Returns Planned := by
  refine .bind (.ensure _ _) fun _ hmax => .bind (.any _) fun start _ => .bind (.any _) fun state _ =>
    .ite (fun _ => .pure nofun) fun _ => .bind (.ensure _ _) fun _ hlen => .bind (.any _) fun _ _ =>
    .bind (rankCycle_order _ _ _) fun order horder => .bind (.any _) fun now _ =>
    .bind (.any _) fun _ _ => .bind (.any _) fun current _ => .bind (.any _) fun _ _ => .pure ?_
  intro order' current' deadline' h
  split at h
  · cases h
  · obtain ⟨rfl, rfl, -⟩ := CyclePlan.write.inj h
    refine ⟨horder.1, ?_, Dict.nodup_ofList _⟩
    have hle := horder.2
    omega

/-! ## Writing -/

theorem setPriority_emits (jobId : String) (p : Int) :
    (setPriority rt jobId p : Client σ Unit).Emits priorityWrite [(jobId, p)] := by
  have hrest : ∀ result : Json, (do
      let errors ← Prog.ofExcept (result.get "errors")
      Prog.ensure (errors.truthy = false) (.runtimeError
        s!"Slurm rejected priority update for job {jobId}: {errors.toStr rt}") :
        Client σ Unit).Emits priorityWrite [] := fun result =>
    .of_only (.bind (.ofExcept _) fun errors => .ensure _ _)
  exact .bind (Prog.Emits.perform _) hrest

theorem writePriority_emits (current : Dict String Int) (deadline : ℚ) (jp : String × Int) :
    (writePriority rt current deadline jp).Emits priorityWrite [jp] := by
  have hwrite : (do
      setPriority rt jp.1 jp.2
      modify fun c => { c with written := c.written ++ [jp.1] } :
        Daemon Unit).Emits priorityWrite ([jp] ++ []) :=
    .bind (setPriority_emits _ _) fun _ => .of_only (.modify _)
  have hclock : (monotonic : Daemon ℚ).Emits priorityWrite [] :=
    .of_only (Prog.Only.perform.mpr rfl)
  exact .bind hclock fun now => .bind (L := []) (.of_only (.ensure _ _)) fun _ =>
    .ite (.of_only (.pure _)) hwrite

theorem writePriorities_emits (order : List String) (current : Dict String Int) (deadline : ℚ) :
    (writePriorities rt order current deadline).Emits priorityWrite (orderPriorities order) := by
  have hverify : (verifyPriorities rt (orderPriorities order)).Only Reads :=
    .bind (Prog.Only.perform.mpr rfl) fun _ => .bind (Prog.Only.perform.mpr rfl) fun _ =>
      .bind (.ofExcept _) fun _ => .ensure _ _
  have h : (writePriorities rt order current deadline).Emits priorityWrite
      ((orderPriorities order).flatMap (fun jp => [jp]) ++ []) :=
    .bind (.forM (writePriority_emits current deadline) _) fun _ => .of_only hverify
  simpa using h

/-- A loop of updates that returns has made each of them. -/
theorem forM_writes {δ : Type} {xs : List δ} (g : δ → String × Int) {s : ClientState σ}
    (h : ((xs.forM fun x => (setPriority rt (g x).1 (g x).2 : Client σ Unit)).run env s).1 = .ok ()) :
    ∀ x ∈ xs, g x ∈ writesOf
      ((xs.forM fun x => (setPriority rt (g x).1 (g x).2 : Client σ Unit)).calls env s) := by
  intro x hx
  obtain ⟨s', hs'⟩ := Prog.forM_ok h hx
  have hset : ⟨Call.updateJob (g x).1 (.priority (g x).2), _⟩ ∈
      (setPriority rt (g x).1 (g x).2).calls env s' :=
    Prog.mem_calls_bind.mpr (.inl (Prog.mem_calls_perform rfl))
  exact mem_emitted.mpr ⟨_, hs' hset, rfl⟩

/-! ## Documents for a run -/

/-- A pending job of the GPU partition that asks for 25 slots. -/
def jobItem (jobId priority submitTime : Int) : Json :=
  .obj [("job_id", .int jobId), ("job_state", .arr [.str "PENDING"]),
    ("state_reason", .str "Resources"), ("priority", .int priority), ("partition", .str "gpu"),
    ("tres_req_str", .str "gres/mps=25"), ("submit_time", .obj [("number", .int submitTime)])]

def jobsDoc (items : List Json) : Json := .obj [("jobs", .arr items)]

def nodesDoc : Json :=
  .obj [("nodes", .arr [.obj [("name", .str "gpu-4070"), ("tres", .str "gres/mps=100")]])]

def healthDoc : Json := .obj [("obs_dim", .int 168), ("n_actions", .int 33)]

/-- A policy that puts the first job of its window on the first node. -/
def firstJob (payload : ActPayload) : Json :=
  .obj [("selected_job_id", .str ((payload.pendingJobs.map PendingJob.jobId).headD "")),
    ("node_j", .int 0)]

/-- Everything is answered, the jobs as `jobs` has them by then. -/
def cycleEnv (jobs : Nat → List Json) : ClientEnv := replyEnv fun n c =>
  match c with
  | .getJobs => .ok (jobsDoc (jobs n))
  | .getNodes => .ok nodesDoc
  | .healthz => .ok healthDoc
  | .act payload => .ok (firstJob payload)
  | _ => .ok (.obj [])

def cycleArgs : CycleArgs where
  nodeNames := ["gpu-4070", "gpu-3080"]
  gpuPartitions := ["gpu"]

end Kelpflux.Proof.Scheduler
