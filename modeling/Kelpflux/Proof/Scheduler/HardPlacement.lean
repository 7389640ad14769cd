import Kelpflux.Proof.Scheduler.Act
import Kelpflux.Proof.Scheduler.Asking
import Kelpflux.Proof.Scheduler.Writes

/-!
# A hard placement, from the listing to the update

The controller shows jobs and nodes to the policy server (`request`), the
server answers an action that its mask allows (`ServedLegal`), and the controller
pins the job to a node by the answer's indices. Both ends name the same job and
node: the update is for a job and a node of the payload that fit each other
(`update_fits`).
-/

namespace Kelpflux.Proof.Scheduler

open Framework Framework.Python Impl.Scheduler

/-! ## Between the processes -/

def requestJob (p : PendingJob) : Serve.JobView PyFloat where
  jobId := p.jobId
  mpsReq := p.mpsReq
  gpuCount := p.gpuCount
  gpuType := p.gpuType
  runtime := p.runtime
  submitTs := p.submitTs
  canFit := p.canFit
  ramReq := p.ramReq
  sloS := p.sloS
  jobClass := p.jobClass
  eligibleNodeIndices := some (p.eligibleNodeIndices.map fun (i : ℕ) => (i : Int))

/-- What the server reads of a payload. -/
def request (payload : ActPayload) : Serve.ActRequest PyFloat where
  now := .fin payload.now
  pendingJobs := payload.pendingJobs.map requestJob
  nodes := payload.nodes.map fun gpus =>
    ⟨gpus.map fun g => ⟨g.freeMps, g.runningJobs, g.gpuType, .fin 1⟩⟩
  nNodes := payload.nNodes
  gpusPerNode := payload.gpusPerNode
  mpsPerGpu := payload.mpsPerGpu

def orNull {α : Type} (f : α → Json) : Option α → Json
  | none => .null
  | some a => f a

/-- What the controller reads of a response. -/
def responseDoc (r : Serve.ActResponse PyFloat) : Json :=
  .obj [("action", .int r.action), ("job_i", orNull (fun n : ℕ => .int n) r.jobI),
    ("node_j", orNull (fun n : ℕ => .int n) r.nodeJ),
    ("gpu_k", orNull (fun n : ℕ => .int n) r.gpuK),
    ("selected_job_id", orNull .str r.selectedJobId), ("value", .float r.value),
    ("entropy", .float r.entropy)]

/-- `/act` answers with an action that its mask allows, or fails. -/
def ServedLegal (env : ClientEnv) : Prop :=
  ∀ n payload doc, env n (.act payload) = .ok doc → ∃ action value entropy,
    ((request payload).mask PyFloat.lt)[action]? = some true ∧
      doc = responseDoc ((request payload).respond PyFloat.lt action value entropy)

/-- No two of the jobs that a listing gives have the same id. -/
def DistinctIds (rt : Runtime) (args : PlaceArgs) (env : ClientEnv) : Prop :=
  ∀ n doc now jobs, env n .getJobs = .ok doc →
    parseJobs rt args.defaultRuntime args.defaultMps now doc = .ok jobs →
    (jobs.map fun job => job.jobId).Nodup

/-! ## The answer -/

/-- The job and the node that an update names fit each other. -/
structure Fit (jobs : List SlurmJob) (nodes : List SlurmNode) (jobId nodeName : String)
    (job : SlurmJob) (node : SlurmNode) : Prop where
  job_mem : job ∈ window jobs
  job_id : job.jobId = jobId
  node_mem : node ∈ nodes
  node_name : node.name = nodeName
  available : node.available = true
  gpuType : job.requiredGpuType = "" ∨ node.gpuType = job.requiredGpuType
  requiredNodes : job.requiredNodes = "" ∨ node.name ∈ splitComma job.requiredNodes
  slots : job.mpsReq ≤ node.freeMps

variable {jobs : List SlurmJob} {nodes : List SlurmNode} {mpsPerGpu : Int} {now : ℚ}

/-- What the server offers of a payload fits. -/
theorem offers_fit {i : ℕ} {nj : Fin (request (buildActPayload jobs nodes mpsPerGpu now)).nNodes}
    {gk : Fin (request (buildActPayload jobs nodes mpsPerGpu now)).gpusPerNode}
    {j : Serve.JobView PyFloat} {gpu : Serve.GpuView PyFloat}
    (h : Offers PyFloat.lt (request (buildActPayload jobs nodes mpsPerGpu now)) i nj gk j gpu) :
    ∃ job node, nodes[(nj : ℕ)]? = some node ∧ Fit jobs nodes j.jobId node.name job node := by
  have hpending : j ∈ (request (buildActPayload jobs nodes mpsPerGpu now)).pendingJobs := by
    have hmem := List.mem_of_mem_take (List.mem_of_getElem? h.job)
    exact mem_sortedLt.mp hmem
  obtain ⟨p, hp, rfl⟩ := List.mem_map.mp hpending
  obtain ⟨job, hjob, rfl⟩ := List.mem_map.mp hp
  have hindex : (nj : ℕ) ∈ eligibleNodeIndices job nodes := by
    have helig := h.eligible _ rfl
    obtain ⟨k, hk, hcast⟩ := List.mem_map.mp helig
    have hsame : k = nj := by exact_mod_cast hcast
    rwa [hsame] at hk
  obtain ⟨node, hnode, hallows⟩ := mem_eligibleNodeIndices.mp hindex
  have hfree : gpu.freeMps = node.freeMps := by
    have hlisted := h.listed
    have hgk : (gk : ℕ) = 0 := by
      have := gk.2
      have hone : (request (buildActPayload jobs nodes mpsPerGpu now)).gpusPerNode = 1 := rfl
      omega
    simp only [Serve.ActRequest.gpu?, request, buildActPayload, List.getElem?_map, hnode, hgk,
      Option.map_some, Option.bind_eq_bind, Option.bind_some, List.map_cons, List.map_nil,
      List.getElem?_cons_zero, Option.some.injEq] at hlisted
    rw [← hlisted]
  simp only [allows, Bool.and_eq_true, Bool.or_eq_true, decide_eq_true_eq] at hallows
  exact ⟨job, node, hnode, {
    job_mem := hjob
    job_id := rfl
    node_mem := List.mem_of_getElem? hnode
    node_name := rfl
    available := hallows.1.1
    gpuType := hallows.1.2
    requiredNodes := hallows.2
    slots := hfree ▸ h.slots }⟩

/-! ## The update -/

section Update

variable {σ : Type} {rt : Runtime} {args : PlaceArgs} {env : ClientEnv} {s : ClientState σ}

theorem decision_guards {Q : List ClientEvent → interface.Call → Prop}
    (r : Except Exc PlacementDecision) : (Prog.ofExcept r : Client σ _).Guards Q env s := trivial

/-- An answer that names a job and a node makes no update but that of the job. -/
theorem applyAct_places {names : List String} {act : Json} {jobId nodeName : String}
    {nodeJ gpuK : Int} (hjob : act.get "selected_job_id" = .ok (.str jobId))
    (hnode : act.get "node_j" = .ok (.int nodeJ))
    (hgpu : act.get "gpu_k" = .ok (.int gpuK)) (hname : nameAt names nodeJ = some nodeName) :
    (applyAct rt args names act).Guards (fun es c => ∀ id body, c = Call.updateJob id body →
      es = s.trace ∧ id = jobId ∧ body = args.hardPlacement nodeName) env s := by
  unfold applyAct
  rw [hjob, hnode, hgpu]
  refine Prog.guards_bind.mpr ⟨trivial, WP.ofExcept_iff.mpr ?_⟩
  refine Prog.guards_bind.mpr ⟨trivial, WP.ofExcept_iff.mpr ?_⟩
  refine Prog.guards_bind.mpr ⟨trivial, WP.ofExcept_iff.mpr ?_⟩
  refine Prog.guards_bind.mpr ⟨trivial, WP.ofExcept_iff.mpr ?_⟩
  dsimp only [Json.toInt]
  rw [hname]
  refine Prog.guards_bind.mpr ⟨?_, WP.of_forall fun r s' => ?_⟩
  · split
    · exact trivial
    · refine Prog.guards_bind.mpr ⟨⟨fun id body hcall => ?_, trivial⟩, WP.of_forall fun r s' => ?_⟩
      · obtain ⟨hid, hbody⟩ := Call.updateJob.inj hcall
        exact ⟨rfl, hid.symm, hbody.symm⟩
      · cases r with
        | ok => exact trivial
        | error => exact trivial
  · cases r with
    | ok => exact decision_guards _
    | error => exact trivial

/-- The controller's update after an answer that its payload's mask allows. -/
theorem applyAct_fits {action : ℕ} {value entropy : PyFloat}
    (hlegal : ((request (buildActPayload jobs nodes mpsPerGpu now)).mask PyFloat.lt)[action]?
      = some true) :
    (applyAct rt args (nodes.map fun n => n.name)
      (responseDoc ((request (buildActPayload jobs nodes mpsPerGpu now)).respond PyFloat.lt
        action value entropy))).Guards (fun es c => ∀ jobId body, c = Call.updateJob jobId body →
          es = s.trace ∧ ∃ job node, Fit jobs nodes jobId node.name job node ∧
            body = args.hardPlacement node.name) env s := by
  obtain h | ⟨i, nj, gk, j, gpu, hoffers, h⟩ := respond_legal hlegal value entropy
  · rw [h]
    exact decision_guards _
  · obtain ⟨job, node, hnode, hfit⟩ := offers_fit hoffers
    have hname : nameAt (nodes.map fun n => n.name) (nj : ℕ) = some node.name := by
      have hnonneg : ¬ ((nj : ℕ) : Int) < 0 := by omega
      rw [nameAt, if_neg hnonneg, Int.toNat_natCast, List.getElem?_map, hnode]
      rfl
    rw [h]
    refine (applyAct_places rfl rfl rfl hname).mono fun es c hplaces id body hcall => ?_
    obtain ⟨htrace, rfl, hbody⟩ := hplaces id body hcall
    exact ⟨htrace, job, node, hfit, hbody⟩

theorem selectJobs_sublist (jobs : List SlurmJob) : (args.selectJobs jobs).Sublist jobs := by
  have hfilter : ∀ (c : Prop) [Decidable c] (p : SlurmJob → Bool) (js : List SlurmJob),
      (if c then js.filter p else js).Sublist js := by
    intro c _ p js
    split
    · exact List.filter_sublist
    · exact List.Sublist.refl _
  unfold PlaceArgs.selectJobs
  exact (hfilter _ _ _).trans ((hfilter _ _ _).trans (hfilter _ _ _))

/-- The calls `es` have read `jobs` and `nodes`, as far as `args` selects them. -/
structure Listed (rt : Runtime) (args : PlaceArgs) (es : List ClientEvent) (jobs : List SlurmJob)
    (nodes : List SlurmNode) : Prop where
  jobs_listed : ∃ doc now parsed, ⟨Call.getJobs, .ok doc⟩ ∈ es ∧ jobs = args.selectJobs parsed ∧
    parseJobs rt args.defaultRuntime args.defaultMps now doc = .ok parsed
  nodes_listed : ∃ doc discovered, ⟨Call.getNodes, .ok doc⟩ ∈ es ∧
    parseNodes rt args.mpsPerGpu doc = .ok discovered ∧
    ∃ names, nodes = nodesByName (args.selectNodes discovered) names

/-- The update of the job `jobId` is as it should be after the calls `es`: it
pins the one job of that id that was shown to the policy, to a node that was
shown beside it and that it fits. -/
def Placed (rt : Runtime) (args : PlaceArgs) (es : List ClientEvent) (jobId : String)
    (body : JobUpdate) : Prop :=
  ∃ jobs nodes now answer, Listed rt args es jobs nodes ∧
    ⟨Call.act (buildActPayload jobs nodes args.mpsPerGpu now), answer⟩ ∈ es ∧
    ∃ job node, Fit jobs nodes jobId node.name job node ∧
      (∀ job' ∈ jobs, job'.jobId = jobId → job' = job) ∧ body = args.hardPlacement node.name

/-- The calls `es` are followed by an update as it should be, if by an update. -/
def UpdatesPlaced (rt : Runtime) (args : PlaceArgs) (es : List ClientEvent)
    (c : interface.Call) : Prop :=
  ∀ jobId body, c = Call.updateJob jobId body → Placed rt args es jobId body

theorem Placed.append {es : List ClientEvent} {jobId : String} {body : JobUpdate}
    (h : Placed rt args es jobId body) (before : List ClientEvent) :
    Placed rt args (before ++ es) jobId body := by
  obtain ⟨jobs, nodes, now, answer, ⟨⟨doc, t, parsed, hdoc, hparsed⟩, doc', discovered, hdoc',
    hdiscovered⟩, hasked, hfit⟩ := h
  exact ⟨jobs, nodes, now, answer, ⟨⟨doc, t, parsed, List.mem_append_right _ hdoc, hparsed⟩, doc',
    discovered, List.mem_append_right _ hdoc', hdiscovered⟩, List.mem_append_right _ hasked, hfit⟩

variable {ask : Ask} {n : ℕ}

/-- What a call has read when the policy has answered. -/
theorem Ask.Reads.listed (h : ask.Reads rt args env n) :
    Listed rt args (ask.calls args) (ask.jobs args) (ask.nodes args) := by
  have hlistings : ∀ e ∈ ask.listings, e ∈ ask.calls args := fun e he =>
    List.mem_append_left _ (List.mem_append_left _ he)
  exact ⟨⟨_, _, _, hlistings _ List.mem_cons_self, rfl, h.parsed⟩,
    _, _, hlistings _ (by simp [Ask.listings]), h.discovered, _, rfl⟩

/-- The update that follows an answer is as it should be by the calls of its own
call of `choose_and_apply`. -/
theorem Ask.Reads.placed (h : ask.Reads rt args env n) (hserved : ServedLegal env)
    (hdistinct : DistinctIds rt args env) :
    (applyAct rt args ask.names ask.answer).Guards (fun es c => ∀ jobId body,
      c = Call.updateJob jobId body → es = s.trace ∧ Placed rt args (ask.calls args) jobId body)
      env s := by
  obtain ⟨action, value, entropy, hlegal, hanswer⟩ := hserved _ _ _ h.answer
  have hids : ((ask.jobs args).map fun job => job.jobId).Nodup :=
    (hdistinct _ _ _ _ h.jobsDoc h.parsed).sublist ((selectJobs_sublist ask.parsed).map _)
  rw [hanswer, ← h.node_names]
  refine (applyAct_fits hlegal).mono fun es c hfits jobId body hcall => ?_
  obtain ⟨htrace, job, node, hfit, hbody⟩ := hfits jobId body hcall
  refine ⟨htrace, ask.jobs args, ask.nodes args, ask.now, .ok ask.answer, h.listed,
    List.mem_append_right _ (List.mem_cons_of_mem _ List.mem_cons_self), job, node, hfit,
    fun job' hjob' hid => ?_, hbody⟩
  have hjob : job ∈ ask.jobs args := mem_window hfit.job_mem
  exact List.inj_on_of_nodup_map hids hjob' hjob (hid.trans hfit.job_id.symm)

/-- Every update of a run follows the answer and the listings of that run. -/
theorem update_fits (hserved : ServedLegal env) (hdistinct : DistinctIds rt args env) (m : σ) :
    (chooseAndApply rt args).Guards (UpdatesPlaced rt args) env ⟨m, []⟩ := by
  refine (choose_ensures (R := fun _ _ => True) ?_ (fun _ _ _ _ => trivial) fun ask h =>
    ⟨?_, trivial⟩).1
  · exact fun es c hc jobId body hcall => absurd hcall (hc jobId body)
  · refine (h.placed hserved hdistinct).mono fun es c hupdate jobId body hcall => ?_
    obtain ⟨rfl, hplaced⟩ := hupdate jobId body hcall
    exact hplaced.append _

end Update

/-! ## A placement of one of two jobs -/

def twoListed : Json := jobsDoc [jobItem 7 0 5, jobItem 8 0 3]

/-- A policy that takes action 0 where that is allowed. -/
def placeEnv : ClientEnv := replyEnv fun _ c => match c with
  | .getJobs => .ok twoListed
  | .getNodes => .ok nodesDoc
  | .healthz => .ok healthDoc
  | .act payload =>
    if ((request payload).mask PyFloat.lt)[0]? = some true then
      .ok (responseDoc ((request payload).respond PyFloat.lt 0 (.fin 0) (.fin 0)))
    else .error (.other "no action")
  | _ => .ok (.obj [])

def placeArgs : PlaceArgs where
  shadow := false
  requireHeld := false

theorem placeEnv_served : ServedLegal placeEnv := by
  intro n payload doc h
  have h : (if ((request payload).mask PyFloat.lt)[0]? = some true then
      .ok (responseDoc ((request payload).respond PyFloat.lt 0 (.fin 0) (.fin 0)))
    else .error (.other "no action") : Except Exc Json) = .ok doc := h
  split at h
  · rename_i hlegal
    exact ⟨0, .fin 0, .fin 0, hlegal, (Except.ok.inj h).symm⟩
  · cases h

theorem twoListed_ids (now : ℚ) : (parseJobs plainRuntime (.fin 600) 100 now twoListed).map
    (fun jobs => jobs.map fun job => job.jobId) = .ok ["7", "8"] := rfl

theorem placeEnv_distinct : DistinctIds plainRuntime placeArgs placeEnv := by
  intro n doc now jobs hdoc hjobs
  obtain rfl : twoListed = doc := Except.ok.inj hdoc
  have hids := twoListed_ids now
  have hjobs : parseJobs plainRuntime (.fin 600) 100 now twoListed = .ok jobs := hjobs
  rw [hjobs] at hids
  have hids : (jobs.map fun job => job.jobId) = ["7", "8"] := Except.ok.inj hids
  rw [hids]
  decide

/-- The first job of the window goes to the first node. -/
theorem update_fits_two :
    ((chooseAndApply plainRuntime placeArgs : Client Unit _).Guards
      (UpdatesPlaced plainRuntime placeArgs) placeEnv ⟨(), []⟩) ∧
    (((chooseAndApply plainRuntime placeArgs : Client Unit _).calls placeEnv ⟨(), []⟩).map
      fun e => (e.call : Call)).getLast? =
        some (.updateJob "8" (.place "gpu-4070" (some .infinite))) :=
  ⟨update_fits placeEnv_served placeEnv_distinct (), by decide +kernel⟩

end Kelpflux.Proof.Scheduler
