import Kelpflux.Proof.Scheduler.HardPlacement

/-!
# Held jobs without a GPU or MPS request

The controller reads a default amount for a job that asks for none, and shows it
to the policy like the others. What a poll selects is the job that the answer names
(`poll_selected`), whatever job that is, so that only jobs with a request are
selected exactly when the answer names such a job (`only_requested_iff`). A server
that answers by its mask names a job that fits a node (`legal_requested_iff`).
-/

namespace Kelpflux.Proof.Scheduler

open Framework Framework.Python Impl.Scheduler

/-- The default settings, in shadow mode or not. -/
def defaultArgs (shadow : Bool) : PlaceArgs where
  shadow := shadow

/-- What a poll reads of Slurm and of the server's health. -/
structure HeldPoll where
  jobsDoc : Json
  nodesDoc : Json
  health : Json
  now : ℕ → ℚ
  /-- How Slurm answers an update. -/
  updated : Except Exc Json

/-- What `/act` answers to each request. -/
abbrev Policy := ActPayload → Except Exc Json

namespace HeldPoll

variable (rt : Runtime) (p : HeldPoll)

def env (policy : Policy) : ClientEnv := fun n c =>
  match c with
  | .time => .ok (p.now n)
  | .monotonic => .ok (p.now n)
  | .getJobs => .ok p.jobsDoc
  | .getNodes => .ok p.nodesDoc
  | .healthz => .ok p.health
  | .act payload => policy payload
  | .updateJob _ _ => p.updated

/-- A listed job asks for GPUs or MPS, in a TRES text or by its GPU count. -/
def asks (item : Json) : Bool :=
  match jobTres rt item, intField rt item "gpus_total" 0 with
  | .ok tres, .ok total => parseTresInt tres ["mps"] 0 ≠ 0 || parseTresInt tres ["gpu"] 0 ≠ 0
      || total ≠ 0
  | _, _ => false

/-- A held pending job that asks for GPUs or MPS is listed under `jobId`. -/
def Requested (jobId : String) : Prop :=
  ∃ items item job, docItems p.jobsDoc "jobs" = .ok items ∧ item ∈ items ∧
    parseJob rt (.fin 600) 100 (p.now 1) item = .ok (some job) ∧ job.jobId = jobId ∧
    heldReason job.reason = true ∧ asks rt item = true

/-- The nodes that the poll shows to the policy, if there are any. -/
def ShowsNodes (nodes : List SlurmNode) : Prop :=
  ∃ discovered names, parseNodes rt 100 p.nodesDoc = .ok discovered ∧
    (defaultArgs true).selectNodes discovered ≠ [] ∧
    trimNodes (((defaultArgs true).selectNodes discovered).map fun n => n.name) p.health
      = .ok names ∧
    nodes = nodesByName ((defaultArgs true).selectNodes discovered) names

/-- The jobs and the nodes that the poll shows to the policy. -/
structure Shows (jobs : List SlurmJob) (nodes : List SlurmNode) : Prop where
  parsed : ∃ parsed, parseJobs rt (.fin 600) 100 (p.now 1) p.jobsDoc = .ok parsed ∧
    jobs = filterHeldJobs parsed
  jobs_ne_nil : jobs ≠ []
  nodes : p.ShowsNodes rt nodes

/-- The request of the poll. -/
def payload (jobs : List SlurmJob) (nodes : List SlurmNode) : ActPayload :=
  buildActPayload jobs nodes 100 (p.now 4)

end HeldPoll

/-! ## What an answer names -/

/-- An answer gives a job, a node and a GPU, of which the node is a number. -/
structure Given (rt : Runtime) (act selectedId gpuIndex : Json) (nodeJ : ℤ) : Prop where
  job : act.get "selected_job_id" = .ok selectedId ∧ isNone selectedId = false
  node : ∃ nodeIndex, act.get "node_j" = .ok nodeIndex ∧ isNone nodeIndex = false ∧
    nodeIndex.toInt rt = .ok nodeJ
  gpu : act.get "gpu_k" = .ok gpuIndex ∧ isNone gpuIndex = false

/-- The numbers of an answer are read. -/
def NumbersRead (rt : Runtime) (act gpuIndex : Json) : Prop :=
  ∃ gpuK d, gpuIndex.toInt rt = .ok gpuK ∧
    decision rt act none none (some gpuK) false "" = .ok d

/-- The answer names the job `jobId`. An update needs no more than a node in range,
a decision the numbers of the answer. -/
def Names (rt : Runtime) (shadow : Bool) (nodeNames : List String) (act : Json) (jobId : String) :
    Prop :=
  ∃ selectedId gpuIndex nodeJ, Given rt act selectedId gpuIndex nodeJ ∧
    selectedId.toStr rt = jobId ∧
    ((shadow = false ∧ nameAt nodeNames nodeJ ≠ none) ∨ NumbersRead rt act gpuIndex)

variable {σ : Type} {rt : Runtime} {p : HeldPoll} {policy : Policy} {jobs : List SlurmJob}
  {nodes : List SlurmNode}

/-- The decision is for a job, or an update is. -/
def Selects (jobId : String) (r : Except Exc PlacementDecision) (s : ClientState σ) : Prop :=
  (∃ d, r = .ok d ∧ d.jobId = some jobId) ∨
    ∃ body reply, (⟨Call.updateJob jobId body, reply⟩ : ClientEvent) ∈ s.trace

theorem not_selects {jobId : String} {r : Except Exc PlacementDecision} {s : ClientState σ}
    (hs : ∀ e ∈ s.trace, NoUpdate e.call) (hr : ∀ d, r = .ok d → d.jobId = none) :
    ¬ Selects jobId r s := by
  rintro (⟨d, hd, hid⟩ | ⟨body, reply, hmem⟩)
  · rw [hr d hd] at hid
    cases hid
  · exact hs _ hmem jobId body rfl

/-- What a decision is for has no part in how its numbers are read. -/
theorem decision_eq (act : Json) (jobId nodeName : Option String) (gpuIndex : Option ℤ)
    (applied : Bool) (reason : String) : decision rt act jobId nodeName gpuIndex applied reason =
      (decision rt act none none gpuIndex false "").map fun d =>
        { d with jobId := jobId, nodeName := nodeName, applied := applied, reason := reason } := by
  unfold decision
  cases act.getD "action" (.int (-1)) with
  | error => rfl
  | ok action =>
  cases haction : action.toInt rt with
  | error => simp [bind, Except.bind, Except.map, haction]
  | ok =>
  cases act.getD "value" (.float (.fin 0)) with
  | error => simp [bind, Except.bind, Except.map, haction]
  | ok value =>
  cases hvalue : value.toFloat rt with
  | error => simp [bind, Except.bind, Except.map, haction, hvalue]
  | ok =>
  cases act.getD "entropy" (.float (.fin 0)) with
  | error => simp [bind, Except.bind, Except.map, haction, hvalue]
  | ok entropy =>
  cases hentropy : entropy.toFloat rt with
  | error => simp [bind, Except.bind, Except.map, haction, hvalue, hentropy]
  | ok => simp [bind, Except.bind, Except.map, haction, hvalue, hentropy, pure, Except.pure]

/-- A decision for a job, or none where a number is not read. -/
theorem decides_iff {act gpuIndex : Json} {selectedId : String} {nodeName : Option String}
    {applied : Bool} {reason : String} {id : String} :
    (∃ d, (do
        let gpuK ← gpuIndex.toInt rt
        decision rt act (some selectedId) nodeName (some gpuK) applied reason) = .ok d ∧
      d.jobId = some id) ↔ selectedId = id ∧ NumbersRead rt act gpuIndex := by
  unfold NumbersRead
  cases hgpu : gpuIndex.toInt rt with
  | error => simp [bind, Except.bind]
  | ok gpuK =>
    show (∃ d, decision rt act (some selectedId) nodeName (some gpuK) applied reason = .ok d ∧ _) ↔ _
    rw [decision_eq]
    cases hread : decision rt act none none (some gpuK) false "" with
    | error => simp [Except.map, hread]
    | ok d => simp [Except.map, hread]

theorem applyAct_not_given {args : PlaceArgs} {env : ClientEnv} {s : ClientState σ}
    {nodeNames : List String} {act : Json}
    (h : ∀ selectedId gpuIndex nodeJ, ¬ Given rt act selectedId gpuIndex nodeJ) :
    WP env (applyAct rt args nodeNames act) s fun r s' => s' = s ∧ ∀ d, r = .ok d → d.jobId = none := by
  refine WP.bind_iff.mpr (WP.ofExcept_iff.mpr ?_)
  cases hselected : act.get "selected_job_id" with
  | error e => exact ⟨rfl, by simp⟩
  | ok selectedId =>
  refine WP.bind_iff.mpr (WP.ofExcept_iff.mpr ?_)
  cases hnode : act.get "node_j" with
  | error e => exact ⟨rfl, by simp⟩
  | ok nodeIndex =>
  refine WP.bind_iff.mpr (WP.ofExcept_iff.mpr ?_)
  cases hgpu : act.get "gpu_k" with
  | error e => exact ⟨rfl, by simp⟩
  | ok gpuIndex =>
  dsimp only
  split
  · exact WP.ofExcept_iff.mpr ⟨rfl, fun d hd => (decision_fields hd).1⟩
  rename_i hgiven
  simp only [Bool.or_eq_true, not_or, Bool.not_eq_true] at hgiven
  obtain ⟨⟨hj, hn⟩, hg⟩ := hgiven
  refine WP.bind_iff.mpr (WP.ofExcept_iff.mpr ?_)
  cases hint : nodeIndex.toInt rt with
  | error e => exact ⟨rfl, by simp⟩
  | ok nodeJ =>
  exact absurd ⟨⟨hselected, hj⟩, ⟨nodeIndex, hnode, hn, hint⟩, hgpu, hg⟩ (h _ _ _)

theorem Given.names_iff {act selectedId gpuIndex : Json} {nodeJ : ℤ} {shadow : Bool}
    {nodeNames : List String} {id : String} (h : Given rt act selectedId gpuIndex nodeJ) :
    Names rt shadow nodeNames act id ↔ selectedId.toStr rt = id ∧
      ((shadow = false ∧ nameAt nodeNames nodeJ ≠ none) ∨ NumbersRead rt act gpuIndex) := by
  refine ⟨?_, fun h' => ⟨_, _, _, h, h'⟩⟩
  rintro ⟨selectedId', gpuIndex', nodeJ', h', hnames⟩
  obtain rfl := Except.ok.inj (h.job.1.symm.trans h'.job.1)
  obtain rfl := Except.ok.inj (h.gpu.1.symm.trans h'.gpu.1)
  obtain ⟨nodeIndex, hnode, -, hint⟩ := h.node
  obtain ⟨nodeIndex', hnode', -, hint'⟩ := h'.node
  obtain rfl := Except.ok.inj (hnode.symm.trans hnode')
  obtain rfl := Except.ok.inj (hint.symm.trans hint')
  exact hnames

/-- After an answer exactly the job that it names is selected. -/
theorem applyAct_selects {args : PlaceArgs} {env : ClientEnv} {s : ClientState σ}
    {nodeNames : List String} {act : Json} (hs : ∀ e ∈ s.trace, NoUpdate e.call) :
    WP env (applyAct rt args nodeNames act) s fun r s' =>
      ∀ id, Selects id r s' ↔ Names rt args.shadow nodeNames act id := by
  by_cases hgiven : ∃ selectedId gpuIndex nodeJ, Given rt act selectedId gpuIndex nodeJ
  swap
  · refine (applyAct_not_given fun selectedId gpuIndex nodeJ h =>
      hgiven ⟨selectedId, gpuIndex, nodeJ, h⟩).mono fun r s' h id => ?_
    obtain ⟨rfl, hr⟩ := h
    exact iff_of_false (not_selects hs hr) fun ⟨_, _, _, h, _⟩ => hgiven ⟨_, _, _, h⟩
  obtain ⟨selectedId, gpuIndex, nodeJ, h⟩ := hgiven
  obtain ⟨nodeIndex, hnode, hn, hint⟩ := h.node
  refine WP.bind_iff.mpr (WP.ofExcept_iff.mpr ?_)
  rw [h.job.1]
  refine WP.bind_iff.mpr (WP.ofExcept_iff.mpr ?_)
  rw [hnode]
  refine WP.bind_iff.mpr (WP.ofExcept_iff.mpr ?_)
  rw [h.gpu.1]
  dsimp only
  rw [h.job.2, hn, h.gpu.2, Bool.or_self, Bool.or_self, if_neg Bool.false_ne_true]
  refine WP.bind_iff.mpr (WP.ofExcept_iff.mpr ?_)
  rw [hint]
  simp only [h.names_iff]
  -- Where no update is made, the decision is all that is selected.
  have hdecides : ∀ {r : Except Exc PlacementDecision} (id : String),
      Selects id r s ↔ ∃ d, r = .ok d ∧ d.jobId = some id := fun id =>
    or_iff_left fun ⟨body, _, hmem⟩ => hs _ hmem id body rfl
  split
  · rename_i hname
    refine WP.ofExcept_iff.mpr fun id => (hdecides id).trans (decides_iff.trans ?_)
    simp [hname]
  rename_i nodeName hname
  cases hshadow : args.shadow with
  | true =>
    refine WP.bind_iff.mpr (WP.pure_iff.mpr (WP.ofExcept_iff.mpr fun id => ?_))
    refine (hdecides id).trans (decides_iff.trans ?_)
    simp
  | false =>
    have hupdated : ∀ (id : String) (reply : Except Exc Json), (∃ body reply',
        (⟨Call.updateJob id body, reply'⟩ : ClientEvent) ∈ s.trace ++
          [(⟨Call.updateJob (selectedId.toStr rt) (args.hardPlacement nodeName), reply⟩ :
            ClientEvent)]) ↔ selectedId.toStr rt = id := by
      intro id reply
      constructor
      · rintro ⟨body, reply', hmem⟩
        rcases List.mem_append.mp hmem with hmem | hmem
        · exact absurd rfl (hs _ hmem id body)
        · have hcall := congrArg Event.call (List.mem_singleton.mp hmem)
          exact (Call.updateJob.inj hcall).1.symm
      · rintro rfl
        exact ⟨_, reply, List.mem_append_right _ List.mem_cons_self⟩
    have hname' : nameAt nodeNames nodeJ ≠ none := by simp [hname]
    refine WP.bind_iff.mpr (WP.bind_iff.mpr (WP.perform_iff.mpr ?_))
    cases env s.trace.length (Call.updateJob _ _) with
    | error e =>
      refine fun id => (or_iff_right ?_).trans ((hupdated id _).trans ?_)
      · rintro ⟨d, hd, -⟩
        cases hd
      · exact (and_iff_left (.inl ⟨rfl, hname'⟩)).symm
    | ok doc =>
      refine WP.ofExcept_iff.mpr fun id => ?_
      refine (or_congr decides_iff (hupdated id _)).trans ?_
      exact ⟨fun h => ⟨h.elim And.left fun hid => hid, .inl ⟨rfl, hname'⟩⟩, fun h => .inr h.1⟩

/-! ## What a poll selects -/

/-- What is read before the policy answers is what is shown to it. -/
theorem reads_iff {shadow : Bool} {act : Json} :
    (∃ ask : Ask, ask.Reads rt (defaultArgs shadow) (p.env policy) 0 ∧
      ask.jobs (defaultArgs shadow) = jobs ∧ ask.nodes (defaultArgs shadow) = nodes ∧
      ask.answer = act) ↔
    p.Shows rt jobs nodes ∧ policy (p.payload jobs nodes) = .ok act := by
  constructor
  · rintro ⟨ask, h, rfl, rfl, rfl⟩
    obtain hdoc : p.jobsDoc = ask.jobsDoc := Except.ok.inj h.jobsDoc
    obtain hreadAt : p.now 1 = ask.readAt := Except.ok.inj h.readAt
    obtain hnodesDoc : p.nodesDoc = ask.nodesDoc := Except.ok.inj h.nodesDoc
    obtain hnow : p.now 4 = ask.now := Except.ok.inj h.now
    obtain ⟨hhealth, hnames⟩ := h.names
    obtain hhealth : p.health = ask.health := Except.ok.inj hhealth
    refine ⟨⟨⟨ask.parsed, ?_, rfl⟩, h.jobs_ne_nil, ask.discovered, ask.names, ?_,
      h.available_ne_nil, ?_, rfl⟩, ?_⟩
    · rw [hdoc, hreadAt]
      exact h.parsed
    · rw [hnodesDoc]
      exact h.discovered
    · rw [hhealth]
      exact hnames
    · have hanswer : policy (ask.payload (defaultArgs shadow)) = .ok ask.answer := h.answer
      unfold HeldPoll.payload
      rw [hnow]
      exact hanswer
  · rintro ⟨⟨⟨parsed, hparsed, rfl⟩, hjobs, discovered, names, hdiscovered, havailable, hnames, rfl⟩,
      hanswer⟩
    exact ⟨⟨p.jobsDoc, p.now 1, parsed, p.nodesDoc, discovered, p.health, names, p.now 4, act⟩,
      ⟨rfl, rfl, hparsed, hjobs, rfl, hdiscovered, havailable, ⟨rfl, hnames⟩, rfl, hanswer⟩,
      rfl, rfl, rfl⟩

/-- A poll selects the job that the answer to what it shows names. -/
theorem poll_selected (shadow : Bool) (m : σ) :
    WP (p.env policy) (chooseAndApply rt (defaultArgs shadow)) ⟨m, []⟩ fun r s => ∀ id,
      Selects id r s ↔ ∃ jobs nodes act, p.Shows rt jobs nodes ∧
        policy (p.payload jobs nodes) = .ok act ∧
        Names rt shadow (nodes.map fun n => n.name) act id := by
  have hselects : ∀ {ask : Ask}, ask.Reads rt (defaultArgs shadow) (p.env policy) 0 →
      WP (p.env policy) (applyAct rt (defaultArgs shadow) ask.names ask.answer)
        ⟨m, [] ++ ask.calls (defaultArgs shadow)⟩ fun r s => ∀ id, Selects id r s ↔
          Names rt shadow ((ask.nodes (defaultArgs shadow)).map fun n => n.name) ask.answer id := by
    intro ask h
    rw [h.node_names]
    exact applyAct_selects noUpdate_calls
  have hnamed : Ensures (fun _ _ => True) (p.env policy) (chooseAndApply rt (defaultArgs shadow))
      (⟨m, []⟩ : ClientState σ) fun r s => ∀ id, Selects id r s → ∃ jobs nodes act,
        p.Shows rt jobs nodes ∧ policy (p.payload jobs nodes) = .ok act ∧
          Names rt shadow (nodes.map fun n => n.name) act id := by
    refine choose_ensures (fun _ _ _ => trivial) (fun r es hes hr id hid => ?_) fun ask h => ?_
    · exact absurd hid (not_selects hes hr)
    · refine ⟨Prog.guards_iff.mpr fun _ _ _ _ => trivial, ?_⟩
      refine (hselects h).mono fun r s' hr id hid => ?_
      obtain ⟨hshows, hanswer⟩ := reads_iff.mp ⟨ask, h, rfl, rfl, rfl⟩
      exact ⟨_, _, _, hshows, hanswer, (hr id).mp hid⟩
  refine fun id => ⟨hnamed.2 id, ?_⟩
  rintro ⟨jobs, nodes, act, hshows, hanswer, hnames⟩
  obtain ⟨ask, h, hjobs, hnodes, hact⟩ : ∃ ask : Ask,
      ask.Reads rt (defaultArgs shadow) (p.env policy) 0 ∧ ask.jobs (defaultArgs shadow) = jobs ∧
        ask.nodes (defaultArgs shadow) = nodes ∧ ask.answer = act :=
    reads_iff.mpr ⟨hshows, hanswer⟩
  subst hjobs hnodes hact
  have hrun : WP (p.env policy) (chooseAndApply rt (defaultArgs shadow)) (⟨m, []⟩ : ClientState σ) _ :=
    choose_of_reads h (hselects h)
  exact (hrun id).mpr hnames

/-! ## What may be selected -/

/-- Only jobs with a request are selected, exactly when the answer names one of
these, if it names a job. -/
theorem requested_iff (rt : Runtime) (p : HeldPoll) (shadow : Bool) (m : σ) (policy : Policy) :
    WP (p.env policy) (chooseAndApply rt (defaultArgs shadow)) ⟨m, []⟩ (fun r s =>
      ∀ id, Selects id r s → p.Requested rt id) ↔
    ∀ jobs nodes act id, p.Shows rt jobs nodes → policy (p.payload jobs nodes) = .ok act →
      Names rt shadow (nodes.map fun n => n.name) act id → p.Requested rt id := by
  have hselected : WP (p.env policy) (chooseAndApply rt (defaultArgs shadow))
    (⟨m, []⟩ : ClientState σ) _ := poll_selected shadow m
  constructor
  · intro h jobs nodes act id hshows hanswer hnames
    exact h id ((hselected id).mpr ⟨jobs, nodes, act, hshows, hanswer, hnames⟩)
  · intro h id hid
    obtain ⟨jobs, nodes, act, hshows, hanswer, hnames⟩ := (hselected id).mp hid
    exact h jobs nodes act id hshows hanswer hnames

/-- The policy names a job of the request, if it names one. -/
def Policy.NamesShown (policy : Policy) : Prop :=
  ∀ payload act selectedId, policy payload = .ok act → act.get "selected_job_id" = .ok selectedId →
    isNone selectedId = false → ∃ j ∈ payload.pendingJobs, selectedId = .str j.jobId

/-- An answer that names the job, and the first node. -/
def naming (jobId : String) : Json := responseDoc ⟨0, some 0, some 0, some 0, some jobId, .fin 0, .fin 0⟩

theorem naming_names (shadow : Bool) (nodeNames : List String) (jobId : String) :
    Names rt shadow nodeNames (naming jobId) jobId :=
  ⟨.str jobId, .int 0, 0, ⟨⟨rfl, rfl⟩, ⟨.int 0, rfl, rfl, rfl⟩, rfl, rfl⟩, rfl, .inr ⟨0, _, rfl, rfl⟩⟩

/-- The policy that names the job wherever it is shown. -/
def namingShown (jobId : String) : Policy := fun payload =>
  if jobId ∈ payload.pendingJobs.map fun j => j.jobId then .ok (naming jobId)
  else .error (.other "not shown")

theorem namingShown_namesShown (jobId : String) : (namingShown jobId).NamesShown := by
  intro payload act selectedId hact hselected hgiven
  unfold namingShown at hact
  split at hact
  · rename_i hshown
    obtain rfl := Except.ok.inj hact
    obtain rfl : Json.str jobId = selectedId := Except.ok.inj hselected
    obtain ⟨j, hj, rfl⟩ := List.mem_map.mp hshown
    exact ⟨j, hj, rfl⟩
  · cases hact

/-- Whatever job a policy names of those shown, only jobs with a request are selected,
exactly when only such jobs are shown. -/
theorem shown_requested_iff (rt : Runtime) (p : HeldPoll) (shadow : Bool) (m : σ) :
    (∀ policy : Policy, policy.NamesShown →
      WP (p.env policy) (chooseAndApply rt (defaultArgs shadow)) ⟨m, []⟩ fun r s =>
        ∀ id, Selects id r s → p.Requested rt id) ↔
    ∀ jobs nodes, p.Shows rt jobs nodes → ∀ job ∈ window jobs, p.Requested rt job.jobId := by
  simp only [requested_iff]
  constructor
  · intro h jobs nodes hshows job hjob
    refine h (namingShown job.jobId) (namingShown_namesShown _) jobs nodes (naming job.jobId) _ hshows
      (if_pos ?_) (naming_names _ _ _)
    exact List.mem_map_of_mem (List.mem_map_of_mem hjob)
  · intro h policy hpolicy jobs nodes act id hshows hanswer hnames
    obtain ⟨selectedId, gpuIndex, nodeJ, hgiven, rfl, -⟩ := hnames
    obtain ⟨j, hj, rfl⟩ := hpolicy _ _ _ hanswer hgiven.job.1 hgiven.job.2
    obtain ⟨job, hjob, rfl⟩ := List.mem_map.mp hj
    exact h jobs nodes hshows job hjob

/-! ## By the mask -/

/-- The action, value and entropy of the trained network for each request. -/
abbrev Network := ActPayload → ℕ × PyFloat × PyFloat

/-- It takes actions that the mask allows. -/
def Network.Legal (choose : Network) : Prop :=
  ∀ payload, ((request payload).mask PyFloat.lt)[(choose payload).1]? = some true

/-- What the policy server answers with it. -/
def Network.served (choose : Network) : Policy := fun payload =>
  .ok (responseDoc ((request payload).respond PyFloat.lt (choose payload).1 (choose payload).2.1
    (choose payload).2.2))

/-- A job that a node has the slots for is offered on it. -/
theorem exists_offers (mpsPerGpu : ℤ) (now : ℚ) {job : SlurmJob} {node : SlurmNode}
    (hjob : job ∈ window jobs) (hnode : node ∈ nodes) (hallows : allows job node = true)
    (hslots : job.mpsReq ≤ node.freeMps) : ∃ i nj gk j gpu,
      Offers PyFloat.lt (request (buildActPayload jobs nodes mpsPerGpu now)) i nj gk j gpu ∧
        j.jobId = job.jobId := by
  obtain ⟨n, hn, hget⟩ := List.mem_iff_getElem.mp hnode
  have hget? : nodes[n]? = some node := List.getElem?_eq_some_iff.mpr ⟨hn, hget⟩
  have hindex : n ∈ eligibleNodeIndices job nodes := mem_eligibleNodeIndices.mpr ⟨node, hget?, hallows⟩
  let req := request (buildActPayload jobs nodes mpsPerGpu now)
  have hlisted : requestJob (pendingJob nodes job) ∈ req.pendingJobs :=
    List.mem_map_of_mem (List.mem_map_of_mem hjob)
  have hlength : req.pendingJobs.length ≤ Impl.Sim.topK := by
    show (((window jobs).map (pendingJob nodes)).map requestJob).length ≤ Impl.Sim.topK
    rw [List.length_map, List.length_map]
    exact List.length_take_le _ _
  have hsorted : requestJob (pendingJob nodes job) ∈ req.pendingSorted PyFloat.lt := by
    unfold Serve.ActRequest.pendingSorted
    rw [List.take_of_length_le ((sortedLt_perm _ _).length_eq.trans_le hlength)]
    exact mem_sortedLt.mpr hlisted
  obtain ⟨i, hi⟩ := List.mem_iff_getElem?.mp hsorted
  refine ⟨i, ⟨n, hn⟩, ⟨0, Nat.one_pos⟩, _, ⟨node.freeMps, node.runningJobs, node.gpuType, .fin 1⟩,
    ⟨hi, ?_, ?_, ?_, hslots⟩, rfl⟩
  · refine List.any_eq_true.mpr ⟨(node, n), List.mem_zipIdx_iff_getElem?.mpr hget?, ?_⟩
    simp [hindex, hslots]
  · rintro is ⟨⟩
    exact List.mem_map_of_mem hindex
  · simp [Serve.ActRequest.gpu?, request, buildActPayload, List.getElem?_map, hget?]

/-- The network that takes an action wherever it is allowed. -/
def always (action : ℕ) : Network := fun payload =>
  if ((request payload).mask PyFloat.lt)[action]? = some true then (action, .fin 0, .fin 0)
  else ((request payload).noOp, .fin 0, .fin 0)

theorem always_legal (action : ℕ) : (always action).Legal := by
  intro payload
  unfold always
  split
  next h => exact h
  next => exact mask_noOp

/-- With a server that keeps to its mask only jobs with a request are selected,
exactly when no job shown without one has a node that it fits. -/
theorem legal_requested_iff (rt : Runtime) (p : HeldPoll) (shadow : Bool) (m : σ) :
    (∀ choose : Network, choose.Legal →
      WP (p.env choose.served) (chooseAndApply rt (defaultArgs shadow)) ⟨m, []⟩ fun r s =>
        ∀ id, Selects id r s → p.Requested rt id) ↔
    ∀ jobs nodes, p.Shows rt jobs nodes → ∀ job ∈ window jobs, ∀ node ∈ nodes,
      allows job node = true → job.mpsReq ≤ node.freeMps → p.Requested rt job.jobId := by
  simp only [requested_iff]
  constructor
  · intro h jobs nodes hshows job hjob node hnode hallows hslots
    obtain ⟨i, nj, gk, j, gpu, hoffers, hid⟩ :=
      exists_offers 100 (p.now 4) hjob hnode hallows hslots
    refine h (always (slot i nj gk)) (always_legal _) jobs nodes _ _ hshows rfl ?_
    have hchoose : always (slot i nj gk) (p.payload jobs nodes) = (slot i nj gk, .fin 0, .fin 0) :=
      if_pos (mask_offered hoffers)
    have hrespond : (request (p.payload jobs nodes)).respond PyFloat.lt (slot i nj gk) (.fin 0)
        (.fin 0) = _ := respond_offered hoffers _ _
    rw [hchoose, hrespond, hid]
    exact ⟨.str job.jobId, .int gk, nj, ⟨⟨rfl, rfl⟩, ⟨.int nj, rfl, rfl, rfl⟩, rfl, rfl⟩, rfl,
      .inr ⟨gk, _, rfl, rfl⟩⟩
  · intro h choose hlegal jobs nodes act id hshows hanswer hnames
    obtain rfl := Except.ok.inj hanswer
    obtain hr | ⟨i, nj, gk, j, gpu, hoffers, hr⟩ := respond_legal (hlegal (p.payload jobs nodes))
      (choose (p.payload jobs nodes)).2.1 (choose (p.payload jobs nodes)).2.2
    · rw [hr] at hnames
      obtain ⟨selectedId, gpuIndex, nodeJ, hgiven, -, -⟩ := hnames
      obtain rfl : Json.null = selectedId := Except.ok.inj hgiven.job.1
      cases hgiven.job.2
    · rw [hr] at hnames
      obtain ⟨selectedId, gpuIndex, nodeJ, hgiven, rfl, -⟩ := hnames
      obtain rfl : Json.str j.jobId = selectedId := Except.ok.inj hgiven.job.1
      obtain ⟨job, node, hnode, hfit⟩ := offers_fit hoffers
      have hallows : allows job node = true := by
        simp only [allows, Bool.and_eq_true, Bool.or_eq_true, decide_eq_true_eq]
        exact ⟨⟨hfit.available, hfit.gpuType⟩, hfit.requiredNodes⟩
      have hrequested := h jobs nodes hshows job hfit.job_mem node hfit.node_mem hallows hfit.slots
      rwa [hfit.job_id] at hrequested

/-- Only jobs with a request are selected, exactly when the answer names one of
these, if it names a job; and whatever job of those shown it names, exactly when
only such jobs are shown. -/
theorem only_requested_iff (rt : Runtime) (p : HeldPoll) (shadow : Bool) (m : σ) :
    (∀ policy : Policy, WP (p.env policy) (chooseAndApply rt (defaultArgs shadow)) ⟨m, []⟩
        (fun r s => ∀ id, Selects id r s → p.Requested rt id) ↔
      ∀ jobs nodes act id, p.Shows rt jobs nodes → policy (p.payload jobs nodes) = .ok act →
        Names rt shadow (nodes.map fun n => n.name) act id → p.Requested rt id) ∧
    ((∀ policy : Policy, policy.NamesShown →
      WP (p.env policy) (chooseAndApply rt (defaultArgs shadow)) ⟨m, []⟩ fun r s =>
        ∀ id, Selects id r s → p.Requested rt id) ↔
      ∀ jobs nodes, p.Shows rt jobs nodes → ∀ job ∈ window jobs, p.Requested rt job.jobId) :=
  ⟨requested_iff rt p shadow m, shown_requested_iff rt p shadow m⟩

/-- A held job that asks for processors and memory only. -/
def cpuItem : Json :=
  .obj [("job_id", .int 7), ("job_state", .arr [.str "PENDING"]),
    ("state_reason", .str "JobHeldUser"), ("partition", .str "cpu"),
    ("tres_req_str", .str "cpu=4,mem=4G,node=1")]

def cpuPoll : HeldPoll := ⟨jobsDoc [cpuItem], nodesDoc, healthDoc, fun _ => 0, .ok (.obj [])⟩

/-- It is pinned to the GPU node and released. -/
theorem cpu_job_placed : (always 0).Legal ∧
    ¬ WP (cpuPoll.env (always 0).served) (chooseAndApply plainRuntime (defaultArgs false) : Client Unit _)
      ⟨(), []⟩ fun r s => ∀ id, Selects id r s → cpuPoll.Requested plainRuntime id := by
  refine ⟨always_legal 0, fun h => ?_⟩
  have hcalls : (Call.updateJob "7" (.place "gpu-4070" (some .infinite)) : Call) ∈
      ((chooseAndApply plainRuntime (defaultArgs false) : Client Unit _).calls
        (cpuPoll.env (always 0).served) ⟨(), []⟩).map fun e => e.call := by
    decide +kernel
  obtain ⟨⟨c, reply⟩, he, hcall⟩ := List.mem_map.mp hcalls
  obtain rfl : c = Call.updateJob "7" (.place "gpu-4070" (some .infinite)) := hcall
  obtain ⟨items, item, job, hitems, hitem, -, -, -, hasks⟩ :=
    h "7" (.inr ⟨_, reply, List.mem_of_mem_drop he⟩)
  obtain rfl : [cpuItem] = items := Except.ok.inj hitems
  rw [List.mem_singleton.mp hitem] at hasks
  have hnone : HeldPoll.asks plainRuntime cpuItem = false := by decide +kernel
  rw [hnone] at hasks
  cases hasks

end Kelpflux.Proof.Scheduler
