import Kelpflux.Impl.Operator.Fragmentation

/-!
# Whether a requeue helps the job it is for

A decision is for the first blocked job and for the node whose victims free the
most slots (`Chooses`), as the detector reads them: a job that asks for no MPS
slots counts as one that has those of a whole node (`Listing.held`). Its victims
free enough on that node exactly when so many of the first of them do
(`TakesFirst`), but nothing makes sure of that, nor that the node is available
or large enough: `requeue_helps_iff`.
-/

namespace Kelpflux.Proof.Fragmentation

open Framework Framework.Python Impl.Fragmentation

variable {det : FragmentationDetector} {jobs : List JobView} {nodes : List NodeView}

/-! ## The detector's candidates -/

theorem mem_blockedJobs {job : JobView} : job ∈ blockedJobs jobs nodes ↔
    job ∈ jobs ∧ isPending job = true ∧ ∀ n ∈ nodes, n.freeMps < job.mpsReq := by
  unfold blockedJobs fitsAnywhere
  rw [mem_sortedLt, List.mem_filter, List.mem_filter, and_assoc]
  simp

/-- A group of `runningByNode` has the jobs that run on its node. -/
theorem mem_runningByNode {nid : String} {v : JobView} :
    (∃ occupants, (nid, occupants) ∈ runningByNode jobs ∧ v ∈ occupants) ↔
      v ∈ jobs ∧ isRunning v = true ∧ nid ∈ v.nodes := by
  unfold runningByNode
  rw [Dict.exists_mem_group]
  simp [and_assoc]

theorem listed_of_get? {nid : String} {view : NodeView} (h : (nodeIdx nodes).get? nid = some view) :
    view ∈ nodes := by
  obtain ⟨n, hn, hpair⟩ := List.mem_map.mp (Dict.mem_of_mem_ofList (Dict.get?_mem h))
  obtain ⟨-, rfl⟩ := Prod.mk.inj hpair
  exact hn

/-- No listed node has the slots for a blocked job. -/
theorem mem_candidatesOn {target : JobView} (htarget : target ∈ blockedJobs jobs nodes)
    {nid : String} {occupants : List JobView} {c : RequeueCandidate} :
    c ∈ det.candidatesOn nodes target nid occupants ↔
      (∃ view, (nodeIdx nodes).get? nid = some view) ∧ ∃ victim ∈ occupants,
        det.outranks target victim = true ∧ c = ⟨victim, target, nid, victim.mpsReq⟩ := by
  unfold FragmentationDetector.candidatesOn
  cases hview : (nodeIdx nodes).get? nid with
  | none => exact iff_of_false List.not_mem_nil fun ⟨⟨_, h⟩, _⟩ => by cases h
  | some view =>
    have hshort := (mem_blockedJobs.mp htarget).2.2 view (listed_of_get? hview)
    dsimp only
    rw [if_neg (by omega), List.mem_map]
    simp only [mem_sortedLt, List.mem_filter, and_assoc, Option.some.injEq, exists_eq', true_and]
    exact exists_congr fun v => and_congr_right fun _ => and_congr_right fun _ => eq_comm

theorem mem_candidates {c : RequeueCandidate} : c ∈ det.candidates jobs nodes ↔
    c.target ∈ blockedJobs jobs nodes ∧ (∃ view, (nodeIdx nodes).get? c.nodeId = some view) ∧
      (c.victim ∈ jobs ∧ isRunning c.victim = true ∧ c.nodeId ∈ c.victim.nodes) ∧
      det.outranks c.target c.victim = true ∧ c.slotsFreed = c.victim.mpsReq := by
  unfold FragmentationDetector.candidates
  simp only [List.mem_flatMap, Prod.exists]
  constructor
  · rintro ⟨target, htarget, nid, occupants, hocc, h⟩
    obtain ⟨hview, victim, hvictim, houtranks, rfl⟩ := (mem_candidatesOn htarget).mp h
    exact ⟨htarget, hview, mem_runningByNode.mp ⟨occupants, hocc, hvictim⟩, houtranks, rfl⟩
  · rintro ⟨htarget, hview, hruns, houtranks, hslots⟩
    obtain ⟨occupants, hocc, hvictim⟩ := mem_runningByNode.mpr hruns
    refine ⟨c.target, htarget, c.nodeId, occupants, hocc, (mem_candidatesOn htarget).mpr
      ⟨hview, c.victim, hvictim, houtranks, ?_⟩⟩
    rw [← hslots]

/-! ## The decision -/

variable {dec : RequeueDecider} {order : SetOrder} {pstdev : List Nat → ℚ} {now : ℚ}
  {target : JobView} {node : String} {d : RequeueDecision} {victims : List RequeueCandidate}

/-- The candidates of a target. -/
def perTarget (det : FragmentationDetector) (jobs : List JobView) (nodes : List NodeView)
    (target : JobView) : List RequeueCandidate :=
  (det.candidates jobs nodes).filter fun c => c.target.jobId = target.jobId

/-- Those on a node, in the order that the decider goes through them. -/
def onNode (det : FragmentationDetector) (jobs : List JobView) (nodes : List NodeView)
    (target : JobView) (node : String) : List RequeueCandidate :=
  (sortedLt candidateLt (perTarget det jobs nodes target)).filter fun c => c.nodeId = node

/-- The decider is to decide for `target`, and the node whose victims free the
most slots is `node`. -/
structure Chooses (det : FragmentationDetector) (dec : RequeueDecider) (order : SetOrder)
    (jobs : List JobView) (nodes : List NodeView) (now : ℚ) (target : JobView) (node : String) :
    Prop where
  notLimited : (dec.trimHistory now).rateLimited now = none
  head : (blockedJobs jobs nodes).head? = some target
  fullest : FirstMax (slotsOn (perTarget det jobs nodes target))
    (order.list ((perTarget det jobs nodes target).map RequeueCandidate.nodeId)) node

/-- The detector and the decider emit `d`: for the job `target`, on the node
`node`, with these victims. -/
structure Emits (det : FragmentationDetector) (dec : RequeueDecider) (order : SetOrder)
    (pstdev : List Nat → ℚ) (jobs : List JobView) (nodes : List NodeView) (now : ℚ)
    (d : RequeueDecision) (target : JobView) (node : String) (victims : List RequeueCandidate) :
    Prop where
  emitted : (dec.decide order (det.snapshot pstdev jobs nodes now) now).1 = some d
  target_eq : (blockedJobs jobs nodes).head? = some target
  node_eq : (nodesForTarget order (perTarget det jobs nodes target)).head? = some node
  victims_eq : victims = dec.choose target (onNode det jobs nodes target node)
  blockedJobIds : d.blockedJobIds = [target.jobId]
  targetJobIds : d.targetJobIds = victims.map fun c => c.victim.jobId

theorem mem_onNode {c : RequeueCandidate} : c ∈ onNode det jobs nodes target node ↔
    c ∈ perTarget det jobs nodes target ∧ c.nodeId = node := by
  simp [onNode]

/-- A node that is chosen has victims. -/
theorem onNode_ne_nil
    (h : (nodesForTarget order (perTarget det jobs nodes target)).head? = some node) :
    onNode det jobs nodes target node ≠ [] := by
  have hmem := List.mem_of_mem_head? h
  unfold nodesForTarget at hmem
  rw [mem_sortedLt, SetOrder.mem_list] at hmem
  obtain ⟨c, hc, rfl⟩ := List.mem_map.mp hmem
  exact List.ne_nil_of_mem (mem_onNode.mpr ⟨hc, rfl⟩)

/-- What the decider does for a target and a node. -/
theorem decideFor_node (dec : RequeueDecider)
    (h : (nodesForTarget order (perTarget det jobs nodes target)).head? = some node) :
    ∃ d, (dec.decideFor order (det.snapshot pstdev jobs nodes now) now target).1 = some d ∧
      d.blockedJobIds = [target.jobId] ∧ d.targetJobIds =
        (dec.choose target (onNode det jobs nodes target node)).map fun c => c.victim.jobId := by
  have hne : dec.choose target (onNode det jobs nodes target node) ≠ [] :=
    Greedy.pick_ne_nil (onNode_ne_nil h)
  obtain ⟨rest, hlist⟩ := List.head?_eq_some_iff.mp h
  unfold RequeueDecider.decideFor
  have hlist : nodesForTarget order ((det.snapshot pstdev jobs nodes now).candidates.filter
      fun c => c.target.jobId = target.jobId) = node :: rest := hlist
  dsimp only
  rw [hlist]
  dsimp only
  exact ⟨_, congrArg Prod.fst (if_neg hne), rfl, rfl⟩

theorem decide_eq_some {snap : FragmentationSnapshot} :
    (dec.decide order snap now).1 = some d ↔
      snap.hasActionableFragmentation = true ∧ (dec.trimHistory now).rateLimited now = none ∧
        ∃ target, snap.pendingBlocked.head? = some target ∧
          ((dec.trimHistory now).decideFor order snap now target).1 = some d := by
  unfold RequeueDecider.decide
  cases hact : snap.hasActionableFragmentation with
  | false => exact iff_of_false nofun fun h => by cases h.1
  | true =>
    dsimp only [Bool.not_true]
    rw [if_neg (by decide)]
    cases hlimit : (dec.trimHistory now).rateLimited now with
    | some limit => exact iff_of_false nofun fun h => by cases h.2.1
    | none =>
      cases hblocked : snap.pendingBlocked with
      | nil => exact iff_of_false nofun fun ⟨_, _, _, h, _⟩ => by cases h
      | cons target rest =>
        constructor
        · exact fun h => ⟨rfl, rfl, target, rfl, h⟩
        · rintro ⟨-, -, target', htarget, h⟩
          obtain rfl := Option.some.inj htarget
          exact h

/-- What the decider emits, it emits for one target, node and list of victims. -/
theorem exists_emits (h : (dec.decide order (det.snapshot pstdev jobs nodes now) now).1 = some d) :
    ∃ target node victims, Emits det dec order pstdev jobs nodes now d target node victims := by
  obtain ⟨-, -, target, htarget, hd⟩ := decide_eq_some.mp h
  cases hnode : (nodesForTarget order (perTarget det jobs nodes target)).head? with
  | none =>
    have hnil : nodesForTarget order ((det.snapshot pstdev jobs nodes now).candidates.filter
        fun c => c.target.jobId = target.jobId) = [] := List.head?_eq_none_iff.mp hnode
    unfold RequeueDecider.decideFor at hd
    dsimp only at hd
    rw [hnil] at hd
    cases hd
  | some node =>
    obtain ⟨d', hd', hblocked, hvictims⟩ := decideFor_node (dec.trimHistory now) hnode
    obtain rfl := Option.some.inj (hd.symm.trans hd')
    exact ⟨target, node, _, h, htarget, hnode, rfl, hblocked, hvictims⟩

theorem candidateLt_iff {a b : RequeueCandidate} : candidateLt a b = true ↔
    b.slotsFreed < a.slotsFreed ∨
      (a.slotsFreed = b.slotsFreed ∧ a.victim.priority < b.victim.priority) := by
  unfold candidateLt
  split
  · rw [decide_eq_true_eq]
    omega
  · rw [decide_eq_true_eq]
    omega

/-- The decider goes through the candidates with the most slots first. -/
theorem onNode_sorted : (onNode det jobs nodes target node).Pairwise
    fun c c' => c'.slotsFreed ≤ c.slotsFreed := by
  have hsorted : (sortedLt candidateLt (perTarget det jobs nodes target)).Pairwise
      fun c c' => c'.slotsFreed ≤ c.slotsFreed := by
    refine sortedLt_pairwise (fun a b c hab hbc => hbc.trans hab) (fun a b hlt => ?_)
      (fun a b hnot => ?_) _
    · rw [candidateLt_iff] at hlt
      omega
    · have hnot : ¬ candidateLt a b = true := Bool.not_eq_true _ ▸ hnot
      rw [candidateLt_iff] at hnot
      omega
  exact hsorted.filter _

/-- Jobs that may be requeued for `target` on `node`, no more than a decision
may name but one in any case. -/
structure VictimSet (det : FragmentationDetector) (dec : RequeueDecider) (jobs : List JobView)
    (nodes : List NodeView) (target : JobView) (node : String) (vs : List JobView) : Prop where
  running : ∀ v ∈ vs, v ∈ jobs ∧ isRunning v = true ∧ node ∈ v.nodes
  outranked : ∀ v ∈ vs, ∃ t ∈ blockedJobs jobs nodes, t.jobId = target.jobId ∧
    det.outranks t v = true
  distinct : (vs.map JobView.jobId).Nodup
  few : vs.length ≤ max 1 dec.maxTargetsPerDecision.toNat

/-- The decider's choice frees enough exactly when some victims do. -/
theorem choose_enough_iff {view : NodeView} (hview : (nodeIdx nodes).get? node = some view)
    {need : ℕ} (hneed : need ≤ target.mpsReq) :
    need ≤ ((dec.choose target (onNode det jobs nodes target node)).map
      RequeueCandidate.slotsFreed).sum ↔
      ∃ vs, VictimSet det dec jobs nodes target node vs ∧ need ≤ (vs.map JobView.mpsReq).sum := by
  unfold RequeueDecider.choose
  rw [Greedy.pick_enough_iff onNode_sorted hneed]
  constructor
  · rintro ⟨S, hS, h⟩
    have hcand : ∀ c ∈ S, c ∈ det.candidates jobs nodes ∧ c.target.jobId = target.jobId ∧
        c.nodeId = node := by
      intro c hc
      obtain ⟨hper, hnode⟩ := mem_onNode.mp (hS.mem c hc)
      obtain ⟨hmem, hid⟩ := List.mem_filter.mp hper
      exact ⟨hmem, by simpa using hid, hnode⟩
    refine ⟨S.map RequeueCandidate.victim, ⟨fun v hv => ?_, fun v hv => ?_, ?_, ?_⟩, ?_⟩
    · obtain ⟨c, hc, rfl⟩ := List.mem_map.mp hv
      obtain ⟨hmem, -, rfl⟩ := hcand c hc
      exact (mem_candidates.mp hmem).2.2.1
    · obtain ⟨c, hc, rfl⟩ := List.mem_map.mp hv
      obtain ⟨hmem, hid, -⟩ := hcand c hc
      obtain ⟨htarget, -, -, houtranks, -⟩ := mem_candidates.mp hmem
      exact ⟨c.target, htarget, hid, houtranks⟩
    · rw [List.map_map]
      exact hS.nodup
    · rw [List.length_map]
      exact hS.length_le
    · have hsum : S.map RequeueCandidate.slotsFreed
          = (S.map RequeueCandidate.victim).map JobView.mpsReq := by
        rw [List.map_map]
        exact List.map_congr_left fun c hc => (mem_candidates.mp (hcand c hc).1).2.2.2.2
      rwa [← hsum]
  · rintro ⟨vs, hvs, h⟩
    have htargets : ∀ v, ∃ t, v ∈ vs → t ∈ blockedJobs jobs nodes ∧ t.jobId = target.jobId ∧
        det.outranks t v = true := by
      intro v
      by_cases hv : v ∈ vs
      · obtain ⟨t, ht⟩ := hvs.outranked v hv
        exact ⟨t, fun _ => ht⟩
      · exact ⟨v, fun h => absurd h hv⟩
    choose t ht using htargets
    refine ⟨vs.map fun v => ⟨v, t v, node, v.mpsReq⟩, ⟨fun c hc => ?_, ?_, ?_⟩, ?_⟩
    · obtain ⟨v, hv, rfl⟩ := List.mem_map.mp hc
      obtain ⟨hblocked, hid, houtranks⟩ := ht v hv
      refine mem_onNode.mpr ⟨List.mem_filter.mpr ⟨mem_candidates.mpr ?_, by simpa using hid⟩, rfl⟩
      exact ⟨hblocked, ⟨view, hview⟩, hvs.running v hv, houtranks, rfl⟩
    · rw [List.map_map]
      exact hvs.distinct
    · rw [List.length_map]
      exact hvs.few
    · rwa [List.map_map]

/-! ## Whether the job fits -/

/-- What a record asks for on each node, as text. -/
def tresText (rt : Runtime) (item : Json) : Except Exc String := do
  let tres ← ((← item.get "tres_per_node").or (.str "")).joined
  return tres.toStr rt

/-- The MPS slots that a text asks for, of a type (`mps:type:N`) or of any. -/
def mpsAsked (tres : String) : ℕ :=
  (search (fun cs => (readTotal cs).or ((after "mps=" cs).bind leadingDigits)) tres.toList).getD 0

/-- What Slurm lists, and what is read of it. -/
structure Listing (rt : Runtime) (mpsPerNode : ℕ) where
  restJobs : List Json
  restNodes : List Json
  jobs : List JobView
  nodes : List NodeView
  jobs_read : jobsFromSlurmRest rt restJobs mpsPerNode = .ok jobs
  nodes_read : nodesFromSlurmRest rt restNodes mpsPerNode = .ok nodes

variable {rt : Runtime} {mpsPerNode : ℕ}

/-- The MPS slots that a job holds on each of its nodes: those that its record asks
for, and none if it asks for none. -/
def Listing.held (l : Listing rt mpsPerNode) (v : JobView) : ℕ :=
  (l.restJobs.findSome? fun item =>
    if (jobView rt mpsPerNode item).toOption = some (some v) then
      (tresText rt item).toOption.map mpsAsked
    else none).getD 0

/-- With so many slots released, `target` can be placed on `node`: the node is
available and large enough, and has the slots. -/
def Serves (l : Listing rt mpsPerNode) (target : JobView) (node : String) (released : ℕ) : Prop :=
  ∃ item view, item ∈ l.restNodes ∧ nodeView rt mpsPerNode item = .ok view ∧
    (nodeIdx l.nodes).get? node = some view ∧ nodeIsAvailable rt item = .ok true ∧
    target.mpsReq ≤ view.totalMps ∧ target.mpsReq ≤ view.freeMps + released

theorem Serves.mono {l : Listing rt mpsPerNode} {released more : ℕ} (h : Serves l target node released)
    (hle : released ≤ more) : Serves l target node more := by
  obtain ⟨item, view, hitem, hread, hview, havailable, htotal, hfree⟩ := h
  exact ⟨item, view, hitem, hread, hview, havailable, htotal, by omega⟩

/-- The first so many of the jobs that `target` outranks on `node`, those that read
as the largest first and each once: before the last of them fewer slots than the
target's are read, and fewer jobs taken than a decision may name. -/
def TakesFirst (det : FragmentationDetector) (dec : RequeueDecider) (jobs : List JobView)
    (nodes : List NodeView) (target : JobView) (node : String) (cs : List RequeueCandidate) : Prop :=
  Greedy.Front (fun c => c.victim.jobId) RequeueCandidate.slotsFreed target.mpsReq
    dec.maxTargetsPerDecision.toNat (onNode det jobs nodes target node) cs

/-- Where these hold what is read of them, they are enough exactly when any set of
victims is. -/
theorem takesFirst_enough_iff (l : Listing rt mpsPerNode) {view : NodeView}
    (hview : (nodeIdx l.nodes).get? node = some view)
    (hheld : ∀ c ∈ onNode det l.jobs l.nodes target node, l.held c.victim = c.slotsFreed)
    {need : ℕ} (hneed : need ≤ target.mpsReq) :
    (∃ cs, TakesFirst det dec l.jobs l.nodes target node cs ∧
      need ≤ (cs.map fun c => l.held c.victim).sum) ↔
    ∃ vs, VictimSet det dec l.jobs l.nodes target node vs ∧ need ≤ (vs.map JobView.mpsReq).sum := by
  rw [← choose_enough_iff hview hneed]
  have hsum : (dec.choose target (onNode det l.jobs l.nodes target node)).map
      RequeueCandidate.slotsFreed = (dec.choose target (onNode det l.jobs l.nodes target node)).map
        fun c => l.held c.victim := by
    refine List.map_congr_left fun c hc => (hheld c ?_).symm
    exact (Greedy.mem_pick hc).resolve_left List.not_mem_nil
  rw [hsum]
  exact Greedy.pick_front_enough_iff.symm

def plainRuntime : Runtime where
  repr _ := ""
  int s := s.toInt?
  float s := s.toInt?.map fun n => .fin n
  loads _ := .error .jsonDecodeError

def restJob (jobId : Int) (state : String) (priority : Int) (mps node : String) : Json :=
  .obj [("job_id", .int jobId), ("job_state", .str state), ("priority", .int priority),
    ("tres_per_node", .str mps), ("nodes", .str node)]

/-- Job 1 needs the whole node, of which job 2 has a quarter and job 3, with a
priority above that of job 1, the rest. -/
def fullNode : Listing plainRuntime 100 where
  restJobs := [restJob 1 "PENDING" 50 "mps:100" "", restJob 2 "RUNNING" 10 "mps:25" "gpu-4070",
    restJob 3 "RUNNING" 90 "mps:75" "gpu-4070"]
  restNodes := [.obj [("name", .str "gpu-4070"), ("gres", .str "mps:100"),
    ("tres_used", .str "gres/mps=100"), ("state", .str "ALLOCATED")]]
  jobs := [⟨"1", "anon", "", "PENDING", 50, 100, 1, [], .fin 0, .fin 0⟩,
    ⟨"2", "anon", "", "RUNNING", 10, 25, 1, ["gpu-4070"], .fin 0, .fin 0⟩,
    ⟨"3", "anon", "", "RUNNING", 90, 75, 1, ["gpu-4070"], .fin 0, .fin 0⟩]
  nodes := [⟨"gpu-4070", 0, 100⟩]
  jobs_read := rfl
  nodes_read := rfl

def listOrder : SetOrder := ⟨List.dedup, fun _ => List.Perm.refl _⟩

end Kelpflux.Proof.Fragmentation
