import Kelpflux.Framework.Lists
import Kelpflux.Impl.Scheduler.Snapshot
import Kelpflux.Proof.Scheduler.NodeState
import Kelpflux.Proof.Scheduler.Shadow

/-!
# The node that a pin names, against the node that the policy saw

The snapshot lists the GPU nodes that are in service; the plugin's table names
all GPU nodes. An index into the one names the node of the other just where no
node out of service comes before one that is in service: `pins_seen_iff`.
-/

namespace Kelpflux.Proof.Scheduler

open Framework Framework.Python Impl.Scheduler Impl.Scheduler.Snapshot Impl.Scheduler.Serve
  Impl.Scheduler.RlHook

/-! ## The listing -/

section Listing

variable (rt : Runtime) (args : SnapshotArgs)

/-- A node that its text shows to have GPUs. -/
def mentionsGpu (node : Json) : Bool :=
  match nodeTresText rt node ["tres", "cfg_tres", "gres", "gres_detail", "features",
      "active_features", "available_features"], Impl.Scheduler.nodeName rt node with
  | .ok cfg, .ok name =>
    let text := lower (cfg ++ "," ++ name)
    contains text "gpu" || contains text "mps"
  | _, _ => false

/-- A node that the snapshot agent leaves out for its state. -/
def outOfService (node : Json) : Bool :=
  match nodeState rt node with
  | .ok states => states.any (· ∈ ["DOWN", "DRAIN", "NOT_RESPONDING", "FAIL"])
  | .error _ => false

def listedName (node : Json) : String :=
  match Impl.Scheduler.nodeName rt node with
  | .ok name => name
  | .error _ => ""

/-- A Slurm node listing: objects with names of their own, not empty. -/
structure NodeListing where
  entries : List (List (String × Json))
  named : ∀ items ∈ entries, listedName rt (.obj items) ≠ ""
  distinct : (entries.map fun items => listedName rt (.obj items)).Nodup

namespace NodeListing

variable {rt} (listing : NodeListing rt)

def nodes : List Json := listing.entries.map .obj

def doc : Json := .obj [("nodes", .arr listing.nodes)]

/-- The GPU nodes. -/
def gpuNodes : List Json := listing.nodes.filter (mentionsGpu rt)

/-- `RL_NODE_NAMES`: the GPU nodes' names, in the order of the listing. -/
def configured : List String := listing.gpuNodes.map (listedName rt)

/-- The GPU nodes that the snapshot has. -/
def inService : List Json := listing.gpuNodes.filter fun node => !outOfService rt node

/-- No GPU node that is in service is listed after one that is not. -/
def InOrder : Prop :=
  listing.gpuNodes.Pairwise fun a b => outOfService rt a = true → outOfService rt b = true

end NodeListing

end Listing

variable {rt : Runtime} {args : SnapshotArgs}

/-! ## The snapshot -/

/-- What the agent makes of a node: a GPU node that is in service has GPUs. -/
theorem nodeView_spec {mpsPerGpu defaultGpusPerNode : ℤ} (items : List (String × Json)) :
    ∃ view, Impl.Scheduler.nodeView rt mpsPerGpu defaultGpusPerNode (.obj items) = .ok view ∧
      view.isSome = (mentionsGpu rt (.obj items) && !outOfService rt (.obj items)) ∧
      ∀ gpus ∈ view, gpus ≠ [] ∧ ∀ g ∈ gpus, 0 ≤ g.freeMps := by
  obtain ⟨states, hstates⟩ : ∃ states, nodeState rt (.obj items) = .ok states := ⟨_, rfl⟩
  obtain ⟨name, hname⟩ : ∃ name, Impl.Scheduler.nodeName rt (.obj items) = .ok name := ⟨_, rfl⟩
  have hout : outOfService rt (.obj items) =
      states.any (· ∈ ["DOWN", "DRAIN", "NOT_RESPONDING", "FAIL"]) := by
    unfold outOfService
    rw [hstates]
  unfold Impl.Scheduler.nodeView mentionsGpu
  simp only [hout, hstates, hname, NodeState.nodeTresText_eq, bind, Except.bind, pure, Except.pure]
  split
  · rename_i hstop
    refine ⟨_, rfl, ?_, nofun⟩
    rw [hstop, Bool.not_true, Bool.and_false]
    rfl
  · rename_i hstop
    split
    · rename_i hgpu
      refine ⟨_, rfl, ?_, nofun⟩
      rw [Bool.not_eq_true'] at hgpu
      simp [hgpu]
    · rename_i hgpu
      refine ⟨_, rfl, ?_, ?_⟩
      · rw [Bool.not_eq_true', Bool.not_eq_false] at hgpu
        rw [hgpu, Bool.eq_false_of_not_eq_true hstop]
        rfl
      · intro gpus hgpus
        obtain rfl := Option.some.inj hgpus
        refine ⟨?_, fun g hg => ?_⟩
        · intro hnil
          have := congrArg List.length hnil
          rw [List.length_replicate, List.length_nil] at this
          omega
        · rw [List.eq_of_mem_replicate hg]
          exact le_max_left _ _

/-- The nodes of a snapshot, against the listing. -/
theorem forall₂_reduceOption {α β : Type} {f : α → Except Exc (Option β)} {p : α → Bool}
    {xs : List α} {ys : List (Option β)} (h : xs.mapM f = .ok ys)
    (hp : ∀ x ∈ xs, ∀ y, f x = .ok y → y.isSome = p x) :
    List.Forall₂ (fun x y => f x = .ok (some y)) (xs.filter p) ys.reduceOption := by
  have hforall := forall₂_of_mapM_ok h
  clear h
  induction hforall with
  | nil => exact .nil
  | @cons x y xs ys hy _ ih =>
    have ih := ih fun x' hx => hp x' (List.mem_cons_of_mem _ hx)
    have hsome := hp x List.mem_cons_self y hy
    cases y with
    | none =>
      rw [List.filter_cons_of_neg (by simp [← hsome])]
      exact ih
    | some y =>
      rw [List.filter_cons_of_pos hsome.symm]
      exact .cons hy ih

theorem exists_mapM {α β : Type} {f : α → Except Exc β} {xs : List α}
    (h : ∀ x ∈ xs, ∃ y, f x = .ok y) : ∃ ys, xs.mapM f = .ok ys := by
  induction xs with
  | nil => exact ⟨[], rfl⟩
  | cons x xs ih =>
    obtain ⟨y, hy⟩ := h x List.mem_cons_self
    obtain ⟨ys, hys⟩ := ih fun x' hx => h x' (List.mem_cons_of_mem _ hx)
    exact ⟨y :: ys, by rw [List.mapM_cons, hy, hys]; rfl⟩

namespace NodeListing

variable {listing : NodeListing rt}

theorem view_isSome {mpsPerGpu defaultGpusPerNode : ℤ} {node : Json} (hnode : node ∈ listing.nodes)
    {view : Option (List SnapshotGpu)}
    (h : Impl.Scheduler.nodeView rt mpsPerGpu defaultGpusPerNode node = .ok view) :
    view.isSome = (mentionsGpu rt node && !outOfService rt node) := by
  obtain ⟨items, -, rfl⟩ := List.mem_map.mp hnode
  obtain ⟨view', hview, hsome, -⟩ := nodeView_spec items
  obtain rfl := Except.ok.inj (h.symm.trans hview)
  exact hsome

theorem inService_eq : listing.inService =
    listing.nodes.filter fun node => mentionsGpu rt node && !outOfService rt node := by
  unfold inService gpuNodes
  rw [List.filter_filter]
  congr 1
  funext node
  exact Bool.and_comm _ _

/-- A snapshot has the GPU nodes in service, in the order of the listing. -/
theorem snapshot_nodes {now : PyFloat} {jobsDoc : Json} {snap : Serve.Snapshot PyFloat}
    (h : buildSnapshot rt args now jobsDoc listing.doc = .ok snap) :
    ∃ views, snap.nodes = views.map servedNode ∧ snap.nNodes = views.length ∧
      List.Forall₂ (fun node view =>
        Impl.Scheduler.nodeView rt args.mpsPerGpu args.defaultGpusPerNode node =
        .ok (some view)) listing.inService views := by
  unfold buildSnapshot at h
  obtain ⟨jobItems, -, h⟩ := bind_eq_ok.mp h
  obtain ⟨jobs, -, h⟩ := bind_eq_ok.mp h
  obtain ⟨items, hitems, h⟩ := bind_eq_ok.mp h
  obtain rfl : listing.nodes = items := Except.ok.inj hitems
  obtain ⟨views, hviews, h⟩ := bind_eq_ok.mp h
  obtain rfl := Except.ok.inj h
  refine ⟨views.reduceOption, rfl, rfl, ?_⟩
  rw [inService_eq]
  exact forall₂_reduceOption hviews fun node hnode view hview => view_isSome hnode hview

/-- In order, the nodes in service are the first GPU nodes. -/
theorem inService_getElem? (horder : listing.InOrder) {j : ℕ} (hj : j < listing.inService.length) :
    listing.inService[j]? = listing.gpuNodes[j]? := by
  unfold InOrder at horder
  unfold inService at hj ⊢
  generalize listing.gpuNodes = nodes at *
  induction nodes generalizing j with
  | nil => rfl
  | cons node nodes ih =>
    obtain ⟨hfirst, hrest⟩ := List.pairwise_cons.mp horder
    cases hout : outOfService rt node with
    | true =>
      have hnone : (node :: nodes).filter (fun node => !outOfService rt node) = [] := by
        rw [List.filter_eq_nil_iff]
        intro n hn
        rcases List.mem_cons.mp hn with rfl | hn
        · simp [hout]
        · simp [hfirst n hn hout]
      rw [hnone] at hj
      exact absurd hj (Nat.not_lt_zero _)
    | false =>
      rw [List.filter_cons_of_pos (by simp [hout])] at hj ⊢
      cases j with
      | zero => rfl
      | succ j =>
        rw [List.getElem?_cons_succ, List.getElem?_cons_succ]
        exact ih hrest (Nat.lt_of_succ_lt_succ hj)

/-- Out of order, some index names a node out of service. -/
theorem exists_shifted (horder : ¬ listing.InOrder) : ∃ (j : ℕ) (node : Json),
    j < listing.inService.length ∧ listing.gpuNodes[j]? = some node ∧
      outOfService rt node = true := by
  unfold InOrder at horder
  unfold inService
  generalize listing.gpuNodes = nodes at *
  induction nodes with
  | nil => exact absurd List.Pairwise.nil horder
  | cons node nodes ih =>
    cases hout : outOfService rt node with
    | true =>
      refine ⟨0, node, ?_, rfl, hout⟩
      have hup : ∃ n ∈ nodes, outOfService rt n = false := by
        by_contra hall
        have hall : ∀ n ∈ nodes, outOfService rt n = true := fun n hn => by
          by_contra h
          exact hall ⟨n, hn, Bool.eq_false_of_not_eq_true h⟩
        refine horder (List.pairwise_cons.mpr ⟨fun n hn _ => hall n hn, ?_⟩)
        exact List.pairwise_of_forall_mem_list fun a _ b hb _ => hall b hb
      obtain ⟨n, hn, hup⟩ := hup
      rw [List.filter_cons_of_neg (by simp [hout])]
      exact List.length_pos_of_mem (List.mem_filter.mpr ⟨hn, by simp [hup]⟩)
    | false =>
      have hrest : ¬ nodes.Pairwise
          fun a b => outOfService rt a = true → outOfService rt b = true := by
        intro h
        exact horder (List.pairwise_cons.mpr ⟨fun n _ hnode => by simp [hout] at hnode, h⟩)
      obtain ⟨j, n, hj, hn, hdown⟩ := ih hrest
      refine ⟨j + 1, n, ?_, hn, hdown⟩
      rw [List.filter_cons_of_pos (by simp [hout]), List.length_cons]
      exact Nat.succ_lt_succ hj

theorem names_inj {a b : Json} (ha : a ∈ listing.nodes) (hb : b ∈ listing.nodes)
    (h : listedName rt a = listedName rt b) : a = b := by
  have hnodup : (listing.nodes.map (listedName rt)).Nodup := by
    unfold nodes
    rw [List.map_map]
    exact listing.distinct
  exact List.inj_on_of_nodup_map hnodup ha hb h

end NodeListing

/-! ## Pins -/

/-- The plugin gets an answer that it pins the job by, to `name` for the index
`nodeJ`. -/
structure PinsAs {F : Type} (s : Submission F) (nodeJ : ℕ) (name : String) : Prop where
  enabled : s.globals.rlEnabled = true
  placement : s.globals.rlPlacement = true
  answered : ∃ r, s.received = some r ∧ r.abstain = false ∧ r.rlSelected = true ∧
    r.nodeJ = some nodeJ
  named : ∃ names, s.globals.rlNodeNames = some names ∧ names[nodeJ]? = some name
  ne_empty : name ≠ ""

/-- The policy selects actions that its mask allows. -/
def MasksKept {F : Type} (s : Submission F) : Prop :=
  ∀ holder ∈ s.holder, ∀ req mask action value entropy,
    holder.select req mask = .ok (action, value, entropy) → mask[action]? = some true

/-- With a snapshot of the listing and its GPU nodes' names, a pin names the node
that the policy saw at the index. -/
def PinsSeen (rt : Runtime) (args : SnapshotArgs) (listing : NodeListing rt) : Prop :=
  ∀ (s : Submission PyFloat) (now : PyFloat) (jobsDoc : Json) (snap : Serve.Snapshot PyFloat),
    buildSnapshot rt args now jobsDoc listing.doc = .ok snap → s.snap = some snap →
    s.fl.lt = PyFloat.lt → MasksKept s → s.globals.rlNodeNames = some listing.configured →
    ∀ nodeJ name, PinsAs s nodeJ name → ∃ node view, listing.inService[nodeJ]? = some node ∧
      Impl.Scheduler.nodeView rt args.mpsPerGpu args.defaultGpusPerNode node = .ok (some view) ∧
      snap.nodes[nodeJ]? = some (servedNode view) ∧ listedName rt node = name

theorem pins_reqNodes {F : Type} {s : Submission F} {nodeJ : ℕ} {name : String}
    (h : PinsAs s nodeJ name) : s.after.reqNodes = some name := by
  obtain ⟨r, hr, habstain, hselected, hnode⟩ := h.answered
  obtain ⟨names, hnames, hname⟩ := h.named
  have hpinned : pinned s.globals ⟨r.priorityBoost, r.rlSelected, false, r.nodeJ,
      r.otelTraceparent⟩ = some name :=
    pinned_eq_some.mpr ⟨h.placement, hselected, nodeJ, names, hnode, hnames, hname, h.ne_empty⟩
  unfold Submission.after rlApply rlCallDecide
  rw [hr, if_pos h.enabled, Option.map_some]
  dsimp only
  rw [habstain, if_neg Bool.false_ne_true, hpinned]
  dsimp only
  split <;> rfl

/-- A pin's index is below the number of nodes that the snapshot has. -/
theorem PinsAs.lt_nNodes {F : Type} {s : Submission F} {nodeJ : ℕ} {name : String}
    {snap : Serve.Snapshot F} (h : PinsAs s nodeJ name) (hsnap : s.snap = some snap) :
    nodeJ < snap.nNodes := by
  obtain ⟨r, hr, habstain, hselected, hnode⟩ := h.answered
  have hanswer : s.answer = .ok r := by
    unfold Submission.received at hr
    split at hr
    · cases hans : s.answer with
      | error e =>
        rw [hans] at hr
        cases hr
      | ok r' =>
        rw [hans] at hr
        exact congrArg _ (Option.some.inj hr)
    · cases hr
  obtain ⟨snap', holder, nj, hpicks, rfl⟩ :=
    answer_picks.mp ⟨r, hanswer, habstain, hselected, hnode⟩
  obtain ⟨i, gk, value, entropy, j, hasks, -⟩ := hpicks.asked
  obtain rfl := Option.some.inj (hsnap.symm.trans hasks.snap_eq)
  exact nj.2

theorem pins_seen_of_inOrder {listing : NodeListing rt} (horder : listing.InOrder) :
    PinsSeen rt args listing := by
  intro s now jobsDoc snap hbuild hsnap _ _ hnames nodeJ name hpins
  obtain ⟨views, hnodes, hcount, hviews⟩ := NodeListing.snapshot_nodes hbuild
  have hlt : nodeJ < views.length := hcount ▸ hpins.lt_nNodes hsnap
  have hlt' : nodeJ < listing.inService.length := hviews.length_eq ▸ hlt
  refine ⟨listing.inService[nodeJ], views[nodeJ], List.getElem?_eq_getElem hlt',
    hviews.get hlt' hlt, ?_, ?_⟩
  · rw [hnodes, List.getElem?_map, List.getElem?_eq_getElem hlt]
    rfl
  · obtain ⟨names, hsome, hname⟩ := hpins.named
    obtain rfl := Option.some.inj (hnames.symm.trans hsome)
    rw [NodeListing.configured, List.getElem?_map, ← NodeListing.inService_getElem? horder hlt',
      List.getElem?_eq_getElem hlt'] at hname
    exact Option.some.inj hname

/-! ## A pin to a node out of service -/

def plainFloats : Floats PyFloat where
  zero := .fin 0
  lt := PyFloat.lt
  sub _ _ := .fin 0
  repr _ := ""
  fixed3 _ := ""

/-- A policy that takes the first job to the first GPU of a node, if it may. -/
def toNode (gpusPerNode nodeJ : ℕ) : Holder PyFloat where
  obsDim := none
  nActions := none
  select _ mask :=
    if mask[nodeJ * gpusPerNode]? = some true then .ok (nodeJ * gpusPerNode, .fin 0, .fin 0)
    else .error (.other "no action")

/-- A job without an MPS request is submitted, and the policy takes it to a node. -/
def submitTo (snap : Serve.Snapshot PyFloat) (names : List String) (nodeJ : ℕ) :
    Submission PyFloat where
  fl := plainFloats
  cfg := { snapshotTtlS := .fin 30, shadowMode := false, valueAbstain := .fin (-1)
           entropyAbstain := .fin (5 / 2), priorityBoost := 1000 }
  holder := some (toNode snap.gpusPerNode nodeJ)
  time := .fin 0
  snap := some snap
  traceparent := ""
  globals := ⟨true, true, some names⟩
  arrives := true
  jobDesc := {}
  mpsReq := 0
  gpuCount := 1
  runtimeS := .fin 600
  now := .fin 0

theorem submitTo_masksKept (snap : Serve.Snapshot PyFloat) (names : List String) (nodeJ : ℕ) :
    MasksKept (submitTo snap names nodeJ) := by
  intro holder hholder req mask action value entropy h
  obtain rfl : toNode snap.gpusPerNode nodeJ = holder := Option.some.inj hholder
  unfold toNode at h
  dsimp only at h
  split at h
  · rename_i hlegal
    obtain ⟨rfl, -⟩ := Prod.mk.inj (Except.ok.inj h)
    exact hlegal
  · cases h

/-- The submission's pin: the mask allows the node, which has a GPU. -/
theorem submitTo_picks {snap : Serve.Snapshot PyFloat} {names : List String}
    {nj : Fin snap.nNodes} {gpu : GpuView PyFloat} (hpending : snap.pendingJobs = [])
    (hnodes : snap.nodes ≠ []) (hgpus : 0 < snap.gpusPerNode)
    (hgpu : (snap.nodes[(nj : ℕ)]? >>= fun nd => nd.gpus[0]?) = some gpu) (hfree : 0 ≤ gpu.freeMps) :
    (submitTo snap names nj).Picks snap (toNode snap.gpusPerNode nj) nj := by
  let s := submitTo snap names nj
  let gk : Fin snap.gpusPerNode := ⟨0, hgpus⟩
  have hslot : slot 0 nj gk = nj * snap.gpusPerNode := by
    show 0 * (snap.nNodes * snap.gpusPerNode) + nj * snap.gpusPerNode + 0 = _
    omega
  have hfused : ∃ j, (fuse s.fl snap s.req).pendingJobs = [j] ∧ j.jobId = s.req.jobId ∧
      j.canFit = true ∧ j.eligibleNodeIndices = none ∧ j.mpsReq = 0 := by
    unfold fuse
    rw [hpending]
    exact ⟨_, rfl, rfl, rfl, rfl, rfl⟩
  obtain ⟨j, hj, hid, hcan, helig, hreq⟩ := hfused
  have hsorted : ((fuse s.fl snap s.req).pendingSorted s.fl.lt)[0]? = some j := by
    unfold ActRequest.pendingSorted
    rw [hj]
    rfl
  have hoffers : Offers s.fl.lt (fuse s.fl snap s.req) 0 nj gk j gpu :=
    { job := hsorted
      canFit := hcan
      eligible := by simp [helig]
      listed := hgpu
      slots := hreq ▸ hfree }
  have hlegal : ((fuse s.fl snap s.req).mask s.fl.lt)[slot 0 nj gk]? = some true :=
    mask_offered hoffers
  refine ⟨0, gk, .fin 0, .fin 0, j, ?_, hsorted, hid, rfl, ?_⟩
  · exact
      { snap_eq := rfl
        fresh := rfl
        nNodes := fun h => absurd nj.2 (by omega)
        nodes := by simpa using hnodes
        loaded := rfl
        obsDim := fun _ h => by cases h
        nActions := fun _ h => by cases h
        selects := by
          show (if ((fuse s.fl snap s.req).mask s.fl.lt)[(nj : ℕ) * snap.gpusPerNode]? = some true
            then Except.ok (nj * snap.gpusPerNode, PyFloat.fin 0, PyFloat.fin 0)
            else .error (Exc.other "no action")) = _
          rw [← hslot, if_pos hlegal] }
  · exact decide_eq_false (by norm_num : ¬ (5 / 2 : ℚ) < 0)

/-- The snapshot of a listing, when no job is listed. -/
theorem exists_snapshot (listing : NodeListing rt) (args : SnapshotArgs) :
    ∃ snap, buildSnapshot rt args (.fin 0) (.obj []) listing.doc = .ok snap ∧
      snap.pendingJobs = [] ∧
      snap.gpusPerNode = (snap.nodes.map fun nd => nd.gpus.length).max?.getD
        args.defaultGpusPerNode.toNat := by
  obtain ⟨views, hviews⟩ := @exists_mapM _ _
    (Impl.Scheduler.nodeView rt args.mpsPerGpu args.defaultGpusPerNode) listing.nodes
    fun node hnode => by
      obtain ⟨items, -, rfl⟩ := List.mem_map.mp hnode
      obtain ⟨view, hview, -⟩ := nodeView_spec items
      exact ⟨view, hview⟩
  have hdoc : docItems listing.doc "nodes" = .ok listing.nodes := rfl
  have hjobs : docItems (.obj []) "jobs" = .ok [] := rfl
  unfold buildSnapshot
  simp only [hjobs, hdoc, hviews, bind, Except.bind, pure, Except.pure, List.mapM_nil]
  refine ⟨_, rfl, rfl, ?_⟩
  have hlength : (fun nd : NodeView PyFloat => nd.gpus.length) ∘ servedNode = List.length :=
    funext fun view => List.length_map _
  rw [List.map_map, hlength]

theorem inOrder_of_pins_seen {listing : NodeListing rt} (h : PinsSeen rt args listing) :
    listing.InOrder := by
  by_contra horder
  obtain ⟨j, down, hj, hdown, hout⟩ := NodeListing.exists_shifted horder
  obtain ⟨snap, hbuild, hpending, hgpus⟩ := exists_snapshot listing args
  obtain ⟨views, hnodes, hcount, hviews⟩ := NodeListing.snapshot_nodes hbuild
  have hjv : j < views.length := hviews.length_eq ▸ hj
  have hview := hviews.get hj hjv
  have hmem : listing.inService[j] ∈ listing.nodes :=
    List.mem_of_mem_filter (List.mem_of_mem_filter (List.getElem_mem hj))
  obtain ⟨items, -, hitems⟩ := List.mem_map.mp hmem
  obtain ⟨view, hspec, -, hfree⟩ := @nodeView_spec rt args.mpsPerGpu args.defaultGpusPerNode items
  have hsame : some views[j] = view :=
    Except.ok.inj (hview.symm.trans (by rw [List.get_eq_getElem, ← hitems]; exact hspec))
  obtain ⟨hne, hnonneg⟩ := hfree _ hsame.symm
  obtain ⟨g, gs, hg⟩ := List.exists_cons_of_ne_nil hne
  have hserved : snap.nodes[j]? = some (servedNode views[j]) := by
    rw [hnodes, List.getElem?_map, List.getElem?_eq_getElem hjv]
    rfl
  let gpu : GpuView PyFloat := ⟨g.freeMps, g.runningJobs, g.gpuType, .fin 1⟩
  have hgpu : (snap.nodes[j]? >>= fun nd => nd.gpus[0]?) = some gpu := by
    rw [hserved]
    show ((views[j].map _)[0]?) = _
    rw [hg]
    rfl
  have hpos : 0 < snap.gpusPerNode := by
    have hlength : views[j].length ∈ snap.nodes.map fun nd => nd.gpus.length :=
      List.mem_map.mpr ⟨_, List.mem_of_getElem? hserved, List.length_map _⟩
    rw [hgpus]
    cases hmax : (snap.nodes.map fun nd => nd.gpus.length).max? with
    | none =>
      rw [List.max?_eq_none_iff.mp hmax] at hlength
      exact absurd hlength List.not_mem_nil
    | some n =>
      have hle := (List.max?_eq_some_iff.mp hmax).2 _ hlength
      rw [hg, List.length_cons] at hle
      exact Nat.lt_of_lt_of_le (Nat.succ_pos _) hle
  have hpicks := @submitTo_picks snap listing.configured ⟨j, hcount ▸ hjv⟩ gpu hpending
    (List.ne_nil_of_mem (List.mem_of_getElem? hserved)) hpos hgpu
    (hnonneg g (hg ▸ List.mem_cons_self))
  obtain ⟨r, hanswer, habstain, hselected, hnode⟩ := answer_picks.mpr ⟨_, _, _, hpicks, rfl⟩
  have hdownMem : down ∈ listing.gpuNodes := List.mem_of_getElem? hdown
  have hpins : PinsAs (submitTo snap listing.configured j) j (listedName rt down) :=
    { enabled := rfl
      placement := rfl
      answered := by
        refine ⟨r, ?_, habstain, hselected, hnode⟩
        show (Submission.answer _).toOption = _
        rw [hanswer]
        rfl
      named := by
        refine ⟨_, rfl, ?_⟩
        rw [NodeListing.configured, List.getElem?_map, hdown]
        rfl
      ne_empty := by
        obtain ⟨items, hentry, rfl⟩ := List.mem_map.mp (List.mem_of_mem_filter hdownMem)
        exact listing.named items hentry }
  obtain ⟨node, view, hseen, -, -, hname⟩ := h _ _ _ _ hbuild rfl rfl
    (submitTo_masksKept _ _ _) rfl j _ hpins
  have hnodeMem : node ∈ listing.inService := List.mem_of_getElem? hseen
  have hsame : node = down := NodeListing.names_inj
    (List.mem_of_mem_filter (List.mem_of_mem_filter hnodeMem)) (List.mem_of_mem_filter hdownMem)
    hname
  have hup := (List.mem_filter.mp hnodeMem).2
  rw [hsame, hout] at hup
  cases hup

/-- Every pin names the node that the policy saw at its index exactly when no GPU
node in service is listed after one that is not. -/
theorem pins_seen_iff (rt : Runtime) (args : SnapshotArgs) (listing : NodeListing rt) :
    PinsSeen rt args listing ↔ listing.InOrder :=
  ⟨inOrder_of_pins_seen, pins_seen_of_inOrder⟩

/-- Two GPU nodes, of which the first is down. -/
def firstDown : NodeListing NodeState.plainRuntime where
  entries :=
    [[("name", .str "gpu-3080"), ("gres", .str "gpu:rtx3080:1"), ("state", .arr [.str "DOWN"])],
     [("name", .str "gpu-4070"), ("gres", .str "gpu:rtx4070:1"), ("state", .arr [.str "IDLE"])]]
  named := by decide
  distinct := by decide

/-- The job goes to the node that is down. -/
theorem pinned_to_down : ¬ PinsSeen NodeState.plainRuntime {} firstDown := by
  refine fun h => absurd (inOrder_of_pins_seen h) ?_
  unfold NodeListing.InOrder
  decide +kernel

end Kelpflux.Proof.Scheduler
