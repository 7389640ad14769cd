import Kelpflux.Framework.Text
import Kelpflux.Proof.Scheduler.Masks
import Kelpflux.Proof.Scheduler.RunDaemon
import Kelpflux.Proof.Sim.Hosted

/-!
# The daemon's observation and the environment's

The daemon takes the nodes of a running job from the names in its node list. The
cluster that it makes is told apart from the simulator's by the free slots, the
RAM and the jobs of each node and by the jobs on several (`obs_congr`). All are
right where each name in a node list is of a node that the job runs on, and the
count of the jobs on a node is wrong otherwise (`live_obs_eq_iff`).
-/

namespace Kelpflux.Proof.Scheduler

open Framework Framework.Python Impl.Sim Impl.Scheduler Proof.Sim

/-! ## Lists -/

theorem countP_eq_sum {α : Type} (p : α → Bool) (xs : List α) :
    xs.countP p = (xs.map fun x => if p x then 1 else 0).sum := by
  induction xs with
  | nil => rfl
  | cons x xs ih =>
    rw [List.countP_cons, List.map_cons, List.sum_cons, ih, add_comm]

/-- Of two counts that are equal, one of a part of the other. -/
theorem iff_of_countP_eq {α : Type} {p q : α → Bool} {xs : List α} (h : ∀ x ∈ xs, p x → q x)
    (hcount : xs.countP p = xs.countP q) : ∀ x ∈ xs, p x = q x := by
  induction xs with
  | nil => exact fun x hx => absurd hx List.not_mem_nil
  | cons x xs ih =>
    have hrest : ∀ y ∈ xs, p y → q y := fun y hy => h y (List.mem_cons_of_mem _ hy)
    have hle : xs.countP p ≤ xs.countP q := List.countP_mono_left hrest
    have hx := h x List.mem_cons_self
    rw [List.countP_cons, List.countP_cons] at hcount
    have hhead : p x = q x := by
      cases hp : p x with
      | true => exact (hx hp).symm
      | false =>
        cases hq : q x with
        | false => rfl
        | true =>
          rw [hp, hq, if_neg Bool.false_ne_true, if_pos rfl] at hcount
          omega
    refine List.forall_mem_cons.mpr ⟨hhead, ih hrest ?_⟩
    rw [hhead] at hcount
    omega

/-- Blocks of one length, one after another. -/
theorem blocks_inj {α β γ : Type} {m : ℕ} {f g : α → β → List γ} {xs : List α} {ys : List β}
    (hf : ∀ a b, (f a b).length = m) (hg : ∀ a b, (g a b).length = m)
    (h : (xs.flatMap fun a => ys.map (f a)).flatten = (xs.flatMap fun a => ys.map (g a)).flatten) :
    ∀ a ∈ xs, ∀ b ∈ ys, f a b = g a b := by
  have hblocks : xs.flatMap (fun a => ys.map (f a)) = xs.flatMap fun a => ys.map (g a) := by
    refine List.eq_iff_flatten_eq.mpr ⟨h, ?_⟩
    rw [List.map_flatMap, List.map_flatMap]
    simp only [List.map_map, Function.comp_def, hf, hg]
  have hrows : xs.map (fun a => ys.map (f a)) = xs.map fun a => ys.map (g a) := by
    refine List.eq_iff_flatten_eq.mpr ⟨hblocks, ?_⟩
    simp only [List.map_map, Function.comp_def, List.length_map]
  intro a ha
  exact List.map_inj_left.mp (List.map_inj_left.mp hrows a ha)

/-! ## The cluster that the daemon makes -/

variable {env : EnvConfig} {names : Fin env.nNodes → String}

variable (names) in
/-- The configuration of the daemon's cluster. -/
abbrev daemonConfig : Config := (LiveDaemon.simConfig names env.gpusPerNode env.mpsPerGpu).toConfig

/-- The cluster of the daemon. -/
abbrev LiveCluster (names : Fin env.nNodes → String) : Type := Cluster (daemonConfig names)

variable (names) in
/-- The nodes that a job's node list names. -/
def hit (rj : LiveDaemon.LiveJob) : List (Fin (daemonConfig names).nNodes) :=
  (List.finRange env.nNodes).filter fun k => LiveDaemon.named rj (names k)

theorem mem_hit {rj : LiveDaemon.LiveJob} {k : Fin (daemonConfig names).nNodes} :
    k ∈ hit names rj ↔ LiveDaemon.named rj (names k) = true :=
  List.mem_filter.trans (and_iff_right (List.mem_finRange k))

theorem hit_nodup (rj : LiveDaemon.LiveJob) : (hit names rj).Nodup :=
  (List.nodup_finRange _).filter _

variable (names) in
/-- The allocations that the daemon gives a job. -/
def allocs (rj : LiveDaemon.LiveJob) : Plan (daemonConfig names) :=
  (hit names rj).map fun ni => ⟨rj.jobId, ni, List.finRange _, rj.mpsReq⟩

theorem allocs_nodes (rj : LiveDaemon.LiveJob) :
    (allocs names rj).map (fun a => a.nodeId) = hit names rj :=
  List.map_map.trans (List.map_id _)

theorem allocs_running (rj : LiveDaemon.LiveJob) (n : Fin (daemonConfig names).nNodes)
    (g : Fin (daemonConfig names).gpusPerNode) :
    ((allocs names rj).countP fun a => a.nodeId = n ∧ g ∈ a.gpuIndices) =
      if LiveDaemon.named rj (names n) then 1 else 0 := by
  have hgpus : ((allocs names rj).countP fun a => a.nodeId = n ∧ g ∈ a.gpuIndices) =
      (hit names rj).count n := by
    refine List.countP_map.trans (List.countP_congr fun ni _ => ?_)
    simp
  rw [hgpus, (hit_nodup rj).count]
  simp only [mem_hit]

theorem allocs_hosts (rj : LiveDaemon.LiveJob) :
    (Cluster.hosts (allocs names rj)).length = (hit names rj).length := by
  rw [Cluster.hosts, allocs_nodes]
  exact congrArg List.length (hit_nodup rj).dedup

theorem addRunning_miss (c : LiveCluster names) {rj : LiveDaemon.LiveJob} (h : hit names rj = []) :
    LiveDaemon.addRunning names env.gpusPerNode env.mpsPerGpu c rj = c := if_pos h

theorem addRunning_node (c : LiveCluster names) {rj : LiveDaemon.LiveJob} (h : hit names rj ≠ [])
    (n : Fin (daemonConfig names).nNodes) :
    (LiveDaemon.addRunning names env.gpusPerNode env.mpsPerGpu c rj).nodes n =
      if LiveDaemon.named rj (names n) then
        { c.nodes n with
          gpus := fun gi => max 0 ((c.nodes n).gpus gi - rj.mpsReq)
          usedRamGb := (c.nodes n).usedRamGb + rj.ramReq }
      else c.nodes n := by
  refine (congrFun (congrArg Cluster.nodes (if_neg h)) n).trans ?_
  by_cases hnamed : LiveDaemon.named rj (names n) = true
  · exact (if_pos (mem_hit.mpr hnamed)).trans (if_pos hnamed).symm
  · exact (if_neg (mt mem_hit.mp hnamed)).trans (if_neg hnamed).symm

theorem addRunning_active {c : LiveCluster names} {rj : LiveDaemon.LiveJob}
    (hid : rj.jobId ∉ c.active.keys) (h : hit names rj ≠ []) :
    (LiveDaemon.addRunning names env.gpusPerNode env.mpsPerGpu c rj).active =
      c.active ++ [(rj.jobId, allocs names rj)] :=
  (congrArg Cluster.active (if_neg h)).trans (Dict.set_of_notMem hid _)

theorem addRunning_keys {c : LiveCluster names} {rj : LiveDaemon.LiveJob}
    (hid : rj.jobId ∉ c.active.keys) {jobId : String} (hne : jobId ≠ rj.jobId)
    (hfresh : jobId ∉ c.active.keys) :
    jobId ∉ (LiveDaemon.addRunning names env.gpusPerNode env.mpsPerGpu c rj).active.keys := by
  by_cases hnil : hit names rj = []
  · rwa [addRunning_miss c hnil]
  · rw [addRunning_active hid hnil, Dict.keys, List.map_append, List.mem_append]
    rintro (h | h)
    · exact hfresh h
    · exact hne (List.mem_singleton.mp h)

/-- A quantity of the cluster to which each running job adds its own. -/
theorem reconstruct_sum {M : Type} [AddMonoid M] (m : LiveCluster names → M)
    (w : LiveDaemon.LiveJob → M)
    (hstep : ∀ c rj, rj.jobId ∉ c.active.keys →
      m (LiveDaemon.addRunning names env.gpusPerNode env.mpsPerGpu c rj) = m c + w rj)
    {running : List LiveDaemon.LiveJob} (hids : (running.map fun rj => rj.jobId).Nodup) :
    m (LiveDaemon.reconstructSimCluster names env.gpusPerNode env.mpsPerGpu running) =
      m (Cluster.init _) + (running.map w).sum := by
  have hfold : ∀ c : LiveCluster names, (∀ rj ∈ running, rj.jobId ∉ c.active.keys) →
      m (running.foldl (LiveDaemon.addRunning names env.gpusPerNode env.mpsPerGpu) c) =
        m c + (running.map w).sum := by
    induction running with
    | nil => exact fun c _ => (add_zero _).symm
    | cons rj running ih =>
      intro c hfresh
      obtain ⟨hnot, hids⟩ := List.nodup_cons.mp hids
      have hid := hfresh rj List.mem_cons_self
      rw [List.foldl_cons, ih hids, hstep c rj hid, List.map_cons, List.sum_cons, add_assoc]
      intro rj' hrj'
      refine addRunning_keys hid (fun h => ?_) (hfresh rj' (List.mem_cons_of_mem _ hrj'))
      exact hnot (List.mem_map.mpr ⟨rj', hrj', h⟩)
  exact hfold _ fun rj _ => List.not_mem_nil

variable {running : List LiveDaemon.LiveJob}

theorem reconstruct_running (hids : (running.map fun rj => rj.jobId).Nodup)
    (n : Fin (daemonConfig names).nNodes) (g : Fin (daemonConfig names).gpusPerNode) :
    runningOnGpu (LiveDaemon.reconstructSimCluster names env.gpusPerNode env.mpsPerGpu running)
      n g = (running.map fun rj => if LiveDaemon.named rj (names n) then 1 else 0).sum := by
  rw [reconstruct_sum (fun c => runningOnGpu c n g)
    (fun rj => if LiveDaemon.named rj (names n) then 1 else 0) ?_ hids]
  · exact zero_add _
  intro c rj hid
  rw [← allocs_running rj n g]
  unfold runningOnGpu
  by_cases hnil : hit names rj = []
  · rw [addRunning_miss c hnil, allocs, hnil]
    rfl
  · rw [addRunning_active hid hnil, List.flatMap_append, List.countP_append, List.flatMap_singleton]

theorem reconstruct_crossNode (hids : (running.map fun rj => rj.jobId).Nodup) :
    crossNode (LiveDaemon.reconstructSimCluster names env.gpusPerNode env.mpsPerGpu running) =
      (running.map fun rj => if 1 < (hit names rj).length then 1 else 0).sum := by
  rw [reconstruct_sum crossNode (fun rj => if 1 < (hit names rj).length then 1 else 0) ?_ hids]
  · exact zero_add _
  intro c rj hid
  unfold crossNode
  by_cases hnil : hit names rj = []
  · rw [addRunning_miss c hnil, hnil]
    rfl
  · rw [addRunning_active hid hnil, List.countP_append, List.countP_singleton, allocs_hosts]
    simp

theorem reconstruct_ram (hids : (running.map fun rj => rj.jobId).Nodup)
    (n : Fin (daemonConfig names).nNodes) :
    ((LiveDaemon.reconstructSimCluster names env.gpusPerNode env.mpsPerGpu running).nodes
      n).usedRamGb = (running.map fun rj => if LiveDaemon.named rj (names n) then rj.ramReq else 0).sum ∧
    ((LiveDaemon.reconstructSimCluster names env.gpusPerNode env.mpsPerGpu running).nodes n).ramGb =
      ((Cluster.init
        (LiveDaemon.simConfig names env.gpusPerNode env.mpsPerGpu).toConfig).nodes n).ramGb := by
  have hnode : ∀ (c : LiveCluster names) (rj : LiveDaemon.LiveJob),
      ((LiveDaemon.addRunning names env.gpusPerNode env.mpsPerGpu c rj).nodes n).usedRamGb =
        (c.nodes n).usedRamGb + (if LiveDaemon.named rj (names n) then rj.ramReq else 0) ∧
      ((LiveDaemon.addRunning names env.gpusPerNode env.mpsPerGpu c rj).nodes n).ramGb =
        (c.nodes n).ramGb + 0 := by
    intro c rj
    by_cases hnil : hit names rj = []
    · have hnot : ¬ LiveDaemon.named rj (names n) = true := by
        intro hnamed
        have hmem := mem_hit.mpr hnamed
        rw [hnil] at hmem
        exact absurd hmem List.not_mem_nil
      rw [addRunning_miss c hnil, if_neg hnot, add_zero, add_zero]
      exact ⟨rfl, rfl⟩
    · rw [addRunning_node c hnil]
      by_cases hnamed : LiveDaemon.named rj (names n) = true
      · rw [if_pos hnamed, if_pos hnamed, add_zero]
        exact ⟨rfl, rfl⟩
      · rw [if_neg hnamed, if_neg hnamed, add_zero, add_zero]
        exact ⟨rfl, rfl⟩
  constructor
  · rw [reconstruct_sum (fun c => (c.nodes n).usedRamGb)
      (fun rj => if LiveDaemon.named rj (names n) then rj.ramReq else 0)
      (fun c rj _ => (hnode c rj).1) hids]
    exact zero_add _
  · rw [reconstruct_sum (fun c => (c.nodes n).ramGb) (fun _ => 0)
      (fun c rj _ => (hnode c rj).2) hids]
    simp

/-- Nothing is cut off where the jobs leave no fewer than no slots. -/
theorem left_eq (n : Fin env.nNodes) (hreq : ∀ rj ∈ running, 0 ≤ rj.mpsReq)
    (hfits : (running.map fun rj => if LiveDaemon.named rj (names n) then rj.mpsReq else 0).sum ≤
      env.mpsPerGpu) :
    left names running n = env.mpsPerGpu -
      (running.map fun rj => if LiveDaemon.named rj (names n) then rj.mpsReq else 0).sum := by
  have hfold : ∀ free : ℤ,
      (running.map fun rj => if LiveDaemon.named rj (names n) then rj.mpsReq else 0).sum ≤ free →
      running.foldl (fun free rj =>
        if LiveDaemon.named rj (names n) then max 0 (free - rj.mpsReq) else free) free = free -
          (running.map fun rj => if LiveDaemon.named rj (names n) then rj.mpsReq else 0).sum := by
    clear hfits
    induction running with
    | nil => exact fun free _ => (sub_zero free).symm
    | cons rj running ih =>
      intro free hfree
      have hrest : ∀ rj ∈ running, 0 ≤ rj.mpsReq :=
        fun rj hrj => hreq rj (List.mem_cons_of_mem _ hrj)
      have hsum : 0 ≤ (running.map fun rj =>
          if LiveDaemon.named rj (names n) then rj.mpsReq else 0).sum := by
        refine List.sum_nonneg fun x hx => ?_
        obtain ⟨rj, hrj, rfl⟩ := List.mem_map.mp hx
        split
        · exact hrest rj hrj
        · exact le_refl 0
      rw [List.map_cons, List.sum_cons] at hfree ⊢
      rw [List.foldl_cons]
      by_cases hnamed : LiveDaemon.named rj (names n) = true
      · rw [if_pos hnamed] at hfree ⊢
        rw [if_pos hnamed, max_eq_right (by omega), ih hrest _ (by omega)]
        omega
      · rw [if_neg hnamed] at hfree ⊢
        rw [if_neg hnamed, ih hrest _ (by omega)]
        omega
  exact hfold _ hfits

/-! ## What an observation reads -/

variable (names) in
/-- A cluster that the daemon can take for its own: a GPU on each node, and the
card and the RAM that the node's name stands for. -/
structure Deployed : Prop where
  one : env.gpusPerNode = 1
  ram : env.nodeRamGb = List.ofFn fun i => LiveDaemon.ramOf (LiveDaemon.nodeGpuType (names i))
  types : env.nodeGpuTypes = List.ofFn fun i => LiveDaemon.nodeGpuType (names i)
  window : env.topK = Impl.Sim.topK

/-- A GPU's features, of what they are taken from. -/
def gpuFeatOf (mpsPerGpu : ℕ) (free : ℤ) (jobs : ℕ) (ramRatio : ℚ) (gpuType : String) : List ℚ :=
  let freeRatio : ℚ := free / mpsPerGpu
  let gpuTypeOh := (Impl.Sim.gpuTypes.map fun t => flag (gpuType = t))
    ++ [flag (gpuType ∉ Impl.Sim.gpuTypes)]
  [freeRatio, freeRatio, jobs, ramRatio] ++ gpuTypeOh

theorem gpuFeat_eq (c : Cluster env.toConfig) (n : Fin env.nNodes) (g : Fin env.gpusPerNode) :
    gpuFeat env c n g = gpuFeatOf env.mpsPerGpu ((c.nodes n).gpus g) (runningOnGpu c n g)
      (c.nodes n).freeRamRatio (env.gpuType n) := rfl

/-- The daemon's cluster is the environment's, as far as an observation goes. -/
structure Alike (c : Cluster env.toConfig) (cl : LiveCluster names) : Prop where
  gpus : ∀ (n : Fin env.nNodes) (g : Fin env.gpusPerNode), (cl.nodes n).gpus g = (c.nodes n).gpus g
  ram : ∀ n : Fin env.nNodes, (cl.nodes n).freeRamRatio = (c.nodes n).freeRamRatio
  running : ∀ (n : Fin env.nNodes) (g : Fin env.gpusPerNode),
    runningOnGpu cl n g = runningOnGpu c n g
  crossNode : Impl.Sim.crossNode cl = Impl.Sim.crossNode c

variable {num : Numeric}

theorem Deployed.gpuType_eq (h : Deployed names) (n : Fin env.nNodes) :
    (LiveDaemon.simConfig names env.gpusPerNode env.mpsPerGpu).gpuType n = env.gpuType n := by
  unfold EnvConfig.gpuType
  rw [h.types]
  rfl

/-- The features of a GPU of the daemon's. -/
def liveGpuFeat (cl : LiveCluster names) (n : Fin env.nNodes) (g : Fin env.gpusPerNode) : List ℚ :=
  gpuFeat (LiveDaemon.simConfig names env.gpusPerNode env.mpsPerGpu) cl n g

theorem Alike.gpuFeat_eq (hnamed : Deployed names) {c : Cluster env.toConfig}
    {cl : LiveCluster names} (h : Alike c cl) (n : Fin env.nNodes) (g : Fin env.gpusPerNode) :
    liveGpuFeat cl n g = gpuFeat env c n g := by
  show gpuFeatOf env.mpsPerGpu ((cl.nodes n).gpus g) (runningOnGpu cl n g)
    (cl.nodes n).freeRamRatio
    ((LiveDaemon.simConfig names env.gpusPerNode env.mpsPerGpu).gpuType n) = _
  rw [h.gpus, h.running, h.ram, hnamed.gpuType_eq, Proof.Scheduler.gpuFeat_eq]

theorem Alike.topoFeat_eq {c : Cluster env.toConfig} {cl : LiveCluster names} (h : Alike c cl)
    (pending : List TraceJob) : topoFeat pending cl = topoFeat pending c := by
  have hram : (List.finRange env.nNodes).map (fun n => (cl.nodes n).freeRamRatio) =
      (List.finRange env.nNodes).map fun n => (c.nodes n).freeRamRatio :=
    List.map_congr_left fun n _ => h.ram n
  show [minWithDefault ((List.finRange env.nNodes).map fun n => (cl.nodes n).freeRamRatio) 1, _, _,
    (Impl.Sim.crossNode cl : ℚ)] = _
  rw [hram, h.crossNode]
  rfl

theorem Alike.globalFeat_eq {c : Cluster env.toConfig} {cl : LiveCluster names} (h : Alike c cl)
    (pending : List TraceJob) (now : ℚ) :
    globalFeat num pending cl now = globalFeat num pending c now := by
  have hfree : freeMpsPerNode cl = freeMpsPerNode c := by
    refine List.map_congr_left (l := List.finRange env.nNodes) fun n _ => ?_
    exact congrArg List.sum (List.map_congr_left fun g _ => h.gpus n g)
  show [_, _, if env.nNodes > 1 then fragmentation num (freeMpsPerNode cl) else 0, _, _, _] = _
  rw [hfree]
  rfl

/-- The features of the daemon's GPUs. -/
def liveGpuFeats (cl : LiveCluster names) : List (List ℚ) :=
  (List.finRange env.nNodes).flatMap fun n => (List.finRange env.gpusPerNode).map (liveGpuFeat cl n)

def liveCluster (names : Fin env.nNodes → String) (st : RunState env) : LiveCluster names :=
  LiveDaemon.reconstructSimCluster names env.gpusPerNode env.mpsPerGpu (liveRunning names st)

/-- The daemon's observation of a state. -/
def liveObs (num : Numeric) (names : Fin env.nNodes → String) (st : RunState env) : List ℚ :=
  LiveDaemon.obs names env.gpusPerNode env.mpsPerGpu num (livePending st) (liveRunning names st)
    st.now

theorem liveObs_eq (hnamed : Deployed names) (st : RunState env) :
    liveObs num names st = jobFeats num env.topK env st.pending st.now ++
      (liveGpuFeats (liveCluster names st)).flatten ++ topoFeat st.pending (liveCluster names st) ++
        globalFeat num st.pending (liveCluster names st) st.now := by
  have hjobs : (livePending st).map LiveDaemon.liveToSimJob = st.pending := by
    rw [livePending, List.map_map]
    exact List.map_id _
  have hwindow : (windowFeats env.mpsPerGpu num (livePending st) st.now).flatten =
      jobFeats num env.topK env st.pending st.now := by
    unfold windowFeats jobFeats
    rw [live_top, hnamed.window, shown]
    refine congrArg List.flatten (List.map_congr_left fun i _ => ?_)
    cases ((bySubmitTs st.pending).take Impl.Sim.topK)[i]? with
    | none => rfl
    | some j => rfl
  rw [liveObs, obs_eq, hwindow, hjobs]
  rfl

/-- Clusters that are alike have the same observation. -/
theorem obs_congr (hnamed : Deployed names) {st : RunState env}
    (h : Alike st.cluster (liveCluster names st)) :
    liveObs num names st = buildObs num env st.cluster st.pending st.now := by
  have hgpus : (liveGpuFeats (liveCluster names st)).flatten = gpuFeats st.cluster := by
    unfold liveGpuFeats gpuFeats
    simp only [funext (h.gpuFeat_eq hnamed _)]
  rw [liveObs_eq hnamed, buildObs_eq, hgpus, h.topoFeat_eq, h.globalFeat_eq]

theorem gpuFeat_length (c : Cluster env.toConfig) (n : Fin env.nNodes) (g : Fin env.gpusPerNode) :
    (gpuFeat env c n g).length = gpuFeatDim := rfl

theorem liveGpuFeat_length (cl : LiveCluster names) (n : Fin env.nNodes) (g : Fin env.gpusPerNode) :
    (liveGpuFeat cl n g).length = gpuFeatDim := rfl

/-- The same observation has the same number of jobs on each GPU. -/
theorem running_of_obs (hnamed : Deployed names) {st : RunState env}
    (h : liveObs num names st = buildObs num env st.cluster st.pending st.now)
    (n : Fin env.nNodes) (g : Fin env.gpusPerNode) :
    runningOnGpu (liveCluster names st) n g = runningOnGpu st.cluster n g := by
  rw [liveObs_eq hnamed, buildObs_eq, List.append_assoc, List.append_assoc, List.append_assoc,
    List.append_assoc, List.append_cancel_left_eq] at h
  have hlen : (liveGpuFeats (liveCluster names st)).flatten.length =
      (gpuFeats st.cluster).length := by
    unfold liveGpuFeats gpuFeats
    rw [List.length_flatten, List.length_flatten, List.map_flatMap, List.map_flatMap]
    simp only [List.map_map, Function.comp_def, gpuFeat_length, liveGpuFeat_length]
  have hfeat := blocks_inj (liveGpuFeat_length _) (gpuFeat_length _) (List.append_inj h hlen).1 n
    (List.mem_finRange n) g (List.mem_finRange g)
  have hjobs := congrArg (fun feats : List ℚ => feats.getD 2 0) hfeat
  exact Nat.cast_injective (R := ℚ) hjobs

/-! ## The running jobs -/

variable (names) in
/-- The node list of a plan names a node. -/
def reads (plan : Plan env.toConfig) (k : Fin env.nNodes) : Bool :=
  names k ≠ "" && contains (joinComma ((Cluster.hosts plan).map names)) (names k)

variable (names) in
/-- In the node list of each running job, the names that occur are those of the
nodes that it runs on. -/
def NamesRead (st : RunState env) : Prop :=
  ∀ kv ∈ st.cluster.active, ∀ k, reads names kv.2 k = true ↔ k ∈ Cluster.hosts kv.2

theorem infix_joinComma {x : String} : ∀ {xs : List String}, x ∈ xs →
    x.toList <:+: (joinComma xs).toList
  | [y], h => by
    rw [List.mem_singleton.mp h, joinComma, String.intercalate_singleton]
  | y :: z :: ys, h => by
    rw [joinComma, String.intercalate_cons_cons, String.toList_append, String.toList_append]
    rcases List.mem_cons.mp h with rfl | h
    · rw [List.append_assoc]
      exact (List.prefix_append _ _).isInfix
    · exact (infix_joinComma h).trans (List.suffix_append _ _).isInfix

/-- The name of a node that a job runs on occurs. -/
theorem reads_of_host {plan : Plan env.toConfig} {k : Fin env.nNodes} (hne : names k ≠ "")
    (h : k ∈ Cluster.hosts plan) : reads names plan k = true := by
  rw [reads, Bool.and_eq_true, decide_eq_true_eq, contains, decide_eq_true_eq]
  exact ⟨hne, infix_joinComma (List.mem_map_of_mem h)⟩

theorem of_infix_joinComma {x : String} (hne : x ≠ "") (hc : ',' ∉ x.toList) : ∀ {xs : List String},
    x.toList <:+: (joinComma xs).toList → ∃ y ∈ xs, x.toList <:+: y.toList
  | [], h => by
    rw [joinComma, String.intercalate_nil, String.toList_empty, List.infix_nil,
      String.toList_eq_nil_iff] at h
    exact absurd h hne
  | [y], h => by
    rw [joinComma, String.intercalate_singleton] at h
    exact ⟨y, List.mem_singleton_self y, h⟩
  | y :: z :: ys, h => by
    have hjoin : (joinComma (y :: z :: ys)).toList =
        y.toList ++ ',' :: (joinComma (z :: ys)).toList := by
      simp [joinComma, String.intercalate_cons_cons]
    rw [hjoin, infix_append_cons hc] at h
    rcases h with h | h
    · exact ⟨y, List.mem_cons_self, h⟩
    · obtain ⟨w, hw, h⟩ := of_infix_joinComma hne hc h
      exact ⟨w, List.mem_cons_of_mem _ hw, h⟩

/-- Names that do not occur in each other are read right in every state. -/
theorem namesRead_of_apart (hne : ∀ k, names k ≠ "") (hc : ∀ k, ',' ∉ (names k).toList)
    (hapart : ∀ k l, contains (names l) (names k) → k = l) (st : RunState env) :
    NamesRead names st := by
  intro kv _ k
  refine ⟨fun h => ?_, reads_of_host (hne k)⟩
  rw [reads, Bool.and_eq_true, contains, decide_eq_true_eq, decide_eq_true_eq] at h
  obtain ⟨y, hy, hinfix⟩ := of_infix_joinComma (hne k) (hc k) h.2
  obtain ⟨l, hl, rfl⟩ := List.mem_map.mp hy
  rwa [hapart k l (decide_eq_true hinfix)]

section State

variable {jobs : List TraceJob} {st : RunState env} {pl : Placement env.toConfig}

/-- What is taken of each running job. -/
theorem liveRunning_map (hready : Ready jobs st) (h : Hosted jobs st.cluster pl) {β : Type}
    (f : LiveDaemon.LiveJob → β) (f' : String × Proof.Sim.Placed env.toConfig → β)
    (hf : ∀ kv ∈ pl, ∀ j : TraceJob, j.jobId = kv.1 → j.toJob = kv.2.job →
      f (liveJob j "RUNNING" (joinComma ((Cluster.hosts kv.2.plan).map names))) = f' kv) :
    (liveRunning names st).map f = pl.map f' := by
  rw [liveRunning, h.active, Dict.mapVal, List.filterMap_map, List.map_filterMap]
  conv_rhs => rw [← List.filterMap_eq_map]
  refine List.filterMap_congr fun kv hkv => ?_
  obtain ⟨j, hj, hid, hjob⟩ := h.job kv hkv
  have hget : st.byId.get? kv.1 = some j := hid ▸ hready.byId j hj
  simp only [Function.comp_apply, hget, Option.map_some, hf kv hkv j hid hjob]

theorem liveRunning_ids (hready : Ready jobs st) (h : Hosted jobs st.cluster pl) :
    ((liveRunning names st).map fun rj => rj.jobId).Nodup := by
  rw [liveRunning_map hready h (fun rj => rj.jobId) Prod.fst fun kv _ j hid _ => hid]
  exact h.nodup

theorem live_running (hready : Ready jobs st) (h : Hosted jobs st.cluster pl) (n : Fin env.nNodes)
    (g : Fin env.gpusPerNode) :
    runningOnGpu (liveCluster names st) n g = pl.countP fun kv => reads names kv.2.plan n := by
  rw [countP_eq_sum]
  refine (reconstruct_running (liveRunning_ids hready h) n g).trans ?_
  exact congrArg List.sum (liveRunning_map hready h _ _ fun kv _ j _ _ => rfl)

theorem sim_running (h : Hosted jobs st.cluster pl) (n : Fin env.nNodes) (g : Fin env.gpusPerNode) :
    runningOnGpu st.cluster n g = pl.countP fun kv => n ∈ Cluster.hosts kv.2.plan := by
  rw [runningOnGpu, h.active, Dict.mapVal, List.flatMap_map, List.countP_flatMap, countP_eq_sum]
  refine congrArg List.sum (List.map_congr_left fun kv hkv => ?_)
  simp only [Function.comp_apply, (h.spread kv hkv).running_eq, decide_eq_true_eq]

/-- The names that occur, for the jobs of the accounts. -/
theorem NamesRead.placed (hread : NamesRead names st) (h : Hosted jobs st.cluster pl) :
    ∀ kv ∈ pl, ∀ k, reads names kv.2.plan k = true ↔ k ∈ Cluster.hosts kv.2.plan := by
  intro kv hkv
  refine hread (kv.1, kv.2.plan) ?_
  rw [h.active]
  exact List.mem_map_of_mem hkv

/-- The count of the jobs on each node tells whether the names are read right. -/
theorem namesRead_of_running (hone : env.gpusPerNode = 1) (hready : Ready jobs st)
    (h : Hosted jobs st.cluster pl)
    (hcount : ∀ (n : Fin env.nNodes) (g : Fin env.gpusPerNode),
      runningOnGpu (liveCluster names st) n g = runningOnGpu st.cluster n g) :
    NamesRead names st := by
  intro kv hkv k
  rw [h.active] at hkv
  obtain ⟨x, hx, rfl⟩ := List.mem_map.mp hkv
  have hk := hcount k ⟨0, by omega⟩
  rw [live_running hready h, sim_running h] at hk
  -- a node without a name is read of no job, any other of all that it hosts
  by_cases hempty : names k = ""
  · have hnone : ∀ y ∈ pl, reads names y.2.plan k = true → k ∈ Cluster.hosts y.2.plan := by
      intro y _ hy
      rw [reads, Bool.and_eq_true, decide_eq_true_eq] at hy
      exact absurd hempty hy.1
    have heq := iff_of_countP_eq (fun y hy => by simpa using hnone y hy) hk x hx
    rw [heq, decide_eq_true_eq]
  · have hall : ∀ y ∈ pl, k ∈ Cluster.hosts y.2.plan → reads names y.2.plan k = true :=
      fun y _ => reads_of_host hempty
    have heq := iff_of_countP_eq (fun y hy => by simpa using hall y hy) hk.symm x hx
    rw [← heq, decide_eq_true_eq]

/-- The slots that the jobs read of a node take there. -/
theorem live_mps (hready : Ready jobs st) (h : Hosted jobs st.cluster pl)
    (hread : NamesRead names st) (n : Fin env.nNodes) (g : Fin env.gpusPerNode) :
    ((liveRunning names st).map fun rj =>
      if LiveDaemon.named rj (names n) then rj.mpsReq else 0).sum = takenMps pl (n, g) := by
  refine congrArg List.sum (liveRunning_map hready h _ _ fun kv hkv j hid hjob => ?_)
  show _ = usage kv.2.plan n g
  rw [(h.spread kv hkv).usage_eq, ← hjob]
  exact if_congr (hread.placed h kv hkv n) rfl rfl

/-- And their RAM. -/
theorem live_ram (hready : Ready jobs st) (h : Hosted jobs st.cluster pl)
    (hread : NamesRead names st) (n : Fin env.nNodes) :
    ((liveRunning names st).map fun rj =>
      if LiveDaemon.named rj (names n) then rj.ramReq else 0).sum = takenRam pl n := by
  refine congrArg List.sum (liveRunning_map hready h _ _ fun kv hkv j hid hjob => ?_)
  rw [ramOn, ← hjob]
  exact if_congr (hread.placed h kv hkv n) rfl rfl

theorem liveRunning_nonneg (hnonneg : Nonneg jobs) (hready : Ready jobs st)
    (h : Hosted jobs st.cluster pl) : ∀ rj ∈ liveRunning names st, 0 ≤ rj.mpsReq := by
  intro rj hrj
  obtain ⟨kv, hkv, hmap⟩ := List.mem_filterMap.mp hrj
  obtain ⟨j, hj, rfl⟩ := Option.map_eq_some_iff.mp hmap
  rw [h.active] at hkv
  obtain ⟨x, hx, rfl⟩ := List.mem_map.mp hkv
  obtain ⟨j', hj', hid, -⟩ := h.job x hx
  have hget : st.byId.get? x.1 = some j' := hid ▸ hready.byId j' hj'
  obtain rfl := Option.some.inj (hj.symm.trans hget)
  exact (hnonneg j hj').1

/-- The nodes that are read of a job are as many as it runs on. -/
theorem hit_length (h : Hosted jobs st.cluster pl) (hread : NamesRead names st)
    {kv : String × Proof.Sim.Placed env.toConfig} (hkv : kv ∈ pl) (j : TraceJob) :
    (hit names (liveJob j "RUNNING" (joinComma ((Cluster.hosts kv.2.plan).map names)))).length =
      (Cluster.hosts kv.2.plan).length := by
  show ((List.finRange env.nNodes).filter (reads names kv.2.plan)).length = _
  refine List.Perm.length_eq ((List.perm_ext_iff_of_nodup ((List.nodup_finRange _).filter _)
    (List.nodup_dedup _)).mpr fun k => ?_)
  rw [List.mem_filter, hread.placed h kv hkv]
  exact and_iff_right (List.mem_finRange k)

theorem live_crossNode (hready : Ready jobs st) (h : Hosted jobs st.cluster pl)
    (hread : NamesRead names st) : crossNode (liveCluster names st) = crossNode st.cluster := by
  refine (reconstruct_crossNode (liveRunning_ids hready h)).trans ?_
  rw [crossNode, h.active, Dict.mapVal, List.countP_map, countP_eq_sum]
  refine congrArg List.sum (liveRunning_map hready h _ _ fun kv hkv j hid hjob => ?_)
  rw [hit_length h hread hkv]
  simp only [Function.comp_apply, decide_eq_true_eq, gt_iff_lt]

theorem live_budget (hnamed : Deployed names) (h : Hosted jobs st.cluster pl) (n : Fin env.nNodes) :
    ((Cluster.init (daemonConfig names)).nodes n).ramGb = (st.cluster.nodes n).ramGb := by
  rw [h.ramGb]
  simp only [Cluster.init]
  rw [hnamed.ram]
  rfl

/-- Where the names are read right, so is the daemon's cluster. -/
theorem alike_of_namesRead (hnamed : Deployed names) (hnonneg : Nonneg jobs)
    (hready : Ready jobs st) (h : Hosted jobs st.cluster pl) (hread : NamesRead names st) :
    Alike st.cluster (liveCluster names st) := by
  constructor
  · intro n g
    have htaken := live_mps hready h hread n g
    have hbalance := h.mps n g
    have hfree := (h.mps_mem n g).1
    refine (reconstruct_gpus names (liveRunning names st) n g).trans ?_
    rw [left_eq n (liveRunning_nonneg hnonneg hready h) (by rw [htaken]; omega), htaken]
    omega
  · intro n
    have hids : ((liveRunning names st).map fun rj => rj.jobId).Nodup := liveRunning_ids hready h
    obtain ⟨hram, hgb⟩ := reconstruct_ram hids n
    have hused : ((liveCluster names st).nodes n).usedRamGb = takenRam pl n :=
      hram.trans (live_ram hready h hread n)
    have hbudget : ((liveCluster names st).nodes n).ramGb = (st.cluster.nodes n).ramGb :=
      hgb.trans (live_budget hnamed h n)
    unfold Node.freeRamRatio
    rw [hused, hbudget, h.ram]
  · intro n g
    rw [live_running hready h, sim_running h]
    refine List.countP_congr fun kv hkv => ?_
    rw [hread.placed h kv hkv, decide_eq_true_eq]
  · exact live_crossNode hready h hread

end State

/-! ## Episodes -/

variable {G : Type} (num : Numeric) (rand : Random G)

/-- At every decision point of an episode, the daemon's observation is the
environment's if and only if the names in the node lists are those of the nodes
that the jobs run on. -/
theorem live_obs_eq_iff (hnamed : Deployed names) {jobs : List TraceJob}
    (hvalid : ValidTrace env jobs) (seed : Option Int) (actions : List ℕ) :
    let st := reached num rand env seed jobs actions
    (LiveDaemon.buildObsAndMask names env.gpusPerNode env.mpsPerGpu num (livePending st)
      (liveRunning names st) st.now).1 = buildObs num env st.cluster st.pending st.now ↔
        NamesRead names st := by
  intro st
  obtain ⟨hready, pl, hhosted⟩ := episode_hosted num rand hnamed.one hvalid seed actions
  constructor
  · intro h
    exact namesRead_of_running hnamed.one hready hhosted (running_of_obs hnamed h)
  · intro hread
    exact obs_congr hnamed (alike_of_namesRead hnamed hvalid.nonneg hready hhosted hread)

/-- Two nodes with one GPU each, both of the larger card. -/
def pairEnv : EnvConfig where
  nNodes := 2
  gpusPerNode := 1
  nodeRamGb := [62, 62]
  nodeGpuTypes := ["rtx4070", "rtx4070"]
  ram_given := by decide
  ram_nonneg := by decide
  overcommit_nonneg := Config.one_nonneg
  speeds_given := Config.none_given _
  types_given := by decide

/-- A job that is placed on the second node, and one that waits. -/
def pairTrace : List TraceJob :=
  [⟨⟨"1", 1, 50, 1⟩, "rtx4070", 0, 60, "batch", 0⟩, ⟨⟨"2", 1, 50, 1⟩, "rtx4070", 0, 60, "batch", 0⟩]

def noNoise : Random Unit := ⟨fun u => (0, u), fun _ => 0, fun _ => (), fun _ => 0⟩

theorem pairTrace_valid : ValidTrace pairEnv pairTrace where
  ids := by decide
  submit := by decide +kernel
  nonneg := by unfold Nonneg; decide +kernel
  sized := by unfold Sized; decide +kernel

/-- No node's name occurs in another's. -/
theorem apart_obs_eq :
    let names : Fin pairEnv.nNodes → String := fun i => ["gpu-1", "gpu-2"].getD i ""
    let st := reached zeros noNoise pairEnv none pairTrace [1]
    (LiveDaemon.buildObsAndMask names pairEnv.gpusPerNode pairEnv.mpsPerGpu zeros (livePending st)
      (liveRunning names st) st.now).1 = buildObs zeros pairEnv st.cluster st.pending st.now :=
  (live_obs_eq_iff zeros noNoise
    { one := rfl
      ram := by decide +kernel
      types := by decide +kernel
      window := rfl } pairTrace_valid none [1]).mpr (by unfold NamesRead; decide +kernel)

/-- The first node's name occurs in the second's. -/
theorem prefix_obs_ne :
    let names : Fin pairEnv.nNodes → String := fun i => ["gpu-1", "gpu-10"].getD i ""
    let st := reached zeros noNoise pairEnv none pairTrace [1]
    (LiveDaemon.buildObsAndMask names pairEnv.gpusPerNode pairEnv.mpsPerGpu zeros (livePending st)
      (liveRunning names st) st.now).1 ≠ buildObs zeros pairEnv st.cluster st.pending st.now := by
  decide +kernel

end Kelpflux.Proof.Scheduler
