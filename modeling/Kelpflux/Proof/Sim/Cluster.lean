import Kelpflux.Framework.Ledger
import Kelpflux.Framework.Run
import Kelpflux.Impl.Sim.Cluster
import Mathlib.Data.List.Dedup
import Mathlib.Tactic.Linarith
import Mathlib.Tactic.Ring

/-!
# The cluster's accounts

The cluster against the jobs placed on it (`Placement`): a GPU's MPS slots and
a host's RAM are ledgers of which each placed job takes its part (`usage`,
`ramOn`), and the cluster's free slots and used RAM are their balances
(`Accounts`). A plan takes no more than there is (`plan_fits`, `planOn_fits`),
and a release gives back what the plan took, so the accounts hold along every
run of calls, and releasing all jobs in any order leaves the cluster as it was
constructed (`cluster_accounts`).
-/

namespace Kelpflux.Proof.Sim

open Framework Kelpflux.Impl.Sim

variable {cfg : Config}

/-- A job on the cluster. -/
structure Placed (cfg : Config) where
  job : Job
  plan : Plan cfg

/-- The jobs on the cluster, by their ids. -/
abbrev Placement (cfg : Config) := Dict String (Placed cfg)

/-- The MPS slots that a plan takes of a GPU. -/
def usage (plan : Plan cfg) (n : Fin cfg.nNodes) (g : Fin cfg.gpusPerNode) : Int :=
  (plan.map fun a => if a.nodeId = n then (a.gpuIndices.count g : Int) * a.mpsPerGpu else 0).sum

/-- The RAM that a job takes of a host. -/
def ramOn (x : Placed cfg) (n : Fin cfg.nNodes) : ℚ :=
  if n ∈ Cluster.hosts x.plan then x.job.ramReq else 0

theorem ramOn_nonneg {x : Placed cfg} (h : 0 ≤ x.job.ramReq) (n : Fin cfg.nNodes) :
    0 ≤ ramOn x n := by
  unfold ramOn
  split
  · exact h
  · exact le_refl 0

/-! ## What an update changes -/

theorem usage_cons (a : Allocation cfg) (plan : Plan cfg) (n : Fin cfg.nNodes)
    (g : Fin cfg.gpusPerNode) :
    usage (a :: plan) n g =
      (if a.nodeId = n then (a.gpuIndices.count g : Int) * a.mpsPerGpu else 0) + usage plan n g := rfl

theorem addMps_gpus (plan : Plan cfg) (sign : Int) (nodes : Fin cfg.nNodes → Node cfg)
    (n : Fin cfg.nNodes) (g : Fin cfg.gpusPerNode) :
    (Cluster.addMps nodes sign plan n).gpus g = (nodes n).gpus g + sign * usage plan n g := by
  induction plan generalizing nodes with
  | nil => simp [Cluster.addMps, usage]
  | cons a plan ih =>
    have hgpus : ∀ (gs : List (Fin cfg.gpusPerNode)) (nodes : Fin cfg.nNodes → Node cfg),
        ((gs.foldl (fun nodes g => Function.update nodes a.nodeId
          ((nodes a.nodeId).addMps (sign * a.mpsPerGpu) g)) nodes) n).gpus g =
        (nodes n).gpus g + if a.nodeId = n then (gs.count g : Int) * (sign * a.mpsPerGpu) else 0 := by
      intro gs
      induction gs with
      | nil => simp
      | cons g' gs ihg =>
        intro nodes
        rw [List.foldl_cons, ihg]
        by_cases hn : a.nodeId = n
        · subst hn
          by_cases hg : g' = g
          · subst hg
            simp [Node.addMps]
            ring
          · simp [Node.addMps, hg, Ne.symm hg]
        · simp [hn, Function.update_of_ne (Ne.symm hn)]
    rw [Cluster.addMps, List.foldl_cons, ← Cluster.addMps, ih, hgpus, usage_cons]
    split <;> ring

/-- MPS slots are all that it changes. -/
theorem addMps_ram (plan : Plan cfg) (sign : Int) (nodes : Fin cfg.nNodes → Node cfg)
    (n : Fin cfg.nNodes) :
    (Cluster.addMps nodes sign plan n).ramGb = (nodes n).ramGb ∧
      (Cluster.addMps nodes sign plan n).usedRamGb = (nodes n).usedRamGb := by
  induction plan generalizing nodes with
  | nil => exact ⟨rfl, rfl⟩
  | cons a plan ih =>
    have hram : ∀ (gs : List (Fin cfg.gpusPerNode)) (nodes : Fin cfg.nNodes → Node cfg),
        let nodes' := gs.foldl (fun nodes g => Function.update nodes a.nodeId
          ((nodes a.nodeId).addMps (sign * a.mpsPerGpu) g)) nodes
        (nodes' n).ramGb = (nodes n).ramGb ∧ (nodes' n).usedRamGb = (nodes n).usedRamGb := by
      intro gs
      induction gs with
      | nil => exact fun _ => ⟨rfl, rfl⟩
      | cons g gs ihg =>
        intro nodes
        obtain ⟨hgb, hused⟩ := ihg (Function.update nodes a.nodeId
          ((nodes a.nodeId).addMps (sign * a.mpsPerGpu) g))
        by_cases hn : n = a.nodeId
        · subst hn
          rw [Function.update_self] at hgb hused
          exact ⟨hgb, hused⟩
        · rw [Function.update_of_ne hn] at hgb hused
          exact ⟨hgb, hused⟩
    obtain ⟨hgb, hused⟩ := ih (a.gpuIndices.foldl (fun nodes g => Function.update nodes a.nodeId
      ((nodes a.nodeId).addMps (sign * a.mpsPerGpu) g)) nodes)
    obtain ⟨hgb', hused'⟩ := hram a.gpuIndices nodes
    exact ⟨hgb.trans hgb', hused.trans hused'⟩

theorem updateRam_apply (f : ℚ → ℚ) :
    ∀ {hosts : List (Fin cfg.nNodes)} (nodes : Fin cfg.nNodes → Node cfg) (n : Fin cfg.nNodes),
      hosts.Nodup → Cluster.updateRam nodes f hosts n = { nodes n with
        usedRamGb := if n ∈ hosts then f (nodes n).usedRamGb else (nodes n).usedRamGb }
  | [], nodes, n, _ => by simp [Cluster.updateRam]
  | m :: hosts, nodes, n, h => by
    obtain ⟨hm, hnodup⟩ := List.nodup_cons.mp h
    rw [Cluster.updateRam, List.foldl_cons, ← Cluster.updateRam, updateRam_apply f _ n hnodup]
    by_cases hn : n = m
    · subst hn; simp [hm]
    · simp [hn]

/-- A node after a plan: its slots by what the plan takes there, and its RAM
once if it is a host. -/
theorem updateRam_addMps (nodes : Fin cfg.nNodes → Node cfg) (sign : Int) (plan : Plan cfg)
    (f : ℚ → ℚ) (n : Fin cfg.nNodes) :
    Cluster.updateRam (Cluster.addMps nodes sign plan) f (Cluster.hosts plan) n =
      { gpus := fun g => (nodes n).gpus g + sign * usage plan n g
        ramGb := (nodes n).ramGb
        usedRamGb := if n ∈ Cluster.hosts plan then f (nodes n).usedRamGb
          else (nodes n).usedRamGb } := by
  have hhosts : (Cluster.hosts plan).Nodup := List.nodup_dedup _
  rw [updateRam_apply f _ n hhosts, (addMps_ram plan sign nodes n).2]
  ext1
  · exact funext fun g => addMps_gpus plan sign nodes n g
  · exact (addMps_ram plan sign nodes n).1
  · rfl

/-! ## What a plan takes -/

/-- A plan takes no more MPS slots than are free, and its hosts have the RAM. -/
structure Fits (c : Cluster cfg) (job : Job) (plan : Plan cfg) : Prop where
  nonneg : ∀ n g, 0 ≤ usage plan n g
  le_free : ∀ n g, usage plan n g ≤ (c.nodes n).gpus g
  ram_ok : ∀ n ∈ Cluster.hosts plan, c.ramOk n job.ramReq

variable {c : Cluster cfg} {job : Job} {plan : Plan cfg}

theorem mem_hosts {n : Fin cfg.nNodes} : n ∈ Cluster.hosts plan ↔ ∃ a ∈ plan, a.nodeId = n := by
  simp [Cluster.hosts]

theorem fits_single {n : Fin cfg.nNodes} {g : Fin cfg.gpusPerNode}
    (hfree : ∀ n g, 0 ≤ (c.nodes n).gpus g) (hreq : 0 ≤ job.mpsReq)
    (hg : job.mpsReq ≤ (c.nodes n).gpus g) (hram : c.ramOk n job.ramReq) :
    Fits c job [⟨job.jobId, n, [g], job.mpsReq⟩] := by
  have husage : ∀ n' g', usage [⟨job.jobId, n, [g], job.mpsReq⟩] n' g' =
      if n = n' ∧ g = g' then job.mpsReq else 0 := by
    intro n' g'
    by_cases hn : n = n' <;> by_cases hg' : g = g' <;> simp [usage, hn, hg']
  refine ⟨fun n' g' => ?_, fun n' g' => ?_, fun n' hn' => ?_⟩
  · rw [husage]; split
    · exact hreq
    · exact le_refl 0
  · rw [husage]; split
    · rename_i h; rw [← h.1, ← h.2]; exact hg
    · exact hfree n' g'
  · obtain ⟨a, ha, rfl⟩ := mem_hosts.mp hn'
    rw [List.mem_singleton.mp ha]
    exact hram

theorem mem_freeWholeGpus {node : Node cfg} {g : Fin cfg.gpusPerNode} :
    g ∈ node.freeWholeGpus ↔ node.gpus g = cfg.mpsPerGpu := by
  simp [Node.freeWholeGpus]

/-- Each node is visited once, and a GPU taken there is wholly free. -/
theorem fill_fits {ordered : Fin cfg.nNodes → List (Fin cfg.gpusPerNode)}
    (hfree : ∀ n g, 0 ≤ (c.nodes n).gpus g)
    (hnodup : ∀ n, (ordered n).Nodup) (hsub : ∀ n, ordered n ⊆ (c.nodes n).freeWholeGpus) :
    ∀ (nis : List (Fin cfg.nNodes)) (needed : Int), nis.Nodup →
      Fits c job (c.fill job ordered nis needed).1 ∧
        ∀ a ∈ (c.fill job ordered nis needed).1, a.nodeId ∈ nis
  | [], needed, _ => ⟨⟨fun _ _ => le_refl 0, hfree, by simp [Cluster.fill, Cluster.hosts]⟩,
      by simp [Cluster.fill]⟩
  | ni :: nis, needed, h => by
    obtain ⟨hni, hnis⟩ := List.nodup_cons.mp h
    have hskip := fill_fits hfree hnodup hsub nis needed hnis
    unfold Cluster.fill
    split
    · exact ⟨⟨fun _ _ => le_refl 0, hfree, by simp [Cluster.hosts]⟩, by simp⟩
    split
    · exact ⟨hskip.1, fun a ha => List.mem_cons_of_mem _ (hskip.2 a ha)⟩
    rename_i hram
    dsimp only
    split
    · exact ⟨hskip.1, fun a ha => List.mem_cons_of_mem _ (hskip.2 a ha)⟩
    generalize htake : (ordered ni).take needed.toNat = take
    have htakeNodup : take.Nodup := htake ▸ (hnodup ni).sublist (List.take_sublist _ _)
    have htakeFree : ∀ g ∈ take, (c.nodes ni).gpus g = cfg.mpsPerGpu := fun g hg =>
      mem_freeWholeGpus.mp (hsub ni (List.mem_of_mem_take (htake ▸ hg)))
    obtain ⟨hrest, hnodes⟩ := fill_fits hfree hnodup hsub nis (needed - take.length) hnis
    have hother : ∀ g, usage (c.fill job ordered nis (needed - take.length)).1 ni g = 0 := by
      intro g
      refine List.sum_eq_zero fun x hx => ?_
      obtain ⟨a, ha, rfl⟩ := List.mem_map.mp hx
      rw [if_neg]
      rintro rfl
      exact hni (hnodes a ha)
    have hcount : ∀ g, (take.count g : Int) * cfg.mpsPerGpu
        = if g ∈ take then (cfg.mpsPerGpu : Int) else 0 := by
      intro g
      rw [htakeNodup.count]
      split <;> simp
    refine ⟨⟨fun n g => ?_, fun n g => ?_, fun n hn => ?_⟩, fun a ha => ?_⟩
    · rw [usage_cons]
      dsimp only
      split
      · rw [hcount]
        have := hrest.nonneg n g
        split <;> omega
      · rw [zero_add]; exact hrest.nonneg n g
    · rw [usage_cons]
      dsimp only
      split
      · rename_i hn
        subst hn
        rw [hcount, hother, add_zero]
        split
        · exact (htakeFree g ‹_›).ge
        · exact hfree ni g
      · rw [zero_add]; exact hrest.le_free n g
    · obtain ⟨a, ha, rfl⟩ := mem_hosts.mp hn
      rcases List.mem_cons.mp ha with rfl | ha
      · exact not_not.mp hram
      · exact hrest.ram_ok _ (mem_hosts.mpr ⟨a, ha, rfl⟩)
    · rcases List.mem_cons.mp ha with rfl | ha
      · exact List.mem_cons_self
      · exact List.mem_cons_of_mem _ (hnodes a ha)

/-- The best GPU so far has the slots. -/
theorem betterGpu_le {node : Node cfg} {mpsReq : Int} :
    ∀ (gs : List (Fin cfg.gpusPerNode)) (found : Option (Fin cfg.gpusPerNode × Int)),
      (∀ b ∈ found, mpsReq ≤ node.gpus b.1) →
      ∀ b ∈ gs.foldl (Cluster.betterGpu node mpsReq) found, mpsReq ≤ node.gpus b.1
  | [], _, hfound => hfound
  | g :: gs, found, hfound => by
    refine betterGpu_le gs _ fun b hb => ?_
    unfold Cluster.betterGpu at hb
    split at hb
    · rename_i hg
      dsimp only at hb
      split at hb
      · obtain rfl := Option.some.inj hb; exact hg
      · split at hb
        · obtain rfl := Option.some.inj hb; exact hg
        · exact hfound b hb
    · exact hfound b hb

theorem plan_fits (hfree : ∀ n g, 0 ≤ (c.nodes n).gpus g) (hreq : 0 ≤ job.mpsReq)
    (h : c.plan job = some plan) : Fits c job plan := by
  unfold Cluster.plan at h
  split at h
  · obtain ⟨n, -, hn⟩ := List.exists_of_findSome?_eq_some h
    split at hn
    · obtain ⟨best, hbest, rfl⟩ := Option.map_eq_some_iff.mp hn
      exact fits_single hfree hreq (betterGpu_le _ none (by simp) best hbest) ‹_›
    · cases hn
  · dsimp only at h
    split at h
    · cases h
    · obtain rfl := Option.some.inj h
      refine (fill_fits hfree (fun n => ?_) (fun n => List.Subset.refl _) _ _ ?_).1
      · exact (List.nodup_finRange _).filter _
      · exact (List.perm_insertionSort _ _).nodup_iff.mpr (List.nodup_finRange _)

theorem planOn_fits {nodeI gpuI : Nat} (hfree : ∀ n g, 0 ≤ (c.nodes n).gpus g)
    (hreq : 0 ≤ job.mpsReq) (h : c.planOn job nodeI gpuI = some plan) : Fits c job plan := by
  unfold Cluster.planOn at h
  split at h
  swap
  · cases h
  dsimp only at h
  split at h
  · split at h
    · rename_i hfits
      obtain rfl := Option.some.inj h
      exact fits_single hfree hreq hfits.1 hfits.2
    · cases h
  · split at h
    · obtain rfl := Option.some.inj h
      have hfreeNodup : ∀ n, (c.nodes n).freeWholeGpus.Nodup := fun n =>
        (List.nodup_finRange _).filter _
      refine (fill_fits hfree (fun n => ?_) (fun n => ?_) _ _ ?_).1
      · split
        · exact List.nodup_cons.mpr ⟨by simp, (hfreeNodup n).filter _⟩
        · exact hfreeNodup n
      · split
        · rename_i hpinned
          exact List.cons_subset.mpr ⟨hpinned.2, List.filter_subset_self _⟩
        · exact List.Subset.refl _
      · exact List.nodup_cons.mpr ⟨by simp, (List.nodup_finRange _).filter _⟩
    · cases h

/-! ## The accounts -/

/-- The MPS slots and the RAM that the jobs take. -/
abbrev takenMps (pl : Placement cfg) : Fin cfg.nNodes × Fin cfg.gpusPerNode → Int :=
  taken (fun x r => usage x.plan r.1 r.2) pl

abbrev takenRam (pl : Placement cfg) : Fin cfg.nNodes → ℚ := taken ramOn pl

structure Accounts (c : Cluster cfg) (pl : Placement cfg) : Prop where
  active : c.active = pl.mapVal fun x => x.plan
  activeRam : c.activeRam = pl.mapVal fun x => x.job.ramReq
  nodup : pl.keys.Nodup
  placed : ∀ kv ∈ pl, 0 ≤ kv.2.job.ramReq ∧ ∀ n g, 0 ≤ usage kv.2.plan n g
  /-- On each GPU, the free slots and those of the jobs make up all slots. -/
  mps : ∀ n g, (c.nodes n).gpus g + takenMps pl (n, g) = cfg.mpsPerGpu
  mps_mem : ∀ n g, 0 ≤ (c.nodes n).gpus g ∧ (c.nodes n).gpus g ≤ cfg.mpsPerGpu
  /-- On each host, the used RAM is that of the jobs. -/
  ram : ∀ n, (c.nodes n).usedRamGb = takenRam pl n
  ram_le : ∀ n, (c.nodes n).usedRamGb ≤
    (c.nodes n).ramGb * cfg.ramOvercommit + 1 / 10 ^ 9
  ramGb : ∀ n, (c.nodes n).ramGb = ((Cluster.init cfg).nodes n).ramGb

theorem init_ramGb_nonneg (n : Fin cfg.nNodes) : 0 ≤ ((Cluster.init cfg).nodes n).ramGb := by
  simp only [Cluster.init]
  split
  · norm_num
  · rename_i hgiven
    have hlen : n.1 < cfg.nodeRamGb.length :=
      lt_of_lt_of_le n.2 (cfg.ram_given.resolve_left hgiven)
    rw [List.getD_eq_getElem?_getD, List.getElem?_eq_getElem hlen]
    exact cfg.ram_nonneg _ (List.getElem_mem hlen)

theorem accounts_init : Accounts (Cluster.init cfg) [] where
  active := rfl
  activeRam := rfl
  nodup := List.nodup_nil
  placed := by simp
  mps n g := add_zero _
  mps_mem n g := ⟨Int.natCast_nonneg _, le_refl _⟩
  ram n := rfl
  ram_le n := by
    have h := mul_nonneg (init_ramGb_nonneg n) cfg.overcommit_nonneg
    have : (0 : ℚ) ≤ 1 / 10 ^ 9 := by norm_num
    show (0 : ℚ) ≤ _
    linarith
  ramGb n := rfl

namespace Accounts

variable {pl : Placement cfg}

theorem mps_balanced (h : Accounts c pl) :
    Balanced (fun x (r : Fin cfg.nNodes × Fin cfg.gpusPerNode) => usage x.plan r.1 r.2)
      (fun _ => (cfg.mpsPerGpu : Int)) (fun r => (c.nodes r.1).gpus r.2) pl :=
  ⟨h.nodup, fun r => h.mps r.1 r.2⟩

theorem ram_balanced (h : Accounts c pl) :
    Balanced ramOn (fun _ => 0) (fun n => -(c.nodes n).usedRamGb) pl :=
  ⟨h.nodup, fun n => by rw [h.ram]; exact neg_add_cancel _⟩

theorem reserve (h : Accounts c pl) (hid : job.jobId ∉ pl.keys) (hram : 0 ≤ job.ramReq)
    (hfits : Fits c job plan) : Accounts (c.reserve job plan) (pl.set job.jobId ⟨job, plan⟩) := by
  have hnode := updateRam_addMps c.nodes (-1) plan (· + job.ramReq)
  have hgpus : ∀ n g, ((c.reserve job plan).nodes n).gpus g =
      (c.nodes n).gpus g - usage plan n g := fun n g => by
    rw [show (c.reserve job plan).nodes n = _ from hnode n]
    ring
  have hused : ∀ n, ((c.reserve job plan).nodes n).usedRamGb =
      (c.nodes n).usedRamGb + ramOn ⟨job, plan⟩ n := fun n => by
    rw [show (c.reserve job plan).nodes n = _ from hnode n, ramOn]
    dsimp only
    split
    · rfl
    · rw [add_zero]
  have hgb : ∀ n, ((c.reserve job plan).nodes n).ramGb = (c.nodes n).ramGb := fun n => by
    rw [show (c.reserve job plan).nodes n = _ from hnode n]
  have hmps := h.mps_balanced.take hid (v := ⟨job, plan⟩) fun r => hgpus r.1 r.2
  have hram' := h.ram_balanced.take hid (v := ⟨job, plan⟩) fun n => by
    rw [← neg_add', ← hused]
  exact {
    active := by rw [Dict.mapVal_set _ _ hid, ← h.active]; rfl
    activeRam := by rw [Dict.mapVal_set _ _ hid, ← h.activeRam]; rfl
    nodup := hmps.nodup
    placed := fun kv hkv => by
      rw [Dict.set_of_notMem hid] at hkv
      rcases List.mem_append.mp hkv with hkv | hkv
      · exact h.placed kv hkv
      · rw [List.mem_singleton.mp hkv]; exact ⟨hram, hfits.nonneg⟩
    mps := fun n g => hmps.sum (n, g)
    mps_mem := fun n g => by
      have := h.mps_mem n g
      have := hfits.nonneg n g
      have := hfits.le_free n g
      rw [hgpus]
      omega
    ram := fun n => neg_add_eq_zero.mp (hram'.sum n)
    ram_le := fun n => by
      rw [hused, hgb]
      unfold ramOn
      split
      · exact hfits.ram_ok n ‹_›
      · rw [add_zero]; exact h.ram_le n
    ramGb := fun n => (hgb n).trans (h.ramGb n) }

/-- What an allocation takes is given back. -/
theorem release_eq {jobId : String} {plan : Plan cfg} {ramReq : ℚ}
    (hactive : c.active.get? jobId = some plan) (hram : c.activeRam.get? jobId = some ramReq) :
    c.release jobId =
      { nodes := Cluster.updateRam (Cluster.addMps c.nodes 1 plan)
          (fun used => max 0 (used - ramReq)) (Cluster.hosts plan)
        active := c.active.erase jobId
        activeRam := c.activeRam.erase jobId } := by
  rw [Cluster.release, hactive, hram]
  rfl

theorem release (h : Accounts c pl) (jobId : String) :
    Accounts (c.release jobId) (pl.erase jobId) := by
  have hactive : c.active.get? jobId = (pl.get? jobId).map fun x => x.plan := by
    rw [h.active, Dict.get?_mapVal]
  cases hget : pl.get? jobId with
  | none =>
    rw [hget] at hactive
    rw [Dict.erase_of_notMem (Dict.get?_eq_none.mp hget), Cluster.release, hactive]
    exact h
  | some x =>
    have hram : c.activeRam.get? jobId = some x.job.ramReq := by
      rw [h.activeRam, Dict.get?_mapVal, hget]; rfl
    rw [hget] at hactive
    rw [release_eq hactive hram]
    have hnode := updateRam_addMps c.nodes 1 x.plan fun used => max 0 (used - x.job.ramReq)
    simp only [one_mul] at hnode
    have hx := h.placed _ (Dict.get?_mem hget)
    have hrest : ∀ kv ∈ pl.erase jobId, 0 ≤ kv.2.job.ramReq ∧ ∀ n g, 0 ≤ usage kv.2.plan n g :=
      fun kv hkv => h.placed kv (List.mem_of_mem_filter hkv)
    have hmps : Balanced _ _ (fun r : Fin cfg.nNodes × Fin cfg.gpusPerNode =>
        (Cluster.updateRam (Cluster.addMps c.nodes 1 x.plan)
          (fun used => max 0 (used - x.job.ramReq)) (Cluster.hosts x.plan) r.1).gpus r.2) _ :=
      h.mps_balanced.give hget fun r => by rw [hnode]
    -- the other jobs' RAM is not negative, so the difference is not cut off
    have hothers : ∀ n, takenRam (pl.erase jobId) n + ramOn x n = (c.nodes n).usedRamGb :=
      fun n => by rw [h.ram, takenRam, taken_erase h.nodup hget]
    have hothersNonneg : ∀ n, 0 ≤ takenRam (pl.erase jobId) n := fun n =>
      taken_nonneg fun kv hkv => ramOn_nonneg (hrest kv hkv).1 n
    have hused : ∀ n, (Cluster.updateRam (Cluster.addMps c.nodes 1 x.plan)
        (fun used => max 0 (used - x.job.ramReq)) (Cluster.hosts x.plan) n).usedRamGb =
        takenRam (pl.erase jobId) n := fun n => by
      rw [hnode, ← hothers]
      dsimp only
      unfold ramOn
      split
      · rw [add_sub_cancel_right, max_eq_right (hothersNonneg n)]
      · rw [add_zero]
    exact {
      active := by rw [Dict.mapVal_erase, ← h.active]
      activeRam := by rw [Dict.mapVal_erase, ← h.activeRam]
      nodup := hmps.nodup
      placed := hrest
      mps := fun n g => hmps.sum (n, g)
      mps_mem := fun n g => by
        have hfree : _ + takenMps (pl.erase jobId) (n, g) = cfg.mpsPerGpu := hmps.sum (n, g)
        have htaken : 0 ≤ takenMps (pl.erase jobId) (n, g) :=
          taken_nonneg fun kv hkv => (hrest kv hkv).2 n g
        have hxn : 0 ≤ usage x.plan n g := hx.2 n g
        have := h.mps_mem n g
        simp only [hnode] at hfree ⊢
        omega
      ram := hused
      ram_le := fun n => by
        have hle := h.ram_le n
        have hx' := ramOn_nonneg hx.1 n
        have := hothers n
        simp only [hused]
        simp only [hnode]
        linarith
      ramGb := fun n => by simp only [hnode]; exact h.ramGb n }

/-- A cluster with no jobs is as it was constructed. -/
theorem eq_init (h : Accounts c []) : c = Cluster.init cfg := by
  ext1
  · funext n
    ext1
    · funext g
      exact (add_zero _).symm.trans (h.mps n g)
    · exact h.ramGb n
    · exact h.ram n
  · exact h.active
  · exact h.activeRam

/-- In whatever order all jobs are released. -/
theorem release_all {ids : List String} (h : Accounts c pl) (hids : ids.Perm pl.keys) :
    ids.foldl Cluster.release c = Cluster.init cfg := by
  induction ids generalizing c pl with
  | nil =>
    obtain rfl : pl = [] := List.map_eq_nil_iff.mp (List.nil_perm.mp hids)
    exact h.eq_init
  | cons id ids ih =>
    refine ih (h.release id) ?_
    rw [Dict.keys_erase, ← h.nodup.erase_eq_filter]
    exact List.cons_perm_iff_perm_erase.mp hids |>.2

end Accounts

/-! ## Runs -/

/-- A call of the cluster. -/
inductive ClusterCall where
  | tryAllocate (job : Job)
  | tryAllocateOn (job : Job) (nodeI gpuI : Nat)
  | release (jobId : String)

namespace ClusterCall

/-- The job is not active, and asks for no negative amounts. -/
def Valid (s : Cluster cfg × Placement cfg) : ClusterCall → Prop
  | tryAllocate job | tryAllocateOn job _ _ =>
    job.jobId ∉ s.1.active.keys ∧ 0 ≤ job.mpsReq ∧ 0 ≤ job.ramReq
  | release _ => True

instance (s : Cluster cfg × Placement cfg) : DecidablePred (Valid s) := fun call => by
  cases call <;> unfold Valid <;> infer_instance

/-- An allocation for which there is no plan. -/
def Fails (s : Cluster cfg × Placement cfg) : ClusterCall → Prop
  | tryAllocate job => (s.1.tryAllocate job).1 = none
  | tryAllocateOn job nodeI gpuI => (s.1.tryAllocateOn job nodeI gpuI).1 = none
  | release _ => False

/-- The job joins the others if it was allocated. -/
def place (pl : Placement cfg) (job : Job) (r : Option (Plan cfg) × Cluster cfg) :
    Cluster cfg × Placement cfg :=
  match r.1 with
  | none => (r.2, pl)
  | some plan => (r.2, pl.set job.jobId ⟨job, plan⟩)

def step (s : Cluster cfg × Placement cfg) : ClusterCall → Cluster cfg × Placement cfg
  | tryAllocate job => place s.2 job (s.1.tryAllocate job)
  | tryAllocateOn job nodeI gpuI => place s.2 job (s.1.tryAllocateOn job nodeI gpuI)
  | release jobId => (s.1.release jobId, s.2.erase jobId)

end ClusterCall

theorem allocate_accounts {pl : Placement cfg} {p : Option (Plan cfg)} (h : Accounts c pl)
    (hid : job.jobId ∉ c.active.keys) (hram : 0 ≤ job.ramReq)
    (hfits : ∀ plan ∈ p, Fits c job plan) :
    Accounts (ClusterCall.place pl job (c.allocate job p)).1
      (ClusterCall.place pl job (c.allocate job p)).2 := by
  rw [h.active, Dict.keys_mapVal] at hid
  cases p with
  | none => exact h
  | some plan => exact h.reserve hid hram (hfits plan rfl)

theorem step_accounts {s : Cluster cfg × Placement cfg} {call : ClusterCall}
    (h : Accounts s.1 s.2) (hcall : call.Valid s) : Accounts (call.step s).1 (call.step s).2 := by
  have hfree : ∀ n g, 0 ≤ (s.1.nodes n).gpus g := fun n g => (h.mps_mem n g).1
  cases call with
  | tryAllocate job =>
    exact allocate_accounts h hcall.1 hcall.2.2 fun plan hplan => plan_fits hfree hcall.2.1 hplan
  | tryAllocateOn job nodeI gpuI =>
    exact allocate_accounts h hcall.1 hcall.2.2 fun plan hplan => planOn_fits hfree hcall.2.1 hplan
  | release jobId => exact h.release jobId

theorem allocate_fails {pl : Placement cfg} {p : Option (Plan cfg)}
    (h : (c.allocate job p).1 = none) : ClusterCall.place pl job (c.allocate job p) = (c, pl) := by
  cases p with
  | none => rfl
  | some plan => cases h

theorem step_fails {s : Cluster cfg × Placement cfg} {call : ClusterCall} (h : call.Fails s) :
    call.step s = s := by
  cases call with
  | tryAllocate job => exact allocate_fails h
  | tryAllocateOn job nodeI gpuI => exact allocate_fails h
  | release jobId => exact h.elim

/-- Along every run of calls from the cluster as constructed, the accounts
hold before each call and after the last, an allocation that fails changes
nothing, and releasing the active jobs in any order leaves the cluster as it was
constructed. -/
theorem cluster_accounts {calls : List ClusterCall}
    (h : Along (fun s call => call.step s) (fun s call => call.Valid s)
      (Cluster.init cfg, []) calls) :
    Along (fun s call => call.step s)
      (fun s call => Accounts s.1 s.2 ∧ (call.Fails s → call.step s = s))
      (Cluster.init cfg, []) calls ∧
    let s := run (fun s call => call.step s) (Cluster.init cfg, []) calls
    Accounts s.1 s.2 ∧ ∀ ids : List String, ids.Perm s.1.active.keys →
      ids.foldl Cluster.release s.1 = Cluster.init cfg := by
  have hstep : ∀ (s : Cluster cfg × Placement cfg) (call : ClusterCall),
      Accounts s.1 s.2 → call.Valid s → Accounts (call.step s).1 (call.step s).2 :=
    fun _ _ => step_accounts
  have hend := Along.reach hstep accounts_init h
  refine ⟨(Along.invariant hstep accounts_init h).mono
    fun s call hs => ⟨hs.1, step_fails⟩, hend, fun ids hids => hend.release_all ?_⟩
  rwa [hend.active, Dict.keys_mapVal] at hids

/-- A part of a GPU, three GPUs over two nodes, a job that has no room, and one
that takes the room of the first. -/
theorem cluster_accounts_four_calls :
    let cfg : Config := { nNodes := 2, gpusPerNode := 2, nodeRamGb := [62, 5], ram_given := by decide,
                          ram_nonneg := by decide, overcommit_nonneg := by decide }
    let calls : List ClusterCall := [.tryAllocate ⟨"1", 1, 25, 1⟩, .tryAllocateOn ⟨"2", 3, 100, 2⟩ 1 0,
      .tryAllocate ⟨"3", 1, 100, 1⟩, .release "1", .tryAllocateOn ⟨"3", 1, 100, 1⟩ 0 0]
    let s := run (fun s call => call.step s) (Cluster.init cfg, []) calls
    s.1.active.keys = ["2", "3"] ∧ Accounts s.1 s.2 ∧
      ["3", "2"].foldl Cluster.release s.1 = Cluster.init cfg := by
  intro cfg calls s
  have hkeys : s.1.active.keys = ["2", "3"] := by decide +kernel
  have hvalid : Along (fun s call => ClusterCall.step s call) (fun s call => call.Valid s)
      (Cluster.init cfg, []) calls := by decide +kernel
  have h := cluster_accounts hvalid
  exact ⟨hkeys, h.2.1, h.2.2 _ (by rw [hkeys]; decide)⟩

end Kelpflux.Proof.Sim
