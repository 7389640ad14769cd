import Kelpflux.Proof.Sim.Episode
import Kelpflux.Proof.Sim.Pin

/-!
# Where the running jobs are

On a cluster of one GPU a node, a job that is placed takes the GPU of each of
its hosts, once, for what it asked of each (`planOn_spread`). So the free slots
of a node are those that its jobs leave, and the jobs on its GPU those that it
hosts (`Spread.usage_eq`, `Spread.running_eq`), at every decision point of every
episode (`episode_hosted`).
-/

namespace Kelpflux.Proof.Sim

open Framework Kelpflux.Impl.Sim

/-! ## Plans -/

section Plans

variable {cfg : Config} {c : Cluster cfg} {job : Job} {plan : Plan cfg}

/-- Each host once, with its GPU, for what the job asks of each. -/
structure Spread (plan : Plan cfg) (job : Job) : Prop where
  nodup : (plan.map fun a => a.nodeId).Nodup
  gpus : ∀ a ∈ plan, a.gpuIndices = List.finRange cfg.gpusPerNode
  mps : ∀ a ∈ plan, a.mpsPerGpu = job.mpsReq

/-- The job asks for no more than a GPU, and for all of it if for several. -/
def Sized (cfg : Config) (job : Job) : Prop :=
  job.mpsReq ≤ cfg.mpsPerGpu ∧ (1 < job.gpuCount → job.mpsReq = cfg.mpsPerGpu)

/-- A node has no GPUs to choose between. -/
theorem eq_finRange {n : ℕ} (hone : n = 1) {gs : List (Fin n)} (hne : gs ≠ []) (hnodup : gs.Nodup) :
    gs = List.finRange n := by
  subst hone
  obtain ⟨g, gs', rfl⟩ := List.exists_cons_of_ne_nil hne
  have hnil : gs' = [] := by
    refine List.eq_nil_iff_forall_not_mem.mpr fun g' hg' => (List.nodup_cons.mp hnodup).1 ?_
    rwa [Subsingleton.elim g g']
  rw [hnil]
  obtain rfl : g = 0 := Subsingleton.elim _ _
  rfl

section Fill

variable {ordered : Fin cfg.nNodes → List (Fin cfg.gpusPerNode)}

/-- A fill visits each node once. -/
theorem fill_nodes (nis : List (Fin cfg.nNodes)) (needed : Int) :
    ((c.fill job ordered nis needed).1.map fun a => a.nodeId).Sublist nis := by
  induction nis generalizing needed with
  | nil => exact List.Sublist.refl _
  | cons ni nis ih =>
    unfold Cluster.fill
    split
    · exact List.nil_sublist _
    split
    · exact (ih needed).cons _
    dsimp only
    split
    · exact (ih needed).cons _
    · exact (ih _).cons_cons _

/-- And takes whole GPUs there, in their order. -/
theorem fill_whole (nis : List (Fin cfg.nNodes)) (needed : Int) :
    ∀ a ∈ (c.fill job ordered nis needed).1, 0 < needed ∧ a.mpsPerGpu = cfg.mpsPerGpu ∧
      a.gpuIndices ≠ [] ∧ a.gpuIndices.Sublist (ordered a.nodeId) := by
  induction nis generalizing needed with
  | nil => exact fun a ha => absurd ha List.not_mem_nil
  | cons ni nis ih =>
    unfold Cluster.fill
    split
    · exact fun a ha => absurd ha List.not_mem_nil
    rename_i hpos
    split
    · exact ih needed
    dsimp only
    split
    · exact ih needed
    rename_i htake
    intro a ha
    refine ⟨not_le.mp hpos, ?_⟩
    rcases List.mem_cons.mp ha with rfl | ha
    · exact ⟨rfl, htake, List.take_sublist _ _⟩
    · exact (ih _ a ha).2

end Fill

theorem pinned_nodup (n : Fin cfg.nNodes) (g : Fin cfg.gpusPerNode) (ni : Fin cfg.nNodes) :
    (pinned c n g ni).Nodup := by
  have hfree : (c.nodes ni).freeWholeGpus.Nodup := (List.nodup_finRange _).filter _
  unfold pinned
  dsimp only
  split
  · exact List.nodup_cons.mpr ⟨by simp, hfree.filter _⟩
  · exact hfree

theorem planOn_spread (hone : cfg.gpusPerNode = 1) (hsized : Sized cfg job) {nodeI gpuI : ℕ}
    (h : c.planOn job nodeI gpuI = some plan) : Spread plan job := by
  by_cases hin : nodeI < cfg.nNodes ∧ gpuI < cfg.gpusPerNode
  swap
  · rw [Cluster.planOn, dif_neg hin] at h
    cases h
  have hplan := h
  rw [planOn_eq ⟨nodeI, hin.1⟩ ⟨gpuI, hin.2⟩] at hplan
  split at hplan
  · split at hplan
    · obtain rfl := Option.some.inj hplan
      refine ⟨List.nodup_singleton _, fun a ha => ?_, fun a ha => ?_⟩
      · rw [List.mem_singleton.mp ha]
        exact eq_finRange hone (List.cons_ne_nil _ _) (List.nodup_singleton _)
      · rw [List.mem_singleton.mp ha]
    · cases hplan
  · rename_i hwhole
    split at hplan
    · obtain rfl := Option.some.inj hplan
      refine ⟨(fill_nodes _ _).nodup ((nodeOrder_perm _).nodup_iff.mpr (List.nodup_finRange _)),
        fun a ha => ?_, fun a ha => ?_⟩
      · obtain ⟨-, -, hne, hsub⟩ := fill_whole _ _ a ha
        exact eq_finRange hone hne (hsub.nodup (pinned_nodup _ _ _))
      · obtain ⟨hpos, hmps, -⟩ := fill_whole _ _ a ha
        rw [hmps]
        -- several GPUs, or one that is not shared
        by_cases hgang : 1 < job.gpuCount
        · exact (hsized.2 hgang).symm
        · have hall : ¬ job.mpsReq < cfg.mpsPerGpu := fun hlt => hwhole ⟨by omega, hlt⟩
          have := hsized.1
          omega
    · cases hplan

namespace Spread

theorem hosts_eq (h : Spread plan job) : Cluster.hosts plan = plan.map fun a => a.nodeId :=
  h.nodup.dedup

theorem count_eq (h : Spread plan job) (n : Fin cfg.nNodes) :
    (plan.countP fun a => a.nodeId = n) = if n ∈ Cluster.hosts plan then 1 else 0 := by
  rw [h.hosts_eq, ← h.nodup.count, List.count, List.countP_map]
  rfl

/-- The jobs on a GPU: the allocations of one. -/
theorem running_eq (h : Spread plan job) (n : Fin cfg.nNodes) (g : Fin cfg.gpusPerNode) :
    (plan.countP fun a => a.nodeId = n ∧ g ∈ a.gpuIndices) =
      if n ∈ Cluster.hosts plan then 1 else 0 := by
  rw [← h.count_eq n]
  refine List.countP_congr fun a ha => ?_
  simp [h.gpus a ha]

theorem usage_eq (h : Spread plan job) (n : Fin cfg.nNodes) (g : Fin cfg.gpusPerNode) :
    usage plan n g = if n ∈ Cluster.hosts plan then job.mpsReq else 0 := by
  have hsum : usage plan n g = (plan.countP fun a => a.nodeId = n) * job.mpsReq := by
    have hgpus := h.gpus
    have hmps := h.mps
    clear h
    induction plan with
    | nil => simp [usage]
    | cons a plan ih =>
      rw [usage_cons, ih (fun b hb => hgpus b (List.mem_cons_of_mem _ hb))
        (fun b hb => hmps b (List.mem_cons_of_mem _ hb)), List.countP_cons,
        hgpus a List.mem_cons_self, hmps a List.mem_cons_self, List.count_finRange]
      by_cases hn : a.nodeId = n
      · simp [hn]
        ring
      · simp [hn]
  rw [hsum, h.count_eq]
  split <;> simp

end Spread

end Plans

/-! ## Episodes -/

variable {env : EnvConfig} {jobs : List TraceJob}

/-- The cluster's jobs are the trace's, each on its hosts. -/
structure Hosted (jobs : List TraceJob) (c : Cluster env.toConfig) (pl : Placement env.toConfig) :
    Prop extends Accounts c pl where
  job : ∀ kv ∈ pl, ∃ j ∈ jobs, j.jobId = kv.1 ∧ j.toJob = kv.2.job
  spread : ∀ kv ∈ pl, Spread kv.2.plan kv.2.job

theorem hosted_init : Hosted jobs (Cluster.init env.toConfig) [] :=
  { accounts_init with
    job := fun _ hkv => absurd hkv List.not_mem_nil
    spread := fun _ hkv => absurd hkv List.not_mem_nil }

namespace Hosted

variable {c : Cluster env.toConfig} {pl : Placement env.toConfig}

theorem release (h : Hosted jobs c pl) (jobId : String) :
    Hosted jobs (c.release jobId) (pl.erase jobId) :=
  { h.toAccounts.release jobId with
    job := fun kv hkv => h.job kv (List.mem_of_mem_filter hkv)
    spread := fun kv hkv => h.spread kv (List.mem_of_mem_filter hkv) }

theorem reserve (h : Hosted jobs c pl) (hone : env.gpusPerNode = 1) {j : TraceJob} (hj : j ∈ jobs)
    (hid : j.jobId ∉ c.active.keys) (hmps : 0 ≤ j.mpsReq) (hram : 0 ≤ j.ramReq)
    (hsized : Sized env.toConfig j.toJob) {nodeI gpuI : ℕ} {plan : Plan env.toConfig}
    (hplan : c.planOn j.toJob nodeI gpuI = some plan) :
    Hosted jobs (c.reserve j.toJob plan) (pl.set j.jobId ⟨j.toJob, plan⟩) := by
  have hnew : j.toJob.jobId ∉ pl.keys := by rwa [h.active, Dict.keys_mapVal] at hid
  have haccounts := h.toAccounts.reserve hnew hram
    (planOn_fits (fun n g => (h.mps_mem n g).1) hmps hplan)
  refine { haccounts with job := fun kv hkv => ?_, spread := fun kv hkv => ?_ }
  · rw [Dict.set_of_notMem hnew] at hkv
    rcases List.mem_append.mp hkv with hkv | hkv
    · exact h.job kv hkv
    · rw [List.mem_singleton.mp hkv]
      exact ⟨j, hj, rfl, rfl⟩
  · rw [Dict.set_of_notMem hnew] at hkv
    rcases List.mem_append.mp hkv with hkv | hkv
    · exact h.spread kv hkv
    · rw [List.mem_singleton.mp hkv]
      exact planOn_spread hone hsized hplan

end Hosted

/-- What is kept along an episode. -/
def Kept (jobs : List TraceJob) (st : RunState env) : Prop := ∃ pl, Hosted jobs st.cluster pl

variable {G : Type} (num : Numeric) (rand : Random G) {st : RunState env} {s : EnvState G env}

theorem popEvent_kept (h : Kept jobs st) : Kept jobs st.popEvent := by
  unfold RunState.popEvent
  split
  · exact h
  unfold RunState.handle
  dsimp only
  split
  · exact h
  split
  · exact h
  · obtain ⟨pl, hpl⟩ := h
    exact ⟨_, hpl.release _⟩

theorem advance_kept (h : Kept jobs st) (es : List Event) : Kept jobs (RunState.advance es st) :=
  @advance_keeps _ st (Kept jobs) (fun _ => popEvent_kept) h es

theorem goOn_kept (h : Kept jobs st) (scheduled : Bool) : Kept jobs (st.goOn scheduled) :=
  @goOn_keeps _ st (Kept jobs) (fun _ => popEvent_kept) h scheduled

/-- The jobs of the trace fit a GPU each, or take whole ones. -/
structure ValidTrace (env : EnvConfig) (jobs : List TraceJob) : Prop where
  ids : (ids jobs).Nodup
  submit : ∀ j ∈ jobs, 0 ≤ j.submitTs
  nonneg : Nonneg jobs
  sized : ∀ j ∈ jobs, Sized env.toConfig j.toJob

theorem act_kept (hone : env.gpusPerNode = 1) (hvalid : ValidTrace env jobs)
    (hready : Ready jobs s.run) (h : Kept jobs s.run) (action : ℕ) : Kept jobs (s.act num rand action).1.run := by
  rcases act_cases num rand s action with
    heq | ⟨chosen, plan, t, hpending, -, ⟨nodeJ, gpuK, hplan⟩, heq⟩
  · rw [heq]
    exact h
  · rw [heq]
    have hj := hready.pending chosen hpending
    obtain ⟨hmps, hram⟩ := hvalid.nonneg chosen hj
    obtain ⟨pl, hpl⟩ := h
    exact ⟨_, hpl.reserve hone hj (hready.pending_inactive hvalid.ids hpending) hmps hram
      (hvalid.sized chosen hj) hplan⟩

theorem next_kept (hone : env.gpusPerNode = 1) (hvalid : ValidTrace env jobs)
    (hready : Ready jobs s.run) (h : Kept jobs s.run) (action : ℕ) : Kept jobs (s.next num rand action).run :=
  goOn_kept (act_kept num rand (s := { s with stepCount := s.stepCount + 1 }) hone hvalid hready h
    action) _

/-- The state after a run of actions. -/
def reached (env : EnvConfig) (seed : Option Int) (jobs : List TraceJob) (actions : List ℕ) :
    RunState env :=
  (run (fun s action => (step num rand s action).1) (reset rand env seed jobs) actions).run

theorem episode_hosted (hone : env.gpusPerNode = 1) (hvalid : ValidTrace env jobs)
    (seed : Option Int) (actions : List ℕ) :
    Ready jobs (reached num rand env seed jobs actions) ∧
      Kept jobs (reached num rand env seed jobs actions) := by
  have hstart : Ready jobs (reset rand env seed jobs).run :=
    (advance_ready (start_ready env hvalid.ids hvalid.submit) hvalid.ids _).1
  have hkept : Kept jobs (reset rand env seed jobs).run := advance_kept ⟨[], hosted_init⟩ _
  unfold reached
  generalize reset rand env seed jobs = s at hstart hkept
  induction actions generalizing s with
  | nil => exact ⟨hstart, hkept⟩
  | cons action actions ih =>
    exact ih _ (next_ready num rand hstart hvalid.ids action).1
      (next_kept num rand hone hvalid hstart hkept action)

end Kelpflux.Proof.Sim
