import Kelpflux.Impl.Scheduler.LiveDaemon
import Kelpflux.Proof.Scheduler.Act
import Kelpflux.Proof.Scheduler.Parity
import Kelpflux.Proof.Sim.Capacity

/-!
# Three action masks

The environment's mask, the policy server's and the live daemon's, of one
simulator state. Each says of a job shown and a GPU whether the job may go
there (`sim_legal`, `serve_legal`, `live_legal`), and two masks are equal just
where they say the same (`maskOf_eq_iff`).
-/

namespace Kelpflux.Proof.Scheduler

open Framework Framework.Python Impl.Sim Impl.Scheduler Proof.Sim

/-! ## The mirrored states -/

variable {env : EnvConfig}

def liveJob (j : TraceJob) (state nodelist : String) : LiveDaemon.LiveJob where
  jobId := j.jobId
  mpsReq := j.mpsReq
  gpuCount := j.gpuCount
  gpuType := j.gpuType
  runtime := j.runtime
  submitTs := j.submitTs
  state := state
  nodelist := nodelist
  jobClass := j.jobClass
  sloS := j.sloS
  ramReq := j.ramReq

/-- The pending jobs as the daemon lists them. -/
def livePending (st : RunState env) : List LiveDaemon.LiveJob :=
  st.pending.map fun j => liveJob j "PENDING" ""

/-- The running jobs as the daemon lists them, each with the nodes it runs on. -/
def liveRunning (names : Fin env.nNodes → String) (st : RunState env) : List LiveDaemon.LiveJob :=
  st.cluster.active.filterMap fun kv => (st.byId.get? kv.1).map fun j =>
    liveJob j "RUNNING" (joinComma ((Cluster.hosts kv.2).map names))

/-- The jobs that the services show. -/
def shown (st : RunState env) : List TraceJob := (bySubmitTs st.pending).take Impl.Sim.topK

def serveMask (st : RunState env) : List Bool :=
  (mirror env st.cluster st.pending st.now).mask Serve.ltRat

def liveMask (names : Fin env.nNodes → String) (st : RunState env) : List Bool :=
  LiveDaemon.mask names env.gpusPerNode env.mpsPerGpu (livePending st) (liveRunning names st)

/-! ## What each mask says -/

/-- Job `i` of a list may go to a GPU. -/
def May {n g : ℕ} (jobs : List TraceJob) (fits : TraceJob → Fin n → Fin g → Prop) (i : ℕ)
    (nj : Fin n) (gk : Fin g) : Prop :=
  ∃ j, jobs[i]? = some j ∧ fits j nj gk

theorem may_lt {n g k i : ℕ} {jobs : List TraceJob} {fits : TraceJob → Fin n → Fin g → Prop}
    {nj : Fin n} {gk : Fin g} (h : May (jobs.take k) fits i nj gk) : i < k := by
  obtain ⟨j, hj, -⟩ := h
  obtain ⟨hlt, -⟩ := List.getElem?_eq_some_iff.mp hj
  rw [List.length_take] at hlt
  omega

theorem may_iff {n g : ℕ} {jobs : List TraceJob} {fits fits' : TraceJob → Fin n → Fin g → Prop} :
    (∀ i nj gk, May jobs fits i nj gk ↔ May jobs fits' i nj gk) ↔
      ∀ j ∈ jobs, ∀ nj gk, fits j nj gk ↔ fits' j nj gk := by
  constructor
  · intro h j hj nj gk
    obtain ⟨i, hi⟩ := List.mem_iff_getElem?.mp hj
    have hmay : ∀ fits : TraceJob → Fin n → Fin g → Prop, May jobs fits i nj gk ↔ fits j nj gk := by
      intro fits
      simp [May, hi]
    rw [← hmay fits, ← hmay fits']
    exact h i nj gk
  · intro h i nj gk
    unfold May
    apply exists_congr
    intro j
    rw [and_congr_right_iff]
    intro hj
    exact h j (List.mem_of_getElem? hj) nj gk

/-- The environment: the cluster can allocate the job there. -/
theorem sim_legal (hmode : env.colocationActions = false) (st : RunState env) :
    Encodes (legalActions st)
      (May st.topKJobs fun j (nj : Fin env.nNodes) (gk : Fin env.gpusPerNode) =>
        st.cluster.canAllocateOn j.toJob nj gk) := by
  have hmodes : env.nModes = 1 := by simp [EnvConfig.nModes, hmode]
  intro a
  simp only [legalActions, legalModes, List.mem_flatMap, List.mem_range, May, encode, hmodes,
    slot, EnvConfig.nPlacements]
  constructor
  · rintro ⟨i, -, h⟩
    split at h
    · exact absurd h (by simp)
    rename_i job hjob
    simp only [List.mem_flatMap, List.mem_finRange, true_and, List.mem_map] at h
    obtain ⟨nj, gk, mode, hmode, rfl⟩ := h
    split at hmode
    · rename_i hcan
      obtain ⟨hone, -⟩ := List.mem_filter.mp hmode
      have hzero : mode = 0 := by simpa using hone
      exact ⟨i, nj, gk, ⟨job, hjob, hcan⟩, by rw [hzero]; ring⟩
    · exact absurd hmode (by simp)
  · rintro ⟨i, nj, gk, ⟨job, hjob, hcan⟩, rfl⟩
    obtain ⟨hlt, -⟩ := List.getElem?_eq_some_iff.mp hjob
    refine ⟨i, hlt, ?_⟩
    rw [hjob]
    simp only [List.mem_flatMap, List.mem_finRange, true_and, List.mem_map]
    refine ⟨nj, gk, 0, ?_, by ring⟩
    rw [if_pos hcan]
    simp

/-- The server: the GPU has the slots. -/
theorem serve_legal (st : RunState env) :
    Encodes ((mirror env st.cluster st.pending st.now).feasible Serve.ltRat)
      (May (shown st) fun j (nj : Fin env.nNodes) (gk : Fin env.gpusPerNode) =>
        j.mpsReq ≤ (st.cluster.nodes nj).gpus gk) := by
  have hget : ∀ i : ℕ, ((mirror env st.cluster st.pending st.now).pendingSorted Serve.ltRat)[i]?
      = (shown st)[i]?.map jobView := by
    intro i
    rw [pendingSorted_mirror, List.getElem?_map]
    rfl
  intro a
  rw [mem_feasible]
  constructor
  · rintro ⟨i, nj, gk, j, gpu, h, rfl⟩
    have hview := (hget i).symm.trans h.job
    obtain ⟨job, hjob, rfl⟩ := Option.map_eq_some_iff.mp hview
    have hgpu := (gpu?_mirror st.cluster st.pending st.now nj gk).symm.trans h.listed
    obtain rfl := Option.some.inj hgpu
    exact ⟨i, nj, gk, ⟨job, hjob, h.slots⟩, rfl⟩
  · rintro ⟨i, nj, gk, ⟨job, hjob, hfit⟩, rfl⟩
    refine ⟨i, nj, gk, jobView job, gpuView env st.cluster nj gk, ?_, rfl⟩
    exact {
      job := by rw [hget, hjob]; rfl
      canFit := rfl
      eligible := fun is his => by cases his
      listed := gpu?_mirror st.cluster st.pending st.now nj gk
      slots := hfit }

/-- The slots that the daemon counts as free on a node's GPUs: those of the
running jobs that name the node are taken off one after the other. -/
def left (names : Fin env.nNodes → String) (running : List LiveDaemon.LiveJob)
    (nj : Fin env.nNodes) : Int :=
  running.foldl (fun free rj =>
    if LiveDaemon.named rj (names nj) then max 0 (free - rj.mpsReq) else free) env.mpsPerGpu

theorem reconstruct_gpus (names : Fin env.nNodes → String) (running : List LiveDaemon.LiveJob)
    (nj : Fin env.nNodes) (gk : Fin env.gpusPerNode) :
    ((LiveDaemon.reconstructSimCluster names env.gpusPerNode env.mpsPerGpu running).nodes nj).gpus gk
      = left names running nj := by
  have hstep : ∀ (c : Cluster (LiveDaemon.simConfig names env.gpusPerNode env.mpsPerGpu).toConfig)
      (rj : LiveDaemon.LiveJob),
      ((LiveDaemon.addRunning names env.gpusPerNode env.mpsPerGpu c rj).nodes nj).gpus gk
        = if LiveDaemon.named rj (names nj) then max 0 ((c.nodes nj).gpus gk - rj.mpsReq)
          else (c.nodes nj).gpus gk := by
    intro c rj
    have hhit : nj ∈ (List.finRange env.nNodes).filter (fun k => LiveDaemon.named rj (names k))
        ↔ LiveDaemon.named rj (names nj) = true := by
      simp
    unfold LiveDaemon.addRunning
    dsimp only
    split
    · rename_i hnil
      rw [hnil] at hhit
      rw [if_neg (by simpa using hhit)]
    · simp only [hhit]
      split <;> rfl
  unfold LiveDaemon.reconstructSimCluster left
  have hfold : ∀ c : Cluster (LiveDaemon.simConfig names env.gpusPerNode env.mpsPerGpu).toConfig,
      ((running.foldl (LiveDaemon.addRunning names env.gpusPerNode env.mpsPerGpu) c).nodes nj).gpus gk
        = running.foldl (fun free rj =>
          if LiveDaemon.named rj (names nj) then max 0 (free - rj.mpsReq) else free)
          ((c.nodes nj).gpus gk) := by
    induction running with
    | nil => exact fun _ => rfl
    | cons rj running ih =>
      intro c
      rw [List.foldl_cons, List.foldl_cons, ih, hstep]
  exact hfold _

theorem live_top (st : RunState env) : LiveDaemon.top (livePending st) = shown st := by
  have hjobs : (livePending st).map LiveDaemon.liveToSimJob = st.pending := by
    rw [livePending, List.map_map]
    exact List.map_id _
  rw [LiveDaemon.top, hjobs, shown]

/-- The daemon: the GPU has the slots, as the daemon counts them. -/
theorem live_legal (names : Fin env.nNodes → String) (st : RunState env) :
    Encodes (LiveDaemon.feasible names env.gpusPerNode env.mpsPerGpu (livePending st)
        (liveRunning names st))
      (May (shown st) fun j (nj : Fin env.nNodes) (_ : Fin env.gpusPerNode) =>
        j.mpsReq ≤ left names (liveRunning names st) nj) := by
  intro a
  simp only [LiveDaemon.feasible, live_top, List.mem_flatMap, List.mem_range, May]
  constructor
  · rintro ⟨i, -, h⟩
    cases hj : (shown st)[i]? with
    | none => simp [hj] at h
    | some j =>
      rw [hj] at h
      obtain ⟨(nj : Fin env.nNodes), -, h⟩ := List.mem_flatMap.mp h
      obtain ⟨(gk : Fin env.gpusPerNode), -, h⟩ := List.mem_filterMap.mp h
      rw [reconstruct_gpus names (liveRunning names st) nj gk] at h
      split at h
      · rename_i hfit
        exact ⟨i, nj, gk, ⟨j, hj, hfit⟩, (Option.some.inj h).symm⟩
      · exact absurd h (by simp)
  · rintro ⟨i, nj, gk, ⟨j, hj, hfit⟩, rfl⟩
    obtain ⟨hlt, -⟩ := List.getElem?_eq_some_iff.mp hj
    refine ⟨i, hlt, ?_⟩
    rw [hj]
    refine List.mem_flatMap.mpr ⟨nj, List.mem_finRange nj, ?_⟩
    refine List.mem_filterMap.mpr ⟨gk, List.mem_finRange gk, ?_⟩
    rw [reconstruct_gpus names (liveRunning names st) nj gk, if_pos hfit]
    rfl

/-! ## When the masks agree -/

/-- Where the three masks agree, of the jobs that the services show. -/
structure MasksAgree (names : Fin env.nNodes → String) (st : RunState env) : Prop where
  /-- The environment's actions are as many as the services'. -/
  window : env.topK * (env.nNodes * env.gpusPerNode) = Impl.Sim.topK * (env.nNodes * env.gpusPerNode)
  /-- No node lacks the RAM for a part of a GPU that is free there. -/
  fractional : ∀ j ∈ shown st, Cluster.fractional env.toConfig j.toJob →
    ∀ (nj : Fin env.nNodes) (gk : Fin env.gpusPerNode),
      j.mpsReq ≤ (st.cluster.nodes nj).gpus gk → st.cluster.ramOk nj j.ramReq
  /-- A job of whole GPUs finds its slots free on every GPU of the cluster or
  on none, as there are enough GPUs for it or not. -/
  whole : ∀ j ∈ shown st, ¬ Cluster.fractional env.toConfig j.toJob →
    ∀ (nj : Fin env.nNodes) (gk : Fin env.gpusPerNode),
      (j.mpsReq ≤ (st.cluster.nodes nj).gpus gk ↔ j.gpuCount ≤ wholeGpus st.cluster j.toJob)
  /-- The slots that the daemon counts are as good as those that are free. -/
  live : ∀ j ∈ shown st, ∀ (nj : Fin env.nNodes) (gk : Fin env.gpusPerNode),
    (j.mpsReq ≤ left names (liveRunning names st) nj ↔ j.mpsReq ≤ (st.cluster.nodes nj).gpus gk)

theorem sim_eq_serve_iff (hmode : env.colocationActions = false) (st : RunState env) :
    actionMask st = serveMask st ↔
      env.topK * (env.nNodes * env.gpusPerNode) = Impl.Sim.topK * (env.nNodes * env.gpusPerNode) ∧
      ∀ i (nj : Fin env.nNodes) (gk : Fin env.gpusPerNode),
        May st.topKJobs (fun j nj gk => st.cluster.canAllocateOn j.toJob nj gk) i nj gk ↔
          May (shown st) (fun j nj gk => j.mpsReq ≤ (st.cluster.nodes nj).gpus gk) i nj gk := by
  have hactions : env.nActions = env.topK * (env.nNodes * env.gpusPerNode) + 1 := by
    simp only [EnvConfig.nActions, EnvConfig.nModes, hmode, Bool.false_eq_true, if_false]
    ring
  have hmask : actionMask st = maskOf (env.topK * (env.nNodes * env.gpusPerNode) + 1)
      (legalActions st) := by
    rw [← hactions]
    rfl
  rw [hmask]
  exact maskOf_eq_iff (sim_legal hmode st) (serve_legal st) (fun _ _ _ => may_lt)
    fun _ _ _ => may_lt

theorem serve_eq_live_iff (names : Fin env.nNodes → String) (st : RunState env) :
    serveMask st = liveMask names st ↔
      ∀ j ∈ shown st, ∀ (nj : Fin env.nNodes) (gk : Fin env.gpusPerNode),
        (j.mpsReq ≤ (st.cluster.nodes nj).gpus gk
          ↔ j.mpsReq ≤ left names (liveRunning names st) nj) := by
  have h := maskOf_eq_iff (k := Impl.Sim.topK) (serve_legal st) (live_legal names st)
    (fun _ _ _ => may_lt) fun _ _ _ => may_lt
  rw [may_iff] at h
  exact h.trans (and_iff_right rfl)

/-- The three masks are equal just where the free slots alone decide. -/
theorem masks_eq_iff (hmode : env.colocationActions = false) (names : Fin env.nNodes → String)
    (st : RunState env) :
    (actionMask st = serveMask st ∧ serveMask st = liveMask names st) ↔ MasksAgree names st := by
  rw [sim_eq_serve_iff hmode, serve_eq_live_iff]
  constructor
  · rintro ⟨⟨hwindow, hsim⟩, hlive⟩
    have hfits : ∀ j ∈ shown st, ∀ (nj : Fin env.nNodes) (gk : Fin env.gpusPerNode),
        st.cluster.canAllocateOn j.toJob nj gk ↔ j.mpsReq ≤ (st.cluster.nodes nj).gpus gk := by
      intro j hj nj gk
      have hpos : 0 < env.nNodes * env.gpusPerNode := Nat.mul_pos (Fin.pos nj) (Fin.pos gk)
      have htop : st.topKJobs = shown st := by
        unfold RunState.topKJobs shown
        rw [Nat.eq_of_mul_eq_mul_right hpos hwindow]
      rw [htop] at hsim
      exact may_iff.mp hsim j hj nj gk
    constructor
    · exact hwindow
    · intro j hj hfrac nj gk hslots
      have hcan := (hfits j hj nj gk).mpr hslots
      rw [canAllocateOn_iff, if_pos hfrac] at hcan
      exact hcan.2
    · intro j hj hfrac nj gk
      rw [← hfits j hj nj gk, canAllocateOn_iff, if_neg hfrac]
    · intro j hj nj gk
      exact (hlive j hj nj gk).symm
  · intro h
    refine ⟨⟨h.window, fun i nj gk => ?_⟩, fun j hj nj gk => (h.live j hj nj gk).symm⟩
    have hpos : 0 < env.nNodes * env.gpusPerNode := Nat.mul_pos (Fin.pos nj) (Fin.pos gk)
    have htop : st.topKJobs = shown st := by
      unfold RunState.topKJobs shown
      rw [Nat.eq_of_mul_eq_mul_right hpos h.window]
    rw [htop]
    refine may_iff.mpr (fun j hj nj gk => ?_) i nj gk
    rw [canAllocateOn_iff]
    split
    · rename_i hfrac
      exact and_iff_left_of_imp (h.fractional j hj hfrac nj gk)
    · rename_i hfrac
      exact (h.whole j hj hfrac nj gk).symm

/-! ## Two states -/

def smallJob : TraceJob where
  jobId := "small"
  gpuCount := 1
  mpsReq := 50
  ramReq := 1
  gpuType := "rtx4070"
  submitTs := 0
  runtime := 60

/-- Two nodes with one GPU each. -/
def twoGpus : EnvConfig :=
  { oneGpu with
    nNodes := 2
    ram_given := Or.inl rfl
    speeds_given := Or.inl rfl
    types_given := Or.inl rfl }

def largeJob : TraceJob := { smallJob with jobId := "large", mpsReq := 75 }

/-- The small job runs on the second node, where the pending job does not fit beside
it but its like does. -/
def halfBusy : RunState twoGpus :=
  { RunState.start twoGpus [smallJob, largeJob] with
    cluster := ((Cluster.init _).tryAllocateOn smallJob.toJob 1 0).2
    pending := [largeJob, { smallJob with jobId := "like" }] }

def pairNames (n : Fin twoGpus.nNodes) : String := if n.val = 0 then "node-1" else "node-2"

theorem halfBusy_agree : MasksAgree pairNames halfBusy where
  window := rfl
  fractional := by decide +kernel
  whole := by decide +kernel
  live := by decide +kernel

theorem halfBusy_masks :
    actionMask halfBusy = serveMask halfBusy ∧ serveMask halfBusy = liveMask pairNames halfBusy :=
  (masks_eq_iff rfl pairNames halfBusy).mpr halfBusy_agree

def gangJob : TraceJob := { smallJob with jobId := "gang", gpuCount := 2, mpsReq := 100 }

/-- The small job runs on the second node, and a job of two GPUs is pending. -/
def gangWaits : RunState twoGpus :=
  { RunState.start twoGpus [smallJob, gangJob] with
    cluster := ((Cluster.init _).tryAllocateOn smallJob.toJob 1 0).2
    pending := [gangJob] }

/-- The server lets the job of two GPUs go to the one that is free. -/
theorem gang_masks_differ : actionMask gangWaits ≠ serveMask gangWaits := by
  decide +kernel

end Kelpflux.Proof.Scheduler
