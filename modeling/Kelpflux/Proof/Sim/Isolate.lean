import Kelpflux.Proof.Sim.Codec
import Kelpflux.Proof.Sim.Hosted

/-!
# Jobs placed alone

An action that isolates a job is legal on a GPU that is wholly free, and
whatever the job takes is wholly free then, since a job that asks for less takes
that GPU and one that does not takes whole ones. A GPU that is wholly free has no
job (`Conserved.idle_alone`): on every GPU the free slots and those of the jobs
are at most all slots, along every episode (`Conserved`), even where jobs share
an id. So the job starts with no neighbours: `isolate_alone`.
-/

namespace Kelpflux.Proof.Sim

open Framework Kelpflux.Impl.Sim

/-! ## The slots of a cluster -/

variable {cfg : Config} {c : Cluster cfg} {job : Impl.Sim.Job} {plan : Plan cfg}

/-- The slots that the jobs take of a GPU. -/
abbrev takenSlots (c : Cluster cfg) : Fin cfg.nNodes × Fin cfg.gpusPerNode → ℤ :=
  taken (fun plan r => usage plan r.1 r.2) c.active

/-- A plan takes a slot at least of each of its GPUs. -/
def TakesSlots (plan : Plan cfg) : Prop := ∀ a ∈ plan, 1 ≤ a.mpsPerGpu

/-- The free slots and those of the jobs are at most all slots. -/
structure Conserved (c : Cluster cfg) : Prop where
  nodup : c.active.keys.Nodup
  takes : ∀ kv ∈ c.active, TakesSlots kv.2
  slots : ∀ n g, (c.nodes n).gpus g + takenSlots c (n, g) ≤ cfg.mpsPerGpu

theorem TakesSlots.amount_nonneg (h : TakesSlots plan) {a : Allocation cfg} (ha : a ∈ plan)
    (n : Fin cfg.nNodes) (g : Fin cfg.gpusPerNode) :
    0 ≤ if a.nodeId = n then (a.gpuIndices.count g : Int) * a.mpsPerGpu else 0 := by
  split
  · exact mul_nonneg (Int.natCast_nonneg _) (zero_le_one.trans (h a ha))
  · exact le_refl 0

theorem TakesSlots.usage_nonneg (h : TakesSlots plan) (n : Fin cfg.nNodes)
    (g : Fin cfg.gpusPerNode) : 0 ≤ usage plan n g := by
  refine List.sum_nonneg fun x hx => ?_
  obtain ⟨a, ha, rfl⟩ := List.mem_map.mp hx
  exact h.amount_nonneg ha n g

/-- A GPU of a plan has slots taken of it. -/
theorem TakesSlots.usage_pos (h : TakesSlots plan) {n : Fin cfg.nNodes} {g : Fin cfg.gpusPerNode}
    (hmem : Includes plan n g) : 0 < usage plan n g := by
  obtain ⟨a, ha, rfl, hg⟩ := hmem
  have hamount : 0 < (a.gpuIndices.count g : Int) * a.mpsPerGpu :=
    mul_pos (Int.natCast_pos.mpr (List.count_pos_iff.mpr hg)) (zero_lt_one.trans_le (h a ha))
  refine hamount.trans_le ?_
  have hle := List.single_le_sum (l := plan.map fun b =>
    if b.nodeId = a.nodeId then (b.gpuIndices.count g : Int) * b.mpsPerGpu else 0)
    (by
      intro x hx
      obtain ⟨b, hb, rfl⟩ := List.mem_map.mp hx
      exact h.amount_nonneg hb _ g) _ (List.mem_map_of_mem ha)
  rwa [if_pos rfl] at hle

/-- No job is on a GPU that is wholly free. -/
theorem Conserved.idle_alone (h : Conserved c) {n : Fin cfg.nNodes} {g : Fin cfg.gpusPerNode}
    (hidle : (c.nodes n).gpus g = cfg.mpsPerGpu) : ∀ kv ∈ c.active, ¬ Includes kv.2 n g := by
  intro kv hkv hmem
  have hle : usage kv.2 n g ≤ takenSlots c (n, g) :=
    List.single_le_sum (fun x hx => by
      obtain ⟨kv', hkv', rfl⟩ := List.mem_map.mp hx
      exact (h.takes kv' hkv').usage_nonneg n g) _
      (List.mem_map_of_mem (f := fun kv : String × Plan cfg => usage kv.2 n g) hkv)
  have hpos := (h.takes kv hkv).usage_pos hmem
  have := h.slots n g
  omega

theorem conserved_init : Conserved (Cluster.init cfg) where
  nodup := List.nodup_nil
  takes := fun _ hkv => absurd hkv List.not_mem_nil
  slots := fun _ _ => le_of_eq (add_zero _)

theorem Conserved.release (h : Conserved c) (jobId : String) : Conserved (c.release jobId) where
  nodup := by
    rw [release_active, Dict.keys_erase]
    exact h.nodup.filter _
  takes := by
    rw [release_active]
    exact fun kv hkv => h.takes kv (List.mem_of_mem_filter hkv)
  slots := by
    intro n g
    have hslots := h.slots n g
    unfold takenSlots at hslots ⊢
    rw [release_active]
    unfold Cluster.release
    split
    · rename_i hnone
      rwa [Dict.erase_of_notMem (Dict.get?_eq_none.mp hnone)]
    · rename_i plan hplan
      rw [← taken_erase h.nodup hplan] at hslots
      dsimp only at hslots ⊢
      rw [updateRam_addMps]
      dsimp only
      omega

theorem Conserved.reserve (h : Conserved c) (htakes : TakesSlots plan) :
    Conserved (c.reserve job plan) where
  nodup := Dict.nodup_set h.nodup _ _
  takes := by
    intro kv hkv
    rcases Dict.mem_set hkv with rfl | hkv
    · exact htakes
    · exact h.takes kv hkv
  slots := by
    intro n g
    have hslots := h.slots n g
    have hset : taken (fun plan r => usage plan r.1 r.2) (c.active.set job.jobId plan) (n, g) ≤
        taken (fun plan r => usage plan r.1 r.2) c.active (n, g) + usage plan n g :=
      taken_set_le h.nodup job.jobId plan (n, g) fun kv hkv => (h.takes kv hkv).usage_nonneg n g
    unfold takenSlots at hslots ⊢
    unfold Cluster.reserve
    dsimp only at hset ⊢
    rw [updateRam_addMps]
    dsimp only
    omega

/-! ## The planner -/

theorem planOn_takes (hslots : 0 < cfg.mpsPerGpu) (hmps : 1 ≤ job.mpsReq) {nodeI gpuI : ℕ}
    (h : c.planOn job nodeI gpuI = some plan) : TakesSlots plan := by
  by_cases hin : nodeI < cfg.nNodes ∧ gpuI < cfg.gpusPerNode
  swap
  · rw [Cluster.planOn, dif_neg hin] at h
    cases h
  rw [planOn_eq ⟨nodeI, hin.1⟩ ⟨gpuI, hin.2⟩] at h
  split at h
  · split at h
    · obtain rfl := Option.some.inj h
      intro a ha
      rwa [List.mem_singleton.mp ha]
    · cases h
  · split at h
    · obtain rfl := Option.some.inj h
      intro a ha
      rw [(fill_whole _ _ a ha).2.1]
      exact_mod_cast hslots
    · cases h

/-- On a GPU that is wholly free a plan takes none but such. -/
theorem planOn_idle {n : Fin cfg.nNodes} {g : Fin cfg.gpusPerNode}
    (hidle : (c.nodes n).gpus g = cfg.mpsPerGpu) (h : c.planOn job n g = some plan)
    {n' : Fin cfg.nNodes} {g' : Fin cfg.gpusPerNode} (hmem : Includes plan n' g') :
    (c.nodes n').gpus g' = cfg.mpsPerGpu := by
  rw [planOn_eq] at h
  split at h
  · split at h
    · obtain rfl := Option.some.inj h
      obtain ⟨a, ha, rfl, hg⟩ := hmem
      rw [List.mem_singleton.mp ha] at hg ⊢
      rwa [List.mem_singleton.mp hg]
    · cases h
  · split at h
    · obtain rfl := Option.some.inj h
      obtain ⟨a, ha, rfl, hg⟩ := hmem
      exact mem_freeWholeGpus.mp (mem_pinned ((mem_fill _ _ a ha).2 hg))
    · cases h

/-! ## Episodes -/

variable {env : EnvConfig} {G : Type} (num : Numeric) (rand : Random G) {st : RunState env}
  {s : EnvState G env}

/-- What is so of each job that is there or to come. -/
structure AllJobs (P : TraceJob → Prop) (st : RunState env) : Prop where
  pending : ∀ j ∈ st.pending, P j
  byId : ∀ kv ∈ st.byId, P kv.2

namespace AllJobs

variable {P : TraceJob → Prop}

theorem popEvent (h : AllJobs P st) : AllJobs P st.popEvent := by
  unfold RunState.popEvent
  split
  · exact h
  unfold RunState.handle
  dsimp only
  split
  · exact ⟨h.pending, h.byId⟩
  rename_i j hj
  split
  · refine ⟨fun j' hj' => ?_, h.byId⟩
    rcases List.mem_append.mp hj' with hj' | hj'
    · exact h.pending j' hj'
    · rw [List.mem_singleton.mp hj']
      exact h.byId _ (Dict.get?_mem hj)
  · exact ⟨h.pending, h.byId⟩

theorem advance (h : AllJobs P st) (es : List Event) : AllJobs P (RunState.advance es st) :=
  @advance_keeps _ st (AllJobs P) (fun _ => popEvent) h es

theorem act (h : AllJobs P s.run) (action : ℕ) : AllJobs P (s.act num rand action).1.run := by
  rcases act_cases num rand s action with heq | ⟨chosen, plan, t, -, -, -, heq⟩
  · rw [heq]
    exact h
  · rw [heq]
    exact ⟨fun j hj => h.pending j (List.mem_of_mem_erase hj), h.byId⟩

theorem next (h : AllJobs P s.run) (action : ℕ) : AllJobs P (s.next num rand action).run := by
  have hact := act num rand (s := { s with stepCount := s.stepCount + 1 }) h action
  exact @goOn_keeps _ _ (AllJobs P) (fun _ => popEvent) ⟨hact.pending, hact.byId⟩ _

end AllJobs

theorem start_allJobs {P : TraceJob → Prop} {jobs : List TraceJob} (h : ∀ j ∈ jobs, P j) :
    AllJobs P (RunState.start env jobs) where
  pending := fun _ hj => absurd hj List.not_mem_nil
  byId := by
    intro kv hkv
    obtain ⟨j, hj, rfl⟩ := List.mem_map.mp (Dict.mem_of_mem_ofList hkv)
    exact h j hj

/-- The slots are conserved, and each job that is there or to come asks for one. -/
structure SlotsKept (st : RunState env) : Prop extends AllJobs (1 ≤ ·.mpsReq) st where
  conserved : Conserved st.cluster

namespace SlotsKept

theorem popEvent (h : SlotsKept st) : SlotsKept st.popEvent := by
  refine ⟨h.toAllJobs.popEvent, ?_⟩
  unfold RunState.popEvent
  split
  · exact h.conserved
  unfold RunState.handle
  dsimp only
  split
  · exact h.conserved
  split
  · exact h.conserved
  · exact h.conserved.release _

theorem advance (h : SlotsKept st) (es : List Event) : SlotsKept (RunState.advance es st) :=
  @advance_keeps _ st SlotsKept (fun _ => popEvent) h es

theorem goOn (h : SlotsKept st) (scheduled : Bool) : SlotsKept (st.goOn scheduled) :=
  @goOn_keeps _ st SlotsKept (fun _ => popEvent) ⟨⟨h.pending, h.byId⟩, h.conserved⟩ scheduled

theorem act (hslots : 0 < env.mpsPerGpu) (h : SlotsKept s.run) (action : ℕ) :
    SlotsKept (s.act num rand action).1.run := by
  refine ⟨h.toAllJobs.act num rand action, ?_⟩
  rcases act_cases num rand s action with
    heq | ⟨chosen, plan, t, hpending, -, ⟨nodeJ, gpuK, hplan⟩, heq⟩
  · rw [heq]
    exact h.conserved
  · rw [heq]
    exact h.conserved.reserve (planOn_takes hslots (h.pending chosen hpending) hplan)

theorem next (hslots : 0 < env.mpsPerGpu) (h : SlotsKept s.run) (action : ℕ) :
    SlotsKept (s.next num rand action).run :=
  (act num rand (s := { s with stepCount := s.stepCount + 1 }) hslots h action).goOn _

end SlotsKept

theorem start_slotsKept {jobs : List TraceJob} (hmps : ∀ j ∈ jobs, 1 ≤ j.mpsReq) :
    SlotsKept (RunState.start env jobs) :=
  ⟨start_allJobs hmps, conserved_init⟩

theorem reached_slotsKept (hslots : 0 < env.mpsPerGpu) {jobs : List TraceJob}
    (hmps : ∀ j ∈ jobs, 1 ≤ j.mpsReq) (seed : Option Int) (actions : List ℕ) :
    SlotsKept (reached num rand env seed jobs actions) := by
  unfold reached
  exact run_keeps (fun s : EnvState G env => SlotsKept s.run)
    (fun _ action h => h.next num rand hslots action)
    (s := reset rand env seed jobs) ((start_slotsKept hmps).advance _) actions

/-- The neighbours that are counted are on a GPU of the plan. -/
theorem coResidents_eq_zero {jobId : String} (h : ∀ kv ∈ c.active, kv.1 ≠ jobId →
      ∀ n g, Includes plan n g → ¬ Includes kv.2 n g) : coResidents c plan jobId = 0 := by
  unfold coResidents
  dsimp only
  rw [List.length_eq_zero_iff, List.filter_eq_nil_iff]
  intro kv hkv hcounted
  obtain ⟨hne, hany⟩ := of_decide_eq_true hcounted
  obtain ⟨a, ha, hgpu⟩ := List.any_eq_true.mp hany
  obtain ⟨g, hg, hmem⟩ := List.any_eq_true.mp hgpu
  obtain ⟨b, hb, hpair⟩ := List.mem_flatMap.mp (of_decide_eq_true hmem)
  obtain ⟨g', hg', heq⟩ := List.mem_map.mp hpair
  obtain ⟨hn, rfl⟩ := Prod.mk.inj heq
  exact h kv hkv hne a.nodeId g' ⟨b, hb, hn, hg'⟩ ⟨a, ha, rfl, hg⟩

/-- In every state that is reached, a job that is isolated is alone on all that
it is placed on. -/
theorem isolate_alone (env : EnvConfig) (seed : Option Int) (jobs : List TraceJob)
    (hslots : 0 < env.mpsPerGpu) (hmps : ∀ j ∈ jobs, 1 ≤ j.mpsReq) (actions : List ℕ)
    {action : ℕ}
    (hlegal : (actionMask (reached num rand env seed jobs actions))[action]? = some true)
    (hmode : (decode env action).2.2.2 = 1) :
    ∃ job plan cluster,
      (reached num rand env seed jobs actions).topKJobs[(decode env action).1]? = some job ∧
      (reached num rand env seed jobs actions).cluster.tryAllocateOn job.toJob
        (decode env action).2.1 (decode env action).2.2.1 = (some plan, cluster) ∧
      (∀ kv ∈ cluster.active, kv.1 ≠ job.jobId →
        ∀ n g, Includes plan n g → ¬ Includes kv.2 n g) ∧
      coResidents cluster plan job.jobId = 0 := by
  have hkept := reached_slotsKept num rand hslots hmps seed actions
  generalize reached num rand env seed jobs actions = st at hlegal hkept ⊢
  have hlt : action < env.nActions := by
    by_contra hge
    rw [mask_length_le (not_lt.mp hge)] at hlegal
    cases hlegal
  have hmem : action ∈ legalActions st := by
    refine ((mask_getElem hlt).mp hlegal).resolve_left fun hnoOp => ?_
    -- the no-op is a multiple of the modes
    have hrem : env.noOp % env.nModes = 0 := by
      rw [noOp_eq, perJob, ← Nat.mul_assoc, Nat.mul_mod_left]
    have hone : action % env.nModes = 1 := hmode
    rw [hnoOp, hrem] at hone
    cases hone
  obtain ⟨i, job, hjob, nj, gk, mode, hmodes, hdecode⟩ := decode_legal hmem
  rw [hdecode] at hmode ⊢
  obtain ⟨hcan, -, hidle⟩ := mem_legalModes_iff.mp hmodes
  obtain ⟨plan, hplan⟩ := Option.isSome_iff_exists.mp hcan
  have hidle := hidle.resolve_left (not_not.mpr hmode)
  have halone : ∀ kv ∈ (st.cluster.reserve job.toJob plan).active, kv.1 ≠ job.jobId →
      ∀ n g, Includes plan n g → ¬ Includes kv.2 n g := by
    intro kv hkv hne n g hincludes
    rcases Dict.mem_set hkv with rfl | hkv
    · exact absurd rfl hne
    · exact hkept.conserved.idle_alone (planOn_idle hidle hplan hincludes) kv hkv
  refine ⟨job, plan, st.cluster.reserve job.toJob plan, hjob, ?_, halone,
    coResidents_eq_zero halone⟩
  unfold Cluster.tryAllocateOn
  rw [hplan]
  rfl

/-- Two GPUs that jobs can share. -/
def sharedPair : EnvConfig where
  nNodes := 1
  gpusPerNode := 2
  topK := 2
  interference := 1
  colocationActions := true
  ram_given := no_speeds
  ram_nonneg := Config.no_ram_nonneg
  overcommit_nonneg := Config.one_nonneg
  speeds_given := no_speeds
  types_given := no_types

def halves : List TraceJob :=
  [⟨⟨"a", 1, 50, 1⟩, "rtx4070", 0, 60, "batch", 0⟩, ⟨⟨"b", 1, 50, 1⟩, "rtx4070", 0, 60, "batch", 0⟩]

/-- The first job is packed on the first GPU, the second isolated on the other. -/
theorem isolate_alone_halves :
    let st := reached linear still sharedPair none halves [0]
    0 < sharedPair.mpsPerGpu ∧ (∀ j ∈ halves, 1 ≤ j.mpsReq) ∧ (actionMask st)[3]? = some true ∧
      (decode sharedPair 3).2.2.2 = 1 ∧
      ∃ job plan cluster, st.topKJobs[(decode sharedPair 3).1]? = some job ∧
        st.cluster.tryAllocateOn job.toJob (decode sharedPair 3).2.1 (decode sharedPair 3).2.2.1
          = (some plan, cluster) ∧
        (∀ kv ∈ cluster.active, kv.1 ≠ job.jobId →
          ∀ n g, Includes plan n g → ¬ Includes kv.2 n g) ∧
        coResidents cluster plan job.jobId = 0 := by
  intro st
  have hlegal : (actionMask st)[3]? = some true := by decide +kernel
  exact ⟨by decide, by decide, hlegal, by decide,
    isolate_alone linear still sharedPair none halves (by decide) (by decide) [0] hlegal (by decide)⟩

end Kelpflux.Proof.Sim
