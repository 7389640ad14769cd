import Kelpflux.Framework.Shaping
import Kelpflux.Proof.Sim.Episode

/-!
# What shaping adds to an episode's reward

A step adds the discounted potential of the state that it leads to, less that of
the state it was taken in (`added_eq`). When an episode has terminated no job is
pending, and every job has given its slots back (`Slots`), so that its last
potential is zero; what is left of the sum is the potential of the state after
the reset: `shaping_telescopes`.
-/

namespace Kelpflux.Proof.Sim

open Framework Kelpflux.Impl.Sim

variable {env : EnvConfig}

/-! ## The slots of a run -/

/-- The free slots and those of the live allocations make up all slots. -/
def Slots {cfg : Config} (c : Cluster cfg) : Prop :=
  Balanced (fun (plan : Plan cfg) (r : Fin cfg.nNodes × Fin cfg.gpusPerNode) => usage plan r.1 r.2)
    (fun _ => (cfg.mpsPerGpu : Int)) (fun r => (c.nodes r.1).gpus r.2) c.active

section Slots

variable {cfg : Config} {c : Cluster cfg}

theorem slots_init : Slots (Cluster.init cfg) := Balanced.start _ _

theorem slots_reserve (h : Slots c) {job : Job} (hid : job.jobId ∉ c.active.keys)
    (plan : Plan cfg) : Slots (c.reserve job plan) := by
  refine h.take hid fun r => ?_
  have hnode := updateRam_addMps c.nodes (-1) plan (· + job.ramReq) r.1
  show (Cluster.updateRam _ _ _ _).gpus r.2 = _
  rw [hnode]
  ring

theorem slots_release (h : Slots c) (jobId : String) : Slots (c.release jobId) := by
  unfold Cluster.release
  split
  · exact h
  rename_i plan hplan
  refine h.give hplan fun r => ?_
  have hnode := updateRam_addMps c.nodes 1 plan
    (fun used => max 0 (used - (c.activeRam.get? jobId).getD 0)) r.1
  show (Cluster.updateRam _ _ _ _).gpus r.2 = _
  rw [hnode]
  ring

/-- With no allocation left, every slot is free. -/
theorem slots_empty (h : Slots c) (hempty : c.active = []) (n : Fin cfg.nNodes)
    (g : Fin cfg.gpusPerNode) : (c.nodes n).gpus g = cfg.mpsPerGpu := by
  have hall := h.sum (n, g)
  rw [hempty] at hall
  exact (add_zero _).symm.trans hall

end Slots

variable {jobs : List TraceJob} {st : RunState env}

theorem popEvent_slots (h : Slots st.cluster) : Slots st.popEvent.cluster := by
  unfold RunState.popEvent
  split
  · exact h
  unfold RunState.handle
  dsimp only
  split
  · exact h
  split
  · exact h
  · exact slots_release h _

theorem advance_slots (h : Slots st.cluster) (es : List Event) :
    Slots (RunState.advance es st).cluster :=
  @advance_keeps _ st (fun st => Slots st.cluster) (fun _ => popEvent_slots) h es

theorem goOn_slots (h : Slots st.cluster) (scheduled : Bool) :
    Slots (st.goOn scheduled).cluster :=
  @goOn_keeps _ st (fun st => Slots st.cluster) (fun _ => popEvent_slots) h scheduled

section Step

variable {G : Type} (num : Numeric) (rand : Random G) {s : EnvState G env}

theorem act_slots (hready : Ready jobs s.run) (hids : (ids jobs).Nodup)
    (h : Slots s.run.cluster) (action : ℕ) : Slots (s.act num rand action).1.run.cluster := by
  rcases act_cases num rand s action with
    heq | ⟨chosen, plan, t, hpending, -, -, heq⟩
  · rw [heq]
    exact h
  · rw [heq]
    exact slots_reserve h (hready.pending_inactive hids hpending) plan

theorem next_slots (hready : Ready jobs s.run) (hids : (ids jobs).Nodup)
    (h : Slots s.run.cluster) (action : ℕ) : Slots (s.next num rand action).run.cluster := by
  have hact := act_slots num rand (s := { s with stepCount := s.stepCount + 1 }) hready hids h action
  exact goOn_slots hact _

/-! ## The potential of a terminated episode -/

theorem variance_const {c : Int} (n : ℕ) {mean : ℚ} (hmean : mean = c) :
    variance (List.replicate n c) mean = 0 := by
  subst hmean
  unfold variance
  rw [List.sum_eq_zero, zero_div]
  intro x hx
  obtain ⟨y, hy, rfl⟩ := List.mem_map.mp hx
  obtain ⟨z, hz, hyz⟩ := List.mem_flatMap.mp hy
  rw [List.mem_singleton.mp hyz, List.eq_of_mem_replicate hz]
  simp

theorem freeMpsPerNode_full {c : Cluster env.toConfig}
    (h : ∀ n g, (c.nodes n).gpus g = env.mpsPerGpu) :
    freeMpsPerNode c = List.replicate env.nNodes (env.gpusPerNode * env.mpsPerGpu : Int) := by
  have hnode : ∀ n, (c.nodes n).freeMpsTotal = (env.gpusPerNode * env.mpsPerGpu : Int) := by
    intro n
    unfold Node.freeMpsTotal
    rw [funext (h n)]
    simp
  unfold freeMpsPerNode
  rw [funext hnode, List.map_const', List.length_finRange]

variable {num}

/-- Nodes with equally many free slots are in balance. -/
theorem imbalance_full (hsqrt : num.sqrt 0 = 0) {c : Cluster env.toConfig}
    (h : ∀ n g, (c.nodes n).gpus g = env.mpsPerGpu) : imbalance num c = 0 := by
  unfold imbalance
  dsimp only
  rw [freeMpsPerNode_full h]
  split
  · rfl
  rename_i hlen
  have hpos : (env.nNodes : ℚ) ≠ 0 := by
    rw [List.length_replicate] at hlen
    exact Nat.cast_ne_zero.mpr (by omega)
  rw [variance_const, hsqrt, zero_div]
  rw [List.sum_replicate, List.length_replicate, nsmul_eq_mul]
  push_cast
  field_simp

/-- A state in which an episode has terminated has no potential, neither of
waiting jobs nor of the nodes' balance. -/
theorem potential_terminated (hsqrt : num.sqrt 0 = 0) (h : Ready jobs st)
    (hslots : Slots st.cluster) (hdone : st.terminated = true) :
    st.pending = [] ∧ imbalance num st.cluster = 0 ∧ potential num st = 0 := by
  have hall := terminated_done h hdone
  have hbalance := imbalance_full hsqrt (slots_empty hslots hall.active)
  refine ⟨hall.pending, hbalance, ?_⟩
  unfold potential
  rw [hall.pending, hbalance]
  simp

/-! ## What a step adds -/

variable (num)

/-- The reward of a step, of its action, the jobs that end and the jobs left at
the end of the episode. -/
def plainReward (s : EnvState G env) (action : ℕ) : ℚ :=
  let s' := s.next num rand action
  let st := s'.run
  let rPlace := ({ s with stepCount := s.stepCount + 1 }.act num rand action).2.1
  let endCharge := if st.terminated ∨ decide (s'.stepCount ≥ env.maxSteps) then
      -(st.pending.map fun j => (st.now - j.submitTs) / env.rewardScale).sum else 0
  match env.rewardMode with
  | .mo => st.completionReward
  | .jctAligned => rPlace + st.completionReward + endCharge

/-- What `step` adds to it. -/
def added (s : EnvState G env) (action : ℕ) : ℚ :=
  (step num rand s action).2.reward - plainReward num rand s action

/-- The reward is shaped. -/
def Shaped (env : EnvConfig) : Prop := env.potentialShaping = true ∨ 0 < env.balanceCoef

instance : Decidable (Shaped env) := by unfold Shaped; infer_instance

theorem added_eq (s : EnvState G env) (action : ℕ) : added num rand s action =
    if Shaped env then
      99 / 100 * potential num (step num rand s action).1.run - potential num s.run
    else 0 := by
  have hreward : (step num rand s action).2.reward = if Shaped env then
      plainReward num rand s action +
        (99 / 100 * potential num (step num rand s action).1.run - potential num s.run)
      else plainReward num rand s action := rfl
  unfold added
  rw [hreward]
  split
  · ring
  · exact sub_self _

/-- In every episode that terminates, whatever its actions are, the discounted
sum of what shaping adds is the potential after the reset, taken away; the
potential at the end is zero. -/
theorem shaping_telescopes (env : EnvConfig) (hsqrt : num.sqrt 0 = 0) (seed : Option Int)
    (jobs : List TraceJob) (hids : (ids jobs).Nodup) (hsubmit : ∀ j ∈ jobs, 0 ≤ j.submitTs)
    (actions : List ℕ) :
    let next := fun s action => (step num rand s action).1
    let start := reset rand env seed jobs
    let last := (run next start actions).run
    last.terminated = true →
      discounted (99 / 100) (gains next (added num rand) start actions)
          = (if Shaped env then -potential num start.run else 0) ∧
        last.pending = [] ∧ imbalance num last.cluster = 0 ∧ potential num last = 0 := by
  intro next start last hdone
  have hstart : Ready jobs start.run ∧ Slots start.run.cluster :=
    ⟨(advance_ready (start_ready env hids hsubmit) hids _).1, advance_slots slots_init _⟩
  have hrun : Ready jobs last ∧ Slots last.cluster :=
    run_keeps (fun s : EnvState G env => Ready jobs s.run ∧ Slots s.run.cluster)
      (fun s action hs =>
        ⟨(next_ready num rand hs.1 hids action).1, next_slots num rand hs.1 hids hs.2 action⟩)
      hstart actions
  obtain ⟨hpending, hbalance, hpotential⟩ :=
    potential_terminated hsqrt hrun.1 hrun.2 hdone
  refine ⟨?_, hpending, hbalance, hpotential⟩
  rw [funext fun s => funext fun action => added_eq num rand s action]
  split
  · have hsum : discounted (99 / 100) (gains next
        (fun s action => 99 / 100 * potential num (next s action).run - potential num s.run)
        start actions) = (99 / 100) ^ actions.length * potential num last - potential num start.run :=
      discounted_shaping _ (fun s : EnvState G env => potential num s.run) start actions
    refine hsum.trans ?_
    rw [hpotential, mul_zero, zero_sub]
  · exact discounted_zero _ _ _

theorem two_no_speeds : ([] : List ℚ) = [] ∨ 2 ≤ ([] : List ℚ).length := Config.none_given 2

theorem two_no_types : ([] : List String) = [] ∨ 2 ≤ ([] : List String).length :=
  Config.none_given 2

/-- Two nodes, of which the balance counts, as the waiting does. -/
def twoNodes : EnvConfig where
  nNodes := 2
  gpusPerNode := 1
  potentialShaping := true
  balanceCoef := 1 / 2
  ram_given := two_no_speeds
  ram_nonneg := Config.no_ram_nonneg
  overcommit_nonneg := Config.one_nonneg
  speeds_given := two_no_speeds
  types_given := two_no_types

/-- The no-op, and a job on each of two nodes. -/
theorem shaping_two_jobs :
    let jobs : List TraceJob := [⟨⟨"a", 1, 60, 1⟩, "rtx4070", 0, 30, "batch", 0⟩,
                                 ⟨⟨"b", 1, 60, 1⟩, "rtx3080", 5, 30, "batch", 0⟩]
    let num : Numeric := ⟨id, id, id, fun x => Nat.sqrt x.num.toNat / Nat.sqrt x.den, id, 3⟩
    let rand : Random Unit := ⟨fun u => (0, u), fun _ => 0, fun _ => (), fun _ => 0⟩
    let next := fun s action => (step num rand s action).1
    let start := reset rand twoNodes none jobs
    let last := (run next start [32, 0, 1]).run
    discounted (99 / 100) (gains next (added num rand) start [32, 0, 1])
        = (if Shaped twoNodes then -potential num start.run else 0) ∧
      last.pending = [] ∧ imbalance num last.cluster = 0 ∧ potential num last = 0 :=
  shaping_telescopes _ _ twoNodes (by decide +kernel) none _ (by decide) (by decide +kernel)
    [32, 0, 1] (by decide +kernel)

end Step

end Kelpflux.Proof.Sim
