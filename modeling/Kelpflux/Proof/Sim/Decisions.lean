import Kelpflux.Framework.Mask
import Kelpflux.Framework.Run
import Kelpflux.Impl.Sim.GymEnv
import Kelpflux.Proof.Sim.Capacity

/-!
# Decision points

`_advance_to_decision` stops where a pending job fits (`advance_stops`), and it
looks at the whole queue; an action places one of the first `top_k` jobs. The
mask offers one just where one of these fits (`offersPlacement_iff`), so the
agent is woken with something to place as long as the jobs that fit are not all
behind the first `top_k` (`decisions_offer_iff`). Sixteen jobs that are larger
than the cluster are enough for that (`blocked_window`).
-/

namespace Kelpflux.Proof.Sim

open Framework Kelpflux.Impl.Sim

variable {env : EnvConfig}

/-- The mask has an action other than the no-op. -/
def OffersPlacement (st : RunState env) : Prop :=
  ∃ a, a ≠ env.noOp ∧ (actionMask st)[a]? = some true

/-- What the agent is woken for, as long as there are events. -/
def WokenToPlace (st : RunState env) : Prop := st.events ≠ [] → OffersPlacement st

/-- A pending job fits. -/
def SomeFits (st : RunState env) : Prop := ∃ j ∈ st.pending, st.cluster.canAllocate j.toJob

instance (st : RunState env) : Decidable (SomeFits st) := by unfold SomeFits; infer_instance

/-- There is a GPU, and a job that fits has fewer than `top_k` before it. -/
def FitsEarly (st : RunState env) : Prop :=
  0 < env.nNodes * env.gpusPerNode ∧
    ∃ i < env.topK, ∃ j, (bySubmitTs st.pending)[i]? = some j ∧ st.cluster.canAllocate j.toJob

/-- The loop of `_advance_to_decision` from `st` looks at the queue in `st'`. -/
inductive LooksAt : RunState env → RunState env → Prop where
  | now {st} (h : st.events ≠ []) : LooksAt st st
  | later {st st'} (h : st.events ≠ []) (hwait : ¬ SomeFits st) (hrest : LooksAt st.popEvent st') :
    LooksAt st st'

/-- Whenever the loop finds a job that fits, one of the first `top_k` does. -/
def WindowAgrees (st : RunState env) : Prop := ∀ st', LooksAt st st' → SomeFits st' → FitsEarly st'

/-! ## The mask -/

theorem mem_legalActions {st : RunState env} {a : ℕ} :
    a ∈ legalActions st ↔ ∃ i j, st.topKJobs[i]? = some j ∧
      ∃ (nj : Fin env.nNodes) (gk : Fin env.gpusPerNode),
        ∃ mode ∈ legalModes st.cluster j nj gk,
          encode env i (nj * env.gpusPerNode + gk) mode = a := by
  simp only [legalActions, List.mem_flatMap, List.mem_range]
  constructor
  · rintro ⟨i, -, h⟩
    split at h
    · exact absurd h List.not_mem_nil
    · rename_i j hj
      simp only [List.mem_flatMap, List.mem_finRange, true_and, List.mem_map] at h
      exact ⟨i, j, hj, h⟩
  · rintro ⟨i, j, hj, h⟩
    obtain ⟨hlt, -⟩ := List.getElem?_eq_some_iff.mp hj
    refine ⟨i, hlt, ?_⟩
    rw [hj]
    simpa only [List.mem_flatMap, List.mem_finRange, true_and, List.mem_map] using h

/-- To pack a job on a GPU is legal wherever it fits. -/
theorem mem_legalModes {c : Cluster env.toConfig} {j : TraceJob} {nj : Fin env.nNodes}
    {gk : Fin env.gpusPerNode} :
    (∃ mode, mode ∈ legalModes c j nj gk) ↔ c.canAllocateOn j.toJob nj gk := by
  unfold legalModes
  split
  · rename_i hcan
    have hmode : 0 < env.nModes := by
      unfold EnvConfig.nModes
      split <;> decide
    exact iff_of_true ⟨0, by simp [hmode]⟩ hcan
  · rename_i hcan
    exact iff_of_false (by simp) hcan

theorem legalModes_lt {c : Cluster env.toConfig} {j : TraceJob} {nj : Fin env.nNodes}
    {gk : Fin env.gpusPerNode} {mode : ℕ} (h : mode ∈ legalModes c j nj gk) :
    mode < env.nModes := by
  unfold legalModes at h
  split at h
  · exact List.mem_range.mp (List.mem_of_mem_filter h)
  · exact absurd h List.not_mem_nil

/-- The placements come before the no-op. -/
theorem legalActions_lt {st : RunState env} {a : ℕ} (h : a ∈ legalActions st) : a < env.noOp := by
  obtain ⟨i, j, hj, nj, gk, mode, hmode, rfl⟩ := mem_legalActions.mp h
  have hi : i < env.topK := by
    obtain ⟨hlt, -⟩ := List.getElem?_eq_some_iff.mp hj
    exact lt_of_lt_of_le hlt (List.length_take_le ..)
  have hslot : i * env.nPlacements + (nj * env.gpusPerNode + gk) < env.topK * env.nPlacements := by
    have := slot_lt hi nj gk
    unfold slot at this
    unfold EnvConfig.nPlacements
    omega
  have hlt := legalModes_lt hmode
  calc encode env i (nj * env.gpusPerNode + gk) mode
      < (i * env.nPlacements + (nj * env.gpusPerNode + gk)) * env.nModes + env.nModes := by
        unfold encode
        omega
    _ = (i * env.nPlacements + (nj * env.gpusPerNode + gk) + 1) * env.nModes := by ring
    _ ≤ env.topK * env.nPlacements * env.nModes := Nat.mul_le_mul_right _ hslot
    _ = env.noOp := by
        unfold EnvConfig.noOp EnvConfig.nActions EnvConfig.nPlacements
        rw [Nat.add_sub_cancel]
        ring

theorem offersPlacement_legal {st : RunState env} :
    OffersPlacement st ↔ ∃ a, a ∈ legalActions st := by
  unfold OffersPlacement
  apply exists_congr
  intro a
  constructor
  · rintro ⟨hne, hbit⟩
    simp only [actionMask, List.getElem?_map, Option.map_eq_some_iff] at hbit
    obtain ⟨b, hb, hbit⟩ := hbit
    obtain ⟨_, rfl⟩ := List.getElem?_eq_some_iff.mp hb
    rw [List.getElem_range, Bool.or_eq_true, decide_eq_true_eq, decide_eq_true_eq] at hbit
    exact hbit.resolve_left hne
  · intro ha
    have hlt := legalActions_lt ha
    have hsize : a < env.nActions := by
      unfold EnvConfig.noOp at hlt
      omega
    exact ⟨hlt.ne, by simp [actionMask, hsize, ha]⟩

/-- The mask offers a placement where one of the first jobs fits. -/
theorem offersPlacement_iff {st : RunState env} : OffersPlacement st ↔ FitsEarly st := by
  rw [offersPlacement_legal]
  have htop : ∀ i j, st.topKJobs[i]? = some j ↔
      i < env.topK ∧ (bySubmitTs st.pending)[i]? = some j := by
    intro i j
    unfold RunState.topKJobs
    rw [List.getElem?_take]
    split <;> simp_all
  constructor
  · rintro ⟨a, ha⟩
    obtain ⟨i, j, hj, nj, gk, mode, hmode, -⟩ := mem_legalActions.mp ha
    obtain ⟨hi, hget⟩ := (htop i j).mp hj
    have hgpus : 0 < env.nNodes * env.gpusPerNode := Nat.mul_pos (Fin.pos nj) (Fin.pos gk)
    have hcan := mem_legalModes.mp ⟨mode, hmode⟩
    exact ⟨hgpus, i, hi, j, hget, (canAllocate_on hgpus).mpr ⟨nj, gk, hcan⟩⟩
  · rintro ⟨hgpus, i, hi, j, hget, hcan⟩
    obtain ⟨nj, gk, hon⟩ := (canAllocate_on hgpus).mp hcan
    obtain ⟨mode, hmode⟩ := mem_legalModes.mpr hon
    exact ⟨_, mem_legalActions.mpr ⟨i, j, (htop i j).mpr ⟨hi, hget⟩, nj, gk, mode, hmode, rfl⟩⟩

/-- A queue that is no longer than the window is all in it. -/
theorem FitsEarly.of_short {st : RunState env} (hgpus : 0 < env.nNodes * env.gpusPerNode)
    (hshort : st.pending.length ≤ env.topK) (h : SomeFits st) : FitsEarly st := by
  obtain ⟨j, hj, hcan⟩ := h
  have hperm := List.perm_insertionSort (fun a b : TraceJob => a.submitTs ≤ b.submitTs) st.pending
  obtain ⟨i, hi⟩ := List.mem_iff_getElem?.mp (hperm.mem_iff.mpr hj)
  obtain ⟨hlt, -⟩ := List.getElem?_eq_some_iff.mp hi
  rw [hperm.length_eq] at hlt
  exact ⟨hgpus, i, by omega, j, hi, hcan⟩

/-! ## The loop -/

theorem any_fits {st : RunState env} :
    (st.pending.any fun j => st.cluster.canAllocate j.toJob) = true ↔ SomeFits st := by
  simp [SomeFits]

@[simp] theorem handle_events (st : RunState env) (e : Event) : (st.handle e).events = st.events := by
  unfold RunState.handle
  dsimp only
  split
  · rfl
  · split <;> rfl

theorem popEvent_events (st : RunState env) : st.popEvent.events = st.events.tail := by
  unfold RunState.popEvent
  split
  · rename_i hnil
    rw [hnil]
    rfl
  · rename_i hcons
    rw [handle_events, hcons]
    rfl

theorem LooksAt.events {st st' : RunState env} (h : LooksAt st st') : st'.events ≠ [] := by
  induction h with
  | now h => exact h
  | later _ _ _ ih => exact ih

/-- The loop ends without events, or where it looks at a job that fits for the
first time. -/
theorem advance_stops (st : RunState env) :
    (st.advanceToDecision.events = [] ∧ ∀ st', LooksAt st st' → ¬ SomeFits st') ∨
      LooksAt st st.advanceToDecision ∧ SomeFits st.advanceToDecision ∧
        ∀ st', LooksAt st st' → SomeFits st' → st' = st.advanceToDecision := by
  unfold RunState.advanceToDecision
  generalize hes : st.events = es
  induction es generalizing st with
  | nil =>
    refine .inl ⟨hes, fun st' hlook => ?_⟩
    cases hlook with
    | now h => exact absurd hes h
    | later h => exact absurd hes h
  | cons e es ih =>
    have hne : st.events ≠ [] := by
      rw [hes]
      exact List.cons_ne_nil e es
    have htail : st.popEvent.events = es := by
      rw [popEvent_events, hes]
      rfl
    unfold RunState.advance
    split
    · rename_i hfits
      rw [any_fits] at hfits
      refine .inr ⟨.now hne, hfits, fun st' hlook _ => ?_⟩
      cases hlook with
      | now => rfl
      | later _ hwait => exact absurd hfits hwait
    · rename_i hfits
      rw [any_fits] at hfits
      have hrest : ∀ st', LooksAt st st' → SomeFits st' → LooksAt st.popEvent st' := by
        intro st' hlook hfits'
        cases hlook with
        | now => exact absurd hfits' hfits
        | later _ _ hrest => exact hrest
      rcases ih st.popEvent htail with ⟨hend, hnone⟩ | ⟨hlook, hstop, hfirst⟩
      · refine .inl ⟨hend, fun st' hlook hfits' => ?_⟩
        exact hnone st' (hrest st' hlook hfits') hfits'
      · refine .inr ⟨.later hne hfits hlook, hstop, fun st' hlook' hfits' => ?_⟩
        exact hfirst st' (hrest st' hlook' hfits') hfits'

/-- What the agent is woken for is in the window where all that the loop found
was. -/
theorem wokenToPlace_iff (st : RunState env) :
    WokenToPlace st.advanceToDecision ↔ WindowAgrees st := by
  unfold WokenToPlace
  rw [offersPlacement_iff]
  rcases advance_stops st with ⟨hend, hnone⟩ | ⟨hlook, hfits, hfirst⟩
  · exact iff_of_true (absurd hend) fun st' hlook hfits => absurd hfits (hnone st' hlook)
  · constructor
    · intro h st' hlook' hfits'
      rw [hfirst st' hlook' hfits']
      exact h hlook.events
    · intro h _
      exact h _ hlook hfits

/-! ## Episodes -/

section Episodes

variable {G : Type} (num : Numeric) (rand : Random G)

/-- The state that `step` advances from. -/
def EnvState.resumed (s : EnvState G env) (action : ℕ) : RunState env :=
  let (s', _, scheduled) := { s with stepCount := s.stepCount + 1 }.act num rand action
  let st := { s'.run with completionReward := 0 }
  if scheduled then st else st.popEvent

theorem step_run (s : EnvState G env) (action : ℕ) :
    (step num rand s action).1.run = (EnvState.resumed num rand s action).advanceToDecision :=
  rfl

/-- In every episode the agent has a placement to choose at each decision point
with events left, that of the reset and those of the steps, if and only if the
loop before it never finds jobs that fit behind the first `top_k` only. -/
theorem decisions_offer_iff (env : EnvConfig) (seed : Option Int) (jobs : List TraceJob)
    (actions : List ℕ) :
    (WokenToPlace (reset rand env seed jobs).run ∧
      Along (fun s action => (step num rand s action).1)
        (fun s action => WokenToPlace (step num rand s action).1.run)
        (reset rand env seed jobs) actions) ↔
    WindowAgrees (RunState.start env jobs) ∧
      Along (fun s action => (step num rand s action).1)
        (fun s action => WindowAgrees (EnvState.resumed num rand s action))
        (reset rand env seed jobs) actions := by
  apply and_congr
  · exact wokenToPlace_iff (RunState.start env jobs)
  · apply Along.congr
    intro s action
    rw [step_run]
    exact wokenToPlace_iff _

end Episodes

/-! ## Gangs ahead of a small job -/

theorem no_speeds : ([] : List ℚ) = [] ∨ 1 ≤ ([] : List ℚ).length := Config.none_given 1

theorem no_types : ([] : List String) = [] ∨ 1 ≤ ([] : List String).length := Config.none_given 1

/-- A node with one GPU. -/
def smallCluster : EnvConfig where
  nNodes := 1
  gpusPerNode := 1
  ram_given := no_speeds
  ram_nonneg := Config.no_ram_nonneg
  overcommit_nonneg := Config.one_nonneg
  speeds_given := no_speeds
  types_given := no_types

def gang (jobId : String) : TraceJob := ⟨⟨jobId, 2, 100, 1⟩, "rtx4070", 0, 60, "training", 0⟩

/-- Sixteen jobs of two GPUs, then one of half a GPU, and one an hour later. -/
def blockedTrace : List TraceJob :=
  ["g0", "g1", "g2", "g3", "g4", "g5", "g6", "g7", "g8", "g9", "ga", "gb", "gc", "gd", "ge",
    "gf"].map gang ++
  [⟨⟨"small", 1, 50, 1⟩, "rtx4070", 1, 60, "inference", 0⟩,
    ⟨⟨"late", 1, 50, 1⟩, "rtx4070", 3600, 60, "inference", 0⟩]

/-- The reset stops at the small job, and the mask has the no-op only. -/
theorem blocked_window :
    let rand : Random Unit := ⟨fun u => (0, u), fun _ => 0, fun _ => (), fun _ => 0⟩
    let st := (reset rand smallCluster (some 0) blockedTrace).run
    ¬ WokenToPlace st ∧ SomeFits st ∧ st.pending.length = 17 ∧ legalActions st = [] := by
  intro rand st
  have hlegal : legalActions st = [] := by decide +kernel
  have hevents : st.events ≠ [] := by decide +kernel
  refine ⟨fun h => ?_, by decide +kernel, by decide +kernel, hlegal⟩
  obtain ⟨a, ha⟩ := offersPlacement_legal.mp (h hevents)
  rw [hlegal] at ha
  exact absurd ha List.not_mem_nil

end Kelpflux.Proof.Sim
