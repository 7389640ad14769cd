import Kelpflux.Impl.Operator.Policy
import Mathlib.Tactic.Common

/-!
# What the policy decides

The policy aims at a count of replicas (`aim`), and names the direction:
`evaluate_scaleUp_iff`, `evaluate_scaleDown_iff`, `evaluate_target`.
-/

namespace Kelpflux.Proof.Operator

open Kelpflux.Impl.Operator CheckpointAwareQueuePolicy

/-- The replicas the policy aims at: more for jobs that wait for resources, as
many for other pending jobs, else fewer. -/
def aim (p : PartitionConfig) (st : PartitionState) : Int :=
  if st.scalePendingJobs > 0 then
    clamp (st.currentReplicas + p.scaleUpStep) p.minReplicas p.maxReplicas
  else if st.pendingJobs > 0 then st.currentReplicas
  else clamp (st.currentReplicas - p.scaleDownStep) (max p.minReplicas st.busyNodes) p.maxReplicas

theorem toDecision_target (cur target : Int) (reason : String) :
    (toDecision cur target reason).targetReplicas = target := by
  unfold toDecision; split_ifs <;> rfl

theorem toDecision_scaleUp {cur target : Int} {reason : String} :
    (toDecision cur target reason).action = .scaleUp ↔ cur < target := by
  unfold toDecision; split_ifs <;> simp only [true_iff, false_iff] <;> omega

theorem toDecision_scaleDown {cur target : Int} {reason : String} :
    (toDecision cur target reason).action = .scaleDown ↔ target < cur := by
  unfold toDecision; split_ifs <;> simp only [true_iff, false_iff] <;> omega

variable (g : Bool) (p : PartitionConfig) (st : PartitionState) (age : Option Int)
  (missing : Option ℚ)

theorem evaluate_scaleUp_iff :
    (evaluate g p st age missing).action = .scaleUp ↔ st.currentReplicas < aim p st := by
  unfold evaluate aim
  split_ifs
  · exact toDecision_scaleUp
  · simp
  · dsimp only
    split_ifs
    · simp only [false_iff]; omega
    · exact toDecision_scaleUp

/-- Running jobs hold back a scale-down for want of pending jobs; one down to
the maximum, with jobs waiting for resources, they do not. -/
theorem evaluate_scaleDown_iff :
    (evaluate g p st age missing).action = .scaleDown ↔
      aim p st < st.currentReplicas ∧ (0 < st.scalePendingJobs ∨ st.runningJobs ≤ 0) := by
  unfold evaluate aim
  split_ifs
  · rw [toDecision_scaleDown]; omega
  · simp
  · dsimp only
    split_ifs
    · simp only [false_iff]; omega
    · rw [toDecision_scaleDown]; omega

variable {g p st age missing} in
/-- A decision that is not to keep the replicas names those the policy aims at. -/
theorem evaluate_target (h : (evaluate g p st age missing).action ≠ .keep) :
    (evaluate g p st age missing).targetReplicas = aim p st := by
  revert h
  unfold evaluate aim
  split_ifs
  · exact fun _ => toDecision_target _ _ _
  · exact fun _ => rfl
  · dsimp only
    split_ifs
    · exact fun h => absurd rfl h
    · exact fun _ => toDecision_target _ _ _

variable {p st}

theorem aim_nonneg (hmin : 0 ≤ p.minReplicas) (h0 : 0 ≤ st.currentReplicas) : 0 ≤ aim p st := by
  unfold aim clamp; split_ifs <;> omega

/-! ## What a valid configuration promises -/

theorem validatePool_ok (h : validatePool p = .ok ()) :
    0 ≤ p.minReplicas ∧ p.minReplicas ≤ p.maxReplicas ∧ 0 < p.scaleUpStep ∧
      0 < p.scaleDownStep := by
  unfold validatePool at h
  by_cases h₁ : p.minReplicas < 0 ∨ p.maxReplicas < 0
  · rw [if_pos h₁] at h; cases h
  rw [if_neg h₁] at h
  by_cases h₂ : p.minReplicas > p.maxReplicas
  · rw [if_pos h₂] at h; cases h
  rw [if_neg h₂] at h
  by_cases h₃ : p.scaleUpStep ≤ 0 ∨ p.scaleDownStep ≤ 0
  · rw [if_pos h₃] at h; cases h
  omega

theorem validatePools_ok {ps : List PartitionConfig} {seen : List (String × String)}
    {n n' : Nat} (h : validatePools seen n ps = .ok n') : ∀ p ∈ ps, validatePool p = .ok () := by
  induction ps generalizing seen n with
  | nil => simp
  | cons q ps ih =>
    unfold validatePools at h
    dsimp only at h
    split at h
    · cases h
    cases hq : validatePool q with
    | error e => rw [hq] at h; cases h
    | ok =>
      rw [hq] at h
      intro p hp
      rcases List.mem_cons.mp hp with rfl | hp
      · exact hq
      · exact ih h p hp

theorem validateConfig_ok {cfg : Config} {ps : List PartitionConfig}
    (h : validateConfig cfg ps = .ok ()) : ∀ p ∈ ps, validatePool p = .ok () := by
  unfold validateConfig at h
  split at h
  · cases h
  cases hps : validatePools [] 0 ps with
  | error e => rw [hps] at h; cases h
  | ok n => exact validatePools_ok hps

end Kelpflux.Proof.Operator
