import Kelpflux.Framework.Mask
import Kelpflux.Proof.Sim.Warmup

/-!
# Actions taken apart

`decode` and `encode` are inverse to each other, between the places of a job, a
GPU and a mode and the actions before the no-op (`decode_encode`,
`encode_decode`, `encode_lt`).
-/

namespace Kelpflux.Proof.Sim

open Framework Kelpflux.Impl.Sim

variable {env : EnvConfig} {mode : ℕ}

theorem encode_slot (i : ℕ) (nj : Fin env.nNodes) (gk : Fin env.gpusPerNode) (mode : ℕ) :
    encode env i (nj * env.gpusPerNode + gk) mode = slot i nj gk * env.nModes + mode := by
  unfold encode slot EnvConfig.nPlacements
  rw [Nat.add_assoc]

theorem decode_encode (i : ℕ) (nj : Fin env.nNodes) (gk : Fin env.gpusPerNode)
    (hmode : mode < env.nModes) :
    decode env (encode env i (nj * env.gpusPerNode + gk) mode) = (i, nj.1, gk.1, mode) := by
  obtain ⟨hi, hn, hg⟩ := slot_decode i nj gk
  have hquot : (slot i nj gk * env.nModes + mode) / env.nModes = slot i nj gk := by
    rw [Nat.add_comm, Nat.add_mul_div_right _ _ nModes_pos, Nat.div_eq_of_lt hmode, Nat.zero_add]
  have hrem : (slot i nj gk * env.nModes + mode) % env.nModes = mode := by
    rw [Nat.add_comm, Nat.add_mul_mod_self_right, Nat.mod_eq_of_lt hmode]
  rw [encode_slot, decode, hquot, hrem]
  unfold EnvConfig.nPlacements
  rw [hi, hn, hg]

/-- The actions of the places in the window come before the no-op. -/
theorem encode_lt {i : ℕ} (hi : i < env.topK) (nj : Fin env.nNodes) (gk : Fin env.gpusPerNode)
    (hmode : mode < env.nModes) : encode env i (nj * env.gpusPerNode + gk) mode < env.noOp := by
  have hslot : slot i nj gk + 1 ≤ env.topK * env.nPlacements := slot_lt hi nj gk
  calc encode env i (nj * env.gpusPerNode + gk) mode
      = slot i nj gk * env.nModes + mode := encode_slot i nj gk mode
    _ < slot i nj gk * env.nModes + env.nModes := Nat.add_lt_add_left hmode _
    _ = (slot i nj gk + 1) * env.nModes := by ring
    _ ≤ env.topK * env.nPlacements * env.nModes := Nat.mul_le_mul_right _ hslot
    _ = env.noOp := by
        rw [noOp_eq, perJob]
        ring

/-- Every action before the no-op is of a place, a GPU and a mode. -/
theorem exists_encode {a : ℕ} (h : a < env.noOp) :
    ∃ i < env.topK, ∃ (nj : Fin env.nNodes) (gk : Fin env.gpusPerNode), ∃ mode < env.nModes,
      encode env i (nj * env.gpusPerNode + gk) mode = a := by
  have hall : a / env.nModes < env.topK * env.nPlacements := by
    rw [Nat.div_lt_iff_lt_mul nModes_pos]
    refine h.trans_eq ?_
    rw [noOp_eq, perJob]
    ring
  have hpos : 0 < env.nNodes * env.gpusPerNode := Nat.pos_of_mul_pos_left (Nat.zero_lt_of_lt hall)
  obtain ⟨i, nj, gk, hslot⟩ := exists_slot hpos (a / env.nModes)
  have hi : i < env.topK := by
    have hquot := (slot_decode i nj gk).1
    rw [← hslot] at hquot
    rw [← hquot]
    exact Nat.div_lt_of_lt_mul (hall.trans_eq (Nat.mul_comm _ _))
  refine ⟨i, hi, nj, gk, a % env.nModes, Nat.mod_lt _ nModes_pos, ?_⟩
  rw [encode_slot, ← hslot]
  exact Nat.div_add_mod' a env.nModes

theorem encode_decode {a : ℕ} (h : a < env.noOp) :
    (decode env a).1 < env.topK ∧ (decode env a).2.1 < env.nNodes ∧
      (decode env a).2.2.1 < env.gpusPerNode ∧ (decode env a).2.2.2 < env.nModes ∧
      encode env (decode env a).1 ((decode env a).2.1 * env.gpusPerNode + (decode env a).2.2.1)
        (decode env a).2.2.2 = a := by
  obtain ⟨i, hi, nj, gk, mode, hmode, rfl⟩ := exists_encode h
  rw [decode_encode i nj gk hmode]
  exact ⟨hi, nj.2, gk.2, hmode, rfl⟩

/-- A legal action is decoded to a job of the window and a GPU it fits, with the
mode. -/
theorem decode_legal {st : RunState env} {a : ℕ} (h : a ∈ legalActions st) :
    ∃ i j, st.topKJobs[i]? = some j ∧ ∃ (nj : Fin env.nNodes) (gk : Fin env.gpusPerNode),
      ∃ mode ∈ legalModes st.cluster j nj gk, decode env a = (i, nj.1, gk.1, mode) := by
  obtain ⟨i, j, hj, nj, gk, mode, hmode, rfl⟩ := mem_legalActions.mp h
  exact ⟨i, j, hj, nj, gk, mode, hmode, decode_encode i nj gk (legalModes_lt hmode)⟩

theorem mem_legalModes_iff {c : Cluster env.toConfig} {j : TraceJob} {nj : Fin env.nNodes}
    {gk : Fin env.gpusPerNode} : mode ∈ legalModes c j nj gk ↔
      c.canAllocateOn j.toJob nj gk = true ∧ mode < env.nModes ∧
        (mode ≠ 1 ∨ (c.nodes nj).gpus gk = env.mpsPerGpu) := by
  unfold legalModes
  split
  · rename_i hcan
    simp [hcan]
  · rename_i hcan
    simp [hcan]

end Kelpflux.Proof.Sim
