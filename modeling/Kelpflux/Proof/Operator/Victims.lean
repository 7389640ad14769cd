import Kelpflux.Proof.Operator.Requeue

/-!
# Whom a decision names

The candidates carry what the detector has found of them (`mem_candidates`); the
decider sorts and groups them, and picks of those of one node and one job at most
as many as it may (`Greedy.pick_selection`). So a decision is for the first of the
blocked jobs, and names running jobs below its priority that share a node
(`decision_sound`).
-/

namespace Kelpflux.Proof.Fragmentation

open Framework Framework.Python Impl.Fragmentation

variable {det : FragmentationDetector} {jobs : List JobView} {nodes : List NodeView}
  {dec : RequeueDecider} {order : SetOrder} {pstdev : List Nat → ℚ} {now : ℚ}
  {d : RequeueDecision} {target : JobView}

/-- A pending job that fits on no node. -/
def Blocked (jobs : List JobView) (nodes : List NodeView) (j : JobView) : Prop :=
  j ∈ jobs ∧ isPending j = true ∧ ∀ n ∈ nodes, n.freeMps < j.mpsReq

/-- A decision is for a blocked job that no other is above, and names running
jobs on one listed node, each far enough below that one, and no more than
allowed. -/
structure Sound (det : FragmentationDetector) (dec : RequeueDecider) (jobs : List JobView)
    (nodes : List NodeView) (d : RequeueDecision) (target : JobView) (victims : List JobView)
    (node : NodeView) : Prop where
  blocked : Blocked jobs nodes target
  highest : ∀ j, Blocked jobs nodes j → j.priority ≤ target.priority
  blockedJobIds : d.blockedJobIds = [target.jobId]
  targetJobIds : d.targetJobIds = victims.map JobView.jobId
  distinct : (victims.map JobView.jobId).Nodup
  listed : node ∈ nodes
  running : ∀ v ∈ victims, v ∈ jobs ∧ isRunning v = true ∧ node.nodeId ∈ v.nodes ∧
    det.priorityGap < target.priority - v.priority
  few : victims.length ≤ dec.maxTargetsPerDecision

theorem named_of_get? {nid : String} {view : NodeView} (h : (nodeIdx nodes).get? nid = some view) :
    view.nodeId = nid := by
  obtain ⟨n, -, hpair⟩ := List.mem_map.mp (Dict.mem_of_mem_ofList (Dict.get?_mem h))
  obtain ⟨hid, rfl⟩ := Prod.mk.inj hpair
  exact hid

/-- The first of the blocked jobs has the highest priority. -/
theorem priority_le_head (h : (blockedJobs jobs nodes).head? = some target) {j : JobView}
    (hj : j ∈ blockedJobs jobs nodes) : j.priority ≤ target.priority := by
  have hsorted : (blockedJobs jobs nodes).Pairwise fun a b => b.priority ≤ a.priority := by
    refine sortedLt_pairwise (fun a b c hab hbc => hbc.trans hab) (fun a b hlt => ?_)
      (fun a b hnot => ?_) _
    · unfold blockedLt at hlt
      split at hlt
      · exact (of_decide_eq_true hlt).le
      · rename_i heq
        exact (not_not.mp heq).ge
    · unfold blockedLt at hnot
      split at hnot
      · exact not_lt.mp (of_decide_eq_false hnot)
      · rename_i heq
        exact (not_not.mp heq).le
  obtain ⟨rest, hrest⟩ := List.head?_eq_some_iff.mp h
  rw [hrest] at hj hsorted
  rcases List.mem_cons.mp hj with rfl | hj
  · exact le_refl _
  · exact (List.pairwise_cons.mp hsorted).1 j hj

/-- In shadow mode the actuator is never called. -/
theorem reconcile_shadow {r : FragmentationReconciler} (h : r.shadowMode = true) :
    (r.reconcile order pstdev jobs nodes now).Only fun _ => False := by
  refine .bind .get fun dec => ?_
  generalize dec.decide order (r.detector.snapshot pstdev jobs nodes now) now = result
  obtain ⟨decision, reason, decider⟩ := result
  refine .bind (.modify _) fun _ => ?_
  cases decision with
  | none => exact .pure _
  | some d => exact .ite (fun _ => .pure _) fun hlive => absurd h hlive

theorem decision_sound (hmax : 1 ≤ dec.maxTargetsPerDecision) :
    (∀ d, (dec.decide order (det.snapshot pstdev jobs nodes now) now).1 = some d →
      ∃ target victims node, Sound det dec jobs nodes d target victims node) ∧
    ∀ r : FragmentationReconciler, r.shadowMode = true → ∀ env s,
      (r.reconcile order pstdev jobs nodes now).calls env s = [] := by
  constructor
  · intro d hd
    obtain ⟨target, node, cs, h⟩ := exists_emits hd
    have hselect : Greedy.Selection (fun c : RequeueCandidate => c.victim.jobId)
        dec.maxTargetsPerDecision.toNat (onNode det jobs nodes target node) cs := by
      rw [h.victims_eq]
      exact Greedy.pick_selection
    have hcand : ∀ c ∈ cs, c ∈ det.candidates jobs nodes ∧ c.nodeId = node := by
      intro c hc
      obtain ⟨hper, hnode⟩ := mem_onNode.mp (hselect.mem c hc)
      exact ⟨(List.mem_filter.mp hper).1, hnode⟩
    obtain ⟨c₀, hc₀⟩ := List.exists_mem_of_ne_nil _ (onNode_ne_nil h.node_eq)
    obtain ⟨hper₀, rfl⟩ := mem_onNode.mp hc₀
    obtain ⟨view, hview⟩ := (mem_candidates.mp (List.mem_filter.mp hper₀).1).2.1
    refine ⟨target, cs.map RequeueCandidate.victim, view, ?_⟩
    constructor
    · exact mem_blockedJobs.mp (List.mem_of_mem_head? h.target_eq)
    · exact fun j hj => priority_le_head h.target_eq (mem_blockedJobs.mpr hj)
    · exact h.blockedJobIds
    · rw [h.targetJobIds, List.map_map]
      rfl
    · rw [List.map_map]
      exact hselect.nodup
    · exact listed_of_get? hview
    · intro v hv
      obtain ⟨c, hc, rfl⟩ := List.mem_map.mp hv
      obtain ⟨hmem, hnode⟩ := hcand c hc
      obtain ⟨htarget, -, ⟨hjob, hrunning, hon⟩, houtranks, -⟩ := mem_candidates.mp hmem
      have hle := priority_le_head h.target_eq htarget
      have hgap := of_decide_eq_true houtranks
      refine ⟨hjob, hrunning, ?_, by omega⟩
      rw [named_of_get? hview, ← hnode]
      exact hon
    · have hlen := hselect.length_le
      rw [List.length_map]
      omega
  · intro r hr env s
    refine List.eq_nil_iff_forall_not_mem.mpr fun e he => ?_
    exact (reconcile_shadow hr).calls env s e he

/-- One node, which a job with a higher priority than a running one waits for. -/
theorem decision_sound_full_node :
    (∀ d, (({} : RequeueDecider).decide listOrder (({} : FragmentationDetector).snapshot
        (fun _ => 0) fullNode.jobs fullNode.nodes 0) 0).1 = some d →
      ∃ target victims node, Sound {} {} fullNode.jobs fullNode.nodes d target victims node) ∧
    ∀ r : FragmentationReconciler, r.shadowMode = true → ∀ env s,
      (r.reconcile listOrder (fun _ => 0) fullNode.jobs fullNode.nodes 0).calls env s = [] :=
  decision_sound (by decide)

end Kelpflux.Proof.Fragmentation
