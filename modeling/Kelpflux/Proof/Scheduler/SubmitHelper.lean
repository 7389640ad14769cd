import Kelpflux.Impl.Scheduler.SubmitHelper
import Kelpflux.Proof.Scheduler.RlText
import Kelpflux.Proof.Scheduler.SubmitPriority

/-!
# What the submit hook keeps of a job description

The helpers and `rl_apply` write the same description in turn. What each of them
writes is one equation (`helpers_memory` and `rlApply_eq`); from these, a hold
outlives the hook (`hold_kept`), and what the user asked for outlives the helpers
and the answer unless a memory of 0 is filled in or a list of nodes is pinned
elsewhere (`placement_kept_iff`).
-/

namespace Kelpflux.Proof.Scheduler

open Framework Framework.JsonText Framework.Lua Impl.Scheduler Impl.Scheduler.SubmitHelper
open Framework.Python (search)
open JobSubmit (Answers Config)
open RlHook (Globals)
open RlText (Reading numField)

/-! ## The helpers -/

section Helpers

variable (hlp : Helper) (jobDesc : SubmitHelper.JobDesc)

/-- What every helper that runs keeps, the helpers keep. -/
theorem foldl_applyHelper {P : SubmitHelper.JobDesc → Prop}
    {fills : List (SubmitHelper.JobDesc → Option SubmitHelper.JobDesc)}
    (hfill : ∀ fill ∈ fills, ∀ d d', fill d = some d' → P d → P d')
    {applied : SubmitHelper.JobDesc × ℕ} (h : P applied.1) :
    P (fills.foldl applyHelper applied).1 := by
  induction fills generalizing applied with
  | nil => exact h
  | cons fill fills ih =>
    refine ih (fun fill' hmem => hfill fill' (List.mem_cons_of_mem _ hmem)) ?_
    unfold applyHelper
    cases hf : fill applied.1 with
    | none => exact h
    | some d' => exact hfill fill List.mem_cons_self _ _ hf h

variable {hlp jobDesc}

theorem fillMemory_some {d' : SubmitHelper.JobDesc} (h : fillMemory hlp jobDesc = some d') :
    d' = { jobDesc with pnMinMemory := some (helperComputeMemoryMb hlp jobDesc) } := by
  unfold fillMemory at h
  split at h
  · exact (Option.some.inj h).symm
  · cases h

theorem fillPartition_some {d' : SubmitHelper.JobDesc} (h : fillPartition hlp jobDesc = some d') :
    jobDesc.partition.getD "" = "" ∧ ∃ part, d' = { jobDesc with partition := some part } := by
  unfold fillPartition at h
  split at h
  · rename_i hempty
    dsimp only at h
    split at h
    · simp only [Bool.and_eq_true, decide_eq_true_eq] at hempty
      exact ⟨hempty.2, _, (Option.some.inj h).symm⟩
    · cases h
  · cases h

theorem fillQos_some {d' : SubmitHelper.JobDesc} (h : fillQos hlp jobDesc = some d') :
    jobDesc.qos.getD "" = "" ∧ ∃ q, d' = { jobDesc with qos := some q } := by
  unfold fillQos at h
  split at h
  · rename_i hempty
    split at h
    · split at h
      · simp only [Bool.and_eq_true, decide_eq_true_eq] at hempty
        exact ⟨hempty.2, _, (Option.some.inj h).symm⟩
      · cases h
    · cases h
  · cases h

/-- What the three helpers keep, `apply_submit_helpers` keeps. -/
theorem helpers_keep {P : SubmitHelper.JobDesc → Prop} (h : P jobDesc)
    (hmemory : ∀ d m, P d → P { d with pnMinMemory := m })
    (hpartition : ∀ d part, d.partition.getD "" = "" → P d → P { d with partition := part })
    (hqos : ∀ d q, d.qos.getD "" = "" → P d → P { d with qos := q }) :
    P (applySubmitHelpers hlp jobDesc).1 := by
  unfold applySubmitHelpers
  split
  · exact h
  · refine foldl_applyHelper ?_ h
    simp only [List.forall_mem_cons]
    refine ⟨fun d d' hfill hd => ?_, fun d d' hfill hd => ?_, fun d d' hfill hd => ?_, nofun⟩
    · rw [fillMemory_some hfill]
      exact hmemory d _ hd
    · obtain ⟨hempty, part, rfl⟩ := fillPartition_some hfill
      exact hpartition d _ hempty hd
    · obtain ⟨hempty, q, rfl⟩ := fillQos_some hfill
      exact hqos d _ hempty hd

/-- The helpers write nothing that the score, the predictor or the policy reads. -/
theorem helpers_submitted : (applySubmitHelpers hlp jobDesc).1.submitted = jobDesc.submitted :=
  helpers_keep (P := fun d => d.submitted = jobDesc.submitted) rfl (fun _ _ hd => hd)
    (fun _ _ _ hd => hd) fun _ _ _ hd => hd

theorem helpers_partition {part : String} (hpart : jobDesc.partition = some part) (hne : part ≠ "") :
    (applySubmitHelpers hlp jobDesc).1.partition = some part := by
  refine helpers_keep (P := fun d => d.partition = some part) hpart (fun _ _ hd => hd)
    (fun d _ hempty hd => ?_) fun _ _ _ hd => hd
  rw [hd] at hempty
  exact absurd hempty hne

theorem helpers_qos {q : String} (hq : jobDesc.qos = some q) (hne : q ≠ "") :
    (applySubmitHelpers hlp jobDesc).1.qos = some q := by
  refine helpers_keep (P := fun d => d.qos = some q) hq (fun _ _ hd => hd) (fun _ _ _ hd => hd)
    fun d _ hempty hd => ?_
  rw [hd] at hempty
  exact absurd hempty hne

/-- The memory is filled in first, of the description as it was submitted. -/
theorem helpers_memory : (applySubmitHelpers hlp jobDesc).1.pnMinMemory =
    if hlp.enabled = true ∧ hlp.memEnabled = true ∧ jobDesc.pnMinMemory.getD 0 ≤ 0 then
      some (helperComputeMemoryMb hlp jobDesc)
    else jobDesc.pnMinMemory := by
  have hrest : ∀ applied : SubmitHelper.JobDesc × ℕ,
      ([fillPartition hlp, fillQos hlp].foldl applyHelper applied).1.pnMinMemory =
        applied.1.pnMinMemory := by
    intro applied
    refine foldl_applyHelper (P := fun d => d.pnMinMemory = applied.1.pnMinMemory) ?_ rfl
    simp only [List.forall_mem_cons]
    refine ⟨fun d d' hfill hd => ?_, fun d d' hfill hd => ?_, nofun⟩
    · obtain ⟨-, part, rfl⟩ := fillPartition_some hfill
      exact hd
    · obtain ⟨-, q, rfl⟩ := fillQos_some hfill
      exact hd
  unfold applySubmitHelpers
  cases hlp.enabled with
  | false => simp
  | true =>
    rw [List.foldl_cons]
    simp only [Bool.not_true, Bool.false_eq_true, if_false, true_and]
    refine (hrest _).trans ?_
    unfold applyHelper fillMemory
    by_cases hfill : hlp.memEnabled = true ∧ jobDesc.pnMinMemory.getD 0 ≤ 0
    · simp [hfill]
    · have hskip : (hlp.memEnabled && decide (jobDesc.pnMinMemory.getD 0 ≤ 0)) = false := by
        simpa only [Bool.and_eq_false_imp, decide_eq_false_iff_not, not_and] using hfill
      rw [hskip, if_neg hfill]
      rfl

end Helpers

/-! ## The answer -/

section Answer

variable (globals : Globals) (outcome : CallOutcome) (jobDesc : SubmitHelper.JobDesc)

/-- What the hook has of the policy server's answer, if the call succeeds. -/
def answerRead : Option Reading :=
  match rlCallDecide globals outcome with
  | .ok rl => rl
  | .error _ => none

variable {globals outcome} in
theorem answerRead_eq_some {rl : Reading} : answerRead globals outcome = some rl ↔
    ∃ resp, outcome = .output resp ∧ RlText.rlCallDecide globals resp = some rl := by
  unfold answerRead rlCallDecide
  cases henabled : globals.rlEnabled with
  | false =>
    have hnone : ∀ resp, RlText.rlCallDecide globals resp = none := by
      intro resp
      unfold RlText.rlCallDecide
      rw [henabled]
      rfl
    constructor
    · exact nofun
    · rintro ⟨resp, -, h⟩
      rw [hnone] at h
      cases h
  | true =>
    constructor
    · intro h
      cases outcome with
      | popenFailed => cases h
      | luaError message => cases h
      | output resp => exact ⟨resp, rfl, h⟩
    · rintro ⟨resp, rfl, h⟩
      exact h

/-- The trace that an answer leaves. -/
def traceOf (rl : Reading) : Option String :=
  rl.otelTraceparent.bind fun t => if t ≠ [] then some ("otel=" ++ String.ofList t) else none

/-- The node that an answer pins the job to, unless it abstains. -/
def pinOf (rl : Reading) : Option String := if rl.abstain then none else pinned globals rl

/-- The boost of an answer that does not abstain. -/
def boostRead (rl : Reading) : Option ℤ :=
  if rl.abstain = false ∧ 0 < rl.priorityBoost then some rl.priorityBoost else none

theorem traced_eq (rl : Reading) :
    traced rl jobDesc = { jobDesc with adminComment := (traceOf rl).or jobDesc.adminComment } := by
  unfold traced traceOf
  cases rl.otelTraceparent with
  | none => rfl
  | some t =>
    by_cases ht : t = []
    · simp [ht]
    · simp [ht]

/-- All that `rl_apply` writes: the trace, the node and the priority. -/
theorem rlApply_eq : (rlApply globals outcome jobDesc).1 =
    { jobDesc with
      adminComment := ((answerRead globals outcome).bind traceOf).or jobDesc.adminComment
      reqNodes := ((answerRead globals outcome).bind (pinOf globals)).or jobDesc.reqNodes
      priority := boosted jobDesc.priority ((answerRead globals outcome).bind boostRead) } := by
  unfold rlApply answerRead
  cases rlCallDecide globals outcome with
  | error message => rfl
  | ok rl =>
    cases rl with
    | none => rfl
    | some rl =>
      simp only [Option.bind_some, traced_eq]
      unfold pinOf boostRead
      cases rl.abstain with
      | true => rfl
      | false =>
        simp only [Bool.false_eq_true, if_false, true_and]
        by_cases hboost : 0 < rl.priorityBoost
        · rw [if_pos hboost, boosted]
          by_cases hheld : jobDesc.priority = some 0
          · cases pinned globals rl <;> simp [hheld]
          · cases pinned globals rl <;> simp [hheld, hboost]
        · cases pinned globals rl <;> simp [hboost, boosted]

end Answer

/-! ## The hook -/

/-- A text with a field somewhere: the name in quotes, and a colon. -/
def HasField (name : String) (resp : List Char) : Prop := ∃ s, s <:+ resp ∧ KeyAt name.toList s

theorem hasField_of_numField {resp : List Char} {name : String} (h : numField resp name ≠ none) :
    HasField name resp := by
  unfold numField Pattern.capture at h
  obtain ⟨s, hs, hsome⟩ := of_search fun hnone => h (by rw [hnone, Option.map_none])
  exact ⟨s, hs, keyAt_of_run hsome⟩

/-- No answer, or one without the field of the boost. -/
def LacksBoost : CallOutcome → Prop
  | .output resp => ¬ HasField "priority_boost" resp
  | _ => True

theorem answerRead_lacks {globals : Globals} {outcome : CallOutcome} (h : LacksBoost outcome) :
    answerRead globals outcome = none := by
  unfold answerRead rlCallDecide
  cases globals.rlEnabled with
  | false => rfl
  | true =>
    cases outcome with
    | popenFailed => rfl
    | luaError message => rfl
    | output resp =>
      have hboost : numField resp "priority_boost" = none := by
        by_contra hsome
        exact h (hasField_of_numField hsome)
      show RlText.rlCallDecide globals resp = none
      unfold RlText.rlCallDecide
      rw [hboost]
      split <;> rfl

/-- Of an answer that is not read, nothing is written. -/
theorem rlApply_none {globals : Globals} {outcome : CallOutcome}
    (h : answerRead globals outcome = none) (jobDesc : SubmitHelper.JobDesc) :
    (rlApply globals outcome jobDesc).1 = jobDesc := by
  rw [rlApply_eq, h]
  rfl

section Submit

variable {F : Type} (cfg : Config) (hlp : Helper) (globals : Globals) (answers : Answers F)
  (outcome : CallOutcome) (jobDesc : SubmitHelper.JobDesc)

/-- The hook returns success whatever it is answered. -/
theorem hook_status : (slurmJobSubmit cfg hlp globals answers outcome jobDesc).1 = .success := by
  unfold slurmJobSubmit
  dsimp only
  split
  · rfl
  · split <;> rfl

/-- The priority that the hook leaves. -/
theorem hook_priority : (slurmJobSubmit cfg hlp globals answers outcome jobDesc).2.priority =
    if JobSubmit.demoBoosted cfg jobDesc.submitted then some cfg.demoBoostPriority
    else boosted (jobDesc.priority.or (nudge cfg answers jobDesc.submitted))
      ((answerRead globals outcome).bind boostRead) := by
  unfold slurmJobSubmit
  simp only [helpers_submitted]
  split
  · rfl
  · cases henabled : globals.rlEnabled with
    | true =>
      rw [if_pos rfl, rlApply_eq]
      exact congrArg (boosted · _) (scored_priority cfg answers jobDesc.submitted)
    | false =>
      have hnone : answerRead globals outcome = none := by
        unfold answerRead rlCallDecide
        rw [henabled]
        rfl
      rw [if_neg Bool.false_ne_true, hnone]
      exact scored_priority cfg answers jobDesc.submitted

/-- Without the demo's boost, a submission succeeds and keeps a hold, and an answer
that is not there or lacks the boost's field changes no description. -/
theorem hold_kept (hdemo : cfg.demoBoostPriority ≤ 0) :
    (slurmJobSubmit cfg hlp globals answers outcome jobDesc).1 = .success ∧
    (jobDesc.priority = some 0 →
      (slurmJobSubmit cfg hlp globals answers outcome jobDesc).2.priority = some 0) ∧
    ((∀ rl, rlCallDecide globals outcome ≠ .ok (some rl)) ∨ LacksBoost outcome →
      ∀ desc, (rlApply globals outcome desc).1 = desc) := by
  refine ⟨hook_status cfg hlp globals answers outcome jobDesc, fun hheld => ?_, fun hfail desc => ?_⟩
  · have hnot : JobSubmit.demoBoosted cfg jobDesc.submitted = false := by
      unfold JobSubmit.demoBoosted
      rw [decide_eq_false (by omega), Bool.false_and]
    rw [hook_priority, hnot, if_neg Bool.false_ne_true, hheld, Option.some_or]
    cases (answerRead globals outcome).bind boostRead with
    | none => rfl
    | some b => rw [boosted, if_pos rfl]
  · refine rlApply_none ?_ desc
    rcases hfail with hfail | hlacks
    · unfold answerRead
      cases hcall : rlCallDecide globals outcome with
      | error message => rfl
      | ok rl =>
        cases rl with
        | none => rfl
        | some rl => exact absurd hcall (hfail rl)
    · exact answerRead_lacks hlacks

/-- On the text of an answer with a boost of fewer than 53 bits, the hook leaves the
priority that it leaves of the answer itself. -/
theorem hook_priority_text (fl : RlText.FloatText F) (ofInt : ℤ → F) (now : F)
    {r : Serve.DecideResponse F} (henabled : globals.rlEnabled = true)
    (hserver : answers.server (JobSubmit.rlBody ofInt now
      (JobSubmit.scored cfg answers jobDesc.submitted)) = some r)
    (hlo : -2 ^ 52 ≤ r.priorityBoost) (hhi : r.priorityBoost < 2 ^ 52) :
    (slurmJobSubmit cfg hlp globals answers (.output (RlText.responseText fl r)) jobDesc).2.priority =
      (JobSubmit.slurmJobSubmit cfg globals answers ofInt now jobDesc.submitted).priority := by
  rw [hook_priority, submit_priority]
  split
  · rfl
  · rename_i hdemo
    obtain ⟨reading, hread, -, habstain, hboost, -⟩ := rl_call_decide_reads fl r globals henabled
    have hanswer : answerRead globals (.output (RlText.responseText fl r)) = some reading := by
      unfold answerRead rlCallDecide
      rw [henabled, ← hread]
      rfl
    have hanswered : answered cfg globals answers ofInt now jobDesc.submitted = some r := by
      unfold answered
      rw [henabled, Bool.not_true, Bool.or_false, if_neg hdemo, hserver]
    rw [hanswer, hanswered]
    unfold boostOf boostRead
    rw [Option.bind_some, Option.bind_some, habstain, hboost hlo hhi]

end Submit

/-- The helper as the chart sets it. -/
def chartHelper : Helper where
  enabled := true
  memEnabled := true
  partEnabled := true
  partRules := [⟨"gpu:rtx4080", "gpu-rtx4080"⟩, ⟨"gpu:rtx4070", "gpu-rtx4070"⟩,
    ⟨"gpu:", "gpu-rtx4070"⟩]
  qosEnabled := true
  qosDefault := "normal"

/-- A held job, which the answer boosts. -/
theorem hold_kept_boosted :
    (slurmJobSubmit liveConfig chartHelper clientGlobals liveAnswers
      (.output (RlText.responseText zeroText hugeBoost)) { priority := some 0 }).1 = .success ∧
    (slurmJobSubmit liveConfig chartHelper clientGlobals liveAnswers
      (.output (RlText.responseText zeroText hugeBoost)) { priority := some 0 }).2.priority = some 0 ∧
    ∀ desc, (rlApply clientGlobals (.luaError "timeout") desc).1 = desc := by
  obtain ⟨hstatus, hheld, -⟩ := hold_kept liveConfig chartHelper clientGlobals liveAnswers
    (.output (RlText.responseText zeroText hugeBoost)) { priority := some 0 } (by decide)
  obtain ⟨-, -, hframe⟩ := hold_kept liveConfig chartHelper clientGlobals liveAnswers
    (.luaError "timeout") {} (by decide)
  exact ⟨hstatus, hheld rfl, hframe (.inr trivial)⟩

/-! ## What the user asked for -/

/-- Where the user asked for something, `d'` has it as `d` has. An empty text asks for
nothing; a memory of 0 asks for all that a node has. -/
structure KeepsPlacement (d d' : SubmitHelper.JobDesc) : Prop where
  partition : ∀ part ∈ d.partition, part ≠ "" → d'.partition = some part
  qos : ∀ q ∈ d.qos, q ≠ "" → d'.qos = some q
  memory : ∀ m ∈ d.pnMinMemory, d'.pnMinMemory = some m
  reqNodes : ∀ nodes ∈ d.reqNodes, nodes ≠ "" → d'.reqNodes = some nodes

section Placement

variable (hlp : Helper) (globals : Globals) (outcome : CallOutcome) (jobDesc : SubmitHelper.JobDesc)

/-- A memory that was asked for and is not positive, in the place of which the helper
writes another: between its bounds, what it has for each GPU and for each CPU. -/
def Refills : Prop :=
  hlp.enabled = true ∧ hlp.memEnabled = true ∧ ∃ m ∈ jobDesc.pnMinMemory, m ≤ 0 ∧
    m ≠ min (max (parseGpuCount jobDesc.tresPerNode * hlp.memPerGpu +
      max 1 (jobDesc.minCpus.getD 0) * hlp.memPerCpu) hlp.memMin) hlp.memMax

/-- An answer that does not abstain selects the job for the node `name` of the table. -/
def PinsTo (name : String) : Prop :=
  name ≠ "" ∧ ∃ resp rl, outcome = .output resp ∧ RlText.rlCallDecide globals resp = some rl ∧
    rl.abstain = false ∧ rl.rlSelected = true ∧ globals.rlPlacement = true ∧
    ∃ names ∈ globals.rlNodeNames, ∃ j : ℕ, rl.nodeJ = some (j : ℚ) ∧ names[j]? = some name

/-- Nodes that were asked for, when the answer is for another one. -/
def PinsElsewhere : Prop :=
  ∃ nodes ∈ jobDesc.reqNodes, nodes ≠ "" ∧ ∃ name, PinsTo globals outcome name ∧ name ≠ nodes

theorem helperComputeMemoryMb_eq : helperComputeMemoryMb hlp jobDesc =
    min (max (parseGpuCount jobDesc.tresPerNode * hlp.memPerGpu +
      max 1 (jobDesc.minCpus.getD 0) * hlp.memPerCpu) hlp.memMin) hlp.memMax := by
  have hcpus : (if jobDesc.minCpus.getD 0 < 1 then 1 else jobDesc.minCpus.getD 0) =
      max 1 (jobDesc.minCpus.getD 0) := by
    rw [max_def_lt]
    split <;> split <;> omega
  unfold helperComputeMemoryMb
  dsimp only
  rw [hcpus]
  generalize (parseGpuCount jobDesc.tresPerNode : ℤ) * hlp.memPerGpu +
    max 1 (jobDesc.minCpus.getD 0) * hlp.memPerCpu = m
  grind

/-- The memory that was asked for stays just where the helper does not refill it. -/
theorem memory_kept_iff :
    (∀ m ∈ jobDesc.pnMinMemory, (applySubmitHelpers hlp jobDesc).1.pnMinMemory = some m) ↔
      ¬ Refills hlp jobDesc := by
  rw [helpers_memory, helperComputeMemoryMb_eq]
  unfold Refills
  cases hmem : jobDesc.pnMinMemory with
  | none => simp
  | some m =>
    simp only [Option.mem_def, Option.some.injEq, forall_eq', Option.getD_some]
    constructor
    · rintro hkept ⟨henabled, hmemEnabled, m', rfl, hle, hne⟩
      rw [if_pos ⟨henabled, hmemEnabled, hle⟩] at hkept
      exact hne (Option.some.inj hkept).symm
    · intro hnot
      split
      · rename_i hfill
        by_contra hne
        exact hnot ⟨hfill.1, hfill.2.1, m, rfl, hfill.2.2, fun h => hne (by rw [← h])⟩
      · rfl

/-- A name of the table is that of a whole number. -/
theorem rlNodeName_eq_some {names : List String} {nodeJ : ℚ} {name : String} :
    rlNodeName names nodeJ = some name ↔ ∃ j : ℕ, nodeJ = j ∧ names[j]? = some name := by
  unfold rlNodeName
  constructor
  · intro h
    split at h
    · rename_i hj
      refine ⟨nodeJ.num.toNat, ?_, h⟩
      have hnum : ((nodeJ.num.toNat : ℤ) : ℚ) = (nodeJ.num : ℚ) := by
        rw [Int.toNat_of_nonneg (Rat.num_nonneg.mpr hj.1)]
      rw [← Rat.coe_int_num_of_den_eq_one hj.2, ← hnum]
      norm_cast
    · cases h
  · rintro ⟨j, rfl, hname⟩
    rw [if_pos ⟨Nat.cast_nonneg j, Rat.den_natCast j⟩, Rat.num_natCast, Int.toNat_natCast]
    exact hname

variable {globals outcome} in
theorem pin_eq_some {name : String} :
    (answerRead globals outcome).bind (pinOf globals) = some name ↔ PinsTo globals outcome name := by
  rw [Option.bind_eq_some_iff]
  constructor
  · rintro ⟨rl, hread, hpin⟩
    obtain ⟨resp, rfl, hresp⟩ := answerRead_eq_some.mp hread
    unfold pinOf at hpin
    split at hpin
    · cases hpin
    · rename_i habstain
      obtain ⟨nodeJ, hnode, names, hnames, name', hname, hcond⟩ : ∃ nodeJ, rl.nodeJ = some nodeJ ∧
          ∃ names, globals.rlNodeNames = some names ∧ ∃ name', rlNodeName names nodeJ = some name' ∧
            (if globals.rlPlacement && rl.rlSelected && decide (name' ≠ "") then some name'
              else none) = some name := by
        simpa only [pinned, bind, Option.bind_eq_some_iff] using hpin
      split at hcond
      · rename_i hboth
        obtain rfl := Option.some.inj hcond
        simp only [Bool.and_eq_true, decide_eq_true_eq] at hboth
        obtain ⟨j, rfl, hj⟩ := rlNodeName_eq_some.mp hname
        exact ⟨hboth.2, resp, rl, rfl, hresp, eq_false_of_ne_true habstain, hboth.1.2, hboth.1.1,
          names, hnames, j, hnode, hj⟩
      · cases hcond
  · rintro ⟨hne, resp, rl, rfl, hresp, habstain, hselected, hplacement, names, hnames, j, hnode, hj⟩
    refine ⟨rl, answerRead_eq_some.mpr ⟨resp, rfl, hresp⟩, ?_⟩
    unfold pinOf pinned
    rw [habstain, if_neg Bool.false_ne_true, hnode, hnames]
    simp [rlNodeName_eq_some.mpr ⟨j, rfl, hj⟩, hselected, hplacement, hne]

/-- The nodes that were asked for stay just where no answer pins the job elsewhere. -/
theorem reqNodes_kept_iff :
    (∀ nodes ∈ jobDesc.reqNodes, nodes ≠ "" →
      (rlApply globals outcome jobDesc).1.reqNodes = some nodes) ↔
      ¬ PinsElsewhere globals outcome jobDesc := by
  have hreq : (rlApply globals outcome jobDesc).1.reqNodes =
      ((answerRead globals outcome).bind (pinOf globals)).or jobDesc.reqNodes := by
    rw [rlApply_eq]
  rw [hreq]
  constructor
  · rintro hkept ⟨nodes, hnodes, hne, name, hpin, helse⟩
    have hboth := hkept nodes hnodes hne
    rw [pin_eq_some.mpr hpin, Option.some_or] at hboth
    exact helse (Option.some.inj hboth)
  · intro hnot nodes hnodes hne
    cases hpin : (answerRead globals outcome).bind (pinOf globals) with
    | none => exact hnodes
    | some name =>
      rw [Option.some_or]
      by_contra helse
      exact hnot ⟨nodes, hnodes, hne, name, pin_eq_some.mp hpin, fun h => helse (by rw [h])⟩

/-- What the user asked for stays, exactly when the helper refills no memory and no
answer pins the job elsewhere. -/
theorem placement_kept_iff :
    KeepsPlacement jobDesc (rlApply globals outcome (applySubmitHelpers hlp jobDesc).1).1 ↔
      ¬ Refills hlp jobDesc ∧ ¬ PinsElsewhere globals outcome jobDesc := by
  have hframe : (rlApply globals outcome (applySubmitHelpers hlp jobDesc).1).1.partition =
        (applySubmitHelpers hlp jobDesc).1.partition ∧
      (rlApply globals outcome (applySubmitHelpers hlp jobDesc).1).1.qos =
        (applySubmitHelpers hlp jobDesc).1.qos ∧
      (rlApply globals outcome (applySubmitHelpers hlp jobDesc).1).1.pnMinMemory =
        (applySubmitHelpers hlp jobDesc).1.pnMinMemory := by
    rw [rlApply_eq]
    exact ⟨rfl, rfl, rfl⟩
  obtain ⟨hpart, hqos, hmem⟩ := hframe
  have hreq : (applySubmitHelpers hlp jobDesc).1.reqNodes = jobDesc.reqNodes :=
    congrArg (fun d : JobSubmit.JobDesc => d.reqNodes) helpers_submitted
  have hpins : PinsElsewhere globals outcome (applySubmitHelpers hlp jobDesc).1 ↔
      PinsElsewhere globals outcome jobDesc := by
    unfold PinsElsewhere
    rw [hreq]
  rw [← memory_kept_iff, ← hpins, ← reqNodes_kept_iff, hreq]
  constructor
  · intro h
    exact ⟨fun m hm => hmem ▸ h.memory m hm, h.reqNodes⟩
  · rintro ⟨hmemory, hnodes⟩
    exact
      { partition := fun part hp hne => hpart.trans (helpers_partition hp hne)
        qos := fun q hq hne => hqos.trans (helpers_qos hq hne)
        memory := fun m hm => hmem.trans (hmemory m hm)
        reqNodes := hnodes }

end Placement

/-- All the memory of a node is asked for, and the least that the helper gives is
written; and one node is asked for, and the job pinned to the other. -/
theorem zero_refilled :
    (rlApply liveGlobals .popenFailed
      (applySubmitHelpers chartHelper { pnMinMemory := some 0 }).1).1.pnMinMemory = some 1024 ∧
    ¬ KeepsPlacement { pnMinMemory := some 0 }
      (rlApply liveGlobals .popenFailed
        (applySubmitHelpers chartHelper { pnMinMemory := some 0 }).1).1 ∧
    (rlApply clientGlobals (.output (RlText.responseText zeroText hugeBoost))
      (applySubmitHelpers chartHelper { reqNodes := some "gpu-1" }).1).1.reqNodes = some "gpu-0" := by
  have hmem : (rlApply liveGlobals .popenFailed
      (applySubmitHelpers chartHelper { pnMinMemory := some 0 }).1).1.pnMinMemory = some 1024 := by
    decide +kernel
  refine ⟨hmem, fun h => ?_, by decide +kernel⟩
  have hzero := h.memory 0 rfl
  rw [hmem] at hzero
  cases hzero

end Kelpflux.Proof.Scheduler
