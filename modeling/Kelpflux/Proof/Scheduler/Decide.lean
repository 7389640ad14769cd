import Kelpflux.Framework.Lists
import Kelpflux.Proof.Scheduler.Act
import Mathlib.Algebra.Group.Action.Defs
import Mathlib.Algebra.Order.BigOperators.Group.List

/-!
# What `/decide` answers

An answer abstains before the model is asked, or is that to the action that the
model selects for the request and the snapshot (`decide_cases`). The action that
an agent selects is one that the mask allows (`select_legal`), so that a boost
goes to a job shown, for a GPU that has the slots for it: `decide_boosted`.
-/

namespace Kelpflux.Proof.Scheduler

open Framework Framework.Python Impl.Sim Impl.Scheduler.Serve

section Decide

variable {F : Type} {fl : Floats F} {cfg : Settings F} {holder : Option (Holder F)} {time : F}
  {snap : Option (Snapshot F)} {traceparent : String} {req : DecideRequest F}

/-- The model that is loaded is asked with the snapshot, and selects an action. -/
structure Asked (fl : Floats F) (cfg : Settings F) (holder : Option (Holder F)) (time : F)
    (snap : Option (Snapshot F)) (req : DecideRequest F) (found : Snapshot F) (model : Holder F)
    (action : ℕ) (value entropy : F) : Prop where
  snap_eq : snap = some found
  fresh : fl.lt cfg.snapshotTtlS (fl.sub time found.ts) = false
  nNodes : found.nNodes ≠ 0
  nodes : found.nodes.isEmpty = false
  loaded : holder = some model
  obsDim : ∀ n ∈ model.obsDim, (envDims found.nNodes found.gpusPerNode).1 = n
  nActions : ∀ n ∈ model.nActions, (envDims found.nNodes found.gpusPerNode).2 = n
  selects : model.select (fuse fl found req) ((fuse fl found req).mask fl.lt)
    = .ok (action, value, entropy)

theorem mismatch_eq_none {name : String} {got : ℕ} {expected : Option ℕ} :
    mismatch name got expected = none ↔ ∀ n ∈ expected, got = n := by
  cases expected with
  | none => simp [mismatch]
  | some n => simp [mismatch]

theorem safetyNet_eq_none {fl : Floats F} {cfg : Settings F} {value entropy : F} :
    safetyNet fl cfg value entropy = none ↔
      fl.lt value cfg.valueAbstain = false ∧ fl.lt cfg.entropyAbstain entropy = false := by
  unfold safetyNet
  split
  · simp_all
  · split
    · simp_all
    · simp_all

theorem freshSnapshot_ok {fl : Floats F} {cfg : Settings F} {time : F} {snap : Option (Snapshot F)}
    {found : Snapshot F} : freshSnapshot fl cfg time snap = .ok found ↔
      snap = some found ∧ fl.lt cfg.snapshotTtlS (fl.sub time found.ts) = false := by
  unfold freshSnapshot
  cases snap with
  | none => simp
  | some snap =>
    dsimp only
    split
    · rename_i hstale
      refine ⟨nofun, fun ⟨hsnap, hfresh⟩ => ?_⟩
      obtain rfl := Option.some.inj hsnap
      simp [hfresh] at hstale
    · rename_i hfresh
      refine ⟨fun h => ?_, fun h => congrArg _ (Option.some.inj h.1)⟩
      obtain rfl := Except.ok.inj h
      exact ⟨rfl, by simpa using hfresh⟩

theorem shapeMismatch_eq_none {holder : Holder F} {req : ActRequest F} :
    shapeMismatch (some holder) req = none ↔
      (∀ n ∈ holder.obsDim, (envDims req.nNodes req.gpusPerNode).1 = n) ∧
      (∀ n ∈ holder.nActions, (envDims req.nNodes req.gpusPerNode).2 = n) := by
  unfold shapeMismatch
  dsimp only
  rw [Option.or_eq_none_iff, mismatch_eq_none, mismatch_eq_none]
  exact Iff.rfl

/-- `/decide` abstains before the model is asked, or answers the model's action. -/
theorem decide_cases {r : DecideResponse F}
    (h : Impl.Scheduler.Serve.decide fl cfg holder time snap traceparent req = .ok r) :
    (r.abstain = true ∧ r.priorityBoost = 0) ∨
    ∃ found model action value entropy,
      Asked fl cfg holder time snap req found model action value entropy ∧
      decideAction fl cfg (if traceparent = "" then none else some traceparent)
        (fuse fl found req) req.jobId action value entropy = .ok r := by
  have habstain : ∀ tp reason, (.ok (abstainFor fl cfg tp reason) : Except Exc _) = .ok r →
      r.abstain = true ∧ r.priorityBoost = 0 := by
    intro tp reason h
    obtain rfl := Except.ok.inj h
    exact ⟨rfl, rfl⟩
  unfold Impl.Scheduler.Serve.decide at h
  dsimp only at h
  cases hsnap : freshSnapshot fl cfg time snap with
  | error reason =>
    rw [hsnap] at h
    exact .inl (habstain _ _ h)
  | ok found =>
    rw [hsnap] at h
    dsimp only at h
    split at h
    · exact .inl (habstain _ _ h)
    rename_i hnodes
    split at h
    · exact .inl (habstain _ _ h)
    · cases h
    rename_i model hshape
    obtain ⟨⟨action, value, entropy⟩, hselect, h⟩ := bind_eq_ok.mp h
    obtain ⟨hfound, hfresh⟩ := freshSnapshot_ok.mp hsnap
    obtain ⟨hobs, hactions⟩ := shapeMismatch_eq_none.mp hshape
    simp only [Bool.or_eq_true, decide_eq_true_eq, not_or, Bool.not_eq_true] at hnodes
    exact .inr ⟨found, model, action, value, entropy,
      ⟨hfound, hfresh, hnodes.1, hnodes.2, rfl, hobs, hactions, hselect⟩, h⟩

/-- The answer to an action that stands for a job and a GPU. -/
theorem decideAction_slot {fl : Floats F} {cfg : Settings F} {tp : Option String}
    {req : ActRequest F} {jobId : String} {value entropy : F} (i : ℕ) (nj : Fin req.nNodes)
    (gk : Fin req.gpusPerNode) (hne : slot i nj gk ≠ Impl.Sim.topK * req.nPlacements) :
    decideAction fl cfg tp req jobId (slot i nj gk) value entropy = .ok
      { priorityBoost :=
          if cfg.shadowMode || (safetyNet fl cfg value entropy).isSome then 0
          else if ((req.topIds fl.lt)[i]?).join = some jobId then cfg.priorityBoost else 0
        rlSelected := ((req.topIds fl.lt)[i]?).join = some jobId
        abstain := (safetyNet fl cfg value entropy).isSome
        abstainReason := safetyNet fl cfg value entropy
        rlSelectedJobId := ((req.topIds fl.lt)[i]?).join
        nodeJ := if (safetyNet fl cfg value entropy).isSome then none else some nj
        gpuK := if (safetyNet fl cfg value entropy).isSome then none else some gk
        otelTraceparent := tp
        value := value
        entropy := entropy
        shadow := cfg.shadowMode } := by
  have hpos : req.nPlacements ≠ 0 := by
    have := Nat.mul_pos nj.pos gk.pos
    unfold ActRequest.nPlacements
    omega
  obtain ⟨hi, hn, hg⟩ := slot_decode i nj gk
  unfold decideAction
  rw [if_neg hne, if_neg hpos]
  unfold ActRequest.nPlacements
  dsimp only
  rw [hi, hn, hg]
  simp only [decide_eq_true_eq]

/-- A boost is the answer to an action that places the submitted job and passes
the safety net, out of shadow mode. -/
theorem decideAction_boosted {tp : Option String} {actReq : ActRequest F} {jobId : String}
    {action : ℕ} {value entropy : F} {r : DecideResponse F}
    (h : decideAction fl cfg tp actReq jobId action value entropy = .ok r)
    (hboost : 0 < r.priorityBoost) :
    cfg.shadowMode = false ∧ safetyNet fl cfg value entropy = none ∧ r.value = value ∧
      r.entropy = entropy ∧ ∃ (i : ℕ) (nj : Fin actReq.nNodes) (gk : Fin actReq.gpusPerNode),
        action = slot i nj gk ∧ action ≠ actReq.noOp ∧
        ((actReq.topIds fl.lt)[i]?).join = some jobId ∧ r.nodeJ = some nj ∧ r.gpuK = some gk := by
  by_cases hnoOp : action = Impl.Sim.topK * actReq.nPlacements
  · rw [decideAction, if_pos hnoOp] at h
    obtain rfl := Except.ok.inj h
    exact absurd hboost (lt_irrefl 0)
  by_cases hzero : actReq.nPlacements = 0
  · rw [decideAction, if_neg hnoOp, if_pos hzero] at h
    cases h
  obtain ⟨i, nj, gk, rfl⟩ := exists_slot (Nat.pos_of_ne_zero hzero) action
  rw [decideAction_slot i nj gk hnoOp] at h
  obtain rfl := Except.ok.inj h
  dsimp only at hboost ⊢
  split at hboost
  · exact absurd hboost (lt_irrefl 0)
  rename_i hlive
  split at hboost
  · rename_i hid
    simp only [Bool.or_eq_true, not_or, Bool.not_eq_true, Option.isSome_eq_false_iff,
      Option.isNone_iff_eq_none] at hlive
    obtain ⟨hshadow, hsafe⟩ := hlive
    refine ⟨hshadow, hsafe, rfl, rfl, i, nj, gk, rfl, hnoOp, hid, ?_, ?_⟩
    · rw [hsafe]
      rfl
    · rw [hsafe]
      rfl
  · exact absurd hboost (lt_irrefl 0)

end Decide

/-! ## The agent's action -/

section Agent

variable {agent : Agent} {mask : List Bool} {obs : List ℚ}

theorem allows_iff {a : ℕ} : allows mask a = true ↔ mask[a]? = some true := by
  unfold allows
  rw [List.getD_eq_getElem?_getD]
  cases mask[a]? <;> simp

theorem mem_flatnonzero {a : ℕ} : a ∈ flatnonzero mask ↔ mask[a]? = some true := by
  unfold flatnonzero
  rw [List.mem_filter, List.mem_range, allows_iff]
  refine and_iff_right_of_imp fun h => ?_
  exact (List.getElem?_eq_some_iff.mp h).choose

theorem le_argmax {α : Type} [LinearOrder α] {n : ℕ} {f : Fin n → α} {m : Fin n}
    (h : argmax f = some m) (a : Fin n) : f a ≤ f m :=
  List.le_of_mem_argmax (List.mem_finRange a) h

/-- A positive total has a positive part. -/
theorem exists_pos_of_total {n : ℕ} {f : Fin n → ℚ} (h : 0 < total f) : ∃ a, 0 < f a := by
  have hsum : ((List.finRange n).map fun _ => (0 : ℚ)).sum < total f := by
    simpa using h
  obtain ⟨a, -, ha⟩ := List.exists_lt_of_sum_lt _ _ hsum
  exact ⟨a, ha⟩

/-- Some action is legal, and what the mask leaves out is below it. -/
theorem selectQ_legal {action : ℕ} {value entropy : ℚ} (hsize : mask.length = agent.nActions)
    (hsome : flatnonzero mask ≠ []) (h : agent.selectQ obs mask = .ok (action, value, entropy)) :
    mask[action]? = some true := by
  unfold Agent.selectQ at h
  rw [if_neg hsome] at h
  split at h
  · rename_i m hm
    cases h
    by_contra hillegal
    obtain ⟨a, ha⟩ := List.exists_mem_of_ne_nil _ hsome
    have hlegal := mem_flatnonzero.mp ha
    have hlt : a < agent.nActions := hsize ▸ (List.getElem?_eq_some_iff.mp hlegal).choose
    have hle := le_argmax hm ⟨a, hlt⟩
    unfold Agent.qMasked at hle
    rw [if_pos (allows_iff.mpr hlegal), if_neg (mt allows_iff.mp hillegal)] at hle
    exact absurd hle (not_le.mpr (WithBot.bot_lt_coe _))
  · cases h

/-- The greatest masked probability is positive where their sum is. -/
theorem selectActor_legal {policy : List ℚ → List Bool → Fin agent.nActions → ℚ × ℚ} {action : ℕ}
    {value entropy : ℚ} (h : agent.selectActor obs mask policy = .ok (action, value, entropy)) :
    mask[action]? = some true := by
  unfold Agent.selectActor at h
  dsimp only at h
  split at h
  · split at h
    · rename_i hmem
      cases h
      exact mem_flatnonzero.mp (hmem ▸ List.mem_cons_self)
    · cases h
  rename_i htotal
  split at h
  · rename_i m hm
    cases h
    have hpos : 0 < total fun a : Fin agent.nActions =>
        if allows mask a then (policy obs mask a).1 else 0 :=
      lt_of_lt_of_le (by norm_num) (not_lt.mp htotal)
    obtain ⟨a, ha⟩ := exists_pos_of_total hpos
    have hbest := ha.trans_le (le_argmax hm a)
    split at hbest
    · exact allows_iff.mp ‹_›
    · exact absurd hbest (lt_irrefl 0)
  · cases h

theorem select_sizes {action : ℕ} {value entropy : ℚ}
    (h : agent.select obs mask = .ok (action, value, entropy)) :
    obs.length = agent.obsDim ∧ mask.length = agent.nActions := by
  unfold Agent.select at h
  split at h
  · cases h
  · simp_all

theorem select_legal {action : ℕ} {value entropy : ℚ} (hsome : flatnonzero mask ≠ [])
    (h : agent.select obs mask = .ok (action, value, entropy)) : mask[action]? = some true := by
  obtain ⟨-, hmask⟩ := select_sizes h
  unfold Agent.select at h
  split at h
  · cases h
  split at h
  · exact selectQ_legal hmask hsome h
  · exact selectActor_legal h

end Agent

/-! ## The sizes of the observation and the mask -/

section Sizes

variable {actReq : ActRequest ℚ} {num : Numeric}

/-- The observation has the size that the policy server compares with the agent's. -/
theorem obs_length : (actReq.obs num).length = (envDims actReq.nNodes actReq.gpusPerNode).1 := by
  unfold ActRequest.obs
  dsimp only
  rw [List.length_append, List.length_append, List.length_append,
    length_flatten_const (d := jobFeatDim), length_flatten_const (d := gpuFeatDim)]
  · rw [List.length_map, List.length_range, List.length_flatMap]
    simp only [List.length_map, List.length_range, List.map_const', List.sum_replicate,
      smul_eq_mul]
    rfl
  · intro l hl
    obtain ⟨ni, -, hl⟩ := List.mem_flatMap.mp hl
    obtain ⟨gi, -, rfl⟩ := List.mem_map.mp hl
    split
    · rfl
    · exact List.length_replicate
  · intro l hl
    obtain ⟨i, -, rfl⟩ := List.mem_map.mp hl
    split
    · rfl
    · exact List.length_replicate

theorem mask_length : (actReq.mask ltRat).length = (envDims actReq.nNodes actReq.gpusPerNode).2 := by
  unfold ActRequest.mask ActRequest.nActions ActRequest.nPlacements envDims
  rw [List.length_map, List.length_range]
  ring

end Sizes

/-! ## A boost -/

section Boost

/-- Exact floats, and how they print. -/
def exactFloats (repr fixed3 : ℚ → String) : Floats ℚ where
  zero := 0
  lt := ltRat
  sub x y := x - y
  repr := repr
  fixed3 := fixed3

variable (fl : Floats ℚ) (num : Numeric) (cfg : Settings ℚ) (agent : Option Agent) (time : ℚ)
  (snap : Option (Snapshot ℚ)) (req : DecideRequest ℚ) (r : DecideResponse ℚ)

/-- The gates that an answer has passed, of a snapshot and the agent loaded. -/
structure Passes (found : Snapshot ℚ) (model : Agent) : Prop where
  snap_eq : snap = some found
  fresh : time - found.ts ≤ cfg.snapshotTtlS
  live : cfg.shadowMode = false
  value : cfg.valueAbstain ≤ r.value
  entropy : r.entropy ≤ cfg.entropyAbstain
  loaded : agent = some model
  obs : ((fuse fl found req).obs num).length = model.obsDim
  mask : ((fuse fl found req).mask ltRat).length = model.nActions

/-- The agent's action stands for job `i` of those shown, which is the one
submitted, on a GPU that has the slots for it. -/
structure Takes (model : Agent) (actReq : ActRequest ℚ) (i : ℕ) (nj : Fin actReq.nNodes)
    (gk : Fin actReq.gpusPerNode) (j : JobView ℚ) (gpu : GpuView ℚ) : Prop where
  selects : model.select (actReq.obs num) (actReq.mask ltRat)
    = .ok (slot i nj gk, r.value, r.entropy)
  legal : (actReq.mask ltRat)[slot i nj gk]? = some true
  job : (actReq.pendingSorted ltRat)[i]? = some j
  jobId : j.jobId = req.jobId
  listed : actReq.gpu? nj gk = some gpu
  slots : j.mpsReq ≤ gpu.freeMps
  nodeJ : r.nodeJ = some nj
  gpuK : r.gpuK = some gk

variable {num cfg agent time snap req r}

theorem ltRat_eq_false {a b : ℚ} : ltRat a b = false ↔ b ≤ a := by
  unfold ltRat
  rw [decide_eq_false_iff_not, not_lt]

/-- An action that the mask allows, other than the no-op, is of what is offered. -/
theorem offers_of_mask {F : Type} {lt : F → F → Bool} {actReq : ActRequest F} {i : ℕ}
    {nj : Fin actReq.nNodes} {gk : Fin actReq.gpusPerNode}
    (hlegal : (actReq.mask lt)[slot i nj gk]? = some true) (hne : slot i nj gk ≠ actReq.noOp) :
    ∃ j gpu, Offers lt actReq i nj gk j gpu := by
  obtain ⟨hlt, hbit⟩ := List.getElem?_eq_some_iff.mp hlegal
  have hmem : slot i nj gk ∈ actReq.feasible lt := by
    simpa [ActRequest.mask, hne] using hbit
  obtain ⟨i', nj', gk', j, gpu, hoffers, hslot⟩ := mem_feasible.mp hmem
  obtain ⟨rfl, rfl, rfl⟩ := slot_inj hslot
  exact ⟨j, gpu, hoffers⟩

/-- Whatever the agent's networks give, an answer boosts the submitted job only
from a fresh snapshot, out of shadow mode and past both thresholds, with the
shapes of the agent, for an action that the mask allows and that is of this job
on a GPU with the slots for it. -/
theorem decide_boosted (repr fixed3 : ℚ → String) (num : Numeric) (cfg : Settings ℚ)
    (agent : Option Agent) (time : ℚ) (snap : Option (Snapshot ℚ)) (traceparent : String)
    (req : DecideRequest ℚ) (r : DecideResponse ℚ)
    (h : Impl.Scheduler.Serve.decide (exactFloats repr fixed3) cfg (agent.map fun a => a.holder num)
      time snap traceparent req = .ok r) (hboost : 0 < r.priorityBoost) :
    ∃ found model, Passes (exactFloats repr fixed3) num cfg agent time snap req r found model ∧
      ∃ i nj gk j gpu,
        Takes num req r model (fuse (exactFloats repr fixed3) found req) i nj gk j gpu := by
  obtain ⟨-, hzero⟩ | ⟨found, held, action, value, entropy, hasked, hr⟩ := decide_cases h
  · rw [hzero] at hboost
    exact absurd hboost (lt_irrefl 0)
  obtain ⟨hlive, hsafe, rfl, rfl, i, nj, gk, rfl, hnoOp, hid, hnode, hgpu⟩ :=
    decideAction_boosted hr hboost
  obtain ⟨hvalue, hentropy⟩ := safetyNet_eq_none.mp hsafe
  obtain ⟨model, rfl, rfl⟩ := Option.map_eq_some_iff.mp hasked.loaded
  let actReq := fuse (exactFloats repr fixed3) found req
  have hselects : model.select (actReq.obs num) (actReq.mask ltRat)
      = .ok (slot i nj gk, r.value, r.entropy) := hasked.selects
  have hobs : (actReq.obs num).length = model.obsDim :=
    obs_length.trans (hasked.obsDim model.obsDim rfl)
  have hmask : (actReq.mask ltRat).length = model.nActions :=
    mask_length.trans (hasked.nActions model.nActions rfl)
  have hlegal : (actReq.mask ltRat)[slot i nj gk]? = some true :=
    select_legal (List.ne_nil_of_mem (mem_flatnonzero.mpr mask_noOp)) hselects
  obtain ⟨j, gpu, hoffers⟩ := offers_of_mask hlegal hnoOp
  obtain ⟨j', hj', hjob⟩ := topIds_eq.mp hid
  obtain rfl := Option.some.inj (hoffers.job.symm.trans hj')
  exact ⟨found, model,
    ⟨hasked.snap_eq, ltRat_eq_false.mp hasked.fresh, hlive, ltRat_eq_false.mp hvalue,
      ltRat_eq_false.mp hentropy, rfl, hobs, hmask⟩,
    i, nj, gk, j, gpu, hselects, hlegal, hj', hjob, hoffers.listed, hoffers.slots, hnode, hgpu⟩

/-- The functions of `math` near zero. -/
def nearZero : Numeric := ⟨id, id, fun _ => 1, id, fun x => 1 + x, 3⟩

/-- A DQN for one GPU that values the first job most. -/
def prefersFirst : Agent where
  obsDim := 161
  nActions := 17
  policy := none
  actionValues _ a := if a = 0 then 1 else 0

/-- A server out of shadow mode. -/
def liveSettings : Settings ℚ where
  snapshotTtlS := 30
  shadowMode := false
  valueAbstain := -1
  entropyAbstain := 5 / 2
  priorityBoost := 1000

/-- One free GPU, five seconds ago. -/
def freeGpuSnapshot : Snapshot ℚ where
  ts := 5
  now := 5
  nodes := [⟨[{ freeMps := 100, freeRamRatio := 1 }]⟩]

def submitted : DecideRequest ℚ where
  jobId := "7"
  mpsReq := 25
  gpuCount := 1
  runtime := 600
  submitTs := 9

/-- The only job is boosted. -/
theorem decide_boosts_only : ∃ r, 0 < r.priorityBoost ∧ ∃ found model,
    Passes (exactFloats (fun _ => "") fun _ => "") nearZero liveSettings (some prefersFirst) 10
      (some freeGpuSnapshot) submitted r found model ∧
    ∃ i nj gk j gpu, Takes nearZero submitted r model
      (fuse (exactFloats (fun _ => "") fun _ => "") found submitted) i nj gk j gpu := by
  let answer := Impl.Scheduler.Serve.decide (exactFloats (fun _ => "") fun _ => "") liveSettings
    ((some prefersFirst).map fun a => a.holder nearZero) 10 (some freeGpuSnapshot) "" submitted
  have hboost : answer.toOption.map DecideResponse.priorityBoost = some 1000 := by decide +kernel
  cases h : answer with
  | error e =>
    rw [h] at hboost
    cases hboost
  | ok r =>
    rw [h] at hboost
    have hpos : 0 < r.priorityBoost := by
      rw [Option.some.inj hboost]
      decide
    exact ⟨r, hpos, decide_boosted _ _ nearZero liveSettings (some prefersFirst) 10 (some freeGpuSnapshot) ""
      submitted r h hpos⟩

end Boost

end Kelpflux.Proof.Scheduler
