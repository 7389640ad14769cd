import Kelpflux.Proof.Scheduler.Decide
import Kelpflux.Impl.Scheduler.RlHook

/-!
# Submissions while the policy server is in shadow mode

The server's answer and what the submit plugin makes of it. In shadow mode the
server boosts no job (`decide_boost`), so the priority of a job stays as it is;
its nodes stay as they are exactly when no answer pins the job (`Repinned`):
`shadow_frame_iff`.
-/

namespace Kelpflux.Proof.Scheduler

open Framework Framework.Python Impl.Sim Impl.Scheduler.Serve Impl.Scheduler.RlHook

variable {F : Type}

/-- A submission: the server as it stands, the plugin's globals and the job. -/
structure Submission (F : Type) where
  fl : Floats F
  cfg : Settings F
  holder : Option (Holder F)
  time : F
  snap : Option (Snapshot F)
  traceparent : String
  globals : Globals
  /-- Whether the answer reaches the plugin in time. -/
  arrives : Bool
  jobDesc : JobDesc
  mpsReq : Int
  gpuCount : Int
  runtimeS : F
  now : F

namespace Submission

variable (s : Submission F)

def req : DecideRequest F := buildBody s.jobDesc s.mpsReq s.gpuCount s.runtimeS s.now

def answer : Except Exc (DecideResponse F) :=
  decide s.fl s.cfg s.holder s.time s.snap s.traceparent s.req

/-- The trace of the submission. -/
def trace : Option String := if s.traceparent = "" then none else some s.traceparent

/-- The answer as far as the plugin gets one. -/
def received : Option (DecideResponse F) := if s.arrives then s.answer.toOption else none

/-- The job description that the plugin leaves. -/
def after : JobDesc := (rlApply s.globals s.received s.jobDesc).1

/-! ## What the server answers -/

/-- The model is asked, and selects an action. -/
structure Asks (snap : Snapshot F) (holder : Holder F) (action : ℕ) (value entropy : F) : Prop where
  snap_eq : s.snap = some snap
  fresh : s.fl.lt s.cfg.snapshotTtlS (s.fl.sub s.time snap.ts) = false
  nNodes : snap.nNodes ≠ 0
  nodes : snap.nodes.isEmpty = false
  loaded : s.holder = some holder
  obsDim : ∀ n ∈ holder.obsDim, (envDims snap.nNodes snap.gpusPerNode).1 = n
  nActions : ∀ n ∈ holder.nActions, (envDims snap.nNodes snap.gpusPerNode).2 = n
  selects : holder.select (fuse s.fl snap s.req) ((fuse s.fl snap s.req).mask s.fl.lt)
    = .ok (action, value, entropy)

/-- The model's action places the job that is submitted on a node, and passes
the safety net. -/
structure Picks (snap : Snapshot F) (holder : Holder F) (nj : Fin snap.nNodes) : Prop where
  asked : ∃ (i : ℕ) (gk : Fin snap.gpusPerNode) (value entropy : F) (j : JobView F),
    s.Asks snap holder (slot i nj gk) value entropy ∧
    ((fuse s.fl snap s.req).pendingSorted s.fl.lt)[i]? = some j ∧ j.jobId = s.req.jobId ∧
    s.fl.lt value s.cfg.valueAbstain = false ∧ s.fl.lt s.cfg.entropyAbstain entropy = false

end Submission

variable {s : Submission F}

/-- An answer abstains before the model is asked, or is that to its action. -/
theorem answer_cases {r : DecideResponse F} (h : s.answer = .ok r) :
    (r.abstain = true ∧ r.priorityBoost = 0) ∨
    ∃ snap holder action value entropy, s.Asks snap holder action value entropy ∧
      decideAction s.fl s.cfg s.trace (fuse s.fl snap s.req) s.req.jobId action value entropy
        = .ok r := by
  obtain habstain | ⟨snap, holder, action, value, entropy, hasked, hr⟩ := decide_cases h
  · exact .inl habstain
  · exact .inr ⟨snap, holder, action, value, entropy,
      ⟨hasked.snap_eq, hasked.fresh, hasked.nNodes, hasked.nodes, hasked.loaded, hasked.obsDim,
        hasked.nActions, hasked.selects⟩, hr⟩

theorem answer_of_asks {snap : Snapshot F} {holder : Holder F} {action : ℕ} {value entropy : F}
    (h : s.Asks snap holder action value entropy) :
    s.answer = decideAction s.fl s.cfg s.trace (fuse s.fl snap s.req) s.req.jobId action value
      entropy := by
  have hsnap := freshSnapshot_ok.mpr ⟨h.snap_eq, h.fresh⟩
  have hnodes : ¬ (decide (snap.nNodes = 0) || snap.nodes.isEmpty) = true := by
    simp [h.nNodes, h.nodes]
  have hshape : shapeMismatch (some holder) (fuse s.fl snap s.req) = none :=
    shapeMismatch_eq_none.mpr ⟨h.obsDim, h.nActions⟩
  unfold Submission.answer Impl.Scheduler.Serve.decide
  rw [hsnap]
  dsimp only
  rw [if_neg hnodes, h.loaded, hshape]
  dsimp only
  rw [h.selects]
  rfl

/-- In shadow mode no job is boosted. -/
theorem answer_boost (hshadow : s.cfg.shadowMode = true) {r : DecideResponse F}
    (h : s.answer = .ok r) : r.priorityBoost = 0 := by
  obtain ⟨-, hboost⟩ | ⟨snap, holder, action, value, entropy, -, hr⟩ := answer_cases h
  · exact hboost
  · unfold decideAction at hr
    split at hr
    · obtain rfl := Except.ok.inj hr
      rfl
    · split at hr
      · cases hr
      · obtain rfl := Except.ok.inj hr
        dsimp only
        rw [hshadow, Bool.true_or, if_pos rfl]

/-- An answer that does not abstain and that selects the submitted job. -/
theorem answer_picks {nodeJ : ℕ} :
    (∃ r, s.answer = .ok r ∧ r.abstain = false ∧ r.rlSelected = true ∧ r.nodeJ = some nodeJ) ↔
      ∃ snap holder, ∃ nj : Fin snap.nNodes, s.Picks snap holder nj ∧ nj = nodeJ := by
  constructor
  · rintro ⟨r, h, habstain, hselected, hnode⟩
    obtain ⟨hab, -⟩ | ⟨snap, holder, action, value, entropy, hasks, hr⟩ := answer_cases h
    · rw [hab] at habstain
      cases habstain
    · by_cases hnoOp : action = Impl.Sim.topK * (fuse s.fl snap s.req).nPlacements
      · rw [decideAction, if_pos hnoOp] at hr
        obtain rfl := Except.ok.inj hr
        cases hselected
      by_cases hzero : (fuse s.fl snap s.req).nPlacements = 0
      · rw [decideAction, if_neg hnoOp, if_pos hzero] at hr
        cases hr
      obtain ⟨i, nj, gk, rfl⟩ := exists_slot (Nat.pos_of_ne_zero hzero) action
      rw [decideAction_slot i nj gk hnoOp] at hr
      obtain rfl := Except.ok.inj hr
      dsimp only at habstain hselected hnode
      obtain ⟨j, hj, hid⟩ := topIds_eq.mp (of_decide_eq_true hselected)
      have hsafe := safetyNet_eq_none.mp
        (Option.isNone_iff_eq_none.mp (Option.isSome_eq_false_iff.mp habstain))
      rw [habstain, if_neg (by decide)] at hnode
      exact ⟨snap, holder, nj, ⟨i, gk, value, entropy, j, hasks, hj, hid, hsafe⟩,
        Option.some.inj hnode⟩
  · rintro ⟨snap, holder, nj, ⟨i, gk, value, entropy, j, hasks, hj, hid, hsafe⟩, rfl⟩
    have hne : slot i nj gk ≠ Impl.Sim.topK * (fuse s.fl snap s.req).nPlacements := by
      have hlt : slot i nj gk < Impl.Sim.topK * (snap.nNodes * snap.gpusPerNode) :=
        slot_lt (lt_topK_of_getElem? hj) nj gk
      exact Nat.ne_of_lt hlt
    have hslot := @decideAction_slot F s.fl s.cfg s.trace (fuse s.fl snap s.req) s.req.jobId value
      entropy i nj gk hne
    have hsafe := safetyNet_eq_none.mpr hsafe
    refine ⟨_, (answer_of_asks hasks).trans hslot, ?_, ?_, ?_⟩
    · dsimp only
      rw [hsafe]
      rfl
    · exact decide_eq_true (topIds_eq.mpr ⟨j, hj, hid⟩)
    · dsimp only
      rw [hsafe]
      rfl

/-! ## What the plugin does -/

theorem traced_frame (jobDesc : JobDesc) (tp : Option String) :
    (traced jobDesc tp).priority = jobDesc.priority ∧
      (traced jobDesc tp).reqNodes = jobDesc.reqNodes := by
  unfold traced
  split
  · split
    · exact ⟨rfl, rfl⟩
    · exact ⟨rfl, rfl⟩
  · exact ⟨rfl, rfl⟩

theorem pinned_eq_some {globals : Globals} {rl : RlTable} {name : String} :
    pinned globals rl = some name ↔ globals.rlPlacement = true ∧ rl.rlSelected = true ∧
      ∃ nodeJ names, rl.nodeJ = some nodeJ ∧ globals.rlNodeNames = some names ∧
        names[nodeJ]? = some name ∧ name ≠ "" := by
  unfold pinned
  simp only [Option.bind_eq_bind, Option.bind_eq_some_iff, Bool.and_eq_true, decide_eq_true_eq]
  constructor
  · rintro ⟨nodeJ, hnode, names, hnames, found, hfound, h⟩
    split at h
    · rename_i hc
      obtain rfl := Option.some.inj h
      exact ⟨hc.1.1, hc.1.2, nodeJ, names, hnode, hnames, hfound, hc.2⟩
    · cases h
  · rintro ⟨hplacement, hselected, nodeJ, names, hnode, hnames, hfound, hne⟩
    exact ⟨nodeJ, hnode, names, hnames, name, hfound, if_pos ⟨⟨hplacement, hselected⟩, hne⟩⟩

/-- An answer that the plugin pins the job by, to a node other than it has. -/
def Pins (globals : Globals) (jobDesc : JobDesc) (r : DecideResponse F) : Prop :=
  globals.rlPlacement = true ∧ r.abstain = false ∧ r.rlSelected = true ∧
    ∃ nodeJ names name, r.nodeJ = some nodeJ ∧ globals.rlNodeNames = some names ∧
      names[nodeJ]? = some name ∧ name ≠ "" ∧ jobDesc.reqNodes ≠ some name

/-- What the plugin does with an answer that does not boost. -/
theorem rlApply_frame {globals : Globals} {resp : Option (DecideResponse F)} {jobDesc : JobDesc}
    (hboost : ∀ r ∈ resp, r.priorityBoost = 0) :
    (rlApply globals resp jobDesc).1.priority = jobDesc.priority ∧
      ((rlApply globals resp jobDesc).1.reqNodes = jobDesc.reqNodes ↔
        ¬ (globals.rlEnabled = true ∧ ∃ r, resp = some r ∧ Pins globals jobDesc r)) := by
  unfold rlApply rlCallDecide
  cases henabled : globals.rlEnabled with
  | false => exact ⟨rfl, iff_of_true rfl fun h => by cases h.1⟩
  | true =>
  cases resp with
  | none => exact ⟨rfl, iff_of_true rfl fun ⟨_, r, hr, _⟩ => by cases hr⟩
  | some r =>
  obtain ⟨hprio, hnodes⟩ := traced_frame jobDesc r.otelTraceparent
  have hzero : ¬ r.priorityBoost > 0 := by
    rw [hboost r rfl]
    decide
  simp only [if_true, Option.map_some]
  by_cases habstain : r.abstain = true
  · rw [if_pos habstain]
    refine ⟨hprio, iff_of_true hnodes fun ⟨_, r', hr, hpins⟩ => ?_⟩
    obtain rfl := Option.some.inj hr
    simp [hpins.2.1] at habstain
  rw [if_neg habstain, if_neg fun h => hzero h.1]
  cases hpinned : pinned globals ⟨r.priorityBoost, r.rlSelected, r.abstain, r.nodeJ,
    r.otelTraceparent⟩ with
  | none =>
    refine ⟨hprio, iff_of_true hnodes fun ⟨_, r', hr, hpins⟩ => ?_⟩
    obtain rfl := Option.some.inj hr
    obtain ⟨hplacement, -, hselected, nodeJ, names, name, hnode, hnames, hfound, hne, -⟩ := hpins
    have hsome : pinned globals ⟨r.priorityBoost, r.rlSelected, r.abstain, r.nodeJ,
        r.otelTraceparent⟩ = some name :=
      pinned_eq_some.mpr ⟨hplacement, hselected, nodeJ, names, hnode, hnames, hfound, hne⟩
    rw [hpinned] at hsome
    cases hsome
  | some name =>
    obtain ⟨hplacement, hselected, nodeJ, names, hnode, hnames, hfound, hne⟩ :=
      pinned_eq_some.mp hpinned
    refine ⟨hprio, fun hsame ⟨_, r', hr, hpins⟩ => ?_, fun hnot => ?_⟩
    · obtain rfl := Option.some.inj hr
      obtain ⟨-, -, -, nodeJ', names', name', hnode', hnames', hfound', -, hother⟩ := hpins
      obtain rfl := Option.some.inj (hnode.symm.trans hnode')
      obtain rfl := Option.some.inj (hnames.symm.trans hnames')
      obtain rfl := Option.some.inj (hfound.symm.trans hfound')
      exact hother hsame.symm
    · by_contra hchanged
      refine hnot ⟨trivial, r, rfl, hplacement, by simpa using habstain, hselected, nodeJ, names, name,
        hnode, hnames, hfound, hne, fun hsame => hchanged hsame.symm⟩

/-! ## The submission -/

/-- The submission pins the job, and to a node other than it has. -/
structure Repinned (s : Submission F) : Prop where
  arrives : s.arrives = true
  enabled : s.globals.rlEnabled = true
  placement : s.globals.rlPlacement = true
  picks : ∃ snap holder, ∃ nj : Fin snap.nNodes, s.Picks snap holder nj ∧
    ∃ names name, s.globals.rlNodeNames = some names ∧ names[(nj : ℕ)]? = some name ∧
      name ≠ "" ∧ s.jobDesc.reqNodes ≠ some name

/-- In shadow mode a submission leaves the job's priority and nodes as they are
exactly when it does not pin the job. -/
theorem shadow_frame_iff (s : Submission F) (hshadow : s.cfg.shadowMode = true) :
    s.after.priority = s.jobDesc.priority ∧ s.after.reqNodes = s.jobDesc.reqNodes ↔
      ¬ Repinned s := by
  have hreceived : ∀ r, s.received = some r ↔ s.arrives = true ∧ s.answer = .ok r := by
    intro r
    unfold Submission.received
    split
    · cases s.answer <;> simp_all [Except.toOption]
    · simp_all
  have hboost : ∀ r ∈ s.received, r.priorityBoost = 0 := fun r hr =>
    answer_boost hshadow ((hreceived r).mp hr).2
  obtain ⟨hprio, hnodes⟩ := @rlApply_frame F s.globals s.received s.jobDesc hboost
  unfold Submission.after
  rw [and_iff_right hprio, hnodes, not_iff_not]
  constructor
  · rintro ⟨henabled, r, hr, hplacement, habstain, hselected, nodeJ, names, name, hnode, hrest⟩
    obtain ⟨harrives, hanswer⟩ := (hreceived r).mp hr
    obtain ⟨snap, holder, nj, hpicks, rfl⟩ :=
      answer_picks.mp ⟨r, hanswer, habstain, hselected, hnode⟩
    exact ⟨harrives, henabled, hplacement, snap, holder, nj, hpicks, names, name, hrest⟩
  · rintro ⟨harrives, henabled, hplacement, snap, holder, nj, hpicks, names, name, hrest⟩
    obtain ⟨r, hanswer, habstain, hselected, hnode⟩ :=
      answer_picks.mpr ⟨snap, holder, nj, hpicks, rfl⟩
    exact ⟨henabled, r, (hreceived r).mpr ⟨harrives, hanswer⟩, hplacement, habstain, hselected, nj,
      names, name, hnode, hrest⟩

/-- Floats that are exact and print as nothing. -/
def exact : Floats ℚ where
  zero := 0
  lt := ltRat
  sub x y := x - y
  repr _ := ""
  fixed3 _ := ""

/-- A server in shadow mode whose model places the first job on the first GPU,
and a plugin that may place the job. -/
def shadowed : Submission ℚ where
  fl := exact
  cfg := { snapshotTtlS := 30, shadowMode := true, valueAbstain := -1, entropyAbstain := 5 / 2
           priorityBoost := 1000 }
  holder := some ⟨none, none, fun _ _ => .ok (0, 0, 0)⟩
  time := 10
  snap := some { ts := 5, now := 5, nodes := [⟨[{ freeMps := 100, freeRamRatio := 1 }]⟩] }
  traceparent := ""
  globals := ⟨true, true, some ["gpu-4070"]⟩
  arrives := true
  jobDesc := {}
  mpsReq := 25
  gpuCount := 1
  runtimeS := 600
  now := 9

/-- In shadow mode the job is pinned all the same. -/
theorem shadow_pins : ¬ ∀ s : Submission ℚ, s.cfg.shadowMode = true →
    s.after.priority = s.jobDesc.priority ∧ s.after.reqNodes = s.jobDesc.reqNodes := by
  intro h
  have hpinned : shadowed.after.reqNodes = some "gpu-4070" := by decide +kernel
  have hsame := (h shadowed rfl).2
  rw [hpinned] at hsame
  cases hsame

/-- Without `RL_PLACEMENT` the same submission leaves the job as it is. -/
theorem shadow_frame_unplaced :
    let s := { shadowed with globals := ⟨true, false, some ["gpu-4070"]⟩ }
    s.after.priority = s.jobDesc.priority ∧ s.after.reqNodes = s.jobDesc.reqNodes :=
  (shadow_frame_iff _ rfl).mpr fun h => Bool.noConfusion h.placement

end Kelpflux.Proof.Scheduler
