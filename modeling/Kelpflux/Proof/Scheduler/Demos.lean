import Kelpflux.Framework.Search
import Kelpflux.Proof.Scheduler.Rollouts
import Kelpflux.Proof.Sim.Isolate
import Kelpflux.Proof.Sim.LiveTrace

/-!
# Demonstrations by the score

The loops of `_score_demo_action` come to the legal placements in ascending order
(`demoOptions_sorted`), so that the action is the first of the best ones
(`demo_best`). Jobs that ask for a slot are never divided by an empty GPU
(`scoreDemoAction_ok`), those with a runtime that `log1p` takes are observed
(`observed_ok`), and an episode ends by its bound on the steps
(`demonstrates_ends`): the buffer is filled with the files' episodes, one after
the other, as far as there is room (`demonstrated`). Jobs that were collected from
the cluster are such ones (`trace_demonstrated`).
-/

namespace Kelpflux.Proof.Scheduler

open Framework Framework.Python Impl.Sim Impl.Scheduler Impl.Scheduler.Replay
  Impl.Scheduler.Rollouts Proof.Sim

/-! ## The score's action -/

section Demo

variable (num : Numeric) (scheduler : ScoreScheduler) {env : EnvConfig} (st : RunState env)

/-- The value of a job of the window on a GPU, if there are such. -/
def valueAt (i n g : ℕ) : Option ℚ := do
  let job ← st.topKJobs[i]?
  let nj ← (List.finRange env.nNodes)[n]?
  let gk ← (List.finRange env.gpusPerNode)[g]?
  return placementValue num scheduler st job nj gk

/-- The value of the placement that an action decodes to. -/
def actionValue (a : ℕ) : ℚ :=
  (valueAt num scheduler st (decode env a).1 (decode env a).2.1 (decode env a).2.2.1).getD 0

/-- The first of the legal placements of the highest value. -/
def FirstBest (a : ℕ) : Prop :=
  a ∈ legalActions st ∧ ∀ b ∈ legalActions st,
    actionValue num scheduler st b < actionValue num scheduler st a ∨
    actionValue num scheduler st b = actionValue num scheduler st a ∧ a ≤ b

variable {num scheduler st}

theorem actionValue_encode {i : ℕ} {j : TraceJob} (hj : st.topKJobs[i]? = some j)
    (nj : Fin env.nNodes) (gk : Fin env.gpusPerNode) {mode : ℕ} (hmode : mode < env.nModes) :
    actionValue num scheduler st (encode env i (nj * env.gpusPerNode + gk) mode) =
      placementValue num scheduler st j nj gk := by
  unfold actionValue
  rw [decode_encode i nj gk hmode]
  have hnode : (List.finRange env.nNodes)[nj.1]? = some nj := by simp
  have hgpu : (List.finRange env.gpusPerNode)[gk.1]? = some gk := by simp
  rw [valueAt, hj, hnode, hgpu]
  rfl

/-- Without a mode for isolation, the actions are those that the loops count. -/
theorem encode_packed (hmodes : env.nModes = 1) (i : ℕ) (nj : Fin env.nNodes)
    (gk : Fin env.gpusPerNode) : encode env i (nj * env.gpusPerNode + gk) 0 =
      i * env.nPlacements + nj * env.gpusPerNode + gk := by
  rw [encode, hmodes, Nat.mul_one, Nat.add_zero, Nat.add_assoc]

variable (num scheduler) in
theorem mem_demoOptions (hmodes : env.nModes = 1) {v : ℚ} {a : ℕ} :
    (v, a) ∈ demoOptions num scheduler st ↔
      a ∈ legalActions st ∧ v = actionValue num scheduler st a := by
  unfold demoOptions
  dsimp only
  rw [List.mem_flatMap]
  constructor
  · rintro ⟨i, -, h⟩
    split at h
    · exact absurd h List.not_mem_nil
    rename_i j hj
    obtain ⟨nj, -, h⟩ := List.mem_flatMap.mp h
    obtain ⟨gk, -, h⟩ := List.mem_filterMap.mp h
    split at h
    swap
    · cases h
    rename_i hmask
    cases h
    have hi : i < env.topK := by
      obtain ⟨hlt, -⟩ := List.getElem?_eq_some_iff.mp hj
      exact lt_of_lt_of_le hlt (List.length_take_le ..)
    rw [← encode_packed hmodes] at hmask ⊢
    refine ⟨(actionMask_getElem.mp hmask).resolve_left ?_, (actionValue_encode hj nj gk ?_).symm⟩
    · exact (encode_lt hi nj gk nModes_pos).ne
    · exact nModes_pos
  · rintro ⟨ha, rfl⟩
    obtain ⟨i, j, hj, nj, gk, mode, hmode, rfl⟩ := mem_legalActions.mp ha
    obtain ⟨hlt, -⟩ := List.getElem?_eq_some_iff.mp hj
    obtain rfl : mode = 0 := by
      have := legalModes_lt hmode
      omega
    refine ⟨i, List.mem_range.mpr hlt, ?_⟩
    rw [hj]
    refine List.mem_flatMap.mpr ⟨nj, List.mem_finRange nj,
      List.mem_filterMap.mpr ⟨gk, List.mem_finRange gk, ?_⟩⟩
    rw [← encode_packed hmodes, if_pos (actionMask_getElem.mpr (.inr ha)),
      actionValue_encode hj nj gk nModes_pos]

/-- The loops come to the actions in ascending order. -/
theorem demoOptions_sorted :
    (demoOptions num scheduler st).Pairwise fun x y => x.2 < y.2 := by
  unfold demoOptions
  dsimp only
  have hplace : ∀ (nj : Fin env.nNodes) (gk : Fin env.gpusPerNode),
      nj * env.gpusPerNode + gk < env.nPlacements := by
    intro nj gk
    calc nj * env.gpusPerNode + gk < nj * env.gpusPerNode + env.gpusPerNode :=
          Nat.add_lt_add_left gk.2 _
      _ = (nj + 1) * env.gpusPerNode := (Nat.succ_mul _ _).symm
      _ ≤ env.nPlacements := Nat.mul_le_mul_right _ nj.2
  refine List.pairwise_flatMap.mpr ⟨fun i _ => ?_, List.pairwise_lt_range.imp ?_⟩
  · split
    · exact List.Pairwise.nil
    refine List.pairwise_flatMap.mpr ⟨fun nj _ => ?_, (List.pairwise_lt_finRange _).imp ?_⟩
    · refine List.pairwise_filterMap.mpr ((List.pairwise_lt_finRange _).imp ?_)
      intro gk gk' hlt x hx y hy
      split at hx <;> cases hx
      split at hy <;> cases hy
      exact Nat.add_lt_add_left hlt _
    · intro nj nj' hlt x hx y hy
      obtain ⟨gk, -, hx⟩ := List.mem_filterMap.mp hx
      obtain ⟨gk', -, hy⟩ := List.mem_filterMap.mp hy
      split at hx <;> cases hx
      split at hy <;> cases hy
      have hrow : (nj + 1) * env.gpusPerNode ≤ nj' * env.gpusPerNode := Nat.mul_le_mul_right _ hlt
      have := gk.2
      dsimp only
      rw [Nat.succ_mul] at hrow
      omega
  · intro i i' hlt x hx y hy
    split at hx
    · exact absurd hx List.not_mem_nil
    split at hy
    · exact absurd hy List.not_mem_nil
    obtain ⟨nj, -, hx⟩ := List.mem_flatMap.mp hx
    obtain ⟨nj', -, hy⟩ := List.mem_flatMap.mp hy
    obtain ⟨gk, -, hx⟩ := List.mem_filterMap.mp hx
    obtain ⟨gk', -, hy⟩ := List.mem_filterMap.mp hy
    split at hx <;> cases hx
    split at hy <;> cases hy
    have hrow : (i + 1) * env.nPlacements ≤ i' * env.nPlacements := Nat.mul_le_mul_right _ hlt
    have := hplace nj gk
    dsimp only
    rw [Nat.succ_mul] at hrow
    omega

theorem demoAction_eq_noOp (hmodes : env.nModes = 1) (h : legalActions st = []) :
    demoAction num scheduler st = env.noOp := by
  have hnone : demoOptions num scheduler st = [] := by
    refine List.eq_nil_iff_forall_not_mem.mpr fun ⟨v, a⟩ hmem => ?_
    have ha := ((mem_demoOptions num scheduler hmodes).mp hmem).1
    rw [h] at ha
    exact List.not_mem_nil ha
  rw [demoAction, hnone]
  rfl

theorem demoAction_firstBest (hmodes : env.nModes = 1) (h : legalActions st ≠ []) :
    FirstBest num scheduler st (demoAction num scheduler st) := by
  unfold demoAction
  split
  swap
  · rename_i hnone
    obtain ⟨a, ha⟩ := List.exists_mem_of_ne_nil _ h
    have hmem := (mem_demoOptions num scheduler hmodes).mpr ⟨ha, rfl⟩
    rw [List.argmax_eq_none.mp hnone] at hmem
    exact absurd hmem List.not_mem_nil
  rename_i best hbest
  obtain ⟨v, a⟩ := best
  obtain ⟨ha, rfl⟩ := (mem_demoOptions num scheduler hmodes).mp (List.argmax_mem hbest)
  refine ⟨ha, fun b hb => ?_⟩
  have hmem' := (mem_demoOptions num scheduler hmodes).mpr ⟨hb, rfl⟩
  refine (List.le_of_mem_argmax hmem' hbest).lt_or_eq.imp_right fun heq => ⟨heq, ?_⟩
  exact argmax_least demoOptions_sorted hbest hmem' heq.ge

/-- The score's demonstrations take the first of the legal placements of the
highest value, and the no-op only where no placement is legal. -/
theorem demo_best (num : Numeric) (scheduler : ScoreScheduler) (nNodes gpusPerNode nJobs : ℕ)
    (st : RunState (liveEnv nNodes gpusPerNode nJobs)) :
    let act := demoAction num scheduler st
    (legalActions st = [] → act = (liveEnv nNodes gpusPerNode nJobs).noOp) ∧
      (legalActions st ≠ [] → FirstBest num scheduler st act) :=
  ⟨demoAction_eq_noOp rfl, demoAction_firstBest rfl⟩

end Demo

/-! ## The demonstrations -/

section Demonstrate

variable {G : Type} (num : Numeric) (rand : Random G) (f32 : PyFloat → PyFloat)
  (scheduler : ScoreScheduler)

/-- The steps of an episode under the score, up to the last one. -/
inductive Demonstrates {env : EnvConfig} : Episode G env → List (Episode G env × ℕ) → Prop where
  | last {e : Episode G env}
    (hdone : (moved num rand f32 e (demoAction num scheduler e.state.run)).done = true) :
    Demonstrates e [(e, demoAction num scheduler e.state.run)]
  | more {e : Episode G env} {passes : List (Episode G env × ℕ)}
    (hlive : (moved num rand f32 e (demoAction num scheduler e.state.run)).done = false)
    (hrest : Demonstrates (goesTo num rand e (demoAction num scheduler e.state.run)) passes) :
    Demonstrates e ((e, demoAction num scheduler e.state.run) :: passes)

variable {num rand f32 scheduler} {env : EnvConfig}

theorem act_stepCount (s : EnvState G env) (action : ℕ) :
    (s.act num rand action).1.stepCount = s.stepCount := by
  unfold EnvState.act
  split
  · unfold EnvState.place
    dsimp only
    split
    · rfl
    · split <;> rfl
  · split <;> rfl

variable (num rand) in
theorem goesTo_stepCount (e : Episode G env) (act : ℕ) :
    (goesTo num rand e act).state.stepCount = e.state.stepCount + 1 :=
  act_stepCount { e.state with stepCount := e.state.stepCount + 1 } act

variable (num rand f32 scheduler) in
theorem demonstrates_ends {e : Episode G env} (h : e.state.stepCount < env.maxSteps) :
    ∃ passes, Demonstrates num rand f32 scheduler e passes := by
  induction hleft : env.maxSteps - e.state.stepCount generalizing e with
  | zero => omega
  | succ left ih =>
    have hcount := goesTo_stepCount num rand e (demoAction num scheduler e.state.run)
    cases hdone : (moved num rand f32 e (demoAction num scheduler e.state.run)).done with
    | true => exact ⟨_, .last hdone⟩
    | false =>
      have htrunc := (Bool.or_eq_false_iff.mp hdone).2
      have hlt : (goesTo num rand e (demoAction num scheduler e.state.run)).state.stepCount <
          env.maxSteps := not_le.mp (of_decide_eq_false htrunc)
      obtain ⟨passes, hrest⟩ := ih hlt (by omega)
      exact ⟨_, .more hdone hrest⟩

/-- A job asks for a slot, and has a runtime that `log1p` takes. -/
def Playable (j : TraceJob) : Prop := 1 ≤ j.mpsReq ∧ -1 < j.runtime

/-- The slots are kept, and all jobs have runtimes that `log1p` takes. -/
structure PlayKept (st : RunState env) : Prop extends SlotsKept st where
  runtimes : AllJobs (-1 < ·.runtime) st

variable (num rand) in
theorem start_kept {jobs : List TraceJob} (h : ∀ j ∈ jobs, Playable j) :
    PlayKept (Episode.start num rand env jobs).state.run :=
  ⟨(start_slotsKept fun j hj => (h j hj).1).advance _,
    (start_allJobs fun j hj => (h j hj).2).advance _⟩

variable (num rand) in
theorem PlayKept.next (hslots : 0 < env.mpsPerGpu) {s : EnvState G env} (h : PlayKept s.run)
    (action : ℕ) : PlayKept (s.next num rand action).run :=
  ⟨h.toSlotsKept.next num rand hslots action, h.runtimes.next num rand action⟩

/-- The jobs of a window that is kept are observed. -/
theorem observed_ok {e : Episode G env} (h : PlayKept e.state.run) : e.observed = .ok e := by
  refine if_neg fun hany => ?_
  obtain ⟨j, hj, hle⟩ := List.any_eq_true.mp hany
  obtain ⟨i, hi⟩ := List.mem_iff_getElem?.mp hj
  exact absurd (of_decide_eq_true hle) (not_le.mpr (h.runtimes.pending j (topKJobs_mem hi)))

/-- No slot is divided by that a GPU does not have. -/
theorem scoreDemoAction_ok {st : RunState env} (h : SlotsKept st) :
    scoreDemoAction num scheduler st = .ok (demoAction num scheduler st) := by
  unfold scoreDemoAction
  refine if_neg fun hzero => ?_
  obtain ⟨j, hj, hzero⟩ := List.any_eq_true.mp hzero
  obtain ⟨free, -, hfree⟩ := List.any_eq_true.mp hzero
  obtain ⟨i, hi⟩ := List.mem_iff_getElem?.mp hj
  have hmps := h.pending j (topKJobs_mem hi)
  simp only [Bool.and_eq_true, decide_eq_true_eq] at hfree
  omega

theorem play_full {e : Episode G env} {buf : ReplayBuffer} (h : buf.capacity ≤ buf.size)
    (fuel : ℕ) : play num rand f32 scheduler fuel e buf = .ok (some buf) := by
  cases fuel with
  | zero => rw [play, if_neg (by omega)]; rfl
  | succ fuel => rw [play, if_neg (by omega)]; rfl

section Play

variable {e : Episode G env} {capacity : ℕ} {adds : List AddArgs} {buf : ReplayBuffer}

variable (num rand f32 scheduler) in
/-- While there is room, a turn adds the step of the score's action. -/
theorem play_turn (hobserved : Observed num e) (hslots : 0 < env.mpsPerGpu)
    (hkept : PlayKept e.state.run) (hroom : adds.length < capacity)
    (hheld : Held f32 (obsDim env) env.nActions capacity adds buf) :
    let act := demoAction num scheduler e.state.run
    ∃ buf', Held f32 (obsDim env) env.nActions capacity
        (adds ++ [(moved num rand f32 e act, .fin (99 / 100))]) buf' ∧
      ∀ fuel, play num rand f32 scheduler (fuel + 1) e buf =
        if (moved num rand f32 e act).done then .ok (some buf')
        else play num rand f32 scheduler fuel (goesTo num rand e act) buf' := by
  intro act
  have hsize : buf.size < buf.capacity := by
    rw [hheld.size, hheld.capacity_eq]
    omega
  obtain ⟨buf', hadd, hheld'⟩ := hheld.add (by omega)
    (a := (moved num rand f32 e act, .fin (99 / 100))) (moved_shaped hobserved act)
  have hplace : addTransition f32 buf (moved num rand f32 e act) = .ok buf' := by
    rw [addTransition, if_neg (by omega)]
    exact hadd
  refine ⟨buf', hheld', fun fuel => ?_⟩
  have hnext : (goesTo num rand e act).observed = .ok (goesTo num rand e act) :=
    observed_ok (hkept.next num rand hslots act)
  rw [play, if_pos hsize, scoreDemoAction_ok hkept.toSlotsKept]
  show ((goesTo num rand e act).observed >>= fun e' =>
    addTransition f32 buf (moved num rand f32 e act) >>= _) = _
  rw [hnext]
  show (addTransition f32 buf (moved num rand f32 e act) >>= _) = _
  rw [hplace]
  rfl

/-- A full buffer stays as it is. -/
theorem play_nothing (hfull : adds.length = capacity)
    (hheld : Held f32 (obsDim env) env.nActions capacity adds buf) (more : List AddArgs) :
    (∀ fuel, play num rand f32 scheduler fuel e buf = .ok (some buf)) ∧
      Held f32 (obsDim env) env.nActions capacity (adds ++ more.take (capacity - adds.length))
        buf := by
  refine ⟨play_full ?_, ?_⟩
  · rw [hheld.size, hheld.capacity_eq, hfull, min_self]
  · rwa [hfull, Nat.sub_self, List.take_zero, List.append_nil]

/-- What is played of an episode goes to the buffer, as far as there is room. -/
theorem play_holds {passes : List (Episode G env × ℕ)}
    (h : Demonstrates num rand f32 scheduler e passes) (hslots : 0 < env.mpsPerGpu)
    (hobserved : Observed num e) (hkept : PlayKept e.state.run)
    (hlength : adds.length ≤ capacity)
    (hheld : Held f32 (obsDim env) env.nActions capacity adds buf) :
    ∃ b, (∀ fuel, capacity ≤ adds.length + fuel →
        play num rand f32 scheduler fuel e buf = .ok (some b)) ∧
      Held f32 (obsDim env) env.nActions capacity
        (adds ++ (addsOf num rand f32 passes).take (capacity - adds.length)) b := by
  induction h generalizing adds buf with
  | @last e hdone =>
    rcases hlength.eq_or_lt with hfull | hroom
    · obtain ⟨hplay, hheld'⟩ := play_nothing hfull hheld _
      exact ⟨buf, fun fuel _ => hplay fuel, hheld'⟩
    · obtain ⟨b, hheld', hturn⟩ := play_turn num rand f32 scheduler hobserved hslots hkept
        hroom hheld
      refine ⟨b, fun fuel hfuel => ?_, ?_⟩
      · obtain ⟨fuel, rfl⟩ : ∃ more, fuel = more + 1 := ⟨fuel - 1, by omega⟩
        rw [hturn, if_pos hdone]
      · rwa [List.take_of_length_le (show 1 ≤ _ by omega)]
  | @more e passes hlive hrest ih =>
    rcases hlength.eq_or_lt with hfull | hroom
    · obtain ⟨hplay, hheld'⟩ := play_nothing hfull hheld _
      exact ⟨buf, fun fuel _ => hplay fuel, hheld'⟩
    · obtain ⟨buf', hheld', hturn⟩ := play_turn num rand f32 scheduler hobserved hslots hkept
        hroom hheld
      have hmore : (adds ++ [(moved num rand f32 e (demoAction num scheduler e.state.run),
          PyFloat.fin (99 / 100))]).length = adds.length + 1 := List.length_append
      obtain ⟨b, hplay, hheld''⟩ := ih (goesTo_observed _ _) (hkept.next num rand hslots _)
        (by omega) hheld'
      refine ⟨b, fun fuel hfuel => ?_, ?_⟩
      · obtain ⟨fuel, rfl⟩ : ∃ more, fuel = more + 1 := ⟨fuel - 1, by omega⟩
        rw [hturn, if_neg (by rw [hlive]; exact Bool.false_ne_true)]
        exact hplay fuel (by omega)
      · obtain ⟨left, hleft⟩ : ∃ left, capacity - adds.length = left + 1 :=
          ⟨capacity - adds.length - 1, by omega⟩
        rw [hleft]
        rw [hmore, show capacity - (adds.length + 1) = left by omega, List.append_assoc] at hheld''
        exact hheld''

end Play

/-- What the file's jobs demonstrate. -/
def FileAdds (num : Numeric) (rand : Random G) (f32 : PyFloat → PyFloat)
    (scheduler : ScoreScheduler) (nNodes gpusPerNode : ℕ) (nJobs : ℤ)
    (file : String × List TraceJob) (adds : List AddArgs) : Prop :=
  let jobs := firstJobs nJobs file.2
  if jobs = [] then adds = [] else
    ∃ passes, Demonstrates num rand f32 scheduler
        (.start num rand (liveEnv nNodes gpusPerNode jobs.length) jobs) passes ∧
      adds = addsOf num rand f32 passes

theorem exists_fileAdds (nNodes gpusPerNode : ℕ) (nJobs : ℤ) (file : String × List TraceJob) :
    ∃ adds, FileAdds num rand f32 scheduler nNodes gpusPerNode nJobs file adds := by
  unfold FileAdds
  dsimp only
  split
  · exact ⟨[], rfl⟩
  · obtain ⟨passes, hpasses⟩ := demonstrates_ends num rand f32 scheduler
      (e := Episode.start num rand
        (liveEnv nNodes gpusPerNode (firstJobs nJobs file.2).length) (firstJobs nJobs file.2))
      (lt_of_lt_of_le (show 0 < 1000 by decide) (le_max_left _ _))
    exact ⟨_, passes, hpasses, rfl⟩

theorem liveEnv_slots {nNodes gpusPerNode nJobs : ℕ} :
    0 < (liveEnv nNodes gpusPerNode nJobs).mpsPerGpu := by
  show 0 < 100
  decide

/-- All the environments of the files have one shape. -/
theorem liveEnv_dims (nNodes gpusPerNode nJobs : ℕ) :
    obsDim (liveEnv nNodes gpusPerNode nJobs) = obsDim (liveEnv nNodes gpusPerNode 0) ∧
      (liveEnv nNodes gpusPerNode nJobs).nActions = (liveEnv nNodes gpusPerNode 0).nActions := by
  constructor
  · unfold obsDim EnvConfig.nPlacements liveEnv
    rfl
  · unfold EnvConfig.nActions EnvConfig.nModes liveEnv
    rfl

variable (num rand f32 scheduler) in
theorem exists_demos (nNodes gpusPerNode : ℕ) (nJobs : ℤ) (files : List (String × List TraceJob)) :
    ∃ demos,
      List.Forall₂ (FileAdds num rand f32 scheduler nNodes gpusPerNode nJobs) files demos := by
  induction files with
  | nil => exact ⟨[], .nil⟩
  | cons file files ih =>
    obtain ⟨adds, hfile⟩ := exists_fileAdds nNodes gpusPerNode nJobs file
    obtain ⟨demos, hdemos⟩ := ih
    exact ⟨adds :: demos, .cons hfile hdemos⟩

/-- What a file demonstrates goes to the buffer, as far as there is room, and the
files after it are played on what it left. -/
theorem playFiles_file {nNodes gpusPerNode : ℕ} {nJobs : ℤ} {fp : String} {jobs : List TraceJob}
    {shown : List AddArgs}
    (hfile : FileAdds num rand f32 scheduler nNodes gpusPerNode nJobs (fp, jobs) shown)
    (hplayable : ∀ j ∈ jobs, Playable j) {capacity : ℕ} {adds : List AddArgs} {buf : ReplayBuffer}
    (hlength : adds.length ≤ capacity)
    (hheld : Held f32 (obsDim (liveEnv nNodes gpusPerNode 0))
      (liveEnv nNodes gpusPerNode 0).nActions capacity adds buf) :
    ∃ buf', Held f32 (obsDim (liveEnv nNodes gpusPerNode 0)) (liveEnv nNodes gpusPerNode 0).nActions
        capacity (adds ++ shown.take (capacity - adds.length)) buf' ∧
      ∀ fuel ≥ capacity, ∀ files,
        playFiles num rand f32 scheduler nNodes gpusPerNode nJobs fuel ((fp, jobs) :: files) buf =
          if firstJobs nJobs jobs ≠ [] ∧ buf'.size ≥ buf'.capacity then .ok (some buf')
          else playFiles num rand f32 scheduler nNodes gpusPerNode nJobs fuel files buf' := by
  unfold FileAdds at hfile
  dsimp only at hfile
  split at hfile
  · rename_i hempty
    subst hfile
    refine ⟨buf, ?_, fun fuel _ files => ?_⟩
    · rwa [List.take_nil, List.append_nil]
    · rw [playFiles, if_pos hempty, if_neg fun h => h.1 hempty]
  rename_i hsome
  obtain ⟨passes, hpasses, rfl⟩ := hfile
  have hfew : ∀ j ∈ firstJobs nJobs jobs, Playable j := by
    unfold firstJobs
    split
    · exact fun j hj => hplayable j (List.mem_of_mem_take hj)
    · exact hplayable
  obtain ⟨hobs, hactions⟩ := liveEnv_dims nNodes gpusPerNode (firstJobs nJobs jobs).length
  rw [← hobs, ← hactions] at hheld
  obtain ⟨buf', hplay, hheld'⟩ := play_holds hpasses liveEnv_slots (start_observed _)
    (start_kept num rand hfew) hlength hheld
  rw [hobs, hactions] at hheld'
  refine ⟨buf', hheld', fun fuel hfuel files => ?_⟩
  have hdims : ¬ ((obsDim (liveEnv nNodes gpusPerNode (firstJobs nJobs jobs).length) ≠
      buf.obsDim || (liveEnv nNodes gpusPerNode (firstJobs nJobs jobs).length).nActions ≠
      buf.nActions) = true) := by
    rw [hheld.obsDim_eq, hheld.nActions_eq]
    simp
  rw [if_congr (and_iff_right hsome) rfl rfl, playFiles, if_neg hsome]
  dsimp only
  rw [if_neg hdims, observed_ok (start_kept num rand hfew)]
  show (play num rand f32 scheduler fuel _ buf >>= _) = _
  rw [hplay fuel (by omega)]
  rfl

/-- The files' episodes are played one after the other, as far as there is room. -/
theorem playFiles_holds {nNodes gpusPerNode : ℕ} {nJobs : ℤ} {files : List (String × List TraceJob)}
    {demos : List (List AddArgs)}
    (h : List.Forall₂ (FileAdds num rand f32 scheduler nNodes gpusPerNode nJobs) files demos)
    (hplayable : ∀ file ∈ files, ∀ j ∈ file.2, Playable j) {capacity : ℕ} {adds : List AddArgs}
    {buf : ReplayBuffer} (hlength : adds.length ≤ capacity)
    (hheld : Held f32 (obsDim (liveEnv nNodes gpusPerNode 0))
      (liveEnv nNodes gpusPerNode 0).nActions capacity adds buf) :
    ∃ b, (∀ fuel ≥ capacity, playFiles num rand f32 scheduler nNodes gpusPerNode nJobs fuel
        files buf = .ok (some b)) ∧
      Held f32 (obsDim (liveEnv nNodes gpusPerNode 0)) (liveEnv nNodes gpusPerNode 0).nActions
        capacity (adds ++ demos.flatten.take (capacity - adds.length)) b := by
  induction h generalizing adds buf with
  | nil =>
    refine ⟨buf, fun fuel _ => rfl, ?_⟩
    rwa [List.flatten_nil, List.take_nil, List.append_nil]
  | @cons file shown files demos hfile _ ih =>
    obtain ⟨hjobs, hplayable⟩ := List.forall_mem_cons.mp hplayable
    obtain ⟨buf', hheld', hturn⟩ := playFiles_file hfile hjobs hlength hheld
    have hlength' : (adds ++ shown.take (capacity - adds.length)).length =
        adds.length + min (capacity - adds.length) shown.length := by
      rw [List.length_append, List.length_take]
    -- Of the later files, there is room for what this one left.
    have hsplit : adds ++ (shown :: demos).flatten.take (capacity - adds.length) =
        adds ++ shown.take (capacity - adds.length) ++ demos.flatten.take
          (capacity - (adds ++ shown.take (capacity - adds.length)).length) := by
      rw [List.flatten_cons, List.take_append, ← List.append_assoc, hlength']
      congr 2
      omega
    rw [hsplit]
    obtain ⟨b, hrest, hheld''⟩ := ih hplayable (by omega) hheld'
    by_cases hfull : firstJobs nJobs file.2 ≠ [] ∧ buf'.size ≥ buf'.capacity
    · refine ⟨buf', fun fuel hfuel => ?_, ?_⟩
      · rw [hturn fuel hfuel, if_pos hfull]
      · have hlast := hfull.2
        rw [hheld'.size, hheld'.capacity_eq] at hlast
        rw [Nat.sub_eq_zero_of_le (le_min_iff.mp hlast).1, List.take_zero, List.append_nil]
        exact hheld'
    · refine ⟨b, fun fuel hfuel => ?_, hheld''⟩
      rw [hturn fuel hfuel, if_neg hfull]
      exact hrest fuel hfuel

theorem fileAdds_masked {nNodes gpusPerNode : ℕ} {nJobs : ℤ} {file : String × List TraceJob}
    {adds : List AddArgs}
    (h : FileAdds num rand f32 scheduler nNodes gpusPerNode nJobs file adds) :
    ∀ a ∈ adds, Masked a.1 := by
  unfold FileAdds at h
  dsimp only at h
  split at h
  · rw [h]
    exact fun a ha => absurd ha List.not_mem_nil
  · obtain ⟨passes, -, rfl⟩ := h
    intro a ha
    obtain ⟨p, -, rfl⟩ := List.mem_map.mp ha
    exact moved_masked _ _

/-- The files are replayed without an error: the buffer holds what their episodes
demonstrate, each from its start to its last step and in the order of the files, as
far as there is room. -/
def Replayed (num : Numeric) (rand : Random G) (f32 : PyFloat → PyFloat)
    (capacity nNodes gpusPerNode : ℕ) (nJobs : ℤ) (files : List (String × List TraceJob)) : Prop :=
  let env := liveEnv nNodes gpusPerNode 0
  ∃ (demos : List (List AddArgs)) (b : ReplayBuffer),
    List.Forall₂ (FileAdds num rand f32 {} nNodes gpusPerNode nJobs) files demos ∧
    (∀ fuel ≥ capacity, loadLiveTraceRollouts num rand f32 (obsDim env) env.nActions capacity
      nNodes gpusPerNode nJobs fuel files = .ok (some b)) ∧
    b.size = min demos.flatten.length capacity ∧
    HoldsLast f32 (demos.flatten.take capacity) b

theorem replayed_of_playable (num : Numeric) (rand : Random G) (f32 : PyFloat → PyFloat)
    (capacity nNodes gpusPerNode : ℕ) (nJobs : ℤ) {files : List (String × List TraceJob)}
    (hplayable : ∀ file ∈ files, ∀ j ∈ file.2, Playable j) :
    Replayed num rand f32 capacity nNodes gpusPerNode nJobs files := by
  obtain ⟨demos, hdemos⟩ := exists_demos num rand f32 {} nNodes gpusPerNode nJobs files
  obtain ⟨b, hplay, hheld⟩ := playFiles_holds hdemos hplayable (Nat.zero_le capacity) new_held
  rw [List.nil_append, List.length_nil, Nat.sub_zero] at hheld
  refine ⟨demos, b, hdemos, hplay, ?_, hheld.holdsLast fun a ha => ?_⟩
  · rw [hheld.size, List.length_take]
    omega
  · obtain ⟨adds, hadds, ha⟩ := List.mem_flatten.mp (List.mem_of_mem_take ha)
    obtain ⟨i, hi, rfl⟩ := List.mem_iff_getElem.mp hadds
    have hfile := (List.forall₂_iff_get.mp hdemos).2 i (by rw [hdemos.length_eq]; exact hi) hi
    exact fileAdds_masked hfile a ha

/-- Files whose jobs ask for a slot and have runtimes above `-1` are replayed. -/
theorem demonstrated (num : Numeric) (rand : Random G) (f32 : PyFloat → PyFloat)
    (capacity nNodes gpusPerNode : ℕ) (nJobs : ℤ) (files : List (String × List TraceJob))
    (hplayable : ∀ file ∈ files, ∀ j ∈ file.2, 1 ≤ j.mpsReq ∧ -1 < j.runtime) :
    Replayed num rand f32 capacity nNodes gpusPerNode nJobs files :=
  replayed_of_playable num rand f32 capacity nNodes gpusPerNode nJobs hplayable

/-- The jobs of a trace that was collected from the cluster and loaded. -/
def Collected (rt : Runtime) (timestamp : String → Option ℚ) (jobs : List TraceJob) : Prop :=
  ∃ includeCpu relativeTime completedOnly maxLiveWait rows trace stats,
    LiveTrace.sacctToNormalized rt timestamp includeCpu 1 relativeTime rows = .ok (trace, stats) ∧
    jobs = (LiveTrace.filterJobs completedOnly maxLiveWait trace).map LiveTrace.jobFromDict

theorem Collected.playable {rt : Runtime} {timestamp : String → Option ℚ} {jobs : List TraceJob}
    (h : Collected rt timestamp jobs) : ∀ j ∈ jobs, Playable j := by
  obtain ⟨includeCpu, relativeTime, completedOnly, maxLiveWait, rows, trace, stats, htrace, rfl⟩ := h
  intro j hj
  obtain ⟨item, hitem, rfl⟩ := List.mem_map.mp hj
  have hnormal := sacct_normal htrace item (filterJobs_subset hitem)
  exact ⟨hnormal.mpsReq, lt_of_lt_of_le (by norm_num) hnormal.runtime⟩

/-- Traces that were collected from the cluster, whatever `sacct` printed, are
replayed. -/
theorem trace_demonstrated (num : Numeric) (rand : Random G) (f32 : PyFloat → PyFloat)
    (rt : Runtime) (timestamp : String → Option ℚ) (capacity nNodes gpusPerNode : ℕ) (nJobs : ℤ)
    (files : List (String × List TraceJob))
    (hcollected : ∀ file ∈ files, Collected rt timestamp file.2) :
    Replayed num rand f32 capacity nNodes gpusPerNode nJobs files :=
  replayed_of_playable num rand f32 capacity nNodes gpusPerNode nJobs fun file hfile =>
    (hcollected file hfile).playable

end Demonstrate

/-- A trace of two jobs, each of half a GPU, and one without jobs. -/
def twoFiles : List (String × List TraceJob) :=
  [("a.json", [⟨⟨"1", 1, 50, 1⟩, "rtx4070", 0, 60, "batch", 0⟩,
    ⟨⟨"2", 1, 50, 1⟩, "rtx4070", 30, 60, "batch", 0⟩]), ("b.json", [])]

theorem demonstrated_twoFiles :
    (∀ file ∈ twoFiles, ∀ j ∈ file.2, 1 ≤ j.mpsReq ∧ -1 < j.runtime) ∧
      Replayed linear noNoise id 8 1 2 1 twoFiles := by
  have hplayable : ∀ file ∈ twoFiles, ∀ j ∈ file.2, 1 ≤ j.mpsReq ∧ -1 < j.runtime := by decide
  exact ⟨hplayable, demonstrated linear noNoise id 8 1 2 1 twoFiles hplayable⟩

/-- What is loaded of the rows' trace. -/
def sacctJobs : List TraceJob :=
  match LiveTrace.sacctToNormalized sacctRuntime sacctClock false 1 true sacctRows with
  | .ok (trace, _) => (LiveTrace.filterJobs true 30 trace).map LiveTrace.jobFromDict
  | .error _ => []

theorem sacctJobs_collected : Collected sacctRuntime sacctClock sacctJobs := by
  have hok : (LiveTrace.sacctToNormalized sacctRuntime sacctClock false 1 true
    sacctRows).isOk = true := by decide +kernel
  unfold sacctJobs
  cases hresult : LiveTrace.sacctToNormalized sacctRuntime sacctClock false 1 true sacctRows with
  | error e =>
    rw [hresult] at hok
    cases hok
  | ok result => exact ⟨false, true, true, 30, sacctRows, result.1, result.2, hresult, rfl⟩

theorem trace_demonstrated_sacctJobs :
    (∀ file ∈ [("live.json", sacctJobs)], Collected sacctRuntime sacctClock file.2) ∧
      Replayed linear noNoise id 8 1 2 0 [("live.json", sacctJobs)] := by
  have hcollected : ∀ file ∈ [("live.json", sacctJobs)],
      Collected sacctRuntime sacctClock file.2 := by
    intro file hfile
    rw [List.mem_singleton.mp hfile]
    exact sacctJobs_collected
  exact ⟨hcollected, trace_demonstrated linear noNoise id sacctRuntime sacctClock 8 1 2 0
    [("live.json", sacctJobs)] hcollected⟩

end Kelpflux.Proof.Scheduler
