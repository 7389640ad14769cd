import Kelpflux.Impl.Scheduler.Rollouts
import Kelpflux.Proof.Scheduler.LiveObs
import Kelpflux.Proof.Scheduler.Ring
import Kelpflux.Proof.Sim.Ablation

/-!
# What the offline buffer is filled with

A step of the environment makes a transition of the buffer's shape, with both
masks (`moved_shaped`). Each turn of the random collector's loop adds one, so it
ends with a full buffer of one run's steps (`rollouts_collected`).
-/

namespace Kelpflux.Proof.Scheduler

open Framework Framework.Python Impl.Sim Impl.Scheduler Impl.Scheduler.Replay
  Impl.Scheduler.Rollouts Proof.Sim

/-! ## Full buffers of masked transitions -/

section Masked

variable {f32 : PyFloat → PyFloat} {obsDim nActions capacity : ℕ} {adds : List AddArgs}
  {b : ReplayBuffer}

/-- A transition with both masks. -/
def Masked (t : Transition) : Prop := t.mask ≠ none ∧ t.nextMask ≠ none

theorem Held.holdsLast (h : Held f32 obsDim nActions capacity adds b)
    (hmasked : ∀ a ∈ adds, Masked a.1) : HoldsLast f32 adds b := by
  refine h.holds_iff_omitted.mpr ⟨fun k a hk _ hnone => ?_, fun k a hk _ hnone => ?_⟩
  · exact absurd hnone (hmasked a (List.mem_of_getElem? hk)).1
  · exact absurd hnone (hmasked a (List.mem_of_getElem? hk)).2

end Masked

/-! ## The transition of a step -/

section Step

variable {G : Type} {num : Numeric} {rand : Random G} {f32 : PyFloat → PyFloat} {env : EnvConfig}

/-- The last observation is that of the state. -/
def Observed (num : Numeric) (e : Episode G env) : Prop :=
  e.obs = buildObs num env e.state.run.cluster e.state.run.pending e.state.run.now

theorem gpuFeats_length (c : Cluster env.toConfig) :
    (gpuFeats c).length = env.nPlacements * gpuFeatDim := by
  have hblock : ∀ xs ∈ (List.finRange env.nNodes).flatMap fun ni =>
      (List.finRange env.gpusPerNode).map fun gi => gpuFeat env c ni gi,
      xs.length = gpuFeatDim := by
    intro xs hxs
    obtain ⟨ni, -, hxs⟩ := List.mem_flatMap.mp hxs
    obtain ⟨gi, -, rfl⟩ := List.mem_map.mp hxs
    exact gpuFeat_length c ni gi
  have hcount : ((List.finRange env.nNodes).flatMap fun ni =>
      (List.finRange env.gpusPerNode).map fun gi => gpuFeat env c ni gi).length =
      env.nPlacements := by
    simp [List.length_flatMap, EnvConfig.nPlacements]
  unfold gpuFeats
  rw [List.length_flatten, List.map_congr_left hblock, List.map_const', List.sum_replicate, hcount,
    nsmul_eq_mul, Nat.cast_id]

theorem buildObs_length (c : Cluster env.toConfig) (pending : List TraceJob) (now : ℚ) :
    (buildObs num env c pending now).length = obsDim env := by
  rw [buildObs_eq, List.length_append, List.length_append, List.length_append, jobFeats_length,
    gpuFeats_length]
  rfl

theorem actionMask_length (st : RunState env) : (actionMask st).length = env.nActions := by
  rw [actionMask, List.length_map, List.length_range]

/-- The episode after a step. -/
def goesTo (num : Numeric) (rand : Random G) (e : Episode G env) (act : ℕ) : Episode G env :=
  ⟨(step num rand e.state act).1, (step num rand e.state act).2.obs⟩

/-- The transition of an action. -/
def moved (num : Numeric) (rand : Random G) (f32 : PyFloat → PyFloat) (e : Episode G env)
    (act : ℕ) : Transition := transition f32 e act (step num rand e.state act)

theorem start_observed (jobs : List TraceJob) : Observed num (Episode.start num rand env jobs) :=
  rfl

theorem goesTo_observed (e : Episode G env) (act : ℕ) : Observed num (goesTo num rand e act) :=
  rfl

theorem moved_masked (e : Episode G env) (act : ℕ) : Masked (moved num rand f32 e act) :=
  ⟨nofun, nofun⟩

theorem moved_shaped {e : Episode G env} (h : Observed num e) (act : ℕ) :
    RowShaped (obsDim env) env.nActions (moved num rand f32 e act) where
  obs := by
    show (e.obs.map _).length = _
    rw [h, List.length_map, buildObs_length]
  nextObs := by
    show ((step num rand e.state act).2.obs.map _).length = _
    rw [List.length_map]
    exact buildObs_length _ _ _
  mask m hm := by
    obtain rfl := Option.some.inj hm
    exact actionMask_length _
  nextMask m hm := by
    obtain rfl := Option.some.inj hm
    exact actionMask_length _

end Step

/-! ## The random collector -/

section Collect

variable {G H : Type} (num : Numeric) (rand : Random G) (f32 : PyFloat → PyFloat) {env : EnvConfig}

/-- The episodes of a run, each with the action taken in it, and the one that the
run is in. -/
inductive Rollout : List (Episode G env × ℕ) → Episode G env → Prop where
  | start {jobs : List TraceJob} (hfits : ∀ j ∈ jobs, j.gpuCount ≤ env.nPlacements) :
    Rollout [] (Episode.start num rand env jobs)
  | goOn {passes : List (Episode G env × ℕ)} {e : Episode G env} {act : ℕ} (h : Rollout passes e)
    (hlegal : (actionMask e.state.run)[act]? = some true)
    (hlive : (moved num rand f32 e act).done = false) :
    Rollout (passes ++ [(e, act)]) (goesTo num rand e act)
  | startOver {passes : List (Episode G env × ℕ)} {e : Episode G env} {act : ℕ}
    {jobs : List TraceJob} (h : Rollout passes e)
    (hlegal : (actionMask e.state.run)[act]? = some true)
    (hdone : (moved num rand f32 e act).done = true)
    (hfits : ∀ j ∈ jobs, j.gpuCount ≤ env.nPlacements) :
    Rollout (passes ++ [(e, act)]) (Episode.start num rand env jobs)

/-- The adds of a run. -/
def addsOf (passes : List (Episode G env × ℕ)) : List AddArgs :=
  passes.map fun p => (moved num rand f32 p.1 p.2, .fin (99 / 100))

variable {num rand f32}

theorem Rollout.observed {passes : List (Episode G env × ℕ)} {e : Episode G env}
    (h : Rollout num rand f32 passes e) : Observed num e := by
  cases h with
  | start => exact start_observed _
  | goOn => exact goesTo_observed _ _
  | startOver => exact start_observed _

variable (src : Source H)

/-- Some action is always legal, the no-op. -/
theorem choice_legal (st : RunState env) (rng : H) :
    let legal := (List.range (actionMask st).length).filter fun a => (actionMask st)[a]? = some true
    legal ≠ [] ∧ (actionMask st)[(src.choice legal rng).1]? = some true := by
  intro legal
  have hnoOp : env.noOp ∈ legal := by
    refine List.mem_filter.mpr ⟨List.mem_range.mpr ?_, ?_⟩
    · rw [actionMask_length]
      exact noOp_lt
    · exact decide_eq_true (actionMask_getElem.mpr (.inl rfl))
  have hne : legal ≠ [] := List.ne_nil_of_mem hnoOp
  exact ⟨hne, of_decide_eq_true (List.mem_filter.mp (src.choice_mem legal rng hne)).2⟩

theorem factory_fits (rng : H) : ∀ j ∈ (src.factory env.nPlacements rng).1,
    j.gpuCount ≤ env.nPlacements := by
  intro j hj
  exact of_decide_eq_true (List.mem_filter.mp hj).2

/-- A turn adds the transition of one step of the run. -/
theorem turn_collects {passes : List (Episode G env × ℕ)} {c : Collector G H env} {n : ℕ}
    (hn : 1 ≤ n) (hrun : Rollout num rand f32 passes c.episode)
    (hheld : Held f32 (obsDim env) env.nActions n (addsOf num rand f32 passes) c.buf) :
    ∃ act c', c.turn num rand f32 src = .ok c' ∧
      Rollout num rand f32 (passes ++ [(c.episode, act)]) c'.episode ∧
      Held f32 (obsDim env) env.nActions n (addsOf num rand f32 (passes ++ [(c.episode, act)]))
        c'.buf := by
  obtain ⟨hsome, hlegal⟩ :=
    choice_legal src c.episode.state.run c.rng
  unfold Collector.turn
  dsimp only
  rw [if_neg hsome]
  generalize src.choice _ c.rng = chosen at hlegal ⊢
  obtain ⟨act, rng⟩ := chosen
  dsimp only at hlegal ⊢
  obtain ⟨buf, hadd, hheld'⟩ := hheld.add hn
    (a := (moved num rand f32 c.episode act, .fin (99 / 100))) (moved_shaped hrun.observed act)
  have hadds : addsOf num rand f32 (passes ++ [(c.episode, act)]) =
      addsOf num rand f32 passes ++ [(moved num rand f32 c.episode act, .fin (99 / 100))] :=
    List.map_append
  refine ⟨act, if (moved num rand f32 c.episode act).done then .reset num rand src rng buf
    else ⟨goesTo num rand c.episode act, rng, buf⟩, ?_, ?_, ?_⟩
  · show (c.buf.add f32 (moved num rand f32 c.episode act) (.fin (99 / 100)) >>= _) = _
    rw [hadd]
    rfl
  · split
    · rename_i hdone
      exact .startOver hrun hlegal hdone (factory_fits src rng)
    · rename_i hlive
      exact .goOn hrun hlegal (eq_false_of_ne_true hlive)
  · rw [hadds]
    split
    · exact hheld'
    · exact hheld'

theorem loop_full {c : Collector G H env} {n : ℕ} (h : n ≤ c.buf.size) (fuel : ℕ) :
    c.loop num rand f32 src n fuel = .ok (some c.buf) := by
  cases fuel with
  | zero => rw [Collector.loop, if_neg (by omega)]; rfl
  | succ fuel => rw [Collector.loop, if_neg (by omega)]; rfl

theorem loop_collects {passes : List (Episode G env × ℕ)} {c : Collector G H env} {n : ℕ}
    (hrun : Rollout num rand f32 passes c.episode)
    (hheld : Held f32 (obsDim env) env.nActions n (addsOf num rand f32 passes) c.buf)
    (hlength : passes.length ≤ n) : ∃ (passes' : List (Episode G env × ℕ)) (e : Episode G env)
      (b : ReplayBuffer), (∀ fuel, n ≤ passes.length + fuel →
        c.loop num rand f32 src n fuel = .ok (some b)) ∧
      Rollout num rand f32 passes' e ∧ passes'.length = n ∧
      Held f32 (obsDim env) env.nActions n (addsOf num rand f32 passes') b := by
  have hsize : c.buf.size = passes.length := by
    rw [hheld.size, addsOf, List.length_map, min_eq_left hlength]
  induction hleft : n - passes.length generalizing passes c with
  | zero =>
    have hfull : n ≤ c.buf.size := by omega
    exact ⟨passes, c.episode, c.buf, fun fuel _ => loop_full src hfull fuel, hrun, by omega, hheld⟩
  | succ left ih =>
    obtain ⟨act, c', hturn, hrun', hheld'⟩ := turn_collects src (by omega) hrun hheld
    have hlength' : (passes ++ [(c.episode, act)]).length = passes.length + 1 := List.length_append
    obtain ⟨passes', e, b, hloop, hrest⟩ := ih hrun' hheld' (by omega)
      (by rw [hheld'.size, addsOf, List.length_map]; omega) (by omega)
    refine ⟨passes', e, b, fun fuel hfuel => ?_, hrest⟩
    obtain ⟨more, rfl⟩ : ∃ more, fuel = more + 1 := ⟨fuel - 1, by omega⟩
    rw [Collector.loop, if_pos (by omega), hturn]
    exact hloop more (by omega)

/-- Whatever the generator draws, the collector ends with a full buffer. It holds
the steps of one run, in order: each of a legal action, from where the last one
went or from a new episode after a last one. -/
theorem rollouts_collected (num : Numeric) (rand : Random G) (f32 : PyFloat → PyFloat) (src : Source H)
    (cfg : Config) (nJobs : ℕ) (nodeGpuTypes : List String)
    (h : nodeGpuTypes = [] ∨ cfg.nNodes ≤ nodeGpuTypes.length) (nTransitions : ℕ) (rng : H) :
    ∃ (passes : List (Episode G (simEnv cfg nJobs nodeGpuTypes h) × ℕ))
      (e : Episode G (simEnv cfg nJobs nodeGpuTypes h)) (b : ReplayBuffer),
      (∀ fuel ≥ nTransitions, collectSimRollouts num rand f32 src cfg nJobs nodeGpuTypes h
        nTransitions fuel rng = .ok (some b)) ∧
      Rollout num rand f32 passes e ∧ passes.length = nTransitions ∧ b.size = nTransitions ∧
      HoldsLast f32 (addsOf num rand f32 passes) b := by
  obtain ⟨passes, e, b, hloop, hrun, hlength, hheld⟩ := loop_collects src
    (c := .reset num rand src rng (.new f32 nTransitions (obsDim (simEnv cfg nJobs nodeGpuTypes h))
      (simEnv cfg nJobs nodeGpuTypes h).nActions))
    (.start (factory_fits src rng)) new_held (Nat.zero_le nTransitions)
  refine ⟨passes, e, b, fun fuel hfuel => hloop fuel ?_, hrun, hlength, ?_, hheld.holdsLast ?_⟩
  · rwa [List.length_nil, Nat.zero_add]
  · rw [hheld.size, addsOf, List.length_map, hlength, min_self]
  · intro a ha
    obtain ⟨p, -, rfl⟩ := List.mem_map.mp ha
    exact moved_masked _ _

end Collect

/-- The first legal action, in traces of two jobs of which one fits. -/
def firstLegal : Source ℕ where
  choice legal rng := (legal.headD 0, rng + 1)
  choice_mem legal _ h := by
    cases legal with
    | nil => exact absurd rfl h
    | cons a legal => exact List.mem_cons_self
  seed rng := (rng, rng + 1)
  generate _ := [⟨⟨"1", 1, 50, 1⟩, "rtx4070", 0, 60, "batch", 0⟩,
    ⟨⟨"2", 4, 100, 1⟩, "rtx4070", 30, 60, "batch", 0⟩]

theorem rollouts_collected_firstLegal :
    let env := simEnv (clusterConfig 1 2 100) 2 ["rtx3080"] (.inr (by decide))
    (["rtx3080"] = [] ∨ 1 ≤ ["rtx3080"].length) ∧
      ∃ (passes : List (Episode Unit env × ℕ)) (e : Episode Unit env) (b : ReplayBuffer),
        (∀ fuel ≥ 5, collectSimRollouts linear noNoise id firstLegal (clusterConfig 1 2 100) 2
          ["rtx3080"] (.inr (by decide)) 5 fuel 7 = .ok (some b)) ∧
        Rollout linear noNoise id passes e ∧ passes.length = 5 ∧ b.size = 5 ∧
        HoldsLast id (addsOf linear noNoise id passes) b :=
  ⟨.inr (by decide), rollouts_collected linear noNoise id firstLegal (clusterConfig 1 2 100) 2
    ["rtx3080"] (.inr (by decide)) 5 7⟩

end Kelpflux.Proof.Scheduler
