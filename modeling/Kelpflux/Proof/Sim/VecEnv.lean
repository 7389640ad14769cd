import Kelpflux.Framework.Lockstep
import Kelpflux.Impl.Sim.VecEnv

/-!
# The two vector environments

Without runtime noise a step draws nothing (`step_same`), so that resets and
steps are answered alike. The warmup actions are drawn from one generator in the
one process, and from one generator for each worker: the answers are the same in
a run whose draws agree or do not matter (`replies_same`).
-/

namespace Kelpflux.Proof.Sim

open Framework Impl.Sim Impl.Sim.VecEnv

variable {G : Type} {env : EnvConfig}

/-! ## Without noise -/

/-- The same but for the generator. -/
structure SameEpisode (s s' : EnvState G env) : Prop where
  run : s.run = s'.run
  stepCount : s.stepCount = s'.stepCount
  episodeSeed : s.episodeSeed = s'.episodeSeed
  oomEvents : s.oomEvents = s'.oomEvents

/-- A runtime without noise and OOM penalty. -/
theorem realizedRuntime_off (num : Numeric) (rand rand' : Random G) (hsigma : env.runtimeSigma = 0)
    (hoom : env.oomPenaltyS = 0) (job : TraceJob) (plan : Plan env.toConfig)
    (c : Cluster env.toConfig) (seed : Option Int) (rng rng' : G) :
    realizedRuntime num rand env job plan c seed rng =
      ((realizedRuntime num rand' env job plan c seed rng').1, rng, 0) := by
  have hsigma' : ¬ env.runtimeSigma > 0 := by rw [hsigma]; exact lt_irrefl 0
  have hoom' : ¬ env.oomPenaltyS > 0 := by rw [hoom]; exact lt_irrefl 0
  unfold realizedRuntime
  by_cases hinterference : env.interference > 0
  · simp [hsigma', hoom', hinterference]
  · simp [hsigma', hoom', hinterference]

variable (num : Numeric) (rand rand' : Random G) {s s' : EnvState G env}

theorem place_same (hsigma : env.runtimeSigma = 0) (hoom : env.oomPenaltyS = 0)
    (h : SameEpisode s s') (action : ℕ) :
    SameEpisode (s.place num rand action).1 (s'.place num rand' action).1 ∧
      (s.place num rand action).2 = (s'.place num rand' action).2 := by
  unfold EnvState.place
  rw [h.run, h.episodeSeed]
  dsimp only
  cases s'.run.topKJobs[(decode env action).1]? with
  | none => exact ⟨h, rfl⟩
  | some chosen =>
    dsimp only
    rcases s'.run.cluster.tryAllocateOn chosen.toJob (decode env action).2.1
      (decode env action).2.2.1 with ⟨_ | plan, cluster⟩
    · exact ⟨h, rfl⟩
    · have hleft := realizedRuntime_off num rand rand' hsigma hoom chosen plan cluster
        s'.episodeSeed s.rng s'.rng
      have hright := realizedRuntime_off num rand' rand' hsigma hoom chosen plan cluster
        s'.episodeSeed s'.rng s'.rng
      dsimp only
      rw [hleft, hright]
      refine ⟨⟨rfl, h.stepCount, rfl, ?_⟩, rfl⟩
      show s.oomEvents + 0 = s'.oomEvents + 0
      rw [h.oomEvents]

theorem act_same (hsigma : env.runtimeSigma = 0) (hoom : env.oomPenaltyS = 0)
    (h : SameEpisode s s') (action : ℕ) :
    SameEpisode (s.act num rand action).1 (s'.act num rand' action).1 ∧
      (s.act num rand action).2 = (s'.act num rand' action).2 := by
  unfold EnvState.act
  rw [h.run]
  by_cases hnoOp : action ≠ env.noOp
  · rw [if_pos hnoOp, if_pos hnoOp]
    exact place_same num rand rand' hsigma hoom h action
  · rw [if_neg hnoOp, if_neg hnoOp]
    split
    · exact ⟨h, rfl⟩
    · exact ⟨h, rfl⟩

/-- A step is the same whatever the generator. -/
theorem step_same (hsigma : env.runtimeSigma = 0) (hoom : env.oomPenaltyS = 0)
    (h : SameEpisode s s') (action : ℕ) :
    SameEpisode (step num rand s action).1 (step num rand' s' action).1 ∧
      (step num rand s action).2 = (step num rand' s' action).2 := by
  have hcount : SameEpisode { s with stepCount := s.stepCount + 1 }
      { s' with stepCount := s'.stepCount + 1 } :=
    ⟨h.run, congrArg (· + 1) h.stepCount, h.episodeSeed, h.oomEvents⟩
  obtain ⟨hact, hreward⟩ := act_same num rand rand' hsigma hoom hcount action
  have hnext : SameEpisode (s.next num rand action) (s'.next num rand' action) :=
    ⟨congrArg₂ RunState.goOn hact.run (congrArg Prod.snd hreward), hact.stepCount, hact.episodeSeed,
      hact.oomEvents⟩
  refine ⟨hnext, ?_⟩
  have hplace := congrArg Prod.fst hreward
  unfold step
  dsimp only
  rw [hnext.run, hnext.stepCount, hplace, h.run]

/-! ## One environment -/

variable {lib : Library G} {spec : EnvSpec} {e e' : SubEnv G spec}

/-- The same but for the generator and the entropy to come. -/
structure SameSub (e e' : SubEnv G spec) : Prop where
  factory : e.factory = e'.factory
  state : SameEpisode e.state e'.state

theorem SameSub.mask (h : SameSub e e') : e.mask = e'.mask := by
  unfold SubEnv.mask
  rw [h.state.run]

theorem SameSub.obs (h : SameSub e e') : e.obs lib = e'.obs lib := by
  unfold SubEnv.obs
  rw [h.state.run]

theorem resetOne_same {factory factory' : FamilyJobFactory G} (h : factory = factory')
    (entropy entropy' : ℕ → G) (seed : Option ℤ) :
    SameSub (resetOne lib factory entropy seed : SubEnv G spec)
      (resetOne lib factory' entropy' seed) := by
  subst h
  exact ⟨rfl, rfl, rfl, rfl, rfl⟩

theorem stepOne_same (hsigma : spec.runtimeSigma = 0) (h : SameSub e e') (action : ℕ) :
    SameSub (stepOne lib e action).1 (stepOne lib e' action).1 ∧
      (stepOne lib e action).2 = (stepOne lib e' action).2 := by
  obtain ⟨hstate, hreply⟩ := step_same lib.num (lib.random (e.entropy 0))
    (lib.random (e'.entropy 0)) hsigma rfl h.state action
  have hstepped : SameSub
      { e with state := (step lib.num (lib.random (e.entropy 0)) e.state action).1 }
      { e' with state := (step lib.num (lib.random (e'.entropy 0)) e'.state action).1 } :=
    ⟨h.factory, hstate⟩
  unfold stepOne
  dsimp only
  rw [hreply]
  split
  · have hnext : SameSub (resetOne lib e.factory e.entropy none : SubEnv G spec)
        (resetOne lib e'.factory e'.entropy none) := resetOne_same h.factory _ _ none
    refine ⟨hnext, ?_⟩
    rw [hnext.obs, hnext.mask, hstepped.mask]
  · exact ⟨hstepped, by rw [hstepped.mask]⟩

theorem score_same (h : SameSub e e') (rng : G) :
    scoreWarmupAction lib e rng = scoreWarmupAction lib e' rng := by
  have hlegal : e.legal = e'.legal := by
    unfold SubEnv.legal
    rw [h.mask]
  have hranked : e.ranked lib = e'.ranked lib := by
    unfold SubEnv.ranked
    rw [h.mask, h.state.run]
  unfold scoreWarmupAction
  rw [hlegal, hranked, h.state.run]

/-! ## Warmup actions -/

/-- `rng.choice` chooses among what it is given. -/
def Chooses (lib : Library G) : Prop :=
  ∀ xs rng, xs ≠ [] → (lib.choice xs rng).1 ∈ xs

/-- No draw matters: a ranked job's action is legal, or there is but one action. -/
def Determined (lib : Library G) (e : SubEnv G spec) : Prop :=
  e.legal.length ≤ 1 ∨ (e.state.run.pending ≠ [] ∧ e.ranked lib ≠ none)

theorem choice_singleton (hchooses : Chooses lib) (a : ℕ) (rng : G) :
    (lib.choice [a] rng).1 = a := List.mem_singleton.mp (hchooses [a] rng (List.cons_ne_nil _ _))

theorem score_determined (hchooses : Chooses lib) (h : Determined lib e) (rng rng' : G) :
    (scoreWarmupAction lib e rng).1 = (scoreWarmupAction lib e rng').1 := by
  unfold scoreWarmupAction
  by_cases hnone : e.legal = []
  · rw [if_pos hnone, if_pos hnone]
  rw [if_neg hnone, if_neg hnone]
  rcases h with hone | ⟨hpending, hranked⟩
  · obtain ⟨a, ha⟩ : ∃ a, e.legal = [a] := by
      refine List.length_eq_one_iff.mp ?_
      have := List.length_pos_iff.mpr hnone
      omega
    rw [ha]
    split
    · rw [choice_singleton hchooses, choice_singleton hchooses]
    · dsimp only
      rw [choice_singleton hchooses, choice_singleton hchooses]
  · rw [if_neg hpending, if_neg hpending]
    obtain ⟨a, ha⟩ := Option.ne_none_iff_exists'.mp hranked
    dsimp only
    rw [ha]
    rfl

variable {n : ℕ}

/-- In turn, each environment's draw is its worker's, or does not matter. -/
def DrawsAgree (lib : Library G) (envs : Fin n → SubEnv G spec) (wrng : Fin n → G) :
    List (Fin n) → G → Prop
  | [], _ => True
  | i :: is, rng => (Determined lib (envs i) ∨ rng = wrng i) ∧
      DrawsAgree lib envs wrng is (scoreWarmupAction lib (envs i) rng).2

theorem scoreAll_same (hchooses : Chooses lib) {envs : Fin n → SubEnv G spec}
    {workers : Fin n → Worker G spec} (hsame : ∀ i, SameSub (envs i) (workers i).env)
    {is : List (Fin n)} {rng : G} (h : DrawsAgree lib envs (fun i => (workers i).wrng) is rng) :
    (scoreAll lib envs is rng).1 =
      is.map fun i => (scoreWarmupAction lib (workers i).env (workers i).wrng).1 := by
  induction is generalizing rng with
  | nil => rfl
  | cons i is ih =>
    obtain ⟨hdraw, hrest⟩ := h
    have hact : (scoreWarmupAction lib (envs i) rng).1 =
        (scoreWarmupAction lib (workers i).env (workers i).wrng).1 := by
      rw [← score_same (hsame i)]
      rcases hdraw with hdet | hrng
      · exact score_determined hchooses hdet _ _
      · rw [hrng]
    rw [scoreAll, List.map_cons, ← ih hrest, ← hact]

/-! ## Runs -/

/-- A call's draws agree: only warmup actions are drawn. -/
def CallAgrees (lib : Library G) (vw : SyncVec G spec n × AsyncVec G spec n) : Call n → Prop
  | .scoreActions => DrawsAgree lib vw.1.envs (fun i => (vw.2.workers i).wrng) (List.finRange n)
      vw.1.rng
  | _ => True

/-- The environments of both, one by one. -/
def SameEnvs (v : SyncVec G spec n) (w : AsyncVec G spec n) : Prop :=
  ∀ i, SameSub (v.envs i) (w.workers i).env

theorem call_same (hsigma : spec.runtimeSigma = 0) (hchooses : Chooses lib)
    (v : SyncVec G spec n) (w : AsyncVec G spec n) (c : Call n) (h : SameEnvs v w)
    (hc : CallAgrees lib (v, w) c) :
    SameEnvs (v.call lib c).1 (w.call lib c).1 ∧ (v.call lib c).2 = (w.call lib c).2 := by
  cases c with
  | reset seed =>
    have hreset : ∀ i, SameSub
        (resetOne lib (v.envs i).factory (v.envs i).entropy (subSeed seed i) : SubEnv G spec)
        (resetOne lib (w.workers i).env.factory (w.workers i).env.entropy (subSeed seed i)) :=
      fun i => resetOne_same (h i).factory _ _ _
    refine ⟨hreset, ?_⟩
    unfold SyncVec.call AsyncVec.call resetReply
    dsimp only
    rw [funext fun i => (hreset i).obs, funext fun i => (hreset i).mask]
  | step actions =>
    have hstep : ∀ i, SameSub (stepOne lib (v.envs i) (actions i)).1
        (stepOne lib (w.workers i).env (actions i)).1 ∧
        (stepOne lib (v.envs i) (actions i)).2 = (stepOne lib (w.workers i).env (actions i)).2 :=
      fun i => stepOne_same hsigma (h i) (actions i)
    refine ⟨fun i => (hstep i).1, ?_⟩
    unfold SyncVec.call AsyncVec.call
    dsimp only
    rw [funext fun i => (hstep i).2]
  | scoreActions => exact ⟨h, congrArg Reply.actions (scoreAll_same hchooses h hc)⟩

theorem start_same (entropy entropy' : Fin n → ℕ → G) (seed : Option ℤ) :
    SameEnvs (SyncVec.start lib entropy seed : SyncVec G spec n)
      (AsyncVec.start lib entropy' seed) :=
  fun i => resetOne_same rfl (entropy i) (entropy' i) (subSeed seed i)

/-- The generator of the one process is that of the one worker. -/
def SameRng (v : SyncVec G spec 1) (w : AsyncVec G spec 1) : Prop :=
  SameEnvs v w ∧ v.rng = (w.workers 0).wrng

theorem single_agrees {v : SyncVec G spec 1} {w : AsyncVec G spec 1} (h : SameRng v w)
    (c : Call 1) : CallAgrees lib (v, w) c := by
  cases c with
  | reset seed => trivial
  | step actions => trivial
  | scoreActions => exact ⟨Or.inr h.2, trivial⟩

theorem call_sameRng (hsigma : spec.runtimeSigma = 0) (hchooses : Chooses lib)
    {v : SyncVec G spec 1} {w : AsyncVec G spec 1} (h : SameRng v w) (c : Call 1) :
    SameRng (v.call lib c).1 (w.call lib c).1 := by
  refine ⟨(call_same hsigma hchooses v w c h.1 (single_agrees h c)).1, ?_⟩
  cases c with
  | reset seed => exact h.2
  | step actions => exact h.2
  | scoreActions =>
    show (scoreWarmupAction lib (v.envs 0) v.rng).2 =
      (scoreWarmupAction lib (w.workers 0).env (w.workers 0).wrng).2
    rw [score_same (h.1 0), h.2]

theorem along_of_sameRng (hsigma : spec.runtimeSigma = 0) (hchooses : Chooses lib)
    {v : SyncVec G spec 1} {w : AsyncVec G spec 1} (h : SameRng v w) (calls : List (Call 1)) :
    Along (both (SyncVec.call lib) (AsyncVec.call lib)) (CallAgrees lib) (v, w) calls := by
  induction calls generalizing v w with
  | nil => trivial
  | cons c calls ih =>
    exact ⟨single_agrees h c, ih (call_sameRng hsigma hchooses h c)⟩

theorem start_sameRng (entropy entropy' : Fin 1 → ℕ → G) (seed : Option ℤ) :
    SameRng (SyncVec.start lib entropy seed : SyncVec G spec 1)
      (AsyncVec.start lib entropy' seed) := by
  refine ⟨start_same entropy entropy' seed, ?_⟩
  show lib.newRng (spec.baseSeed + 991) = lib.newRng (spec.baseSeed + 991 + ((0 : ℕ) : ℤ))
  rw [Nat.cast_zero, add_zero]

/-- With one environment every draw agrees. -/
theorem single_along (hsigma : spec.runtimeSigma = 0) (hchooses : Chooses lib)
    (entropy entropy' : Fin 1 → ℕ → G) (seed : Option ℤ) (calls : List (Call 1)) :
    Along (both (SyncVec.call lib) (AsyncVec.call lib)) (CallAgrees lib)
      ((SyncVec.start lib entropy seed : SyncVec G spec 1), AsyncVec.start lib entropy' seed)
      calls :=
  along_of_sameRng hsigma hchooses (start_sameRng entropy entropy' seed) calls

/-- From the first reset on, the vector environments give the same answers in a
run of calls whose draws agree. -/
theorem replies_same (hsigma : spec.runtimeSigma = 0) (hchooses : Chooses lib)
    (entropy entropy' : Fin n → ℕ → G) (seed : Option ℤ) (calls : List (Call n))
    (hagrees : Along (both (SyncVec.call lib) (AsyncVec.call lib)) (CallAgrees lib)
      ((SyncVec.start lib entropy seed : SyncVec G spec n), AsyncVec.start lib entropy' seed)
      calls) :
    resetReply lib (SyncVec.start lib entropy seed : SyncVec G spec n).envs =
      resetReply lib
        (fun i => ((AsyncVec.start lib entropy' seed : AsyncVec G spec n).workers i).env) ∧
    replies (SyncVec.call lib) (SyncVec.start lib entropy seed : SyncVec G spec n) calls =
      replies (AsyncVec.call lib) (AsyncVec.start lib entropy' seed : AsyncVec G spec n) calls := by
  have hstart : SameEnvs (SyncVec.start lib entropy seed : SyncVec G spec n)
      (AsyncVec.start lib entropy' seed) := start_same entropy entropy' seed
  constructor
  · unfold resetReply
    rw [funext fun i => (hstart i).obs, funext fun i => (hstart i).mask]
  · exact replies_eq (fun v w c h hc => call_same hsigma hchooses v w c h hc) hstart hagrees

/-! ## Two environments -/

/-- The generators count up by two, and each trace is two jobs that do not
fit on one GPU. -/
def counting : Library ℕ where
  newRng seed := seed.toNat
  integers lo _ rng := (lo, rng + 2)
  choice xs rng := (xs.getD (rng % xs.length) 0, rng + 2)
  standardNormal rng := (0, rng + 2)
  keyedNormal _ := 0
  crc32 _ := 0
  generateByFamily _ _ _ :=
    [⟨⟨"a", 1, 60, 1⟩, "rtx4070", 0, 60, "batch", 0⟩,
      ⟨⟨"b", 1, 60, 1⟩, "rtx4070", 0, 90, "batch", 0⟩]
  order _ pending _ _ := pending
  num := ⟨id, id, id, id, id, 3⟩

/-- Two nodes of a GPU. -/
def pairSpec : EnvSpec where
  families := ["philly"]
  nJobs := 2
  totalGpus := 2
  nNodes := 2

theorem counting_chooses : Chooses counting := by
  intro xs rng hxs
  have hlt : rng % xs.length < xs.length := Nat.mod_lt _ (List.length_pos_iff.mpr hxs)
  show xs.getD (rng % xs.length) 0 ∈ xs
  rw [List.getD_eq_getElem?_getD, List.getElem?_eq_getElem hlt, Option.getD_some]
  exact List.getElem_mem hlt

def acts {n : ℕ} : Reply n → List ℕ
  | .actions acts => acts
  | _ => []

/-- Before a job is placed, the highest ranked one is packed on the first node
in both. -/
theorem warmup_same :
    resetReply counting (SyncVec.start counting (fun _ k => k) (some 7) :
      SyncVec ℕ pairSpec 2).envs =
      resetReply counting (fun i => ((AsyncVec.start counting (fun _ k => k) (some 7) :
        AsyncVec ℕ pairSpec 2).workers i).env) ∧
    replies (SyncVec.call counting)
      (SyncVec.start counting (fun _ k => k) (some 7) : SyncVec ℕ pairSpec 2)
      [.scoreActions, .step fun _ => 0] =
    replies (AsyncVec.call counting)
      (AsyncVec.start counting (fun _ k => k) (some 7) : AsyncVec ℕ pairSpec 2)
      [.scoreActions, .step fun _ => 0] := by
  have hranked : ∀ i, Determined counting
      ((SyncVec.start counting (fun _ k => k) (some 7) : SyncVec ℕ pairSpec 2).envs i) := by
    unfold Determined
    decide +kernel
  exact replies_same rfl counting_chooses (fun _ k => k) (fun _ k => k) (some 7) _
    ⟨⟨Or.inl (hranked 0), Or.inl (hranked 1), trivial⟩, trivial, trivial⟩

/-- Once a job is on the first node, the other's action is drawn: from one
generator in turn, and from one for each worker. -/
theorem warmup_differs :
    replies (SyncVec.call counting)
      (SyncVec.start counting (fun _ k => k) none : SyncVec ℕ pairSpec 2)
      [.step fun _ => 0, .scoreActions] ≠
    replies (AsyncVec.call counting)
      (AsyncVec.start counting (fun _ k => k) none : AsyncVec ℕ pairSpec 2)
      [.step fun _ => 0, .scoreActions] := by
  intro h
  have hacts := congrArg (List.map acts) h
  revert hacts
  decide +kernel

end Kelpflux.Proof.Sim
