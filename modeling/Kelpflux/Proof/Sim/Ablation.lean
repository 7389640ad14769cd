import Kelpflux.Impl.Scheduler.Serve
import Kelpflux.Impl.Sim.Ablation
import Kelpflux.Proof.Sim.Codec

/-!
# One axis of the action space

The environment's codec, the policy server's response and the ablation masks
take the same actions apart (`decode_encode`, `respond_decode`), so that an
ablation keeps some of the placements that are legal, and one at least
(`mem_kept`, `kept_nonempty`). Actions grow with the GPU and the mode, and to
pack a job is legal wherever it fits: with one placement for each job left, that
is its first GPU, packed (`firstOfJobs_iff`).
-/

namespace Kelpflux.Proof.Sim

open Framework Kelpflux.Impl.Sim

/-! ## The first of each key -/

section First

variable {f : ℕ → ℕ}

theorem values_set_of_notMem {d : Dict ℕ ℕ} {k : ℕ} (h : k ∉ d.keys) (v : ℕ) :
    (d.set k v).values = d.values ++ [v] := by
  rw [Dict.set_of_notMem h, Dict.values, List.map_append]
  rfl

/-- What a fold keeps that takes an item only if its key is new. -/
theorem mem_foldl_first (xs : List ℕ) (d : Dict ℕ ℕ) (a : ℕ) :
    a ∈ (xs.foldl (fun kept a => if f a ∈ kept.keys then kept else kept.set (f a) a) d).values ↔
      a ∈ d.values ∨ f a ∉ d.keys ∧
        ∃ before after, xs = before ++ a :: after ∧ ∀ b ∈ before, f b ≠ f a := by
  induction xs generalizing d with
  | nil => simp
  | cons x xs ih =>
    rw [List.foldl_cons]
    split
    · rename_i hx
      rw [ih]
      refine or_congr_right (and_congr_right fun ha => ?_)
      have hne : f x ≠ f a := fun h => ha (h ▸ hx)
      constructor
      · rintro ⟨before, after, rfl, hbefore⟩
        exact ⟨x :: before, after, rfl, List.forall_mem_cons.mpr ⟨hne, hbefore⟩⟩
      · rintro ⟨before, after, hxs, hbefore⟩
        cases before with
        | nil => exact absurd (congrArg f (List.cons.inj hxs).1) hne
        | cons y before =>
          exact ⟨before, after, (List.cons.inj hxs).2, fun b hb =>
            hbefore b (List.mem_cons_of_mem _ hb)⟩
    · rename_i hx
      rw [ih, values_set_of_notMem hx, List.mem_append, List.mem_singleton, or_assoc]
      refine or_congr_right ?_
      constructor
      · rintro (rfl | ⟨ha, before, after, rfl, hbefore⟩)
        · exact ⟨hx, [], xs, rfl, fun b hb => absurd hb List.not_mem_nil⟩
        · rw [Dict.mem_keys_set, not_or] at ha
          exact ⟨ha.1, x :: before, after, rfl,
            List.forall_mem_cons.mpr ⟨fun h => ha.2 h.symm, hbefore⟩⟩
      · rintro ⟨ha, before, after, hxs, hbefore⟩
        cases before with
        | nil => exact .inl (List.cons.inj hxs).1.symm
        | cons y before =>
          obtain ⟨rfl, hrest⟩ := List.cons.inj hxs
          refine .inr ⟨?_, before, after, hrest, fun b hb => hbefore b (List.mem_cons_of_mem _ hb)⟩
          rw [Dict.mem_keys_set, not_or]
          exact ⟨ha, fun h => hbefore x List.mem_cons_self h.symm⟩

/-- In an ascending list the first of a key is the least. -/
theorem first_iff_least {xs : List ℕ} (hsorted : xs.Pairwise (· < ·)) (a : ℕ) :
    (∃ before after, xs = before ++ a :: after ∧ ∀ b ∈ before, f b ≠ f a) ↔
      a ∈ xs ∧ ∀ b ∈ xs, f b = f a → a ≤ b := by
  constructor
  · rintro ⟨before, after, rfl, hbefore⟩
    refine ⟨by simp, fun b hb hkey => ?_⟩
    rcases List.mem_append.mp hb with hb | hb
    · exact absurd hkey (hbefore b hb)
    · rcases List.mem_cons.mp hb with rfl | hb
      · exact Nat.le_refl _
      · exact ((List.pairwise_cons.mp (List.pairwise_append.mp hsorted).2.1).1 b hb).le
  · rintro ⟨ha, hleast⟩
    obtain ⟨before, after, rfl⟩ := List.append_of_mem ha
    refine ⟨before, after, rfl, fun b hb hkey => ?_⟩
    have hle := hleast b (List.mem_append_left _ hb) hkey
    have hlt := (List.pairwise_append.mp hsorted).2.2 b hb a List.mem_cons_self
    exact absurd hle (not_le.mpr hlt)

end First

/-! ## Masks -/

variable {env : EnvConfig} {st : RunState env} {mask : List Bool} {kept : List ℕ} {a : ℕ}

theorem mem_legalPlacements : a ∈ legalPlacements env mask ↔ mask[a]? = some true ∧ a ≠ env.noOp := by
  unfold legalPlacements
  rw [List.mem_filter, List.mem_range, decide_eq_true_iff, and_iff_right_iff_imp]
  rintro ⟨ha, -⟩
  exact (List.getElem?_eq_some_iff.mp ha).1

theorem legalPlacements_sorted : (legalPlacements env mask).Pairwise (· < ·) :=
  List.pairwise_lt_range.filter _

theorem noOp_lt : env.noOp < env.nActions := Nat.sub_lt (Nat.succ_pos _) Nat.one_pos

theorem actionMask_getElem :
    (actionMask st)[a]? = some true ↔ a = env.noOp ∨ a ∈ legalActions st := by
  by_cases hlt : a < env.nActions
  · exact mask_getElem hlt
  · rw [mask_length_le (not_lt.mp hlt)]
    refine iff_of_false nofun fun h => hlt ?_
    rcases h with rfl | ha
    · exact noOp_lt
    · exact (legalActions_lt ha).trans noOp_lt

theorem mem_legalPlacements_actionMask :
    a ∈ legalPlacements env (actionMask st) ↔ a ∈ legalActions st := by
  rw [mem_legalPlacements, actionMask_getElem]
  constructor
  · rintro ⟨h, hne⟩
    exact h.resolve_left hne
  · exact fun ha => ⟨.inr ha, (legalActions_lt ha).ne⟩

theorem keepOnly_getElem : (keepOnly env mask kept)[a]? = some true ↔
    a < mask.length ∧ (a ∈ kept ∨ a = env.noOp) := by
  unfold keepOnly
  by_cases ha : a < mask.length
  · simp [ha]
  · simp [ha]

/-! ## What an ablation keeps -/

section Kept

variable (num : Numeric) (scoreSched : ScoreScheduler) (top : List TraceJob) {legal : List ℕ}

theorem mem_firstOfJobs (hsorted : legal.Pairwise (· < ·)) : a ∈ (firstOfJobs env legal).values ↔
    a ∈ legal ∧ ∀ b ∈ legal, (decode env b).1 = (decode env a).1 → a ≤ b := by
  rw [← first_iff_least (f := fun a => (decode env a).1) hsorted]
  refine (mem_foldl_first (f := fun a => (decode env a).1) legal [] a).trans ?_
  constructor
  · rintro (h | ⟨-, h⟩)
    · exact absurd h List.not_mem_nil
    · exact h
  · exact fun h => .inr ⟨List.not_mem_nil, h⟩

/-- The job that is kept has a legal placement. -/
theorem head_mem (st : RunState env) (hlegal : legal ≠ []) :
    ∃ a ∈ legal, (decode env a).1 = ablationHeadIndex num scoreSched st top legal := by
  unfold ablationHeadIndex
  dsimp only
  generalize hpicked : List.findSome? _ _ = picked
  cases picked with
  | none =>
    obtain ⟨a, rest, rfl⟩ := List.exists_cons_of_ne_nil hlegal
    exact ⟨a, List.mem_cons_self, rfl⟩
  | some idx =>
    obtain ⟨job, -, hjob⟩ := List.exists_of_findSome?_eq_some hpicked
    split at hjob
    · split at hjob
      · rename_i hmem
        obtain rfl := Option.some.inj hjob
        obtain ⟨a, ha, hidx⟩ := List.mem_map.mp hmem
        exact ⟨a, ha, hidx⟩
      · cases hjob
    · cases hjob

/-- The placements of an ablation. -/
def keptBy (num : Numeric) (scoreSched : ScoreScheduler) (mode : AblationMode) (st : RunState env)
    (top : List TraceJob) (legal : List ℕ) : List ℕ :=
  match mode with
  | .jobOnly => (firstOfJobs env legal).values
  | .placementOnly =>
    legal.filter fun a => (decode env a).1 = ablationHeadIndex num scoreSched st top legal

theorem keptBy_subset (st : RunState env) (mode : AblationMode) (hsorted : legal.Pairwise (· < ·)) :
    keptBy num scoreSched mode st top legal ⊆ legal := by
  cases mode with
  | jobOnly => exact fun a ha => ((mem_firstOfJobs hsorted).mp ha).1
  | placementOnly => exact List.filter_subset_self _

theorem keptBy_nonempty (st : RunState env) (mode : AblationMode) (hsorted : legal.Pairwise (· < ·)) (hlegal : legal ≠ []) :
    ∃ a, a ∈ keptBy num scoreSched mode st top legal := by
  cases mode with
  | jobOnly =>
    obtain ⟨a, rest, rfl⟩ := List.exists_cons_of_ne_nil hlegal
    refine ⟨a, (mem_firstOfJobs hsorted).mpr ⟨List.mem_cons_self, fun b hb _ => ?_⟩⟩
    rcases List.mem_cons.mp hb with rfl | hb
    · exact Nat.le_refl _
    · exact ((List.pairwise_cons.mp hsorted).1 b hb).le
  | placementOnly =>
    obtain ⟨a, ha, hhead⟩ := head_mem num scoreSched top st hlegal
    exact ⟨a, List.mem_filter.mpr ⟨ha, decide_eq_true hhead⟩⟩

/-- An ablation keeps the no-op and its placements. -/
theorem ablated_getElem (mode : AblationMode) :
    (ablatedMask num scoreSched (some mode) st)[a]? = some true ↔
      a = env.noOp ∨
        a ∈ keptBy num scoreSched mode st st.topKJobs (legalPlacements env (actionMask st)) := by
  have hlength : (actionMask st).length = env.nActions := by
    rw [actionMask, List.length_map, List.length_range]
  have hkeep : (keepOnly env (actionMask st) (keptBy num scoreSched mode st st.topKJobs
      (legalPlacements env (actionMask st))))[a]? = some true ↔ a = env.noOp ∨
        a ∈ keptBy num scoreSched mode st st.topKJobs (legalPlacements env (actionMask st)) := by
    rw [keepOnly_getElem, hlength, or_comm, and_iff_right_iff_imp]
    rintro (rfl | ha)
    · exact noOp_lt
    · have hlegal := keptBy_subset num scoreSched st.topKJobs st mode legalPlacements_sorted ha
      exact (legalActions_lt (mem_legalPlacements_actionMask.mp hlegal)).trans noOp_lt
  unfold ablatedMask restrictMaskForAblation
  dsimp only
  split
  · rename_i hnone
    have hempty : keptBy num scoreSched mode st st.topKJobs ([] : List ℕ) = [] := by
      cases mode <;> rfl
    rw [actionMask_getElem, ← mem_legalPlacements_actionMask, hnone, hempty]
  · cases mode with
    | jobOnly => exact hkeep
    | placementOnly => exact hkeep

end Kept

/-! ## The first fit -/

/-- The first GPU that a job fits, packed. -/
def FirstFit (st : RunState env) (a : ℕ) : Prop :=
  ∃ i j, st.topKJobs[i]? = some j ∧ ∃ (nj : Fin env.nNodes) (gk : Fin env.gpusPerNode),
    st.cluster.canAllocateOn j.toJob nj gk = true ∧
    (∀ (nj' : Fin env.nNodes) (gk' : Fin env.gpusPerNode),
      st.cluster.canAllocateOn j.toJob nj' gk' = true →
        nj * env.gpusPerNode + gk ≤ nj' * env.gpusPerNode + gk') ∧
    a = encode env i (nj * env.gpusPerNode + gk) 0

theorem encode_mono (i : ℕ) {p p' : ℕ} (h : p ≤ p') (mode : ℕ) :
    encode env i p 0 ≤ encode env i p' mode := by
  unfold encode
  exact (Nat.mul_le_mul_right _ (Nat.add_le_add_left h _)).trans (Nat.le_add_right _ _)

/-- To pack is legal wherever it fits. -/
theorem pack_legal {i : ℕ} {j : TraceJob} (hj : st.topKJobs[i]? = some j) {nj : Fin env.nNodes}
    {gk : Fin env.gpusPerNode} (hcan : st.cluster.canAllocateOn j.toJob nj gk = true) :
    encode env i (nj * env.gpusPerNode + gk) 0 ∈ legalActions st :=
  mem_legalActions.mpr ⟨i, j, hj, nj, gk, 0,
    mem_legalModes_iff.mpr ⟨hcan, nModes_pos, .inl Nat.zero_ne_one⟩, rfl⟩

/-- The least legal action of a job is its first fit. -/
theorem least_iff_firstFit : (a ∈ legalActions st ∧
      ∀ b ∈ legalActions st, (decode env b).1 = (decode env a).1 → a ≤ b) ↔ FirstFit st a := by
  constructor
  · rintro ⟨ha, hleast⟩
    obtain ⟨i, j, hj, nj, gk, mode, hmode, rfl⟩ := mem_legalActions.mp ha
    have hjob : (decode env (encode env i (nj * env.gpusPerNode + gk) mode)).1 = i := by
      rw [decode_encode i nj gk (legalModes_lt hmode)]
    obtain ⟨hcan, -⟩ := mem_legalModes_iff.mp hmode
    have hpacked : ∀ (nj' : Fin env.nNodes) (gk' : Fin env.gpusPerNode),
        st.cluster.canAllocateOn j.toJob nj' gk' = true →
        encode env i (nj * env.gpusPerNode + gk) mode ≤
          encode env i (nj' * env.gpusPerNode + gk') 0 := fun nj' gk' hcan' =>
      hleast _ (pack_legal hj hcan') (by rw [hjob, decode_encode i nj' gk' nModes_pos])
    refine ⟨i, j, hj, nj, gk, hcan, fun nj' gk' hcan' => ?_, ?_⟩
    · have hle := (encode_mono i (Nat.le_refl _) mode).trans (hpacked nj' gk' hcan')
      unfold encode at hle
      have := Nat.le_of_mul_le_mul_right hle nModes_pos
      omega
    · exact Nat.le_antisymm (hpacked nj gk hcan) (encode_mono i (Nat.le_refl _) mode)
  · rintro ⟨i, j, hj, nj, gk, hcan, hfirst, rfl⟩
    refine ⟨pack_legal hj hcan, fun b hb hjob => ?_⟩
    rw [decode_encode i nj gk nModes_pos] at hjob
    obtain ⟨i', j', hj', nj', gk', mode, hmode, rfl⟩ := mem_legalActions.mp hb
    rw [decode_encode i' nj' gk' (legalModes_lt hmode)] at hjob
    obtain rfl : i' = i := hjob
    obtain rfl := Option.some.inj (hj.symm.trans hj')
    exact encode_mono _ (hfirst nj' gk' (mem_legalModes_iff.mp hmode).1) mode

/-! ## The three together -/

/-- The server's response to an action is the environment's decoding of it. -/
theorem respond_decode {F : Type} (lt : F → F → Bool) (req : Impl.Scheduler.Serve.ActRequest F)
    (hnodes : req.nNodes = env.nNodes) (hgpus : req.gpusPerNode = env.gpusPerNode)
    (hmodes : env.nModes = 1) (haction : a ≠ req.noOp) (value entropy : F) :
    (req.respond lt a value entropy).jobI = some (decode env a).1 ∧
      (req.respond lt a value entropy).nodeJ = some (decode env a).2.1 ∧
      (req.respond lt a value entropy).gpuK = some (decode env a).2.2.1 := by
  have hne : ¬ a = Impl.Sim.topK * req.nPlacements := haction
  have hplacements : req.nPlacements = env.nPlacements := by
    rw [Impl.Scheduler.Serve.ActRequest.nPlacements, EnvConfig.nPlacements, hnodes, hgpus]
  rw [Impl.Scheduler.Serve.ActRequest.respond, if_neg hne, decode, hmodes, hplacements, hgpus,
    Nat.div_one]
  exact ⟨rfl, rfl, rfl⟩

/-- `encode` and `decode` are inverse, on the places and GPUs and the actions
before the no-op. -/
structure CodecInverse (env : EnvConfig) : Prop where
  lt : ∀ i < env.topK, ∀ (nj : Fin env.nNodes) (gk : Fin env.gpusPerNode), ∀ mode < env.nModes,
    encode env i (nj * env.gpusPerNode + gk) mode < env.noOp
  decode_encode : ∀ i < env.topK, ∀ (nj : Fin env.nNodes) (gk : Fin env.gpusPerNode),
    ∀ mode < env.nModes,
      decode env (encode env i (nj * env.gpusPerNode + gk) mode) = (i, nj.1, gk.1, mode)
  encode_decode : ∀ a < env.noOp,
    (decode env a).1 < env.topK ∧ (decode env a).2.1 < env.nNodes ∧
      (decode env a).2.2.1 < env.gpusPerNode ∧ (decode env a).2.2.2 < env.nModes ∧
      encode env (decode env a).1 ((decode env a).2.1 * env.gpusPerNode + (decode env a).2.2.1)
        (decode env a).2.2.2 = a

/-- The server of a topology of one mode takes actions apart as the environment. -/
def ServerAgrees (env : EnvConfig) : Prop :=
  ∀ (F : Type) (lt : F → F → Bool) (req : Impl.Scheduler.Serve.ActRequest F),
    req.nNodes = env.nNodes → req.gpusPerNode = env.gpusPerNode → env.nModes = 1 →
    (env.topK = Impl.Sim.topK → req.noOp = env.noOp) ∧
    ∀ a, a ≠ req.noOp → ∀ value entropy,
      (req.respond lt a value entropy).jobI = some (decode env a).1 ∧
      (req.respond lt a value entropy).nodeJ = some (decode env a).2.1 ∧
      (req.respond lt a value entropy).gpuK = some (decode env a).2.2.1

/-- An ablation's mask has some of the actions of the full one, with the no-op
and a placement if there is one. -/
structure Restricts (env : EnvConfig) (mask ablated : List Bool) : Prop where
  subset : ∀ a : ℕ, ablated[a]? = some true → mask[a]? = some true
  noOp : ablated[env.noOp]? = some true
  nonempty : (∃ a : ℕ, a ≠ env.noOp ∧ mask[a]? = some true) →
    ∃ a : ℕ, a ≠ env.noOp ∧ ablated[a]? = some true

theorem ablated_restricts (num : Numeric) (scoreSched : ScoreScheduler) (mode : AblationMode)
    (st : RunState env) :
    Restricts env (actionMask st) (ablatedMask num scoreSched (some mode) st) := by
  have hkept : keptBy num scoreSched mode st st.topKJobs (legalPlacements env (actionMask st)) ⊆
      legalPlacements env (actionMask st) := keptBy_subset num scoreSched st.topKJobs st mode legalPlacements_sorted
  constructor
  case subset =>
    intro a ha
    rcases (ablated_getElem num scoreSched mode).mp ha with rfl | hmem
    · exact actionMask_getElem.mpr (.inl rfl)
    · exact (mem_legalPlacements.mp (hkept hmem)).1
  case noOp => exact (ablated_getElem num scoreSched mode).mpr (.inl rfl)
  case nonempty =>
    rintro ⟨a, hne, ha⟩
    have hlegal : legalPlacements env (actionMask st) ≠ [] :=
      List.ne_nil_of_mem (mem_legalPlacements.mpr ⟨ha, hne⟩)
    obtain ⟨b, hb⟩ := keptBy_nonempty num scoreSched st.topKJobs st mode legalPlacements_sorted hlegal
    have hlt := legalActions_lt (mem_legalPlacements_actionMask.mp (hkept hb))
    exact ⟨b, hlt.ne, (ablated_getElem num scoreSched mode).mpr (.inr hb)⟩

/-- The codec, the server and the masks of the ablations. -/
theorem action_space (env : EnvConfig) :
    CodecInverse env ∧ ServerAgrees env ∧
    ∀ (num : Numeric) (scoreSched : ScoreScheduler) (st : RunState env),
      (∀ mode, Restricts env (actionMask st) (ablatedMask num scoreSched (some mode) st)) ∧
      ∀ a, a ≠ env.noOp →
        ((ablatedMask num scoreSched (some .jobOnly) st)[a]? = some true ↔ FirstFit st a) := by
  refine ⟨⟨fun i hi nj gk mode hmode => encode_lt hi nj gk hmode,
    fun i _ nj gk mode hmode => decode_encode i nj gk hmode, fun a ha => encode_decode ha⟩, ?_, ?_⟩
  · intro F lt req hnodes hgpus hmodes
    refine ⟨fun htopK => ?_, fun a ha value entropy =>
      respond_decode lt req hnodes hgpus hmodes ha value entropy⟩
    show Impl.Sim.topK * (req.nNodes * req.gpusPerNode) = env.noOp
    rw [noOp_eq, perJob, EnvConfig.nPlacements, hmodes, htopK, hnodes, hgpus, Nat.mul_one]
  · intro num scoreSched st
    refine ⟨fun mode => ablated_restricts num scoreSched mode st, fun a hne => ?_⟩
    rw [ablated_getElem, or_iff_right hne, keptBy, mem_firstOfJobs legalPlacements_sorted,
      ← least_iff_firstFit]
    simp only [mem_legalPlacements_actionMask]

/-- One GPU: the fourth job's action, and the mask of the first job alone. -/
theorem action_space_small :
    let st := (reset still smallCluster none seventeen).run
    decode smallCluster (encode smallCluster 3 (0 * 1 + 0) 0) = (3, 0, 0, 0) ∧
      Restricts smallCluster (actionMask st) (ablatedMask linear {} (some .placementOnly) st) ∧
      ((ablatedMask linear {} (some .jobOnly) st)[0]? = some true ↔ FirstFit st 0) := by
  intro st
  obtain ⟨hcodec, -, hmasks⟩ := action_space smallCluster
  obtain ⟨hrestricts, hfirst⟩ := hmasks linear {} st
  exact ⟨hcodec.decode_encode 3 (by decide) ⟨0, by decide⟩ ⟨0, by decide⟩ 0 (by decide),
    hrestricts .placementOnly, hfirst 0 (by decide)⟩

end Kelpflux.Proof.Sim
