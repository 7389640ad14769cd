import Kelpflux.Framework.Search
import Kelpflux.Impl.Sim.Headroom
import Kelpflux.Proof.Sim.Runner
import Mathlib.Data.List.Permutation

/-!
# The best order of a trace

Whatever its priorities are, a fixed-priority run is the run of one order of the
jobs' ids (`jctFixed_eq`). So the least mean completion time over all orders is
that over all priorities (`exact_best_optimal`), and the local search, which sees
some of the orders, is never below it nor above the order that it starts from
(`search_best_between`).
-/

namespace Kelpflux.Proof.Runner

open Framework Kelpflux.Impl.Sim Kelpflux.Proof.Sim Headroom

variable {jobs : List ReplayJob}

/-! ## Priorities as ranks -/

section Ranks

variable {priority : Dict String ℤ}

theorem ranks_get {order : List String} (h : order.Nodup) {i : ℕ} (hi : i < order.length) :
    (ranks order).get? order[i] = some (i : ℤ) := by
  have hkeys : (order.zipIdx.map fun jr => (jr.1, (jr.2 : ℤ))).map Prod.fst = order := by
    rw [List.map_map]
    exact List.zipIdx_map_fst 0 order
  unfold ranks
  refine Dict.get?_of_mem (Dict.nodup_ofList _) ?_
  rw [Dict.ofList_eq (hkeys.symm ▸ h)]
  exact List.mem_map.mpr ⟨(order[i], i),
    List.mk_mem_zipIdx_iff_getElem?.mpr (List.getElem?_eq_getElem hi), rfl⟩

/-- All jobs, in the order of their priorities. -/
def sortedJobs (priority : Dict String ℤ) (jobs : List ReplayJob) : List ReplayJob :=
  jobs.insertionSort fun a b => priorityKey priority a ≤ priorityKey priority b

theorem sortedJobs_pairwise (priority : Dict String ℤ) (jobs : List ReplayJob) :
    (sortedJobs priority jobs).Pairwise fun a b => priorityKey priority a ≤ priorityKey priority b :=
  haveI : Std.Total fun a b : ReplayJob => priorityKey priority a ≤ priorityKey priority b :=
    ⟨fun _ _ => le_total _ _⟩
  haveI : IsTrans ReplayJob fun a b => priorityKey priority a ≤ priorityKey priority b :=
    ⟨fun _ _ _ => le_trans⟩
  List.pairwise_insertionSort _ _

theorem sortedJobs_ids (h : (ids jobs).Nodup) : (ids (sortedJobs priority jobs)).Nodup :=
  ((List.perm_insertionSort _ jobs).map _).nodup_iff.mpr h

/-- The priorities of distinct ids are distinct keys. -/
theorem keys_nodup {xs : List ReplayJob} (h : (ids xs).Nodup) :
    (xs.map (priorityKey priority)).Nodup := by
  refine List.Nodup.of_map (fun key => (ofLex (ofLex key).2).2) ?_
  rw [List.map_map]
  exact h

/-- Two jobs of the trace compare by their priorities as by their ranks. -/
theorem priorityKey_le_iff (h : (ids jobs).Nodup) {a b : ReplayJob} (ha : a ∈ jobs) (hb : b ∈ jobs) :
    priorityKey priority a ≤ priorityKey priority b ↔
      priorityKey (ranks (ids (sortedJobs priority jobs))) a ≤
        priorityKey (ranks (ids (sortedJobs priority jobs))) b := by
  have hids : (ids (sortedJobs priority jobs)).Nodup := sortedJobs_ids h
  have hget {i : ℕ} (hi : i < (sortedJobs priority jobs).length) :
      (ranks (ids (sortedJobs priority jobs))).get? (sortedJobs priority jobs)[i].jobId =
        some (i : ℤ) := by
    have hi' : i < (ids (sortedJobs priority jobs)).length := by rwa [ids, List.length_map]
    have hrank := ranks_get hids hi'
    rwa [show (ids (sortedJobs priority jobs))[i] = (sortedJobs priority jobs)[i].jobId from
      List.getElem_map _] at hrank
  have ha' : a ∈ sortedJobs priority jobs := (List.mem_insertionSort _).mpr ha
  have hb' : b ∈ sortedJobs priority jobs := (List.mem_insertionSort _).mpr hb
  obtain ⟨i, hi, rfl⟩ := List.getElem_of_mem ha'
  obtain ⟨k, hk, rfl⟩ := List.getElem_of_mem hb'
  rw [key_le_iff (sortedJobs_pairwise priority jobs) (keys_nodup hids) hi hk]
  unfold priorityKey
  rw [hget hi, hget hk, Prod.Lex.toLex_le_toLex]
  constructor
  · intro hle
    rcases hle.lt_or_eq with hlt | rfl
    · exact .inl (Int.ofNat_lt.mpr hlt)
    · exact .inr ⟨rfl, le_rfl⟩
  · rintro (hlt | ⟨heq, -⟩)
    · exact (Int.ofNat_lt.mp hlt).le
    · exact (Int.ofNat_inj.mp heq).le

theorem order_eq (h : (ids jobs).Nodup) {cfg : Config} {pending : List ReplayJob}
    (hsub : pending ⊆ jobs) (c : Cluster cfg) (now : ℚ) (s : Unit) :
    (fixedPriority cfg priority).order pending c now s =
      (fixedPriority cfg (ranks (ids (sortedJobs priority jobs)))).order pending c now s :=
  Prod.ext (insertionSort_congr fun _ ha _ hb => priorityKey_le_iff h (hsub ha) (hsub hb)) rfl

end Ranks

/-! ## Runs of equal orders -/

section Congr

variable {cfg : Config} {S : Type} {sch sch' : Scheduler cfg S} {byId : Dict String ReplayJob}
  {st : Replay cfg S}

theorem turn_congr (horder : ∀ pending ⊆ jobs, ∀ c now s,
      sch.order pending c now s = sch'.order pending c now s)
    (hbackfill : sch.backfill = sch'.backfill) (hbyId : ∀ j ∈ jobs, byId.get? j.jobId = some j)
    (h : Ready jobs st) : st.turn sch byId = st.turn sch' byId := by
  have hpending : (st.popEvent byId).pending ⊆ jobs := fun j hj =>
    ((h.popEvent hbyId).pending j hj).1
  unfold Replay.turn Replay.tryDispatch Replay.order
  rw [horder _ hpending, hbackfill]

/-- Schedulers that order the trace's jobs the same make the same runs. -/
theorem loop_congr (horder : ∀ pending ⊆ jobs, ∀ c now s,
      sch.order pending c now s = sch'.order pending c now s)
    (hbackfill : sch.backfill = sch'.backfill) (hperm : Permutes sch) (hjobs : WellFormed jobs)
    (hbyId : ∀ j ∈ jobs, byId.get? j.jobId = some j) (fuel : ℕ) (h : Ready jobs st) :
    Replay.loop sch byId fuel st = Replay.loop sch' byId fuel st := by
  induction fuel generalizing st with
  | zero => rfl
  | succ fuel ih =>
    rw [Replay.loop, Replay.loop, ← turn_congr horder hbackfill hbyId h]
    split
    · rfl
    · exact ih (turn_ready hperm hjobs hbyId h)

end Congr

/-! ## The least mean -/

section Least

variable {nNodes gpusPerNode : ℕ}

theorem fixedPriority_permutes (cfg : Config) (priority : Dict String ℤ) :
    Permutes (fixedPriority cfg priority) := fun _ _ _ _ => List.perm_insertionSort _ _

/-- A run with priorities is that of the order they put all jobs in. -/
theorem jctFixed_eq (hjobs : WellFormed jobs) (priority : Dict String ℤ) :
    jctFixed nNodes gpusPerNode jobs priority =
      jctOrder nNodes gpusPerNode jobs (ids (sortedJobs priority jobs)) := by
  unfold jctOrder jctFixed runTrace
  rw [loop_congr (fun _ hsub => order_eq hjobs.nodup hsub) rfl (fixedPriority_permutes _ _) hjobs
    (get?_byJobId hjobs) _ (init_ready () hjobs (ofFixed_nonneg 0))]

/-- Some job of the trace fits the empty cluster. -/
def HasRoom (nNodes gpusPerNode : ℕ) (jobs : List ReplayJob) : Prop :=
  ∃ j ∈ jobs, (Cluster.init (clusterConfig nNodes gpusPerNode 100)).canAllocate j.toJob

/-- Where a job fits, a run ends and has a mean. -/
theorem jctFixed_some (hjobs : WellFormed jobs) (hfits : HasRoom nNodes gpusPerNode jobs)
    (priority : Dict String ℤ) : ∃ jct, jctFixed nNodes gpusPerNode jobs priority = some jct := by
  have hperm := fixedPriority_permutes (clusterConfig nNodes gpusPerNode 100) priority
  have hbyId := get?_byJobId hjobs
  have hready : Ready jobs (Replay.init (clusterConfig nNodes gpusPerNode 100) ()
      (LatencyModel.ofFixed 0) jobs) := init_ready () hjobs (ofFixed_nonneg 0)
  obtain ⟨m, hloop⟩ := loop_terminates hperm hjobs hbyId hready (init_stepsLeft () jobs).le
  obtain ⟨hinstant, hevents, hquiet⟩ := loop_ends hperm rfl (init_quiet () jobs) hloop
  obtain ⟨j, hj, hcan⟩ := hfits
  have hdone : j.jobId ∈ completed m.metrics :=
    ((hinstant.ready hperm hjobs hbyId hready).completed_iff hjobs hevents hquiet _).mpr
      ⟨j, hj, rfl, hcan⟩
  obtain ⟨kv, hkv, -⟩ := List.mem_map.mp hdone
  obtain ⟨hmem, hend⟩ := List.mem_filter.mp hkv
  obtain ⟨t, ht⟩ := Option.isSome_iff_exists.mp hend
  have hjcts : m.metrics.records.filterMap (fun kv => kv.2.jct) ≠ [] := by
    refine List.ne_nil_of_mem (List.mem_filterMap.mpr ⟨kv, hmem, ?_⟩) (a := t - kv.2.submitTs)
    unfold JobRecord.jct
    rw [ht, Option.map_some]
  unfold jctFixed runTrace
  rw [hloop]
  exact ⟨_, if_neg hjcts⟩

/-- The mean of one of the orders. -/
def Seen (nNodes gpusPerNode : ℕ) (jobs : List ReplayJob) (jct : ℚ) : Prop :=
  ∃ order, order.Perm (jobIds jobs) ∧ jctOrder nNodes gpusPerNode jobs order = some jct

/-- `exact_best` gives the least of the means of all orders. -/
theorem exactBest_spec (hjobs : WellFormed jobs) (hfits : HasRoom nNodes gpusPerNode jobs) :
    ∃ best : ℚ, exactBest nNodes gpusPerNode jobs = some (best : WithTop ℚ) ∧
      Seen nNodes gpusPerNode jobs best ∧ ∀ jct, Seen nNodes gpusPerNode jobs jct → best ≤ jct := by
  have hsome : ∀ order ∈ (jobIds jobs).permutations,
      ∃ jct, jctOrder nNodes gpusPerNode jobs order = some jct :=
    fun order _ => jctFixed_some hjobs hfits (ranks order)
  obtain ⟨m, hm, -, hall, hone⟩ := least_spec hsome ⊤
  have hown := List.mem_permutations.mpr (List.Perm.refl (jobIds jobs))
  obtain ⟨own, hjct⟩ := hsome _ hown
  rcases hone with rfl | ⟨order, horder, best, hbest, rfl⟩
  · exact absurd (top_le_iff.mp (hall _ hown own hjct)) WithTop.coe_ne_top
  refine ⟨best, hm, ⟨order, List.mem_permutations.mp horder, hbest⟩, fun jct hseen => ?_⟩
  obtain ⟨other, hother, hjct⟩ := hseen
  exact WithTop.coe_le_coe.mp (hall other (List.mem_permutations.mpr hother) jct hjct)

/-- What the study calls the exact optimum is one: it is the mean of an order,
and no priorities whatever, ties and unknown jobs included, have a lower mean. -/
theorem exact_best_optimal (hjobs : WellFormed jobs) (hfits : HasRoom nNodes gpusPerNode jobs) :
    ∃ best : ℚ, exactBest nNodes gpusPerNode jobs = some (best : WithTop ℚ) ∧
      Seen nNodes gpusPerNode jobs best ∧
      ∀ priority, ∃ jct, jctFixed nNodes gpusPerNode jobs priority = some jct ∧ best ≤ jct := by
  obtain ⟨best, hexact, hseen, hleast⟩ := exactBest_spec hjobs hfits
  refine ⟨best, hexact, hseen, fun priority => ?_⟩
  obtain ⟨jct, hjct⟩ := jctFixed_some hjobs hfits priority
  exact ⟨jct, hjct, hleast jct ⟨ids (sortedJobs priority jobs),
    (List.perm_insertionSort _ jobs).map _, (jctFixed_eq hjobs priority).symm.trans hjct⟩⟩

end Least

/-! ## The search -/

section Search

variable {nNodes gpusPerNode : ℕ} {G : Type} (rng : Sampler G)

theorem swap_perm (order : List String) (i k : ℕ) : (swap order i k).Perm order := by
  unfold swap
  rw [Array.swapIfInBounds_def]
  split_ifs with hi hk
  · exact Array.perm_iff_toList_perm.mp (Array.swap_perm hi hk)
  · exact List.Perm.refl _
  · exact List.Perm.refl _

/-- A swap is undone by itself. -/
theorem swap_swap (order : List String) (i k : ℕ) : swap (swap order i k) i k = order := by
  unfold swap
  rw [Array.toArray_toList]
  by_cases hin : i < order.toArray.size ∧ k < order.toArray.size
  · have honce : order.toArray.swapIfInBounds i k = order.toArray.swap i k hin.1 hin.2 := by
      rw [Array.swapIfInBounds_def, dif_pos hin.1, dif_pos hin.2]
    rw [honce, Array.swapIfInBounds_def, dif_pos (by simpa using hin.1),
      dif_pos (by simpa using hin.2), Array.swap_swap]
  · have hout : order.toArray.swapIfInBounds i k = order.toArray := by
      rw [Array.swapIfInBounds_def]
      split_ifs with hi hk
      · exact absurd ⟨hi, hk⟩ hin
      · rfl
      · rfl
    rw [hout, hout]

/-- The inner loop never ends above where it starts, and at the mean of an order. -/
theorem climb_spec (hsome : ∀ order, ∃ jct, jctOrder nNodes gpusPerNode jobs order = some jct)
    {n : ℕ} (hn : 2 ≤ n) (turns : ℕ) {order : List String} {cur : ℚ} {g : G}
    (horder : order.Perm (jobIds jobs)) (hcur : jctOrder nNodes gpusPerNode jobs order = some cur) :
    ∃ cur' g', climb nNodes gpusPerNode jobs rng n turns order cur g = some (cur', g') ∧
      cur' ≤ cur ∧ Seen nNodes gpusPerNode jobs cur' := by
  induction turns generalizing order cur g with
  | zero => exact ⟨cur, g, rfl, le_rfl, order, horder, hcur⟩
  | succ turns ih =>
    rw [climb, dif_pos hn]
    obtain ⟨⟨i, k⟩, g'⟩ := rng.pair n hn g
    obtain ⟨val, hval⟩ := hsome (swap order i k)
    have hswapped : (swap order i k).Perm (jobIds jobs) := (swap_perm order i k).trans horder
    dsimp only
    rw [hval, Option.bind_eq_bind, Option.bind_some]
    split
    · rename_i hle
      obtain ⟨cur', g'', hclimb, hless, hseen⟩ := ih (g := g') hswapped hval
      exact ⟨cur', g'', hclimb, hless.trans hle, hseen⟩
    · rw [swap_swap]
      exact ih horder hcur

/-- A restart sees the mean of an order, and the first one none above its start. -/
theorem restart_spec (hsome : ∀ order, ∃ jct, jctOrder nNodes gpusPerNode jobs order = some jct)
    (hn : 2 ≤ jobs.length) {start : ℚ}
    (hstart : jctOrder nNodes gpusPerNode jobs (sjf jobs) = some start) (turns r : ℕ)
    (best : WithTop ℚ × G) : ∃ (jct : ℚ) (g : G),
      restart nNodes gpusPerNode jobs rng turns best r = some (min best.1 (jct : WithTop ℚ), g) ∧
      Seen nNodes gpusPerNode jobs jct ∧ (r = 0 → jct ≤ start) := by
  have hsjf : (sjf jobs).Perm (jobIds jobs) := (List.perm_insertionSort _ jobs).map _
  unfold restart
  by_cases hr : r = 0
  · rw [if_pos hr]
    obtain ⟨jct, g, hclimb, hless, hseen⟩ := climb_spec rng hsome hn turns (g := best.2) hsjf hstart
    refine ⟨jct, g, ?_, hseen, fun _ => hless⟩
    simp only [hstart, hclimb, Option.bind_eq_bind, Option.bind_some]
    rfl
  · rw [if_neg hr]
    obtain ⟨cur, hcur⟩ := hsome (rng.shuffle (jobIds jobs) best.2).1
    obtain ⟨jct, g, hclimb, -, hseen⟩ := climb_spec rng hsome hn turns
      (g := (rng.shuffle (jobIds jobs) best.2).2) (rng.shuffle_perm _ _) hcur
    refine ⟨jct, g, ?_, hseen, fun hzero => absurd hzero hr⟩
    simp only [hcur, hclimb, Option.bind_eq_bind, Option.bind_some]
    rfl

/-- Whatever its generator draws, the search gives the mean of an order: not
below the optimum, and not above the shortest-job-first order it starts from. -/
theorem search_best_between (hjobs : WellFormed jobs) (hfits : HasRoom nNodes gpusPerNode jobs)
    (hn : 2 ≤ jobs.length) (iters restarts : ℤ) (g : G) : ∃ best start jct : ℚ,
      exactBest nNodes gpusPerNode jobs = some (best : WithTop ℚ) ∧
      jctOrder nNodes gpusPerNode jobs (sjf jobs) = some start ∧
      searchBest nNodes gpusPerNode jobs rng iters restarts g = some (jct : WithTop ℚ) ∧
      Seen nNodes gpusPerNode jobs jct ∧ best ≤ jct ∧ jct ≤ start := by
  obtain ⟨best, hexact, -, hleast⟩ := exactBest_spec hjobs hfits
  have hsome (order : List String) : ∃ jct, jctOrder nNodes gpusPerNode jobs order = some jct :=
    jctFixed_some hjobs hfits (ranks order)
  obtain ⟨start, hstart⟩ := hsome (sjf jobs)
  let turns := (iters / max 1 restarts).toNat
  let Inv (b : WithTop ℚ × G) : Prop :=
    ∃ jct : ℚ, b.1 = jct ∧ Seen nNodes gpusPerNode jobs jct ∧ jct ≤ start
  obtain ⟨n, hrestarts⟩ : ∃ n, (max 1 restarts).toNat = n + 1 :=
    Nat.exists_eq_succ_of_ne_zero (by omega)
  obtain ⟨first, g₁, hfirst, hseen₁, hless₁⟩ := restart_spec rng hsome hn hstart turns 0 (⊤, g)
  -- The restarts after the first can only lower what it has found.
  have hstep : ∀ b, ∀ r ∈ (List.range n).map Nat.succ, Inv b →
      ∃ b', restart nNodes gpusPerNode jobs rng turns b r = some b' ∧ Inv b' := by
    intro b r _ hinv
    obtain ⟨jct, hb, hseen, hless⟩ := hinv
    obtain ⟨next, g₂, hnext, hseen₂, -⟩ := restart_spec rng hsome hn hstart turns r b
    refine ⟨_, hnext, min jct next, by rw [hb, WithTop.coe_min], ?_, (min_le_left _ _).trans hless⟩
    rcases min_choice jct next with hmin | hmin
    · rwa [hmin]
    · rwa [hmin]
  have hinv₁ : Inv (min ⊤ (first : WithTop ℚ), g₁) := ⟨first, min_top_left _, hseen₁, hless₁ rfl⟩
  obtain ⟨b, hrest, jct, hb, hseen, hless⟩ := foldlM_keeps Inv hstep hinv₁
  refine ⟨best, start, jct, hexact, hstart, ?_, hseen, hleast jct hseen, hless⟩
  unfold searchBest
  rw [hrestarts, List.range_succ_eq_map]
  show (restart nNodes gpusPerNode jobs rng turns (⊤, g) 0 >>= fun b =>
    ((List.range n).map Nat.succ).foldlM (restart nNodes gpusPerNode jobs rng turns) b) >>= _ = _
  rw [hfirst]
  show (((List.range n).map Nat.succ).foldlM _ _) >>= _ = _
  rw [hrest]
  exact congrArg some hb

/-! ## Three jobs that cannot share a GPU -/

def threeJobs : List ReplayJob :=
  [oneGpuJob "a" 100 10, oneGpuJob "b" 100 8, oneGpuJob "c" 100 2]

theorem threeJobs_wellFormed : WellFormed threeJobs := by
  refine ⟨?_, ?_, ?_⟩
  · decide
  · decide +kernel
  · decide +kernel

theorem threeJobs_fit : HasRoom 1 1 threeJobs :=
  ⟨oneGpuJob "a" 100 10, List.mem_cons_self, by decide +kernel⟩

theorem exact_best_optimal_three : ∃ best : ℚ, exactBest 1 1 threeJobs = some (best : WithTop ℚ) ∧
    Seen 1 1 threeJobs best ∧
    ∀ priority, ∃ jct, jctFixed 1 1 threeJobs priority = some jct ∧ best ≤ jct :=
  exact_best_optimal threeJobs_wellFormed threeJobs_fit

/-- A generator that leaves a list as it is, and always swaps the first two. -/
def firstTwo : Sampler Unit where
  shuffle ids g := (ids, g)
  shuffle_perm ids _ := List.Perm.refl ids
  pair n h g := ((⟨0, by omega⟩, ⟨1, by omega⟩), g)

theorem search_best_between_three : ∃ best start jct : ℚ,
    exactBest 1 1 threeJobs = some (best : WithTop ℚ) ∧
    jctOrder 1 1 threeJobs (sjf threeJobs) = some start ∧
    searchBest 1 1 threeJobs firstTwo 6 3 () = some (jct : WithTop ℚ) ∧
    Seen 1 1 threeJobs jct ∧ best ≤ jct ∧ jct ≤ start :=
  search_best_between firstTwo threeJobs_wellFormed threeJobs_fit (by decide) 6 3 ()

end Search

end Kelpflux.Proof.Runner
