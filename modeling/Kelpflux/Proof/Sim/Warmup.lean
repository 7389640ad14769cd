import Kelpflux.Impl.Scheduler.SimTrain
import Kelpflux.Impl.Sim.VecEnv
import Kelpflux.Proof.Sim.Decisions
import Kelpflux.Proof.Sim.Episode

/-!
# The warm-up action

The warm-up ranks the whole queue, and encodes a job by its place in the queue.
The queue is in the order of submission (`InOrder`), so that the first `topK`
places are those of the window; the place after them encodes to the no-op
(`candidate_eq`). The action is that of the best ranked job of the window that
may be packed, unless the job of this place is ranked before it
(`warmup_best_iff`).
-/

namespace Kelpflux.Proof.Sim

open Framework Kelpflux.Impl.Sim

variable {env : EnvConfig} {jobs : List TraceJob} {st : RunState env}

/-! ## The order of the queue -/

/-- The pending jobs are in the order of their submission, and those that are
still to come were submitted after them. -/
structure InOrder (st : RunState env) : Prop where
  pending : st.pending.Pairwise fun a b => a.submitTs ≤ b.submitTs
  arrivals : ∀ e ∈ st.events, e.kind = .submit →
    (∀ j, st.byId.get? e.jobId = some j → j.submitTs = e.time) ∧ ∀ j ∈ st.pending, j.submitTs ≤ e.time

theorem popEvent_inOrder (h : InOrder st) (hsorted : st.events.Pairwise Event.le) :
    InOrder st.popEvent := by
  unfold RunState.popEvent
  split
  · exact h
  rename_i e es hevents
  obtain ⟨hfirst, -⟩ := List.pairwise_cons.mp (hevents ▸ hsorted)
  have hrest : ∀ e' ∈ es, e' ∈ st.events := fun e' he' => hevents ▸ List.mem_cons_of_mem e he'
  unfold RunState.handle
  dsimp only
  split
  · exact ⟨h.pending, fun e' he' => h.arrivals e' (hrest e' he')⟩
  rename_i j hget
  split
  · rename_i hkind
    obtain ⟨hsubmit, hlate⟩ := h.arrivals e (hevents ▸ List.mem_cons_self) hkind
    have htime : j.submitTs = e.time := hsubmit j hget
    refine ⟨List.pairwise_append.mpr ⟨h.pending, List.pairwise_singleton _ _, ?_⟩, ?_⟩
    · intro a ha b hb
      rw [List.mem_singleton.mp hb, htime]
      exact hlate a ha
    · intro e' he' hkind'
      obtain ⟨hsubmit', hlate'⟩ := h.arrivals e' (hrest e' he') hkind'
      refine ⟨hsubmit', fun a ha => ?_⟩
      rcases List.mem_append.mp ha with ha | ha
      · exact hlate' a ha
      · rw [List.mem_singleton.mp ha, htime]
        exact Event.le_time (hfirst e' he')
  · exact ⟨h.pending, fun e' he' => h.arrivals e' (hrest e' he')⟩

theorem popEvent_readyInOrder (hids : (ids jobs).Nodup) (st : RunState env)
    (h : Ready jobs st ∧ InOrder st) : Ready jobs st.popEvent ∧ InOrder st.popEvent :=
  ⟨(h.1.popEvent hids).1, popEvent_inOrder h.2 h.1.sorted⟩

theorem advance_inOrder (hready : Ready jobs st) (hids : (ids jobs).Nodup) (h : InOrder st)
    (es : List Event) : InOrder (RunState.advance es st) :=
  (advance_keeps (popEvent_readyInOrder hids) ⟨hready, h⟩ es).2

theorem goOn_inOrder (hready : Ready jobs st) (hids : (ids jobs).Nodup) (h : InOrder st)
    (scheduled : Bool) : InOrder (st.goOn scheduled) :=
  (goOn_keeps (popEvent_readyInOrder hids) ⟨{ hready with }, ⟨h.pending, h.arrivals⟩⟩ scheduled).2

section Step

variable {G : Type} (num : Numeric) (rand : Random G) {s : EnvState G env}

theorem act_inOrder (h : InOrder s.run) (action : ℕ) : InOrder (s.act num rand action).1.run := by
  rcases act_cases num rand s action with
    heq | ⟨chosen, plan, t, -, -, -, heq⟩
  · rw [heq]
    exact h
  · rw [heq]
    refine ⟨h.pending.sublist List.erase_sublist, fun e he hkind => ?_⟩
    have hmem : e ∈ s.run.events := by
      rcases List.mem_orderedInsert _ |>.mp he with rfl | hmem
      · cases hkind
      · exact hmem
    obtain ⟨hsubmit, hlate⟩ := h.arrivals e hmem hkind
    exact ⟨hsubmit, fun j hj => hlate j (List.mem_of_mem_erase hj)⟩

theorem next_inOrder (hready : Ready jobs s.run) (hids : (ids jobs).Nodup) (h : InOrder s.run)
    (action : ℕ) : InOrder (s.next num rand action).run := by
  have hact := (act_ready num rand (s := { s with stepCount := s.stepCount + 1 }) hready hids
    action).1
  exact goOn_inOrder hact hids
    (act_inOrder num rand (s := { s with stepCount := s.stepCount + 1 }) h action) _

theorem start_inOrder (env : EnvConfig) (hids : (ids jobs).Nodup)
    (hsubmit : ∀ j ∈ jobs, 0 ≤ j.submitTs) : InOrder (RunState.start env jobs) := by
  have hready := start_ready env hids hsubmit
  refine ⟨List.Pairwise.nil, fun e he _ => ⟨fun j hget => ?_, fun j hj => absurd hj List.not_mem_nil⟩⟩
  obtain ⟨-, j', hj', hid, htime⟩ := submissions_submit ((start_events jobs).2.subset he)
  have hsame := hready.byId j' hj'
  rw [← hid, hget] at hsame
  rw [htime, Option.some.inj hsame]

end Step

/-- What a run keeps of the queue. -/
theorem run_inOrder {G : Type} (num : Numeric) (rand : Random G) (env : EnvConfig)
    (seed : Option Int) (hids : (ids jobs).Nodup) (hsubmit : ∀ j ∈ jobs, 0 ≤ j.submitTs)
    (actions : List ℕ) :
    let s := run (fun s action => (step num rand s action).1) (reset rand env seed jobs) actions
    Ready jobs s.run ∧ InOrder s.run := by
  have hstart := start_ready env hids hsubmit
  exact run_keeps (fun s : EnvState G env => Ready jobs s.run ∧ InOrder s.run)
    (fun s action hs => ⟨(next_ready num rand hs.1 hids action).1,
      next_inOrder num rand hs.1 hids hs.2 action⟩)
    ⟨(advance_ready hstart hids _).1, advance_inOrder hstart hids (start_inOrder env hids hsubmit) _⟩
    actions

/-- The window is the front of the queue. -/
theorem InOrder.topKJobs_eq (h : InOrder st) : st.topKJobs = st.pending.take env.topK := by
  unfold RunState.topKJobs bySubmitTs
  rw [h.pending.insertionSort_eq]

/-! ## The action of a place in the queue -/

/-- The actions of a place. -/
def perJob (env : EnvConfig) : ℕ := env.nPlacements * env.nModes

theorem encode_first (i : ℕ) : encode env i 0 0 = i * perJob env := by
  unfold encode perJob
  ring

theorem noOp_eq : env.noOp = env.topK * perJob env := by
  unfold EnvConfig.noOp EnvConfig.nActions perJob EnvConfig.nPlacements
  rw [Nat.add_sub_cancel]
  ring

theorem nModes_pos : 0 < env.nModes := by
  unfold EnvConfig.nModes
  split <;> decide

theorem mask_getElem {a : ℕ} (h : a < env.nActions) :
    (actionMask st)[a]? = some true ↔ a = env.noOp ∨ a ∈ legalActions st := by
  rw [actionMask, List.getElem?_map, List.getElem?_range h]
  simp

theorem mask_length_le {a : ℕ} (h : env.nActions ≤ a) : (actionMask st)[a]? = none := by
  refine List.getElem?_eq_none ?_
  rw [actionMask, List.length_map, List.length_range]
  exact h

/-- A job that fits its first placement has one. -/
theorem perJob_pos {c : Cluster env.toConfig} {job : Impl.Sim.Job}
    (h : c.canAllocateOn job 0 0 = true) : 0 < perJob env := by
  unfold Cluster.canAllocateOn Cluster.planOn at h
  split at h
  · rename_i hrange
    exact Nat.mul_pos (Nat.mul_pos hrange.1 hrange.2) nModes_pos
  · cases h

/-- A job's first action is legal exactly where the job fits its first placement. -/
theorem first_legal (hpos : 0 < perJob env) {i : ℕ} {j : TraceJob}
    (hj : st.topKJobs[i]? = some j) :
    encode env i 0 0 ∈ legalActions st ↔ st.cluster.canAllocateOn j.toJob 0 0 = true := by
  have hplacements : 0 < env.nNodes * env.gpusPerNode := Nat.pos_of_mul_pos_right hpos
  have hnodes : 0 < env.nNodes := Nat.pos_of_mul_pos_right hplacements
  have hgpus : 0 < env.gpusPerNode := Nat.pos_of_mul_pos_left hplacements
  rw [mem_legalActions]
  constructor
  · rintro ⟨i', j', hj', nj, gk, mode, hmode, hencode⟩
    have hlt := legalModes_lt hmode
    have hmul : slot i' nj gk * env.nModes + mode
        = slot i (⟨0, hnodes⟩ : Fin env.nNodes) (⟨0, hgpus⟩ : Fin env.gpusPerNode) * env.nModes := by
      unfold encode EnvConfig.nPlacements at hencode
      unfold slot
      simpa [Nat.add_assoc] using hencode
    have hslot : slot i' nj gk
        = slot i (⟨0, hnodes⟩ : Fin env.nNodes) (⟨0, hgpus⟩ : Fin env.gpusPerNode) := by
      have hdiv := congrArg (· / env.nModes) hmul
      rwa [Nat.add_comm, Nat.add_mul_div_right _ _ nModes_pos, Nat.div_eq_of_lt hlt, Nat.zero_add,
        Nat.mul_div_cancel _ nModes_pos] at hdiv
    obtain ⟨rfl, rfl, rfl⟩ := slot_inj hslot
    obtain rfl := Option.some.inj (hj.symm.trans hj')
    exact mem_legalModes.mp ⟨mode, hmode⟩
  · intro hfits
    refine ⟨i, j, hj, ⟨0, hnodes⟩, ⟨0, hgpus⟩, 0, ?_, ?_⟩
    · unfold legalModes
      rw [if_pos hfits]
      simp [nModes_pos]
    · simp

/-! ## The ranking -/

/-- The job is one of the window, and may be packed on the first placement. -/
def packs (st : RunState env) (j : TraceJob) : Bool :=
  j ∈ st.topKJobs && st.cluster.canAllocateOn j.toJob 0 0

/-- An action is that of the best ranked job of the window that may be packed on
the first placement, and not the no-op; if there is such a job. -/
def TakesBest (ordered : List TraceJob) (st : RunState env) (action : ℕ) : Prop :=
  ∀ j, ordered.find? (packs st) = some j →
    (∃ i, st.topKJobs[i]? = some j ∧ action = encode env i 0 0) ∧ action ≠ env.noOp

/-- There is such a job, and before each of them the job is ranked that is next
in the queue after the window. -/
def Overtaken (ordered : List TraceJob) (st : RunState env) : Prop :=
  (∃ j ∈ ordered, packs st j) ∧ ∃ past, st.pending[env.topK]? = some past ∧
    ∀ j ∈ ordered.takeWhile fun j => j ≠ past, ¬ packs st j

section Search

variable {α β : Type} {p : α → Bool} {xs : List α}

/-- What is found is what the first element that passes gives. -/
theorem findSome?_eq_find? {f : α → Option β} {g : α → β}
    (h : ∀ x ∈ xs, f x = if p x then some (g x) else none) :
    xs.findSome? f = (xs.find? p).map g := by
  induction xs with
  | nil => rfl
  | cons x xs ih =>
    rw [List.findSome?_cons, List.find?_cons, h x List.mem_cons_self]
    cases p x with
    | true => rfl
    | false => exact ih fun x hx => h x (List.mem_cons_of_mem _ hx)

variable [DecidableEq α] {a : α}

/-- An element that does not pass itself is found where none before it passes. -/
theorem find?_or_eq (ha : a ∈ xs) : xs.find? (fun x => p x || x = a) = some a ↔
    ∀ x ∈ xs.takeWhile fun x => x ≠ a, ¬ p x := by
  induction xs with
  | nil => cases ha
  | cons x xs ih =>
    by_cases hx : x = a
    · subst hx
      simp
    · have hmem : a ∈ xs := (List.mem_cons.mp ha).resolve_left (Ne.symm hx)
      rw [List.find?_cons, List.takeWhile_cons]
      cases hp : p x with
      | true => simp [hx, hp]
      | false => simpa [hx, hp] using ih hmem

/-- Elsewhere it is passed over. -/
theorem find?_or_of_ne (h : xs.find? (fun x => p x || x = a) ≠ some a) :
    xs.find? (fun x => p x || x = a) = xs.find? p := by
  induction xs with
  | nil => rfl
  | cons x xs ih =>
    rw [List.find?_cons] at h ⊢
    rw [List.find?_cons]
    by_cases hx : x = a
    · simp [hx] at h
    · cases hp : p x with
      | true => simp
      | false =>
        simp only [hp, hx, decide_false, Bool.or_false] at h ⊢
        exact ih h

end Search

/-- What the search gives for a job of the queue. -/
def candidate (st : RunState env) (job : TraceJob) : Option ℕ :=
  match st.pending.findIdx? fun j => j.jobId = job.jobId with
  | none => none
  | some jobIdx =>
    if (actionMask st)[encode env jobIdx 0 0]? = some true then some (encode env jobIdx 0 0) else none

theorem findIdx?_id (hids : (ids st.pending).Nodup) {i : ℕ} {j : TraceJob}
    (hj : st.pending[i]? = some j) :
    (st.pending.findIdx? fun j' => j'.jobId = j.jobId) = some i := by
  obtain ⟨hi, hget⟩ := List.getElem?_eq_some_iff.mp hj
  rw [List.findIdx?_eq_some_iff_getElem]
  refine ⟨hi, by simp [hget], fun k hk => ?_⟩
  have hne := List.pairwise_iff_getElem.mp hids k i (by simpa [ids] using hk.trans hi)
    (by simpa [ids] using hi) hk
  simpa [ids, hget] using hne

/-- A job has one place in the queue. -/
theorem place_unique (hids : (ids st.pending).Nodup) {i k : ℕ} {j : TraceJob}
    (hi : st.pending[i]? = some j) (hk : st.pending[k]? = some j) : k = i := by
  obtain ⟨hlt, -⟩ := List.getElem?_eq_some_iff.mp hk
  exact (List.getElem?_inj hlt (List.Nodup.of_map _ hids)).mp (hk.trans hi.symm)

theorem mem_window (horder : InOrder st) (hids : (ids st.pending).Nodup) {i : ℕ} {j : TraceJob}
    (hi : st.pending[i]? = some j) : j ∈ st.topKJobs ↔ i < env.topK := by
  rw [horder.topKJobs_eq]
  constructor
  · intro hmem
    obtain ⟨k, hk⟩ := List.mem_iff_getElem?.mp hmem
    rw [List.getElem?_take] at hk
    split at hk
    · rename_i hlt
      rwa [← place_unique hids hi hk]
    · cases hk
  · intro hlt
    refine List.mem_iff_getElem?.mpr ⟨i, ?_⟩
    rw [List.getElem?_take_of_lt hlt, hi]

/-- A job of the window gives its action where it may be packed, the job after
the window gives the no-op, and a later one nothing. -/
theorem candidate_eq (horder : InOrder st) (hids : (ids st.pending).Nodup)
    (hpos : 0 < perJob env) {job : TraceJob} (hmem : job ∈ st.pending) :
    candidate st job = if packs st job || st.pending[env.topK]? = some job then
      some (encode env (st.pending.idxOf job) 0 0) else none := by
  have hi : st.pending[st.pending.idxOf job]? = some job := List.getElem?_idxOf hmem
  have hnext : ∀ k, st.pending[k]? = some job → k = st.pending.idxOf job :=
    fun k hk => place_unique hids hi hk
  have hwindow := mem_window horder hids hi
  unfold candidate
  rw [findIdx?_id hids hi]
  dsimp only
  generalize st.pending.idxOf job = i at *
  have hactions : env.nActions = env.topK * perJob env + 1 := by
    rw [← noOp_eq]
    unfold EnvConfig.noOp EnvConfig.nActions
    omega
  rcases lt_trichotomy i env.topK with hlt | rfl | hgt
  · have hslot : encode env i 0 0 < env.noOp := by
      rw [encode_first, noOp_eq]
      exact Nat.mul_lt_mul_of_pos_right hlt hpos
    have htop : st.topKJobs[i]? = some job := by
      rw [horder.topKJobs_eq, List.getElem?_take_of_lt hlt, hi]
    have hmask : (actionMask st)[encode env i 0 0]? = some true ↔
        st.cluster.canAllocateOn job.toJob 0 0 = true := by
      rw [mask_getElem (hslot.trans_le (Nat.sub_le _ _)), or_iff_right hslot.ne,
        first_legal hpos htop]
    have hafter : st.pending[env.topK]? ≠ some job := fun h => hlt.ne' (hnext _ h)
    unfold packs
    simp [hmask, hwindow, hlt, hafter]
  · have hmask : (actionMask st)[encode env env.topK 0 0]? = some true := by
      rw [encode_first, ← noOp_eq]
      exact (mask_getElem (by rw [noOp_eq, hactions]; exact Nat.lt_succ_self _)).mpr (.inl rfl)
    simp [hmask, hi]
  · have hmask : (actionMask st)[encode env i 0 0]? = none := by
      refine mask_length_le ?_
      rw [hactions, encode_first]
      calc env.topK * perJob env + 1 ≤ env.topK * perJob env + perJob env :=
            Nat.add_le_add_left hpos _
        _ = (env.topK + 1) * perJob env := (Nat.succ_mul _ _).symm
        _ ≤ i * perJob env := Nat.mul_le_mul_right _ hgt
    have hafter : st.pending[env.topK]? ≠ some job := fun h => hgt.ne (hnext _ h)
    unfold packs
    simp [hmask, hwindow, hgt.not_gt, hafter]

/-- The best ranked job has its action, before the no-op. -/
theorem best_action (horder : InOrder st) (hids : (ids st.pending).Nodup) {j : TraceJob}
    (hpacks : packs st j = true) :
    (∃ i, st.topKJobs[i]? = some j ∧
      encode env (st.pending.idxOf j) 0 0 = encode env i 0 0) ∧
      encode env (st.pending.idxOf j) 0 0 ≠ env.noOp := by
  obtain ⟨hwindow, hfits⟩ := Bool.and_eq_true_iff.mp hpacks
  have hmem : j ∈ st.pending := by
    have hwindow := of_decide_eq_true hwindow
    rw [horder.topKJobs_eq] at hwindow
    exact List.mem_of_mem_take hwindow
  have hi : st.pending[st.pending.idxOf j]? = some j := List.getElem?_idxOf hmem
  have hlt := (mem_window horder hids hi).mp (of_decide_eq_true hwindow)
  refine ⟨⟨_, ?_, rfl⟩, ?_⟩
  · rw [horder.topKJobs_eq, List.getElem?_take_of_lt hlt, hi]
  · rw [encode_first, noOp_eq]
    exact (Nat.mul_lt_mul_of_pos_right hlt (perJob_pos hfits)).ne

/-- The search takes the best ranked job of the window that may be packed
exactly when it is not overtaken. -/
theorem takesBest_iff (horder : InOrder st) (hids : (ids st.pending).Nodup)
    {ordered : List TraceJob} (hperm : ordered.Perm st.pending) (fallback : ℕ) :
    TakesBest ordered st ((ordered.findSome? (candidate st)).getD fallback) ↔
      ¬ Overtaken ordered st := by
  by_cases hsome : ∃ j ∈ ordered, packs st j = true
  swap
  · refine iff_of_true (fun j hj => ?_) fun h => hsome h.1
    exact absurd ⟨j, List.mem_of_find?_eq_some hj, List.find?_some hj⟩ hsome
  obtain ⟨packed, hpacked, hpacks⟩ := hsome
  have hpos : 0 < perJob env := perJob_pos (Bool.and_eq_true_iff.mp hpacks).2
  have hfind : ordered.findSome? (candidate st) =
      (ordered.find? fun x => packs st x || st.pending[env.topK]? = some x).map
        fun x => encode env (st.pending.idxOf x) 0 0 :=
    findSome?_eq_find? fun x hx => candidate_eq horder hids hpos (hperm.subset hx)
  obtain ⟨best, hbest⟩ := Option.isSome_iff_exists.mp
    (List.find?_isSome.mpr ⟨packed, hpacked, hpacks⟩)
  have htakes : ordered.findSome? (candidate st) = some (encode env (st.pending.idxOf best) 0 0) →
      TakesBest ordered st ((ordered.findSome? (candidate st)).getD fallback) := by
    intro hfound j hj
    obtain rfl := Option.some.inj (hbest.symm.trans hj)
    rw [hfound]
    exact best_action horder hids (List.find?_some hbest)
  cases hpast : st.pending[env.topK]? with
  | none =>
    refine iff_of_true (htakes ?_) fun ⟨_, past, hpast', _⟩ => ?_
    · rw [hfind, hpast]
      simp [hbest]
    · rw [hpast] at hpast'
      cases hpast'
  | some past =>
    have hmem : past ∈ ordered := hperm.symm.subset (List.mem_of_getElem? hpast)
    have hsame : ∀ x, (some past = some x) = (x = past) := fun x =>
      propext ⟨fun h => (Option.some.inj h).symm, fun h => congrArg some h.symm⟩
    simp only [hpast, hsame] at hfind
    by_cases hall : ∀ j ∈ ordered.takeWhile (fun j => j ≠ past), ¬ packs st j = true
    · have hfound := (find?_or_eq hmem).mpr hall
      refine iff_of_false (fun h => (h best hbest).2 ?_) fun h => h ⟨⟨packed, hpacked, hpacks⟩,
        past, hpast, hall⟩
      have hplace : st.pending.idxOf past = env.topK :=
        (place_unique hids (List.getElem?_idxOf (hperm.subset hmem)) hpast).symm
      rw [hfind, hfound, Option.map_some, Option.getD_some, hplace, encode_first, noOp_eq]
    · have hnot := mt (find?_or_eq hmem).mp hall
      refine iff_of_true (htakes ?_) fun ⟨_, past', hpast', hall'⟩ => hall ?_
      · rw [hfind, find?_or_of_ne hnot, hbest, Option.map_some]
      · obtain rfl := Option.some.inj (hpast.symm.trans hpast')
        exact hall'

/-! ## The two warm-ups -/

section Warmup

variable {G : Type} (choice : List ℕ → G → ℕ × G) (num : Numeric) (scoreSched : ScoreScheduler)

theorem order_perm {cfg : Impl.Sim.Config} (pending : List TraceJob) (c : Cluster cfg) (now : ℚ) :
    (scoreSched.order num pending c now).Perm pending := List.perm_insertionSort _ _

/-- The environment's warm-up is the search, where a job is pending. -/
theorem warmupAction_eq (st : RunState env) (hpending : st.pending ≠ []) (rng : G) :
    ∃ fallback, (scoreSched.warmupAction choice num st rng).1 =
      ((scoreSched.order num st.pending st.cluster st.now).findSome? (candidate st)).getD
        fallback := by
  have hnoOp : env.noOp ∈ (List.range (actionMask st).length).filter
      fun a => (actionMask st)[a]? = some true := by
    have hlt : env.noOp < env.nActions := Nat.sub_lt (Nat.succ_pos _) Nat.one_pos
    have hmask : (actionMask st)[env.noOp]? = some true := (mask_getElem hlt).mpr (.inl rfl)
    rw [List.mem_filter, List.mem_range]
    exact ⟨(List.getElem?_eq_some_iff.mp hmask).choose, decide_eq_true hmask⟩
  unfold ScoreScheduler.warmupAction
  dsimp only
  rw [if_neg (List.ne_nil_of_mem hnoOp), if_neg hpending]
  exact ⟨_, rfl⟩

/-- And so is that of `sim_train`. -/
theorem simTrain_eq (st : RunState env) (rng : G) :
    ∃ fallback, (Impl.Scheduler.SimTrain.warmupAction choice num (some scoreSched) st rng).1 =
      ((scoreSched.order num st.pending st.cluster st.now).findSome? (candidate st)).getD
        fallback := by
  have hcandidate : candidate st = fun job =>
      match st.pending.findIdx? fun j => j.jobId = job.jobId with
      | none => none
      | some jobIdx =>
        if (actionMask st)[jobIdx * env.nPlacements * env.nModes]? = some true then
          some (jobIdx * env.nPlacements * env.nModes) else none := rfl
  rw [hcandidate]
  exact ⟨_, rfl⟩

/-- In every state of every episode, both warm-ups take the action of the best
ranked job of the window that may be packed on the first placement, and not the
no-op, exactly when it is not overtaken. -/
theorem warmup_best_iff (rand : Random G) (env : EnvConfig) (seed : Option Int)
    (jobs : List TraceJob) (hids : (ids jobs).Nodup) (hsubmit : ∀ j ∈ jobs, 0 ≤ j.submitTs)
    (actions : List ℕ) (rng : G) :
    let st := (run (fun s action => (step num rand s action).1) (reset rand env seed jobs)
      actions).run
    let ordered := scoreSched.order num st.pending st.cluster st.now
    (TakesBest ordered st (scoreSched.warmupAction choice num st rng).1 ↔ ¬ Overtaken ordered st) ∧
    (TakesBest ordered st
        (Impl.Scheduler.SimTrain.warmupAction choice num (some scoreSched) st rng).1 ↔
      ¬ Overtaken ordered st) := by
  intro st ordered
  obtain ⟨hready, horder⟩ := run_inOrder num rand env seed hids hsubmit actions
  have hpend : (ids st.pending).Nodup := by
    have hall := hready.sets_nodup hids
    exact (List.nodup_append.mp (List.nodup_append.mp (List.nodup_append.mp hall).1).1).2.1
  have hperm : ordered.Perm st.pending := order_perm num scoreSched _ _ _
  constructor
  · by_cases hempty : st.pending = []
    · have hnone : ordered = [] := List.perm_nil.mp (hempty ▸ hperm)
      rw [hnone]
      exact iff_of_true (fun j hj => by cases hj) fun ⟨⟨j, hj, _⟩, _⟩ => absurd hj List.not_mem_nil
    · obtain ⟨fallback, hsearch⟩ := warmupAction_eq choice num scoreSched st hempty rng
      rw [hsearch]
      exact takesBest_iff horder hpend hperm fallback
  · obtain ⟨fallback, hsearch⟩ := simTrain_eq choice num scoreSched st rng
    rw [hsearch]
    exact takesBest_iff horder hpend hperm fallback

/-- The vector environments' warm-up is the environment's. -/
theorem scoreWarmupAction_eq (lib : VecEnv.Library G) {spec : VecEnv.EnvSpec}
    (e : VecEnv.SubEnv G spec) (rng : G) :
    VecEnv.scoreWarmupAction
        { lib with order := fun _ pending c now => scoreSched.order lib.num pending c now } e rng
      = scoreSched.warmupAction lib.choice lib.num e.state.run rng := rfl

/-! ## A queue of seventeen -/

/-- The first sixteen jobs take an hour, the last a minute. -/
def seventeen : List TraceJob :=
  (List.range 16).map (fun i => ⟨⟨s!"{i}", 1, 100, 1⟩, "rtx4070", 0, 3600, "batch", 0⟩) ++
    [⟨⟨"16", 1, 100, 1⟩, "rtx4070", 0, 60, "batch", 0⟩]

def linear : Numeric := ⟨id, id, fun _ => 1, id, fun x => 1 + x, 3⟩

def still : Random Unit := ⟨fun u => (0, u), fun _ => 0, fun _ => (), fun _ => 0⟩

/-- All of them are pending, and every action is the no-op. -/
def allQueued : RunState smallCluster :=
  (run (fun s action => (step linear still s action).1) (reset still smallCluster none seventeen)
    (List.replicate 16 16)).run

theorem warmup_overtaken : ¬ ∀ (choice : List ℕ → Unit → ℕ × Unit) (num : Numeric)
    (scoreSched : ScoreScheduler) (rand : Random Unit) (env : EnvConfig) (seed : Option Int)
    (jobs : List TraceJob), (ids jobs).Nodup → (∀ j ∈ jobs, 0 ≤ j.submitTs) →
    ∀ (actions : List ℕ) (rng : Unit),
      let st := (run (fun s action => (step num rand s action).1) (reset rand env seed jobs)
        actions).run
      TakesBest (scoreSched.order num st.pending st.cluster st.now) st
        (scoreSched.warmupAction choice num st rng).1 := by
  intro h
  have hbest : ((({} : ScoreScheduler).order linear allQueued.pending allQueued.cluster
      allQueued.now).find? (packs allQueued)).isSome = true := by decide +kernel
  have hnoOp : (({} : ScoreScheduler).warmupAction (fun legal u => (legal.headD 0, u)) linear
      allQueued ()).1 = smallCluster.noOp := by decide +kernel
  obtain ⟨j, hj⟩ := Option.isSome_iff_exists.mp hbest
  exact (h (fun legal u => (legal.headD 0, u)) linear {} still smallCluster none seventeen
    (by decide +kernel) (by decide +kernel) (List.replicate 16 16) () j hj).2 hnoOp

/-- After the first no-op, with two jobs pending. -/
theorem warmup_two_jobs :
    let choice := fun (legal : List ℕ) (u : Unit) => (legal.headD 0, u)
    let st := (run (fun s action => (step linear still s action).1)
      (reset still smallCluster none (seventeen.take 2)) [16]).run
    let ordered := ({} : ScoreScheduler).order linear st.pending st.cluster st.now
    (TakesBest ordered st (({} : ScoreScheduler).warmupAction choice linear st ()).1 ↔
      ¬ Overtaken ordered st) ∧
    (TakesBest ordered st
        (Impl.Scheduler.SimTrain.warmupAction choice linear (some {}) st ()).1 ↔
      ¬ Overtaken ordered st) :=
  warmup_best_iff _ linear {} still smallCluster none (seventeen.take 2) (by decide +kernel)
    (by decide +kernel) [16] ()

end Warmup

end Kelpflux.Proof.Sim
