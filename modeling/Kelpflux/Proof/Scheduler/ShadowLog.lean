import Kelpflux.Framework.Lists
import Kelpflux.Framework.Text
import Kelpflux.Impl.Scheduler.Replay
import Kelpflux.Proof.Scheduler.RunDaemon

/-!
# The live log, written and read back

The learner reads each line of a live log into one slot of its buffer
(`load_filled`), with all that the daemon logged but the next state's mask. The
masks of the next states are those of an empty buffer, so a log is restored
exactly when it has no others: `restored_iff`. The rows of a daemon have the
shape that this needs (`daemon_shaped`).
-/

namespace Kelpflux.Proof.Scheduler

open Framework Framework.Python Impl.Scheduler.LiveDaemon Impl.Scheduler.Replay

/-! ## A line -/

/-- `json.dumps(v)` is one line, which `json.loads` reads back. -/
structure ReadsBack (rt : Runtime) (dumps : Json → String) (v : Json) : Prop where
  loads : rt.loads (dumps v) = .ok v
  one_line : ∀ c ∈ (dumps v).toList, c ≠ '\n' ∧ c ≠ '\r'
  stripped : strip (dumps v) = dumps v
  ne_empty : dumps v ≠ ""

/-- The text of a log. -/
def logText (dumps : Json → String) (rows : List ShadowRow) : String :=
  String.ofList (rows.flatMap fun row => (dumps row.toJson).toList ++ ['\n'])

/-- A row is of arrays of 32-bit floats and of Booleans, as long as they should be. -/
structure Shaped (f32 : PyFloat → PyFloat) (obsDim nActions : ℕ) (row : ShadowRow) : Prop where
  obs_length : row.obs.length = obsDim
  obs_f32 : ∀ x ∈ row.obs, f32 x = x
  nextObs_length : row.nextObs.length = obsDim
  nextObs_f32 : ∀ x ∈ row.nextObs, f32 x = x
  mask_length : row.mask.length = nActions
  nextMask_length : row.nextMask.length = nActions

variable {rt : Runtime} {f32 : PyFloat → PyFloat} {dumps : Json → String} {obsDim nActions : ℕ}

theorem floatArray_floats {xs : List PyFloat} (h : ∀ x ∈ xs, f32 x = x) :
    floatArray rt f32 (.arr (xs.map .float)) = .ok xs := by
  unfold floatArray
  dsimp only
  induction xs with
  | nil => rfl
  | cons x xs ih =>
    rw [List.map_cons, List.mapM_cons, ih fun y hy => h y (List.mem_cons_of_mem _ hy)]
    show Except.ok (f32 x :: xs) = Except.ok (x :: xs)
    rw [h x List.mem_cons_self]

theorem boolArray_bools (xs : List Bool) : boolArray (.arr (xs.map .bool)) = xs := by
  show (xs.map Json.bool).map Json.truthy = xs
  rw [List.map_map]
  exact List.map_id xs

/-- What is read of a row: all but the next state's mask. -/
def readOf (row : ShadowRow) : Transition where
  obs := row.obs
  act := row.act
  rew := row.rew
  nextObs := row.nextObs
  done := row.done
  mask := some row.mask

theorem rowTransition_row {row : ShadowRow} (h : Shaped f32 obsDim nActions row) :
    rowTransition rt f32 nActions row.toJson = .ok (some (readOf row)) := by
  have hobs : floatArray rt f32 (.arr (row.obs.map .float)) = .ok row.obs :=
    floatArray_floats h.obs_f32
  have hnext : floatArray rt f32 (.arr (row.nextObs.map .float)) = .ok row.nextObs :=
    floatArray_floats h.nextObs_f32
  have hread : rowTransition rt f32 nActions row.toJson = (do
      let obs ← floatArray rt f32 (.arr (row.obs.map .float))
      let nextObs ← floatArray rt f32 (.arr (row.nextObs.map .float))
      return some ⟨obs, row.act, row.rew, nextObs, row.done,
        some (boolArray (.arr (row.mask.map .bool))), none⟩) := rfl
  rw [hread, hobs, hnext, boolArray_bools]
  rfl

/-! ## A buffer -/

theorem assignRow_length {α : Type} {width : ℕ} {xs : List α} (h : xs.length = width) :
    assignRow width xs = .ok xs := if_pos h

/-- A slot of the buffer is a row's, the next state's mask apart. -/
structure Stores (f32 : PyFloat → PyFloat) (b : ReplayBuffer) (i : ℕ) (row : ShadowRow) : Prop where
  obs : b.obs i = row.obs
  act : b.acts i = row.act
  rew : b.rews i = f32 row.rew
  nextObs : b.nextObs i = row.nextObs
  done : b.dones i = row.done
  mask : b.masks i = row.mask

/-- A slot of the buffer is a row's. -/
structure Restores (f32 : PyFloat → PyFloat) (b : ReplayBuffer) (i : ℕ) (row : ShadowRow) : Prop
    extends Stores f32 b i row where
  nextMask : b.nextMasks i = row.nextMask

/-- The buffer holds what is read of `rows`. -/
structure Filled (f32 : PyFloat → PyFloat) (obsDim nActions capacity : ℕ) (rows : List ShadowRow)
    (b : ReplayBuffer) : Prop where
  capacity_eq : b.capacity = capacity
  obsDim_eq : b.obsDim = obsDim
  nActions_eq : b.nActions = nActions
  size : b.size = rows.length
  idx : b.idx = rows.length % capacity
  stores : ∀ i row, rows[i]? = some row → Stores f32 b i row
  nextMasks : ∀ i, b.nextMasks i = List.replicate nActions true

variable {capacity : ℕ} {rows : List ShadowRow} {row : ShadowRow} {b : ReplayBuffer}

theorem new_filled : Filled f32 obsDim nActions capacity [] (.new f32 capacity obsDim nActions) where
  capacity_eq := rfl
  obsDim_eq := rfl
  nActions_eq := rfl
  size := rfl
  idx := (Nat.zero_mod _).symm
  stores := fun _ _ h => by cases h
  nextMasks := fun _ => rfl

/-- The buffer with a row in its next slot. -/
def store (f32 : PyFloat → PyFloat) (b : ReplayBuffer) (row : ShadowRow) : ReplayBuffer :=
  { b with
    obs := Function.update b.obs b.idx row.obs
    acts := Function.update b.acts b.idx row.act
    rews := Function.update b.rews b.idx (f32 row.rew)
    nextObs := Function.update b.nextObs b.idx row.nextObs
    dones := Function.update b.dones b.idx row.done
    gammas := Function.update b.gammas b.idx (f32 (.fin (99 / 100)))
    masks := Function.update b.masks b.idx row.mask
    nextMasks := Function.update b.nextMasks b.idx (b.nextMasks b.idx)
    idx := (b.idx + 1) % b.capacity
    size := min (b.size + 1) b.capacity }

theorem store_stores (b : ReplayBuffer) (row : ShadowRow) :
    Stores f32 (store f32 b row) b.idx row := by
  constructor <;> exact Function.update_self _ _ _

theorem store_stores_of_ne {row' : ShadowRow} {i : ℕ} (hne : i ≠ b.idx) (h : Stores f32 b i row') :
    Stores f32 (store f32 b row) i row' where
  obs := (Function.update_of_ne hne _ _).trans h.obs
  act := (Function.update_of_ne hne _ _).trans h.act
  rew := (Function.update_of_ne hne _ _).trans h.rew
  nextObs := (Function.update_of_ne hne _ _).trans h.nextObs
  done := (Function.update_of_ne hne _ _).trans h.done
  mask := (Function.update_of_ne hne _ _).trans h.mask

theorem add_readOf (h : Filled f32 obsDim nActions capacity rows b)
    (hshaped : Shaped f32 obsDim nActions row) (hcap : rows.length < capacity) :
    b.add f32 (readOf row) = .ok (store f32 b row) := by
  have hroom : ¬ b.capacity ≤ b.idx := by
    rw [h.capacity_eq, h.idx, Nat.mod_eq_of_lt hcap]
    omega
  have hobs := assignRow_length (hshaped.obs_length.trans h.obsDim_eq.symm)
  have hnext := assignRow_length (hshaped.nextObs_length.trans h.obsDim_eq.symm)
  have hmask := assignRow_length (hshaped.mask_length.trans h.nActions_eq.symm)
  simp only [ReplayBuffer.add, readOf, if_neg hroom, hobs, hnext, hmask, store, pure_bind]
  rfl

/-- One more row fits while the capacity is not reached. -/
theorem store_filled (h : Filled f32 obsDim nActions capacity rows b)
    (hcap : rows.length < capacity) :
    Filled f32 obsDim nActions capacity (rows ++ [row]) (store f32 b row) where
  capacity_eq := h.capacity_eq
  obsDim_eq := h.obsDim_eq
  nActions_eq := h.nActions_eq
  size := by
    show min (b.size + 1) b.capacity = _
    rw [h.size, h.capacity_eq, List.length_append, List.length_singleton]
    omega
  idx := by
    show (b.idx + 1) % b.capacity = _
    rw [h.idx, h.capacity_eq, Nat.mod_add_mod, List.length_append, List.length_singleton]
  stores := by
    intro i row' hi
    have hidx : b.idx = rows.length := h.idx.trans (Nat.mod_eq_of_lt hcap)
    by_cases hlt : i < rows.length
    · rw [List.getElem?_append_left hlt] at hi
      exact store_stores_of_ne (by omega) (h.stores i row' hi)
    · rw [List.getElem?_append_right (by omega)] at hi
      obtain ⟨hzero, hrow⟩ := List.getElem?_eq_some_iff.mp hi
      have hlast : i = b.idx := by
        rw [List.length_singleton] at hzero
        omega
      obtain rfl : row = row' := by simpa using hrow
      rw [hlast]
      exact store_stores b row
  nextMasks := by
    intro i
    show Function.update b.nextMasks b.idx (b.nextMasks b.idx) i = _
    rw [Function.update_eq_self]
    exact h.nextMasks i

/-! ## A log -/

theorem readLine_row (h : Filled f32 obsDim nActions capacity rows b)
    (hshaped : Shaped f32 obsDim nActions row) (hjson : ReadsBack rt dumps row.toJson)
    (hcap : rows.length < capacity) :
    readLine rt f32 b (dumps row.toJson) = .ok (store f32 b row) := by
  unfold readLine
  rw [hjson.stripped, if_neg hjson.ne_empty, hjson.loads]
  dsimp only
  rw [h.nActions_eq, rowTransition_row hshaped]
  exact add_readOf h hshaped hcap

/-- The lines of a log are the rows', and an empty one at the end. -/
theorem fileLines_logText (hjson : ∀ row ∈ rows, ReadsBack rt dumps row.toJson) :
    fileLines (logText dumps rows) = (rows.map fun row => dumps row.toJson) ++ [""] := by
  unfold fileLines logText
  rw [String.toList_ofList, pieces_eq_splitOnP]
  induction rows with
  | nil => rfl
  | cons row rows ih =>
    have hline : ∀ c ∈ (dumps row.toJson).toList, (decide (c = '\n') || decide (c = '\r')) = false := by
      intro c hc
      obtain ⟨hn, hr⟩ := (hjson row List.mem_cons_self).one_line c hc
      simp [hn, hr]
    rw [List.flatMap_cons, List.append_assoc, splitOnP_append hline, List.singleton_append,
      List.splitOnP_cons_eq_if_modifyHead]
    simp only [decide_true, Bool.true_or, if_true, List.modifyHead_cons, List.append_nil,
      List.map_cons, String.ofList_toList, List.cons_append]
    rw [ih fun row' h' => hjson row' (List.mem_cons_of_mem _ h')]

/-- A log is read row by row. -/
theorem readLog_filled {log : List ShadowRow} (h : Filled f32 obsDim nActions capacity rows b)
    (hshaped : ∀ row ∈ log, Shaped f32 obsDim nActions row)
    (hjson : ∀ row ∈ log, ReadsBack rt dumps row.toJson)
    (hcap : rows.length + log.length ≤ capacity) :
    ∃ b', (fileLines (logText dumps log)).foldlM (readLine rt f32) b = .ok b' ∧
      Filled f32 obsDim nActions capacity (rows ++ log) b' := by
  rw [fileLines_logText hjson, List.foldlM_append]
  suffices hrows : ∃ b', (log.map fun row => dumps row.toJson).foldlM (readLine rt f32) b = .ok b' ∧
      Filled f32 obsDim nActions capacity (rows ++ log) b' by
    obtain ⟨b', hread, hfilled⟩ := hrows
    refine ⟨b', ?_, hfilled⟩
    rw [hread]
    rfl
  induction log generalizing rows b with
  | nil => exact ⟨b, rfl, by rwa [List.append_nil]⟩
  | cons row log ih =>
    rw [List.length_cons] at hcap
    have hread := readLine_row h (hshaped row List.mem_cons_self) (hjson row List.mem_cons_self)
      (by omega)
    have hstored : Filled f32 obsDim nActions capacity (rows ++ [row]) (store f32 b row) :=
      store_filled h (by omega)
    obtain ⟨b', hrest, hfilled⟩ := ih hstored
      (fun row' h' => hshaped row' (List.mem_cons_of_mem _ h'))
      (fun row' h' => hjson row' (List.mem_cons_of_mem _ h'))
      (by rw [List.length_append, List.length_singleton]; omega)
    refine ⟨b', ?_, by rwa [List.append_assoc, List.singleton_append] at hfilled⟩
    rw [List.map_cons, List.foldlM_cons, hread]
    exact hrest

/-- Logs of no more rows than the capacity are read row by row. -/
theorem load_filled {logs : List (List ShadowRow)}
    (hshaped : ∀ row ∈ logs.flatten, Shaped f32 obsDim nActions row)
    (hjson : ∀ row ∈ logs.flatten, ReadsBack rt dumps row.toJson)
    (hcap : logs.flatten.length ≤ capacity) :
    ∃ b, loadLiveShadowLog rt f32 obsDim nActions capacity (logs.map (logText dumps)) = .ok b ∧
      Filled f32 obsDim nActions capacity logs.flatten b := by
  unfold loadLiveShadowLog
  suffices h : ∀ (rows : List ShadowRow) (b : ReplayBuffer),
      Filled f32 obsDim nActions capacity rows b → rows.length + logs.flatten.length ≤ capacity →
      ∃ b', ((logs.map (logText dumps)).flatMap fileLines).foldlM (readLine rt f32) b = .ok b' ∧
        Filled f32 obsDim nActions capacity (rows ++ logs.flatten) b' from
    h [] _ new_filled (by simpa using hcap)
  induction logs with
  | nil => exact fun rows b h _ => ⟨b, rfl, by rwa [List.flatten_nil, List.append_nil]⟩
  | cons log logs ih =>
    intro rows b h hlength
    rw [List.flatten_cons] at hshaped hjson hcap hlength
    rw [List.length_append] at hcap hlength
    obtain ⟨b₁, hread, hfilled⟩ := readLog_filled h
      (fun row h' => hshaped row (List.mem_append_left _ h'))
      (fun row h' => hjson row (List.mem_append_left _ h')) (by omega)
    obtain ⟨b₂, hrest, hfilled₂⟩ := ih (fun row h' => hshaped row (List.mem_append_right _ h'))
      (fun row h' => hjson row (List.mem_append_right _ h')) (by omega) _ b₁ hfilled
      (by rw [List.length_append]; omega)
    refine ⟨b₂, ?_, by rwa [List.flatten_cons, ← List.append_assoc]⟩
    rw [List.map_cons, List.flatMap_cons, List.foldlM_append, hread]
    exact hrest

/-- Logs are restored, exactly when every mask that they have of a next state
allows every action. -/
theorem restored_iff {logs : List (List ShadowRow)}
    (hshaped : ∀ row ∈ logs.flatten, Shaped f32 obsDim nActions row)
    (hjson : ∀ row ∈ logs.flatten, ReadsBack rt dumps row.toJson)
    (hcap : logs.flatten.length ≤ capacity) :
    (∃ b, loadLiveShadowLog rt f32 obsDim nActions capacity (logs.map (logText dumps)) = .ok b ∧
      b.size = logs.flatten.length ∧
      ∀ i row, logs.flatten[i]? = some row → Restores f32 b i row) ↔
    ∀ row ∈ logs.flatten, row.nextMask = List.replicate nActions true := by
  obtain ⟨b, hload, hfilled⟩ := load_filled hshaped hjson hcap
  constructor
  · rintro ⟨b', hload', -, hrestores⟩ row hrow
    obtain rfl := Except.ok.inj (hload.symm.trans hload')
    obtain ⟨i, hi⟩ := List.mem_iff_getElem?.mp hrow
    rw [← (hrestores i row hi).nextMask]
    exact hfilled.nextMasks i
  · intro h
    refine ⟨b, hload, hfilled.size, fun i row hi => ⟨hfilled.stores i row hi, ?_⟩⟩
    rw [h row (List.mem_of_getElem? hi)]
    exact hfilled.nextMasks i

/-! ## The rows of the daemon -/

section Daemon

open Impl.Sim

variable {n : ℕ} (nodeNames : Fin n → String) (nGpus mpsPerGpu : ℕ) (num : Numeric)

theorem length_grid {α : Type} {n g : ℕ} (f : Fin n → Fin g → α) :
    ((List.finRange n).flatMap fun i => (List.finRange g).map (f i)).length = n * g := by
  rw [List.flatMap_def, length_flatten_const (d := g), List.length_map, List.length_finRange]
  intro b hb
  obtain ⟨i, -, rfl⟩ := List.mem_map.mp hb
  rw [List.length_map, List.length_finRange]

theorem length_obs (pending running : List LiveJob) (now : ℚ) :
    (obs nodeNames nGpus mpsPerGpu num pending running now).length = (envDims n nGpus).1 := by
  let cl := reconstructSimCluster nodeNames nGpus mpsPerGpu running
  let gpuFeats := (List.finRange n).flatMap fun ni =>
    (List.finRange nGpus).map fun gi => gpuFeat (simConfig nodeNames nGpus mpsPerGpu) cl ni gi
  have hjobs : (windowFeats mpsPerGpu num pending now).flatten.length = topK * jobFeatDim := by
    rw [length_flatten_const (windowFeats_length pending now), windowFeats, List.length_map,
      List.length_range]
  have hgpus : gpuFeats.flatten.length = n * nGpus * gpuFeatDim := by
    have hcount : gpuFeats.length = n * nGpus := length_grid _
    rw [length_flatten_const (d := gpuFeatDim), hcount]
    intro b hb
    obtain ⟨ni, -, hb⟩ := List.mem_flatMap.mp hb
    obtain ⟨gi, -, rfl⟩ := List.mem_map.mp hb
    rfl
  rw [obs_eq]
  show ((windowFeats mpsPerGpu num pending now).flatten ++ gpuFeats.flatten ++ _ ++ _).length = _
  rw [List.length_append, List.length_append, List.length_append, hjobs, hgpus]
  rfl

variable {nodeNames nGpus mpsPerGpu num}

/-- An array of 32-bit floats and a mask, as long as they should be. -/
structure StateShaped (f32 : PyFloat → PyFloat) (n nGpus : ℕ) (obs : List PyFloat)
    (mask : List Bool) : Prop where
  obs_length : obs.length = (envDims n nGpus).1
  obs_f32 : ∀ x ∈ obs, f32 x = x
  mask_length : mask.length = (envDims n nGpus).2

theorem decision_shaped (hf32 : ∀ x, f32 (f32 x) = f32 x) (p : Poll) :
    StateShaped f32 n nGpus (decision nodeNames nGpus mpsPerGpu num f32 p).obs
      (decision nodeNames nGpus mpsPerGpu num f32 p).mask where
  obs_length := by
    show ((obs nodeNames nGpus mpsPerGpu num p.pending p.running p.now).map _).length = _
    rw [List.length_map, length_obs]
  obs_f32 := by
    intro x hx
    obtain ⟨y, -, rfl⟩ := List.mem_map.mp hx
    exact hf32 _
  mask_length := by
    show (mask nodeNames nGpus mpsPerGpu p.pending p.running).length = topK * n * nGpus + 1
    rw [mask, List.length_map, List.length_range, nActions, Nat.mul_assoc]

theorem nextState_shaped (hf32 : ∀ x, f32 (f32 x) = f32 x) (hzero : f32 (.fin 0) = .fin 0)
    (p : Poll) : StateShaped f32 n nGpus (nextState nodeNames nGpus mpsPerGpu num f32 p).1
      (nextState nodeNames nGpus mpsPerGpu num f32 p).2 := by
  unfold nextState
  split
  · refine ⟨List.length_replicate, fun x hx => ?_, ?_⟩
    · rw [List.eq_of_mem_replicate hx]
      exact hzero
    · exact List.length_set.trans List.length_replicate
  · exact decision_shaped hf32 p

/-- All that is kept and logged has the shape that the loader expects. -/
structure DaemonShaped (f32 : PyFloat → PyFloat) (n nGpus : ℕ) (s : DaemonState) : Prop where
  kept : ∀ kv ∈ s.pendingObs, StateShaped f32 n nGpus kv.2.obs kv.2.mask
  flown : ∀ kv ∈ s.inFlight, StateShaped f32 n nGpus kv.2.obs kv.2.mask
  logged : ∀ entry ∈ s.logged, Shaped f32 (envDims n nGpus).1 (envDims n nGpus).2 entry.2

theorem keepDecisions_shaped (hf32 : ∀ x, f32 (f32 x) = f32 x) (p : Poll)
    {pendingObs : Dict String Decision}
    (h : ∀ kv ∈ pendingObs, StateShaped f32 n nGpus kv.2.obs kv.2.mask) :
    ∀ kv ∈ keepDecisions nodeNames nGpus mpsPerGpu num f32 p pendingObs,
      StateShaped f32 n nGpus kv.2.obs kv.2.mask := by
  have hfold : ∀ (ids : List String) (d : Dict String Decision),
      (∀ kv ∈ d, StateShaped f32 n nGpus kv.2.obs kv.2.mask) →
      ∀ kv ∈ ids.foldl (fun kept jid =>
        kept.set jid (decision nodeNames nGpus mpsPerGpu num f32 p)) d,
        StateShaped f32 n nGpus kv.2.obs kv.2.mask := by
    intro ids
    induction ids with
    | nil => exact fun d hd => hd
    | cons jid ids ih =>
      refine fun d hd => ih _ fun kv hkv => ?_
      rcases Dict.mem_set hkv with rfl | hkv
      · exact decision_shaped hf32 p
      · exact hd kv hkv
  unfold keepDecisions
  split
  · exact h
  · exact hfold _ _ h

theorem noteStart_shaped {s : DaemonState} (h : DaemonShaped f32 n nGpus s) (rj : LiveJob) :
    DaemonShaped f32 n nGpus (noteStart nodeNames nGpus s rj) := by
  have herase : ∀ kv ∈ s.pendingObs.erase rj.jobId, StateShaped f32 n nGpus kv.2.obs kv.2.mask :=
    fun kv hkv => h.kept kv (List.mem_of_mem_filter hkv)
  obtain heq | heq | ⟨d, k, i, hd, -, -, -, heq⟩ := noteStart_cases nodeNames nGpus s rj
  · rwa [heq]
  · rw [heq]
    exact ⟨herase, h.flown, h.logged⟩
  · rw [heq]
    refine ⟨herase, fun kv hkv => ?_, h.logged⟩
    rcases Dict.mem_set hkv with rfl | hkv
    · exact h.kept _ (Dict.get?_mem hd)
    · exact h.flown kv hkv

theorem logEnded_shaped (hf32 : ∀ x, f32 (f32 x) = f32 x) (hzero : f32 (.fin 0) = .fin 0)
    {s : DaemonState} (h : DaemonShaped f32 n nGpus s) (p : Poll) :
    DaemonShaped f32 n nGpus (logEnded nodeNames nGpus mpsPerGpu num f32 p s) := by
  refine ⟨h.kept, fun kv hkv => h.flown kv (List.mem_of_mem_filter hkv), fun entry hentry => ?_⟩
  rcases List.mem_append.mp hentry with hentry | hentry
  · exact h.logged entry hentry
  · obtain ⟨kv, hkv, rfl⟩ := List.mem_map.mp hentry
    have hflight := h.flown kv (List.mem_of_mem_filter hkv)
    have hnext : StateShaped f32 n nGpus (nextState nodeNames nGpus mpsPerGpu num f32 p).1
      (nextState nodeNames nGpus mpsPerGpu num f32 p).2 := nextState_shaped hf32 hzero p
    exact ⟨hflight.obs_length, hflight.obs_f32, hnext.obs_length, hnext.obs_f32,
      hflight.mask_length, hnext.mask_length⟩

/-- Every row that a daemon logs has the shape that the loader expects. -/
theorem daemon_shaped (hf32 : ∀ x, f32 (f32 x) = f32 x) (hzero : f32 (.fin 0) = .fin 0)
    (polls : List Poll) : DaemonShaped f32 n nGpus
      (run (daemonStep nodeNames nGpus mpsPerGpu num f32) {} polls) := by
  suffices h : ∀ s : DaemonState, DaemonShaped f32 n nGpus s →
      DaemonShaped f32 n nGpus (run (daemonStep nodeNames nGpus mpsPerGpu num f32) s polls) from
    h {} ⟨nofun, nofun, nofun⟩
  induction polls with
  | nil => exact fun s hs => hs
  | cons p polls ih =>
    intro s hs
    refine ih _ (logEnded_shaped hf32 hzero ?_ p)
    have hloop : ∀ (running : List LiveJob) (s : DaemonState), DaemonShaped f32 n nGpus s →
        DaemonShaped f32 n nGpus (running.foldl (noteStart nodeNames nGpus) s) := by
      intro running
      induction running with
      | nil => exact fun s hs => hs
      | cons rj running ihr => exact fun s hs => ihr _ (noteStart_shaped hs rj)
    exact hloop _ _ ⟨keepDecisions_shaped hf32 p hs.kept, hs.flown, hs.logged⟩

end Daemon

/-! ## One line -/

/-- The text of a number, for those that are in the line below. -/
def numberText (q : ℚ) : List Char :=
  if q = 0 then "0".toList else if q = 1 then "1".toList else if q = -1 then "-1".toList
  else "1000".toList

def scalarText : Json → List Char
  | .bool true => "true".toList
  | .bool false => "false".toList
  | .int n => numberText n
  | .float (.fin q) => numberText q ++ ".0".toList
  | _ => "null".toList

/-- `", ".join(texts)` -/
def joinTexts : List (List Char) → List Char
  | [] => []
  | [t] => t
  | t :: ts => t ++ ", ".toList ++ joinTexts ts

def valueText : Json → List Char
  | .arr xs => '[' :: joinTexts (xs.map scalarText) ++ [']']
  | v => scalarText v

def keyText (k : String) : List Char := '\x22' :: k.toList ++ "\x22: ".toList

/-- `json.dumps` of an object of numbers, Booleans and lists of them. -/
def objectDumps : Json → String
  | .obj items => String.ofList
      ('\x7b' :: joinTexts (items.map fun kv => keyText kv.1 ++ valueText kv.2) ++ ['\x7d'])
  | v => String.ofList (valueText v)

/-- A character that ends no line. -/
def InLine (c : Char) : Prop := c ≠ '\n' ∧ c ≠ '\r'

theorem inLine_of_all {cs : List Char}
    (h : (cs.all fun c => decide (c ≠ '\n') && decide (c ≠ '\r')) = true) : ∀ c ∈ cs, InLine c := by
  intro c hc
  have hboth := List.all_eq_true.mp h c hc
  rw [Bool.and_eq_true, decide_eq_true_eq, decide_eq_true_eq] at hboth
  exact hboth

theorem joinTexts_inLine {ts : List (List Char)} (h : ∀ t ∈ ts, ∀ c ∈ t, InLine c) :
    ∀ c ∈ joinTexts ts, InLine c := by
  induction ts using joinTexts.induct with
  | case1 => exact nofun
  | case2 t => exact h t List.mem_cons_self
  | case3 t ts hne ih =>
    intro c hc
    rw [joinTexts] at hc
    · rcases List.mem_append.mp hc with hc | hc
      · rcases List.mem_append.mp hc with hc | hc
        · exact h t List.mem_cons_self c hc
        · exact (inLine_of_all rfl : ∀ c ∈ ", ".toList, InLine c) c hc
      · exact ih (fun t' h' => h t' (List.mem_cons_of_mem _ h')) c hc
    · exact hne

theorem numberText_inLine (q : ℚ) : ∀ c ∈ numberText q, InLine c := by
  unfold numberText
  split
  · exact inLine_of_all rfl
  split
  · exact inLine_of_all rfl
  split
  · exact inLine_of_all rfl
  · exact inLine_of_all rfl

theorem scalarText_inLine (v : Json) : ∀ c ∈ scalarText v, InLine c := by
  have hnull : ∀ c ∈ "null".toList, InLine c := inLine_of_all rfl
  have hzero : ∀ c ∈ ".0".toList, InLine c := inLine_of_all rfl
  cases v with
  | bool b =>
    cases b with
    | true => exact inLine_of_all rfl
    | false => exact inLine_of_all rfl
  | int n => exact numberText_inLine n
  | float x =>
    cases x with
    | fin q =>
      intro c hc
      rcases List.mem_append.mp hc with hc | hc
      · exact numberText_inLine q c hc
      · exact hzero c hc
    | _ => exact hnull
  | _ => exact hnull

theorem valueText_inLine (v : Json) : ∀ c ∈ valueText v, InLine c := by
  cases v with
  | arr xs =>
    intro c hc
    rcases List.mem_append.mp hc with hc | hc
    · rcases List.mem_cons.mp hc with rfl | hc
      · exact ⟨by decide, by decide⟩
      · refine joinTexts_inLine (fun t ht => ?_) c hc
        obtain ⟨x, -, rfl⟩ := List.mem_map.mp ht
        exact scalarText_inLine x
    · rw [List.mem_singleton.mp hc]
      exact ⟨by decide, by decide⟩
  | null => exact scalarText_inLine .null
  | bool b => exact scalarText_inLine (.bool b)
  | int k => exact scalarText_inLine (.int k)
  | float x => exact scalarText_inLine (.float x)
  | str t => exact scalarText_inLine (.str t)
  | obj items => exact scalarText_inLine (.obj items)

/-- An object between its braces is one line, with no space around it. -/
theorem objectDumps_reads {rt : Runtime} {items : List (String × Json)}
    (hkeys : ∀ kv ∈ items, ∀ c ∈ keyText kv.1, InLine c)
    (hloads : rt.loads (objectDumps (.obj items)) = .ok (.obj items)) :
    ReadsBack rt objectDumps (.obj items) where
  loads := hloads
  one_line := by
    intro c hc
    rw [objectDumps, String.toList_ofList] at hc
    rcases List.mem_append.mp hc with hc | hc
    · rcases List.mem_cons.mp hc with rfl | hc
      · exact ⟨by decide, by decide⟩
      · refine joinTexts_inLine (fun t ht => ?_) c hc
        obtain ⟨kv, hkv, rfl⟩ := List.mem_map.mp ht
        intro c hc
        rcases List.mem_append.mp hc with hc | hc
        · exact hkeys kv hkv c hc
        · exact valueText_inLine kv.2 c hc
    · rw [List.mem_singleton.mp hc]
      exact ⟨by decide, by decide⟩
  stripped := by
    rw [objectDumps, strip, String.toList_ofList, List.cons_append,
      List.dropWhile_cons_of_neg (by decide), ← List.cons_append,
      List.rdropWhile_concat_neg _ _ _ (by decide)]
  ne_empty := by
    intro hempty
    have hlist := congrArg String.toList hempty
    rw [objectDumps, String.toList_ofList] at hlist
    cases hlist

/-- A job that takes a whole node runs and ends. -/
def wholePolls : List Poll :=
  [pollOf [jobRecord "7" "PENDING" "" 100], pollOf [jobRecord "7" "RUNNING" "gpu-1" 100], pollOf []]

def wholeRows : List ShadowRow :=
  (run (daemonStep (fun _ : Fin 1 => "gpu-1") 1 100 flatNumeric id) {} wholePolls).logged.map Prod.snd

def wholeRow : ShadowRow := wholeRows.headD ⟨[], 0, .nan, [], false, [], [], .nan⟩

/-- An interpreter that reads the line of a row. -/
def rowRuntime (row : ShadowRow) : Runtime where
  repr _ := ""
  int s := s.toInt?
  float _ := none
  loads s := if s = objectDumps row.toJson then .ok row.toJson else .error .jsonDecodeError

def wholeRuntime : Runtime := rowRuntime wholeRow

theorem wholeRows_eq : wholeRows = [wholeRow] := by decide +kernel

theorem wholeRow_shaped : Shaped id 161 17 wholeRow := by
  have hmem : wholeRow ∈ wholeRows := wholeRows_eq ▸ List.mem_cons_self
  obtain ⟨entry, hentry, hrow⟩ := List.mem_map.mp hmem
  rw [← hrow]
  exact (daemon_shaped (fun _ => rfl) rfl wholePolls).logged entry hentry

theorem row_reads (row : ShadowRow) : ReadsBack (rowRuntime row) objectDumps row.toJson := by
  refine objectDumps_reads ?_ ?_
  · have hall : (["obs", "act", "rew", "next_obs", "done", "mask", "next_mask", "jct_s"].all fun k =>
        (keyText k).all fun c => decide (c ≠ '\n') && decide (c ≠ '\r')) = true := rfl
    exact fun kv hkv => inLine_of_all (List.all_eq_true.mp hall kv.1 (List.mem_map_of_mem hkv))
  · unfold rowRuntime
    dsimp only
    exact if_pos rfl

/-- The row, were every job of a full window to fit next. -/
def openRow : ShadowRow := { wholeRow with nextMask := List.replicate 17 true }

theorem openRow_shaped : Shaped id 161 17 openRow :=
  { wholeRow_shaped with nextMask_length := List.length_replicate }

/-- The line of the one row is restored, that of the other is not. -/
theorem open_restored_iff :
    (∃ b, loadLiveShadowLog (rowRuntime openRow) id 161 17 10
        ([[openRow]].map (logText objectDumps)) = .ok b ∧ b.size = [[openRow]].flatten.length ∧
      ∀ i row, [[openRow]].flatten[i]? = some row → Restores id b i row) ∧
    ((∃ b, loadLiveShadowLog wholeRuntime id 161 17 10 ([[wholeRow]].map (logText objectDumps)) =
        .ok b ∧ b.size = [[wholeRow]].flatten.length ∧
      ∀ i row, [[wholeRow]].flatten[i]? = some row → Restores id b i row) ↔
    ∀ row ∈ [[wholeRow]].flatten, row.nextMask = List.replicate 17 true) := by
  constructor
  · refine (restored_iff (fun row hrow => ?_) (fun row hrow => ?_) (by decide)).mpr fun row hrow => ?_
    · obtain rfl : row = openRow := by simpa using hrow
      exact openRow_shaped
    · obtain rfl : row = openRow := by simpa using hrow
      exact row_reads openRow
    · obtain rfl : row = openRow := by simpa using hrow
      rfl
  · refine restored_iff (fun row hrow => ?_) (fun row hrow => ?_) (by decide)
    · obtain rfl : row = wholeRow := by simpa using hrow
      exact wholeRow_shaped
    · obtain rfl : row = wholeRow := by simpa using hrow
      exact row_reads wholeRow

/-- The daemon's line of a job that nothing follows is not restored. -/
theorem whole_not_restored : wholeRows = [wholeRow] ∧
    ¬ ∃ b, loadLiveShadowLog wholeRuntime id 161 17 10 [logText objectDumps [wholeRow]] = .ok b ∧
      b.size = 1 ∧ ∀ i row, [wholeRow][i]? = some row → Restores id b i row := by
  refine ⟨wholeRows_eq, ?_⟩
  rintro ⟨b, hload, -, hrestores⟩
  obtain ⟨b', hload', hfilled⟩ : ∃ b, loadLiveShadowLog wholeRuntime id 161 17 10
      ([[wholeRow]].map (logText objectDumps)) = .ok b ∧ Filled id 161 17 10 [wholeRow] b :=
    load_filled
      (fun row hrow => by
        obtain rfl : row = wholeRow := by simpa using hrow
        exact wholeRow_shaped)
      (fun row hrow => by
        obtain rfl : row = wholeRow := by simpa using hrow
        exact row_reads wholeRow)
      (by decide)
  obtain rfl := Except.ok.inj (hload.symm.trans hload')
  have hmask := (hrestores 0 wholeRow rfl).nextMask
  rw [hfilled.nextMasks 0] at hmask
  have hne : List.replicate 17 true ≠ wholeRow.nextMask := by decide +kernel
  exact hne hmask

end Kelpflux.Proof.Scheduler
