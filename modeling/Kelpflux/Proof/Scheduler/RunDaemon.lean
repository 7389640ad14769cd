import Kelpflux.Framework.Mask
import Kelpflux.Framework.Run
import Kelpflux.Impl.Scheduler.RunDaemon

/-!
# What the live daemon logs

A job is logged at the first listing without it, once (`logged_once`). The
action that is logged is that of the job and a node that it was listed on, under
the mask of the last listing that showed it pending, as long as every start that
the daemon sees meets `StartsFit`: the node was free at that listing, and a name
that occurs in a job's node list is of a node that the job runs on. Otherwise
the mask can forbid the action (`logged_sound`).
-/

namespace Kelpflux.Proof.Scheduler

open Framework Framework.Python Impl.Scheduler.LiveDaemon

variable {n : ℕ} (nodeNames : Fin n → String) (nGpus mpsPerGpu : ℕ) (num : Impl.Sim.Numeric)
  (f32 : PyFloat → PyFloat)

/-- The jobs that a listing shows to the policy. -/
def shownIds (p : Poll) : List String :=
  if p.pending = [] then []
  else (decision nodeNames nGpus mpsPerGpu num f32 p).topIds.reduceOption.filter (· ≠ "")

/-- The last listing that shows a job. -/
def lastShown (polls : List Poll) (jid : String) : Option Poll :=
  polls.reverse.find? fun p => jid ∈ shownIds nodeNames nGpus mpsPerGpu num f32 p

/-- A node's first GPU is free for a job at a listing. -/
def FreeAt (p : Poll) (k : Fin n) (job : Impl.Sim.TraceJob) : Prop :=
  ∃ h : 0 < nGpus, job.mpsReq ≤
    ((reconstructSimCluster nodeNames nGpus mpsPerGpu p.running).nodes k).gpus ⟨0, h⟩

/-- A daemon, and the listings that it has read. -/
structure Traced where
  polls : List Poll := []
  state : DaemonState := {}

def tracedStep (t : Traced) (p : Poll) : Traced where
  polls := t.polls ++ [p]
  state := daemonStep nodeNames nGpus mpsPerGpu num f32 t.state p

/-- The jobs that a listing finds running, and that are not known to. `hosts`
are the nodes that a node list stands for. -/
def StartsFit (hosts : String → List String) (t : Traced) (p : Poll) : Prop :=
  ∀ rj ∈ p.running, rj.jobId ∉ t.state.inFlight.keys →
    rj.jobId ∈ (keepDecisions nodeNames nGpus mpsPerGpu num f32 p t.state.pendingObs).keys →
    ∀ k ∈ nodeJOf nodeNames rj, nodeNames k ∈ hosts rj.nodelist ∧
      ∀ q ∈ lastShown nodeNames nGpus mpsPerGpu num f32 (t.polls ++ [p]) rj.jobId,
        ∀ job ∈ top q.pending, job.jobId = rj.jobId → FreeAt nodeNames nGpus mpsPerGpu q k job

/-! ## Dictionaries -/

theorem get?_foldl_set {κ ν : Type} [DecidableEq κ] (ks : List κ) (v : ν) (d : Dict κ ν) (k : κ) :
    (ks.foldl (fun kept k => kept.set k v) d).get? k = if k ∈ ks then some v else d.get? k := by
  induction ks generalizing d with
  | nil => rfl
  | cons k' ks ih =>
    rw [List.foldl_cons, ih]
    by_cases hks : k ∈ ks
    · rw [if_pos hks, if_pos (List.mem_cons_of_mem _ hks)]
    · rw [if_neg hks, Dict.get?_set]
      by_cases hk : k = k'
      · rw [if_pos hk, if_pos (hk ▸ List.mem_cons_self)]
      · rw [if_neg hk, if_neg]
        intro hmem
        exact (List.mem_cons.mp hmem).elim hk hks

/-- What is kept of a job: the listing that shows it, or what was kept before. -/
theorem get?_keepDecisions (p : Poll) (pendingObs : Dict String Decision) (jid : String) :
    (keepDecisions nodeNames nGpus mpsPerGpu num f32 p pendingObs).get? jid =
      if jid ∈ shownIds nodeNames nGpus mpsPerGpu num f32 p then
        some (decision nodeNames nGpus mpsPerGpu num f32 p)
      else pendingObs.get? jid := by
  unfold keepDecisions shownIds
  split
  · rfl
  · exact get?_foldl_set _ _ _ _

/-! ## Once -/

variable {s s' : DaemonState} {p : Poll} {rj : LiveJob} {jid : String}

/-- What a running job does: nothing, or its start is noted. -/
theorem noteStart_cases (s : DaemonState) (rj : LiveJob) :
    noteStart nodeNames nGpus s rj = s ∨
    (noteStart nodeNames nGpus s rj = { s with pendingObs := s.pendingObs.erase rj.jobId }) ∨
    ∃ d k i, s.pendingObs.get? rj.jobId = some d ∧ rj.jobId ∉ s.inFlight.keys ∧
      nodeJOf nodeNames rj = some k ∧ d.topIds.idxOf? (some rj.jobId) = some i ∧
      noteStart nodeNames nGpus s rj =
        { s with
          pendingObs := s.pendingObs.erase rj.jobId
          inFlight := s.inFlight.set rj.jobId
            ⟨d.obs, i * (n * nGpus) + k * nGpus + 0, d.mask, d.ts⟩ } := by
  unfold noteStart
  cases hd : s.pendingObs.get? rj.jobId with
  | none => exact .inl rfl
  | some d =>
    dsimp only
    by_cases hflight : rj.jobId ∈ s.inFlight.keys
    · rw [if_pos hflight]
      exact .inl rfl
    · rw [if_neg hflight]
      cases hk : nodeJOf nodeNames rj with
      | none => exact .inr (.inl rfl)
      | some k =>
        cases hi : d.topIds.idxOf? (some rj.jobId) with
        | none => exact .inr (.inl rfl)
        | some i => exact .inr (.inr ⟨d, k, i, rfl, hflight, rfl, hi, rfl⟩)

/-- The jobs in flight are distinct, and among `ids`. -/
structure Aloft (s : DaemonState) (ids : List String) : Prop where
  nodup : s.inFlight.keys.Nodup
  subset : ∀ jid ∈ s.inFlight.keys, jid ∈ ids

theorem noteStart_aloft {ids : List String} (h : Aloft s ids) (rj : LiveJob) :
    Aloft (noteStart nodeNames nGpus s rj) (ids ++ [rj.jobId]) ∧
      (noteStart nodeNames nGpus s rj).logged = s.logged := by
  have hkeep : Aloft s (ids ++ [rj.jobId]) :=
    ⟨h.nodup, fun jid hjid => List.mem_append_left _ (h.subset jid hjid)⟩
  obtain heq | heq | ⟨d, k, i, -, -, -, -, heq⟩ := noteStart_cases nodeNames nGpus s rj
  · rw [heq]
    exact ⟨hkeep, rfl⟩
  · rw [heq]
    exact ⟨⟨hkeep.nodup, hkeep.subset⟩, rfl⟩
  · rw [heq]
    refine ⟨⟨Dict.nodup_set h.nodup _ _, fun jid hjid => ?_⟩, rfl⟩
    rcases Dict.mem_keys_set.mp hjid with hjid | rfl
    · exact hkeep.subset jid hjid
    · exact List.mem_append_right _ List.mem_cons_self

theorem noteStarts_aloft {ids : List String} (h : Aloft s ids) (running : List LiveJob) :
    Aloft (running.foldl (noteStart nodeNames nGpus) s) (ids ++ running.map fun rj => rj.jobId) ∧
      (running.foldl (noteStart nodeNames nGpus) s).logged = s.logged := by
  induction running generalizing s ids with
  | nil => exact ⟨by rwa [List.map_nil, List.append_nil], rfl⟩
  | cons rj running ih =>
    obtain ⟨hstart, hlogged⟩ := noteStart_aloft nodeNames nGpus h rj
    obtain ⟨hrest, hlogged'⟩ := ih hstart
    rw [List.append_assoc] at hrest
    exact ⟨hrest, hlogged'.trans hlogged⟩

theorem running_liveIds {rj : LiveJob} (h : rj ∈ p.running) : rj.jobId ∈ p.liveIds :=
  List.mem_map_of_mem (List.mem_of_mem_filter h)

/-- How often a job is in the log. -/
def timesLogged (s : DaemonState) (jid : String) : ℕ := s.logged.countP fun entry => entry.1 = jid

/-- The jobs that are gone are logged once each. -/
theorem logEnded_aloft {ids : List String} (h : Aloft s (ids ++ p.running.map fun rj => rj.jobId)) :
    Aloft (logEnded nodeNames nGpus mpsPerGpu num f32 p s) p.liveIds ∧ ∀ jid,
      timesLogged (logEnded nodeNames nGpus mpsPerGpu num f32 p s) jid ≤
        timesLogged s jid + if jid ∈ ids ∧ jid ∉ p.liveIds then 1 else 0 := by
  constructor
  · refine ⟨h.nodup.sublist (List.filter_sublist.map _), fun jid hjid => ?_⟩
    obtain ⟨kv, hkv, rfl⟩ := List.mem_map.mp hjid
    exact of_decide_eq_true (List.mem_filter.mp hkv).2
  · intro jid
    let ended := s.inFlight.filter fun kv => kv.1 ∉ p.liveIds
    have hcount : timesLogged (logEnded nodeNames nGpus mpsPerGpu num f32 p s) jid =
        timesLogged s jid + (ended.map Prod.fst).count jid := by
      unfold timesLogged logEnded
      rw [List.countP_append, List.countP_map, List.count, List.countP_map]
      congr 1
    have hnodup : (ended.map Prod.fst).Nodup := h.nodup.sublist (List.filter_sublist.map _)
    rw [hcount]
    by_cases hmem : jid ∈ ended.map Prod.fst
    · obtain ⟨kv, hkv, rfl⟩ := List.mem_map.mp hmem
      obtain ⟨hflight, hgone⟩ := List.mem_filter.mp hkv
      have hgone : kv.1 ∉ p.liveIds := of_decide_eq_true hgone
      have hids : kv.1 ∈ ids := by
        rcases List.mem_append.mp (h.subset _ (List.mem_map_of_mem hflight)) with hids | hrunning
        · exact hids
        · obtain ⟨rj, hrj, hid⟩ := List.mem_map.mp hrunning
          exact absurd (hid ▸ running_liveIds hrj) hgone
      rw [if_pos ⟨hids, hgone⟩]
      exact Nat.add_le_add_left (List.nodup_iff_count_le_one.mp hnodup _) _
    · rw [List.count_eq_zero_of_not_mem hmem]
      omega

/-- A turn logs a job at most once, and only one that was listed before and is not now. -/
theorem step_aloft {ids : List String} (h : Aloft s ids) (p : Poll) :
    Aloft (daemonStep nodeNames nGpus mpsPerGpu num f32 s p) p.liveIds ∧ ∀ jid,
      timesLogged (daemonStep nodeNames nGpus mpsPerGpu num f32 s p) jid ≤
        timesLogged s jid + if jid ∈ ids ∧ jid ∉ p.liveIds then 1 else 0 := by
  have hkept : Aloft { s with
      pendingObs := keepDecisions nodeNames nGpus mpsPerGpu num f32 p s.pendingObs } ids :=
    ⟨h.nodup, h.subset⟩
  obtain ⟨hstart, hlogged⟩ := noteStarts_aloft nodeNames nGpus hkept p.running
  obtain ⟨haloft, htimes⟩ := logEnded_aloft nodeNames nGpus mpsPerGpu num f32 hstart
  refine ⟨haloft, fun jid => ?_⟩
  have hsame : timesLogged (p.running.foldl (noteStart nodeNames nGpus) { s with
      pendingObs := keepDecisions nodeNames nGpus mpsPerGpu num f32 p s.pendingObs }) jid =
      timesLogged s jid := congrArg (List.countP _) hlogged
  rw [← hsame]
  exact htimes jid

/-- The jobs that the last listing has. -/
def lastIds (polls : List Poll) : List String := (polls.getLast?.map Poll.liveIds).getD []

theorem run_aloft (polls : List Poll) :
    Aloft (run (daemonStep nodeNames nGpus mpsPerGpu num f32) {} polls) (lastIds polls) := by
  induction polls using List.reverseRecOn with
  | nil => exact ⟨List.nodup_nil, nofun⟩
  | append_singleton polls p ih =>
    have hlast : lastIds (polls ++ [p]) = p.liveIds := by
      rw [lastIds, List.getLast?_append]
      rfl
    rw [run, List.foldl_append, hlast]
    exact (step_aloft nodeNames nGpus mpsPerGpu num f32 ih p).1

/-- Each turn logs a job at most once, when the last listing had it and this one has not. -/
theorem logged_once (polls : List Poll) (p : Poll) (jid : String) :
    timesLogged (run (daemonStep nodeNames nGpus mpsPerGpu num f32) {} (polls ++ [p])) jid ≤
      timesLogged (run (daemonStep nodeNames nGpus mpsPerGpu num f32) {} polls) jid +
        if jid ∈ lastIds polls ∧ jid ∉ p.liveIds then 1 else 0 := by
  rw [run, List.foldl_append]
  exact (step_aloft nodeNames nGpus mpsPerGpu num f32
    (run_aloft nodeNames nGpus mpsPerGpu num f32 polls) p).2 jid

/-! ## What is logged -/

variable (hosts : String → List String)

/-- A job that runs at `p`, the last of the listings so far, was taken onto a
node that was free for it at the listing `q` that it was shown in. -/
def Took (before : List Poll) (p : Poll) (jid : String) (obs : List PyFloat) (mask : List Bool)
    (act : ℕ) : Prop :=
  ∃ q ∈ before ++ [p], ∃ rj ∈ p.running, rj.jobId = jid ∧ ∃ i job, ∃ k : Fin n,
    obs = (decision nodeNames nGpus mpsPerGpu num f32 q).obs ∧
    mask = (decision nodeNames nGpus mpsPerGpu num f32 q).mask ∧
    (top q.pending)[i]? = some job ∧ job.jobId = jid ∧
    act = i * (n * nGpus) + k * nGpus + 0 ∧
    FreeAt nodeNames nGpus mpsPerGpu q k job ∧ nodeNames k ∈ hosts rj.nodelist

/-- A job was taken, and has been listed since. -/
def Flown (polls : List Poll) (jid : String) (fl : Flight) : Prop :=
  ∃ before p after, polls = before ++ p :: after ∧ (∀ q ∈ p :: after, jid ∈ q.liveIds) ∧
    Took nodeNames nGpus mpsPerGpu num f32 hosts before p jid fl.obs fl.mask fl.act

/-- A job was taken, and was listed until it was logged. -/
def Landed (polls : List Poll) (jid : String) (row : ShadowRow) : Prop :=
  ∃ before p mid e after, polls = before ++ p :: (mid ++ e :: after) ∧
    (∀ q ∈ p :: mid, jid ∈ q.liveIds) ∧ jid ∉ e.liveIds ∧
    Took nodeNames nGpus mpsPerGpu num f32 hosts before p jid row.obs row.mask row.act

/-- What is kept and logged after the listings read so far. -/
structure TracedInv (t : Traced) : Prop where
  kept : ∀ jid d, t.state.pendingObs.get? jid = some d →
    ∃ q, lastShown nodeNames nGpus mpsPerGpu num f32 t.polls jid = some q ∧
      d = decision nodeNames nGpus mpsPerGpu num f32 q
  flown : ∀ kv ∈ t.state.inFlight,
    Flown nodeNames nGpus mpsPerGpu num f32 hosts t.polls kv.1 kv.2
  landed : ∀ entry ∈ t.state.logged,
    Landed nodeNames nGpus mpsPerGpu num f32 hosts t.polls entry.1 entry.2

/-- The same within the loop over the jobs that run at `p`. -/
structure LoopInv (t : Traced) (p : Poll) (s : DaemonState) : Prop where
  kept : ∀ jid d, s.pendingObs.get? jid = some d →
    jid ∈ (keepDecisions nodeNames nGpus mpsPerGpu num f32 p t.state.pendingObs).keys ∧
    ∃ q, lastShown nodeNames nGpus mpsPerGpu num f32 (t.polls ++ [p]) jid = some q ∧
      d = decision nodeNames nGpus mpsPerGpu num f32 q
  known : ∀ jid ∈ t.state.inFlight.keys, jid ∈ s.inFlight.keys
  flown : ∀ kv ∈ s.inFlight, Flown nodeNames nGpus mpsPerGpu num f32 hosts t.polls kv.1 kv.2 ∨
    Took nodeNames nGpus mpsPerGpu num f32 hosts t.polls p kv.1 kv.2.obs kv.2.mask kv.2.act
  logged : s.logged = t.state.logged

variable {nodeNames nGpus mpsPerGpu num f32 hosts} {t : Traced}

theorem loop_start (h : TracedInv nodeNames nGpus mpsPerGpu num f32 hosts t) (p : Poll) :
    LoopInv nodeNames nGpus mpsPerGpu num f32 hosts t p { t.state with
      pendingObs := keepDecisions nodeNames nGpus mpsPerGpu num f32 p t.state.pendingObs } where
  kept := by
    intro jid d hd
    refine ⟨Dict.mem_keys_of_get? hd, ?_⟩
    have hlast : lastShown nodeNames nGpus mpsPerGpu num f32 (t.polls ++ [p]) jid =
        if jid ∈ shownIds nodeNames nGpus mpsPerGpu num f32 p then some p
        else lastShown nodeNames nGpus mpsPerGpu num f32 t.polls jid := by
      rw [lastShown, List.reverse_append, List.reverse_singleton, List.singleton_append,
        List.find?_cons]
      by_cases hshown : jid ∈ shownIds nodeNames nGpus mpsPerGpu num f32 p
      · simp [hshown]
      · simp [hshown, lastShown]
    rw [get?_keepDecisions] at hd
    rw [hlast]
    by_cases hshown : jid ∈ shownIds nodeNames nGpus mpsPerGpu num f32 p
    · rw [if_pos hshown] at hd ⊢
      exact ⟨p, rfl, (Option.some.inj hd).symm⟩
    · rw [if_neg hshown] at hd ⊢
      exact h.kept jid d hd
  known := fun _ hjid => hjid
  flown := fun kv hkv => .inl (h.flown kv hkv)
  logged := rfl

theorem get?_of_erase {κ ν : Type} [DecidableEq κ] {d : Dict κ ν} {k k' : κ} {v : ν}
    (h : (d.erase k).get? k' = some v) : d.get? k' = some v := by
  have hne : k' ≠ k := by
    have hkey := Dict.mem_keys_of_get? h
    rw [Dict.keys_erase] at hkey
    simpa using (List.mem_filter.mp hkey).2
  have hsame : (d.erase k).get? k' = d.get? k' := by
    unfold Dict.get? Dict.erase
    rw [List.find?_filter]
    refine congrArg (Option.map Prod.snd) (congrArg (List.find? · d) (funext fun kv => ?_))
    by_cases hkv : kv.1 = k'
    · simp [hkv, hne]
    · simp [hkv]
  rwa [hsame] at h

theorem lastShown_mem {polls : List Poll} {q : Poll}
    (h : lastShown nodeNames nGpus mpsPerGpu num f32 polls jid = some q) : q ∈ polls :=
  List.mem_reverse.mp (List.mem_of_find?_eq_some h)

/-- The index of a job in the window. -/
theorem top_of_idxOf? {q : Poll} {i : ℕ}
    (h : (decision nodeNames nGpus mpsPerGpu num f32 q).topIds.idxOf? (some jid) = some i) :
    ∃ job, (top q.pending)[i]? = some job ∧ job.jobId = jid := by
  obtain ⟨hlt, hget, -⟩ := List.idxOf?_eq_some_iff.mp h
  have hget? : (decision nodeNames nGpus mpsPerGpu num f32 q).topIds[i]? = some (some jid) :=
    List.getElem?_eq_some_iff.mpr ⟨hlt, hget⟩
  have hids : (decision nodeNames nGpus mpsPerGpu num f32 q).topIds =
      (List.range Impl.Sim.topK).map fun i => (top q.pending)[i]?.map fun j => j.jobId := rfl
  rw [hids, List.getElem?_map] at hget?
  obtain ⟨i', hi', hjob⟩ := Option.map_eq_some_iff.mp hget?
  obtain ⟨hlt', hindex⟩ := List.getElem?_eq_some_iff.mp hi'
  rw [List.getElem_range] at hindex
  subst hindex
  exact Option.map_eq_some_iff.mp hjob

/-- A start that meets `StartsFit` keeps the loop's invariant. -/
theorem loop_step {s : DaemonState} {rj : LiveJob}
    (h : LoopInv nodeNames nGpus mpsPerGpu num f32 hosts t p s)
    (hfit : StartsFit nodeNames nGpus mpsPerGpu num f32 hosts t p) (hrj : rj ∈ p.running) :
    LoopInv nodeNames nGpus mpsPerGpu num f32 hosts t p (noteStart nodeNames nGpus s rj) := by
  have herase : ∀ jid d, (s.pendingObs.erase rj.jobId).get? jid = some d →
      s.pendingObs.get? jid = some d := fun _ _ => get?_of_erase
  obtain heq | heq | ⟨d, k, i, hd, hflight, hk, hi, heq⟩ := noteStart_cases nodeNames nGpus s rj
  · rwa [heq]
  · rw [heq]
    exact ⟨fun jid d hd => h.kept jid d (herase jid d hd), h.known, h.flown, h.logged⟩
  · rw [heq]
    obtain ⟨hkeys, q, hq, rfl⟩ := h.kept _ _ hd
    obtain ⟨job, hjob, hid⟩ := top_of_idxOf? hi
    obtain ⟨hhost, hfree⟩ := hfit rj hrj (fun hmem => hflight (h.known _ hmem)) hkeys k hk
    refine ⟨fun jid d hd => h.kept jid d (herase jid d hd), fun jid hjid => ?_, fun kv hkv => ?_,
      h.logged⟩
    · exact Dict.mem_keys_set.mpr (.inl (h.known jid hjid))
    · rcases Dict.mem_set hkv with rfl | hkv
      · exact .inr ⟨q, lastShown_mem hq, rj, hrj, rfl, i, job, k, rfl, rfl, hjob, hid, rfl,
          hfree q hq job (List.mem_of_getElem? hjob) hid, hhost⟩
      · exact h.flown kv hkv

theorem loop_all {s : DaemonState} {running : List LiveJob} (hsub : ∀ rj ∈ running, rj ∈ p.running)
    (h : LoopInv nodeNames nGpus mpsPerGpu num f32 hosts t p s)
    (hfit : StartsFit nodeNames nGpus mpsPerGpu num f32 hosts t p) :
    LoopInv nodeNames nGpus mpsPerGpu num f32 hosts t p
      (running.foldl (noteStart nodeNames nGpus) s) := by
  induction running generalizing s with
  | nil => exact h
  | cons rj running ih =>
    exact ih (fun rj' h' => hsub rj' (List.mem_cons_of_mem _ h'))
      (loop_step h hfit (hsub rj List.mem_cons_self))

theorem Landed.append {polls : List Poll} {row : ShadowRow}
    (h : Landed nodeNames nGpus mpsPerGpu num f32 hosts polls jid row) (p' : Poll) :
    Landed nodeNames nGpus mpsPerGpu num f32 hosts (polls ++ [p']) jid row := by
  obtain ⟨before, p, mid, e, after, rfl, hlive, hgone, htook⟩ := h
  exact ⟨before, p, mid, e, after ++ [p'], by simp, hlive, hgone, htook⟩

/-- A job that was taken earlier, and is listed again. -/
theorem Flown.append {polls : List Poll} {fl : Flight}
    (h : Flown nodeNames nGpus mpsPerGpu num f32 hosts polls jid fl) (hlive : jid ∈ p.liveIds) :
    Flown nodeNames nGpus mpsPerGpu num f32 hosts (polls ++ [p]) jid fl := by
  obtain ⟨before, p', after, rfl, hsince, htook⟩ := h
  refine ⟨before, p', after ++ [p], by simp, fun q hq => ?_, htook⟩
  rw [← List.cons_append] at hq
  rcases List.mem_append.mp hq with hq | hq
  · exact hsince q hq
  · rwa [List.mem_singleton.mp hq]

/-- A turn whose starts meet `StartsFit` keeps the invariant. -/
theorem traced_step (h : TracedInv nodeNames nGpus mpsPerGpu num f32 hosts t)
    (hfit : StartsFit nodeNames nGpus mpsPerGpu num f32 hosts t p) :
    TracedInv nodeNames nGpus mpsPerGpu num f32 hosts
      (tracedStep nodeNames nGpus mpsPerGpu num f32 t p) := by
  have hloop := loop_all (fun _ hrj => hrj) (loop_start h p) hfit
  refine ⟨fun jid d hd => (hloop.kept jid d hd).2, fun kv hkv => ?_, fun entry hentry => ?_⟩
  · obtain ⟨hflight, hlive⟩ := List.mem_filter.mp hkv
    have hlive : kv.1 ∈ p.liveIds := of_decide_eq_true hlive
    rcases hloop.flown kv hflight with hflown | htook
    · exact hflown.append hlive
    · refine ⟨t.polls, p, [], rfl, fun q hq => ?_, htook⟩
      rwa [List.mem_singleton.mp hq]
  · rcases List.mem_append.mp hentry with hentry | hentry
    · rw [hloop.logged] at hentry
      exact (h.landed entry hentry).append p
    · obtain ⟨kv, hkv, rfl⟩ := List.mem_map.mp hentry
      obtain ⟨hflight, hgone⟩ := List.mem_filter.mp hkv
      have hgone : kv.1 ∉ p.liveIds := of_decide_eq_true hgone
      rcases hloop.flown kv hflight with hflown | htook
      · obtain ⟨before, p', after, hpolls, hsince, htook⟩ := hflown
        refine ⟨before, p', after, p, [], ?_, hsince, hgone, htook⟩
        show t.polls ++ [p] = _
        rw [hpolls, List.append_assoc, List.cons_append]
      · obtain ⟨q, -, rj, hrj, hid, -⟩ := htook
        exact absurd (hid ▸ running_liveIds hrj) hgone

/-! ## What an action decodes to -/

/-- A block of a list of blocks of one length. -/
theorem block_flatten {α : Type} {d i : ℕ} {blocks : List (List α)} {block : List α}
    (hlength : ∀ b ∈ blocks, b.length = d) (h : blocks[i]? = some block) (rest : List α) :
    ((blocks.flatten ++ rest).drop (i * d)).take d = block := by
  induction blocks generalizing i with
  | nil => cases h
  | cons b blocks ih =>
    have hb := hlength b List.mem_cons_self
    rw [List.flatten_cons, List.append_assoc]
    cases i with
    | zero =>
      obtain rfl : b = block := Option.some.inj h
      rw [Nat.zero_mul, List.drop_zero, ← hb, List.take_left]
    | succ i =>
      have hdrop : (i + 1) * d = b.length + i * d := by
        rw [hb, Nat.succ_mul, Nat.add_comm]
      rw [hdrop, ← List.drop_drop, List.drop_left]
      exact ih (fun b' h' => hlength b' (List.mem_cons_of_mem _ h')) h

variable (mpsPerGpu num) in
/-- The features of the window's jobs, up to `TOP_K`. -/
def windowFeats (pending : List LiveJob) (now : ℚ) : List (List ℚ) :=
  (List.range Impl.Sim.topK).map fun i =>
    ((top pending)[i]?.map fun j => Impl.Sim.jobFeat num j now mpsPerGpu).getD
      (List.replicate Impl.Sim.jobFeatDim 0)

theorem windowFeats_length (pending : List LiveJob) (now : ℚ) :
    ∀ b ∈ windowFeats mpsPerGpu num pending now, b.length = Impl.Sim.jobFeatDim := by
  intro b hb
  obtain ⟨i, -, rfl⟩ := List.mem_map.mp hb
  cases (top pending)[i]? with
  | some job => rfl
  | none => exact List.length_replicate

/-- An observation: the features of the jobs, and those of the cluster. -/
theorem obs_eq (pending running : List LiveJob) (now : ℚ) :
    obs nodeNames nGpus mpsPerGpu num pending running now =
      let cl := reconstructSimCluster nodeNames nGpus mpsPerGpu running
      let gpuFeats := (List.finRange n).flatMap fun ni =>
        (List.finRange nGpus).map fun gi =>
          Impl.Sim.gpuFeat (simConfig nodeNames nGpus mpsPerGpu) cl ni gi
      (windowFeats mpsPerGpu num pending now).flatten ++ gpuFeats.flatten ++
        Impl.Sim.topoFeat (pending.map liveToSimJob) cl ++
        Impl.Sim.globalFeat num (pending.map liveToSimJob) cl now := by
  unfold obs windowFeats
  refine congrArg (fun feats : List (List ℚ) => feats.flatten ++ _ ++ _ ++ _)
    (List.map_congr_left fun i _ => ?_)
  cases (top pending)[i]? with
  | some job => rfl
  | none => rfl

/-- The features of the job at an index of the window. -/
theorem obs_slot {q : Poll} {i : ℕ} {job : Impl.Sim.TraceJob} (h : (top q.pending)[i]? = some job) :
    (((decision nodeNames nGpus mpsPerGpu num f32 q).obs).drop (i * Impl.Sim.jobFeatDim)).take
      Impl.Sim.jobFeatDim =
        (Impl.Sim.jobFeat num job q.now mpsPerGpu).map fun x => f32 (.fin x) := by
  have hlt : i < Impl.Sim.topK := by
    obtain ⟨hlt, -⟩ := List.getElem?_eq_some_iff.mp h
    rw [top, List.length_take] at hlt
    omega
  have hget : (windowFeats mpsPerGpu num q.pending q.now)[i]? =
      some (Impl.Sim.jobFeat num job q.now mpsPerGpu) := by
    rw [windowFeats, List.getElem?_map, List.getElem?_range hlt, Option.map_some, h]
    rfl
  show ((((obs nodeNames nGpus mpsPerGpu num q.pending q.running q.now).map _).drop _).take _) = _
  rw [obs_eq, ← List.map_drop, ← List.map_take]
  dsimp only
  rw [List.append_assoc, List.append_assoc, block_flatten (windowFeats_length _ _) hget]

/-- The mask of the window allows a job on a node that is free for it. -/
theorem mask_slot {q : Poll} {i : ℕ} {job : Impl.Sim.TraceJob} {k : Fin n}
    (h : (top q.pending)[i]? = some job) (hfree : FreeAt nodeNames nGpus mpsPerGpu q k job) :
    (decision nodeNames nGpus mpsPerGpu num f32 q).mask[i * (n * nGpus) + k * nGpus + 0]? =
      some true := by
  obtain ⟨hgpus, hslots⟩ := hfree
  obtain ⟨hi, -⟩ := List.getElem?_eq_some_iff.mp h
  have hlt : i < Impl.Sim.topK := by
    rw [top, List.length_take] at hi
    omega
  have hact : i * (n * nGpus) + k * nGpus + 0 < nActions n nGpus :=
    Nat.lt_succ_of_lt (slot_lt hlt k ⟨0, hgpus⟩)
  have hmem : i * (n * nGpus) + k * nGpus + 0 ∈
      feasible nodeNames nGpus mpsPerGpu q.pending q.running := by
    refine List.mem_flatMap.mpr ⟨i, List.mem_range.mpr hi, ?_⟩
    rw [h]
    refine List.mem_flatMap.mpr ⟨k, List.mem_finRange k, List.mem_filterMap.mpr ?_⟩
    exact ⟨⟨0, hgpus⟩, List.mem_finRange _, if_pos hslots⟩
  show (mask nodeNames nGpus mpsPerGpu q.pending q.running)[_]? = some true
  rw [mask, List.getElem?_map, List.getElem?_range hact, Option.map_some, decide_eq_true hmem,
    Bool.or_true]

variable (nodeNames nGpus mpsPerGpu num f32 hosts)

/-- What a line should say of a job that was shown at `q`, and ran as `rj`. -/
structure Sound (q : Poll) (rj : LiveJob) (row : ShadowRow) : Prop where
  obs_eq : row.obs = (decision nodeNames nGpus mpsPerGpu num f32 q).obs
  mask_eq : row.mask = (decision nodeNames nGpus mpsPerGpu num f32 q).mask
  legal : row.mask[row.act]? = some true
  own_slot : ∃ job, (top q.pending)[row.act / (n * nGpus)]? = some job ∧ job.jobId = rj.jobId ∧
    (row.obs.drop (row.act / (n * nGpus) * Impl.Sim.jobFeatDim)).take Impl.Sim.jobFeatDim =
      (Impl.Sim.jobFeat num job q.now mpsPerGpu).map fun x => f32 (.fin x)
  own_node : ∃ k : Fin n, row.act % (n * nGpus) / nGpus = k ∧ nodeNames k ∈ hosts rj.nodelist

variable {nodeNames nGpus mpsPerGpu num f32 hosts}

theorem Took.sound {before : List Poll} {row : ShadowRow}
    (h : Took nodeNames nGpus mpsPerGpu num f32 hosts before p jid row.obs row.mask row.act) :
    ∃ q ∈ before ++ [p], ∃ rj ∈ p.running, rj.jobId = jid ∧
      Sound nodeNames nGpus mpsPerGpu num f32 hosts q rj row := by
  obtain ⟨q, hq, rj, hrj, hid, i, job, k, hobs, hmask, hjob, hjobId, hact, hfree, hhost⟩ := h
  obtain ⟨hgpus, -⟩ := id hfree
  obtain ⟨hquot, hnode, -⟩ := slot_decode i k (⟨0, hgpus⟩ : Fin nGpus)
  have hslot : row.act = slot i k (⟨0, hgpus⟩ : Fin nGpus) := hact
  rw [← hslot] at hquot hnode
  refine ⟨q, hq, rj, hrj, hid, hobs, hmask, ?_, ⟨job, ?_, hjobId.trans hid.symm, ?_⟩, k, hnode, hhost⟩
  · rw [hmask, hact]
    exact mask_slot hjob hfree
  · rw [hquot]
    exact hjob
  · rw [hquot, hobs]
    exact obs_slot hjob

theorem run_traced (t : Traced) (polls : List Poll) :
    run (tracedStep nodeNames nGpus mpsPerGpu num f32) t polls =
      ⟨t.polls ++ polls, run (daemonStep nodeNames nGpus mpsPerGpu num f32) t.state polls⟩ := by
  induction polls generalizing t with
  | nil => rw [run_nil, run_nil, List.append_nil]
  | cons p polls ih =>
    rw [run_cons, run_cons, ih]
    show (⟨t.polls ++ [p] ++ polls, _⟩ : Traced) = _
    rw [List.append_assoc]
    rfl

/-- In a run whose starts meet `StartsFit`, each turn logs a job at most once, at
the end of its listing, and with the action that it was taken by. -/
theorem logged_sound (polls : List Poll)
    (hfit : Along (tracedStep nodeNames nGpus mpsPerGpu num f32)
      (StartsFit nodeNames nGpus mpsPerGpu num f32 hosts) {} polls) :
    (∀ before p after, polls = before ++ p :: after → ∀ jid,
      timesLogged (run (daemonStep nodeNames nGpus mpsPerGpu num f32) {} (before ++ [p])) jid ≤
        timesLogged (run (daemonStep nodeNames nGpus mpsPerGpu num f32) {} before) jid +
          if jid ∈ lastIds before ∧ jid ∉ p.liveIds then 1 else 0) ∧
    ∀ entry ∈ (run (daemonStep nodeNames nGpus mpsPerGpu num f32) {} polls).logged,
      ∃ before p mid e after, polls = before ++ p :: (mid ++ e :: after) ∧
        (∀ q ∈ p :: mid, entry.1 ∈ q.liveIds) ∧ entry.1 ∉ e.liveIds ∧
        ∃ q ∈ before ++ [p], ∃ rj ∈ p.running, rj.jobId = entry.1 ∧
          Sound nodeNames nGpus mpsPerGpu num f32 hosts q rj entry.2 := by
  constructor
  · exact fun before p _ _ jid => logged_once nodeNames nGpus mpsPerGpu num f32 before p jid
  · intro entry hentry
    have hinv := Along.reach (fun _ _ hinv hstarts => traced_step hinv hstarts)
      (⟨nofun, nofun, nofun⟩ : TracedInv nodeNames nGpus mpsPerGpu num f32 hosts {}) hfit
    rw [run_traced] at hinv
    obtain ⟨before, p, mid, e, after, hpolls, hsince, hgone, htook⟩ := hinv.landed entry hentry
    exact ⟨before, p, mid, e, after, hpolls, hsince, hgone, htook.sound⟩

/-! ## Three listings -/

/-- A record of a job. -/
def jobRecord (jobId state nodelist : String) (mpsReq : ℤ) : LiveJob where
  jobId := jobId
  mpsReq := mpsReq
  gpuCount := 1
  gpuType := "rtx4070"
  runtime := 60
  submitTs := 0
  state := state
  nodelist := nodelist

def pollOf (jobs : List LiveJob) : Poll := ⟨0, jobs, fun _ => some 1000⟩

def flatNumeric : Impl.Sim.Numeric := ⟨fun _ => 0, fun _ => 0, fun _ => 0, fun _ => 0, fun _ => 0, 3⟩

/-- A job waits, runs and is gone. -/
def quietPolls : List Poll :=
  [pollOf [jobRecord "7" "PENDING" "" 25], pollOf [jobRecord "7" "RUNNING" "gpu-1" 25], pollOf []]

theorem quiet_fit : Along (tracedStep (fun _ : Fin 1 => "gpu-1") 1 100 flatNumeric id)
    (StartsFit (fun _ : Fin 1 => "gpu-1") 1 100 flatNumeric id splitComma) {} quietPolls := by
  refine ⟨?_, ?_, ?_, trivial⟩
  · unfold StartsFit FreeAt
    decide +kernel
  · unfold StartsFit FreeAt
    decide +kernel
  · unfold StartsFit FreeAt
    decide +kernel

/-- It is logged once, by an action of its own. -/
theorem quiet_logged : ∃ entry,
    (run (daemonStep (fun _ : Fin 1 => "gpu-1") 1 100 flatNumeric id) {} quietPolls).logged = [entry] ∧
    ∃ q ∈ quietPolls, ∃ rj, Sound (fun _ : Fin 1 => "gpu-1") 1 100 flatNumeric id splitComma q rj
      entry.2 := by
  have hlength : (run (daemonStep (fun _ : Fin 1 => "gpu-1") 1 100 flatNumeric id) {}
      quietPolls).logged.length = 1 := by
    decide +kernel
  obtain ⟨entry, hentry⟩ := List.length_eq_one_iff.mp hlength
  have hmem : entry ∈ (run (daemonStep (fun _ : Fin 1 => "gpu-1") 1 100 flatNumeric id) {}
      quietPolls).logged := hentry ▸ List.mem_cons_self
  obtain ⟨before, p, mid, e, after, hpolls, -, -, q, hq, rj, -, -, hsound⟩ :=
    (logged_sound quietPolls quiet_fit).2 entry hmem
  refine ⟨entry, hentry, q, ?_, rj, hsound⟩
  rw [hpolls]
  rcases List.mem_append.mp hq with hq | hq
  · exact List.mem_append_left _ hq
  · rw [List.mem_singleton.mp hq]
    exact List.mem_append_right _ List.mem_cons_self

/-- The node is taken at the listing that shows the job, and free at the next. -/
def crowdedPolls : List Poll :=
  [pollOf [jobRecord "6" "RUNNING" "gpu-1" 100, jobRecord "7" "PENDING" "" 25],
    pollOf [jobRecord "7" "RUNNING" "gpu-1" 25], pollOf []]

/-- The mask forbids the action that is logged. -/
theorem crowded_illegal :
    ¬ ∀ entry ∈ (run (daemonStep (fun _ : Fin 1 => "gpu-1") 1 100 flatNumeric id) {}
      crowdedPolls).logged, entry.2.mask[entry.2.act]? = some true := by
  decide +kernel

end Kelpflux.Proof.Scheduler
