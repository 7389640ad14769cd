import Kelpflux.Impl.Operator.App
import Kelpflux.Proof.Operator.Reconcile

/-!
# Failed observations

A turn of the loop against the cluster as it is (`Actual`), where some reads
may fail (`MayFail`). A failed read is the value 0: no replicas, none ready,
an idle node. So a turn is safe for every memory and every environment
(`SafeTurn`) exactly if the replicas cannot be taken for 0 when the policy
would then aim below them (`RaisesBelow`), no node with jobs that a scale-down
removes can be taken for idle (`RemovesBusy`), and ready workers cannot be
taken for unready ones (`RollsBackReady`): `failed_reads_safe_iff`.
-/

namespace Kelpflux.Proof.Operator

open Framework Kelpflux.Impl.Operator

/-- The cluster during a turn, for one pool. -/
structure Actual where
  replicas : Nat
  readyReplicas : Nat
  jobs : JobCounts
  busyNodes : Nat
  cpuAlloc : Int → Nat

/-- The observations that may fail. -/
structure MayFail where
  getReplicas : Bool
  getReadyReplicas : Bool
  getNodeCpuAlloc : Int → Bool

/-- The replies to the reads of a turn: true, or failed where they may be. -/
structure Observes (w : Actual) (f : MayFail) (env : OpEnv) : Prop where
  jobs : env 0 .listJobs = .ok w.jobs
  replicas : (∃ ready, env 1 .readStatefulSet = .ok ⟨some w.replicas, ready⟩) ∨
    f.getReplicas ∧ ∃ e, env 1 .readStatefulSet = .error e
  busyNodes : env 2 .busyNodes = .ok w.busyNodes
  readyReplicas : readyReplicas (env 3 .readStatefulSet) = .ok w.readyReplicas ∨
    f.getReadyReplicas ∧ ∃ e, env 3 .readStatefulSet = .error e
  cpuAlloc : ∀ n node, env n (.showNode node) = .ok (some (w.cpuAlloc node)) ∨
    f.getNodeCpuAlloc node ∧
      (env n (.showNode node) = .ok none ∨ ∃ e, env n (.showNode node) = .error e)

/-- A scale-up to `n` replicas is issued: its record, then the patch. -/
def ScaleUpPatch (es : List OpEvent) (n : Int) : Prop :=
  ∃ t from' r r', [⟨.command (.annotate .provisioning (.marker ⟨t, from', n⟩)), r⟩,
    ⟨.command (.patchReplicas n), r'⟩] <:+: es

/-- A scale-down removed the node. -/
def Removed (es : List OpEvent) (node : Int) : Prop :=
  ∃ r, ⟨.command (.future node "operator-scale-down"), r⟩ ∈ es

/-- The node was given up as one that did not become ready. -/
def GivenUp (es : List OpEvent) (node : Int) : Prop :=
  ∃ r, ⟨.command (.future node "provisioning-timeout"), r⟩ ∈ es

/-- A read of the node's CPUs failed. -/
def Unread (es : List OpEvent) (node : Int) : Prop := ⟨.showNode node, .ok none⟩ ∈ es

/-- No scale-up to fewer replicas than there are, no node removed that has CPUs
allocated which could not be read, and none given up of a scale-up whose
workers are ready. -/
structure SafeTurn (w : Actual) (m : Memory) (es : List OpEvent) : Prop where
  raises : ∀ n, ScaleUpPatch es n → w.replicas ≤ n
  removes : ∀ node, Removed es node → Unread es node → w.cpuAlloc node = 0
  givesUp : ∀ prov node, m.provisioning = some prov → prov.targetReplicas ≤ w.readyReplicas →
    ¬ GivenUp es node

/-- What the collector reports when it reads `cur` replicas. -/
def observed (p : PartitionConfig) (w : Actual) (cur : Int) : PartitionState :=
  { partition := p.partition, workerStatefulset := p.workerStatefulset, currentReplicas := cur,
    pendingJobs := w.jobs.pending, runningJobs := w.jobs.running, busyNodes := w.busyNodes,
    scalePendingJobs := w.jobs.scalePending }

/-- The replicas may read as 0, from where the policy aims above 0 but below
the replicas there are. -/
def RaisesBelow (p : PartitionConfig) (w : Actual) (f : MayFail) : Prop :=
  f.getReplicas ∧ 0 < aim p (observed p w 0) ∧ aim p (observed p w 0) < w.replicas

/-- The policy aims below the replicas with no job running, a node to remove
has CPUs allocated and may not be read, and no other node can hold the
scale-down up: those with CPUs allocated may not be read either, or their jobs
can be killed. -/
def RemovesBusy (p : PartitionConfig) (w : Actual) (f : MayFail) : Prop :=
  let toRemove := range (aim p (observed p w w.replicas)) w.replicas
  w.jobs.running = 0 ∧
  (∃ node ∈ toRemove, f.getNodeCpuAlloc node ∧ 0 < w.cpuAlloc node) ∧
  (0 < p.drainTimeoutSeconds ∨ ∀ node ∈ toRemove, 0 < w.cpuAlloc node → f.getNodeCpuAlloc node)

/-- Workers are ready, may read as not, and a scale-up can time out. -/
def RollsBackReady (cfg : Config) (w : Actual) (f : MayFail) : Prop :=
  f.getReadyReplicas ∧ 0 < w.readyReplicas ∧ 0 < cfg.provisioningTimeoutSeconds

variable {cfg : Config} {p : PartitionConfig} {w : Actual} {f : MayFail} {env : OpEnv}

/-! ## Where it is safe -/

/-- What the collector ends with. -/
theorem collect_ok (h : Observes w f env) (m : Memory) :
    WP env (ClusterStateCollector.collectPartitionState p) ⟨m, []⟩ fun r s' =>
      s'.mem = m ∧ ∀ st, r = .ok st → s'.trace.length = 3 ∧
        (st = observed p w w.replicas ∨ f.getReplicas ∧ st = observed p w 0) := by
  unfold ClusterStateCollector.collectPartitionState K8sClient.getReplicas
  simp only [WP.bind_iff, wp_listJobs, wp_readStatefulSet, wp_listBusyNodes, WP.tryCatch_iff,
    List.length_nil, h.jobs, List.nil_append, List.length_singleton]
  obtain ⟨ready, hr⟩ | ⟨hf, e | e, hr⟩ := h.replicas <;>
  simp only [hr, WP.pure_iff, WP.throw_iff, List.length_append, List.length_cons, List.length_nil,
    Nat.reduceAdd, h.busyNodes]
  · refine ⟨trivial, fun st hst => ⟨trivial, .inl ?_⟩⟩
    cases hst; rfl
  · refine ⟨trivial, fun st hst => ⟨trivial, .inr ⟨hf, ?_⟩⟩⟩
    cases hst; rfl
  · exact ⟨trivial, fun st hst => by cases hst⟩

/-- A call that is not quiet is one of `_process_pool`, of a state that the
collector read. -/
theorem mem_runOnce (h : Observes w f env) {m : Memory} {e : OpEvent}
    (he : e ∈ (runOnce cfg p).calls env ⟨m, []⟩) (hq : ¬ Quiet e.call) :
    ∃ st s, (st = observed p w w.replicas ∨ f.getReplicas ∧ st = observed p w 0) ∧
      s.mem = m ∧ s.trace.length = 3 ∧ e ∈ (processPool cfg p st).calls env s := by
  rw [runOnce, Prog.mem_calls_tryCatch] at he
  rcases he with he | ⟨_, _, he⟩
  swap
  · exact absurd ((Prog.Only.pure ()).calls env _ e he) hq
  obtain ⟨st, hst, he⟩ := collectPartitionState_quiet.mem_calls_bind he hq
  obtain ⟨hmem, hok⟩ := collect_ok h m
  exact ⟨st, _, (hok st hst).2, hmem, (hok st hst).1, he⟩

theorem raises_of (h : Observes w f env) (hp : ¬ RaisesBelow p w f) {m : Memory} {n : Int}
    (hn : ScaleUpPatch ((runOnce cfg p).calls env ⟨m, []⟩) n) : w.replicas ≤ n := by
  obtain ⟨t, from', r, r', hn⟩ := hn
  obtain ⟨st, s, hst, -, -, he⟩ := mem_runOnce h (hn.subset List.mem_cons_self) id
  obtain ⟨ready, -, he | ⟨age, missing, now, elapsed, s', he⟩⟩ := mem_processPool he id
  · obtain ⟨prov, -, -, -, -, -, -, he⟩ := (mem_provisioningPhase id).mp he
    obtain hc | hc | ⟨i, -, hc⟩ := (provisioningTimeout_only prov).calls _ _ _ he
    · exact hc.elim
    · cases hc
    · cases hc
  rcases mem_dispatch he id with ⟨hup, hc | hc⟩ | ⟨-, -, he⟩
  · cases hc
  · have hlt := (evaluate_scaleUp_iff _ _ _ _ _).mp hup
    cases hc
    rw [evaluate_target (by rw [hup]; decide)]
    rcases hst with rfl | ⟨hf, rfl⟩
    · exact hlt.le
    · by_contra hge
      exact hp ⟨hf, hlt, by omega⟩
  · obtain ⟨hc | ⟨i, -, hc⟩, -⟩ := mem_drainThenScale he id <;> cases hc

theorem removes_of (hmin : 0 ≤ p.minReplicas) (h : Observes w f env) (hp : ¬ RemovesBusy p w f)
    {m : Memory} {node : Int} (hr : Removed ((runOnce cfg p).calls env ⟨m, []⟩) node)
    (hu : Unread ((runOnce cfg p).calls env ⟨m, []⟩) node) : w.cpuAlloc node = 0 := by
  obtain ⟨r, hr⟩ := hr
  obtain ⟨k, hk⟩ := Prog.calls_env _ hu
  obtain ⟨st, s, hst, -, -, he⟩ := mem_runOnce h hr id
  obtain ⟨ready, -, he | ⟨age, missing, now, elapsed, s', he⟩⟩ := mem_processPool he id
  · obtain ⟨prov, -, -, -, -, -, -, he⟩ := (mem_provisioningPhase id).mp he
    obtain hc | hc | ⟨i, -, hc⟩ := (provisioningTimeout_only prov).calls _ _ _ he
    · exact hc.elim
    · cases hc
    · simp only [Call.command.injEq, Command.future.injEq, String.reduceEq, and_false] at hc
  rcases mem_dispatch he id with ⟨-, hc | hc⟩ | ⟨hdown, hrun, he⟩
  · cases hc
  · cases hc
  have hlt := ((evaluate_scaleDown_iff _ _ _ _ _).mp hdown).1
  obtain ⟨hc | ⟨i, hi, hc⟩, nowTs, -, hidle⟩ := mem_drainThenScale he id
  · cases hc
  obtain rfl : node = i := by cases hc; rfl
  rw [evaluate_target (by rw [hdown]; decide)] at hi hidle
  rcases hst with rfl | ⟨-, rfl⟩
  swap
  · -- from no replicas there is no way down
    have h0 : 0 ≤ aim p (observed p w 0) := aim_nonneg hmin (Int.le_refl 0)
    exact absurd hlt (by simp only [observed] at h0 ⊢; omega)
  by_contra hne
  have hbusy : 0 < w.cpuAlloc node := by omega
  have hmay : ∀ node k alloc, env k (.showNode node) = .ok alloc → alloc.getD 0 = 0 →
      0 < w.cpuAlloc node → f.getNodeCpuAlloc node := by
    intro node k alloc hk h0 hpos
    rcases h.cpuAlloc k node with hok | ⟨hf, -⟩
    · rw [hk] at hok
      obtain rfl : alloc = some (w.cpuAlloc node) := Except.ok.inj hok
      simp only [Option.getD_some] at h0
      omega
    · exact hf
  refine hp ⟨by simp only [observed] at hrun; omega,
    ⟨node, hi, hmay node k none hk.symm rfl hbusy, hbusy⟩, ?_⟩
  rcases lt_or_ge 0 p.drainTimeoutSeconds with ht | ht
  · exact .inl ht
  · refine .inr fun node' hnode' hpos => ?_
    rcases hidle node' (.inr hnode') with ⟨alloc, hread, h0⟩ | ⟨ht', -⟩
    · obtain ⟨k, hk⟩ := Prog.calls_env _ hread
      exact hmay node' k alloc hk.symm h0 hpos
    · omega

theorem givesUp_of (h : Observes w f env) (hp : ¬ RollsBackReady cfg w f) {m : Memory}
    {prov : Provisioning} {node : Int} (hprov : m.provisioning = some prov)
    (hready : prov.targetReplicas ≤ w.readyReplicas) :
    ¬ GivenUp ((runOnce cfg p).calls env ⟨m, []⟩) node := by
  rintro ⟨r, he⟩
  obtain ⟨st, s, -, rfl, hlen, he⟩ := mem_runOnce h he id
  obtain ⟨ready, hr, he | ⟨age, missing, now, elapsed, s', he⟩⟩ := mem_processPool he id
  · obtain ⟨prov', -, hprov', hlt, hpos, -, -, -⟩ := (mem_provisioningPhase id).mp he
    obtain rfl : prov = prov' := Option.some.inj (hprov.symm.trans hprov')
    rw [hlen] at hr
    rcases h.readyReplicas with hok | ⟨hf, e, herr⟩
    · rw [hok] at hr
      have := Except.ok.inj hr
      omega
    · rw [herr] at hr
      cases e with
      | other => cases hr
      | api =>
        obtain rfl : 0 = ready := Except.ok.inj hr
        exact hp ⟨hf, by omega, hpos⟩
  rcases mem_dispatch he id with ⟨-, hc | hc⟩ | ⟨-, -, he⟩
  · cases hc
  · cases hc
  · obtain ⟨hc | ⟨i, -, hc⟩, -⟩ := mem_drainThenScale he id
    · cases hc
    · simp only [Call.command.injEq, Command.future.injEq, String.reduceEq, and_false] at hc

/-! ## Where it is not -/

/-- The environment where what may fail fails: the replicas if `noReplicas`, and
every other read that may. All else succeeds, and the clock stands at `now`. -/
def failing (w : Actual) (f : MayFail) (noReplicas : Bool) (now : ℚ) : OpEnv := fun n c =>
  match c with
  | .command _ => .ok ()
  | .readStatefulSet =>
    if n = 1 ∧ noReplicas ∨ n = 3 ∧ f.getReadyReplicas then .error .api
    else .ok ⟨some w.replicas, some w.readyReplicas⟩
  | .readAnnotationText _ => .ok .cleared
  | .showNode node => .ok (if f.getNodeCpuAlloc node then none else some (w.cpuAlloc node))
  | .statCheckpoint _ => .ok (-1)
  | .listJobs => .ok w.jobs
  | .busyNodes => .ok w.busyNodes
  | .time => .ok now

variable {now : ℚ} {noReplicas : Bool}

theorem failing_observes (h : noReplicas → f.getReplicas) :
    Observes w f (failing w f noReplicas now) where
  jobs := rfl
  busyNodes := rfl
  replicas := by
    cases noReplicas with
    | false => exact .inl ⟨some w.readyReplicas, by simp [failing]⟩
    | true => exact .inr ⟨h rfl, .api, by simp [failing]⟩
  readyReplicas := by
    cases hr : f.getReadyReplicas with
    | false => exact .inl (by simp [failing, readyReplicas, hr])
    | true => exact .inr ⟨rfl, .api, by simp [failing, hr]⟩
  cpuAlloc n node := by
    cases hc : f.getNodeCpuAlloc node with
    | false => exact .inl (by simp [failing, hc])
    | true => exact .inr ⟨rfl, .inl (by simp [failing, hc])⟩

theorem failing_collect (p : PartitionConfig) (w : Actual) (f : MayFail) (noReplicas : Bool)
    (now : ℚ) (m : Memory) :
    WP (failing w f noReplicas now) (ClusterStateCollector.collectPartitionState p) ⟨m, []⟩
      fun r s' => r = .ok (observed p w (if noReplicas then 0 else w.replicas)) ∧
        s'.mem = m ∧ s'.trace.length = 3 := by
  unfold ClusterStateCollector.collectPartitionState K8sClient.getReplicas
  simp only [WP.bind_iff, wp_listJobs, wp_readStatefulSet, wp_listBusyNodes, WP.tryCatch_iff,
    failing, List.nil_append, List.length_singleton]
  cases noReplicas <;> exact ⟨rfl, rfl, rfl⟩

theorem failing_checkpointPhase {s : OpState}
    {Q : Except Exc (Option Int × Option ℚ) → OpState → Prop}
    (h : ∀ age missing since s', s'.mem = { s.mem with checkpointMissingSince := since } →
      Q (.ok (age, missing)) s') :
    WP (failing w f noReplicas now) (checkpointPhase p) s Q := by
  unfold checkpointPhase ClusterStateCollector.getCheckpointAgeSeconds
  by_cases hpath : p.checkpointPath = ""
  · simp only [hpath, ↓reduceIte, WP.bind_iff, WP.pure_iff, ne_eq, not_true, false_and,
      WP.modify_iff, WP.get_iff]
    exact h _ _ _ _ rfl
  · simp only [hpath, ↓reduceIte, WP.bind_iff, wp_statCheckpoint, failing, WP.pure_iff, ne_eq,
      not_false_eq_true, Int.reduceNeg, Int.reduceLT, and_self, wp_time, WP.modify_iff, WP.get_iff]
    exact h _ _ _ _ rfl

theorem failing_traceSpan {s : OpState} {Q : Except Exc Unit → OpState → Prop}
    (h : ∀ s', s'.mem = s.mem → Q (.ok ()) s') :
    WP (failing w f noReplicas now) (traceSpan cfg) s Q := by
  unfold traceSpan
  split
  · exact h _ rfl
  · exact h _ rfl

/-- With no scale-up in flight, such a turn gets to the dispatch. -/
theorem failing_runOnce {m : Memory} (hprov : m.provisioning = none) {R : List OpEvent → Prop}
    (h : ∀ age missing since s, s.mem = { m with checkpointMissingSince := since } →
      let st := observed p w (if noReplicas then 0 else w.replicas)
      WP (failing w f noReplicas now) (dispatch cfg p st (CheckpointAwareQueuePolicy.evaluate
        cfg.checkpointGuardEnabled p st age missing) now (now - m.lastScaleActionAt)) s
        fun _ s' => R s'.trace) :
    R ((runOnce cfg p).calls (failing w f noReplicas now) ⟨m, []⟩) := by
  show WP (failing w f noReplicas now) (runOnce cfg p) ⟨m, []⟩ fun _ s' => R s'.trace
  have hcatch : ∀ {q : Op Unit} {s : OpState},
      WP (failing w f noReplicas now) q s (fun _ s' => R s'.trace) →
      WP (failing w f noReplicas now) (tryCatch q fun _ => pure ()) s fun _ s' => R s'.trace :=
    fun hq => WP.tryCatch_iff.mpr (hq.mono fun r _ hr => by cases r <;> exact hr)
  refine hcatch (WP.bind_iff.mpr ((failing_collect p w f noReplicas now m).mono ?_))
  rintro _ s₁ ⟨rfl, rfl, hlen⟩
  refine hcatch (WP.bind_iff.mpr ?_)
  rw [WP, getReadyReplicas_run, hlen]
  obtain ⟨ready, hready⟩ : ∃ ready,
      readyReplicas (failing w f noReplicas now 3 .readStatefulSet) = .ok ready := by
    simp only [failing]
    split <;> exact ⟨_, rfl⟩
  rw [hready]
  refine WP.bind_iff.mpr (WP.bind_iff.mpr ?_)
  simp only [WP.get_iff, hprov, WP.pure_iff]
  refine WP.bind_iff.mpr (failing_checkpointPhase fun age missing since s₂ hmem => ?_)
  simp only [WP.bind_iff, wp_time, failing, WP.get_iff, hmem]
  exact failing_traceSpan fun s₃ hs₃ => h age missing since s₃ hs₃

theorem failing_doScaleUp {st : PartitionState} (d : ScalingDecision) (t : ℚ) (s : OpState) :
    WP (failing w f noReplicas now) (doScaleUp cfg st d t) s fun _ s' =>
      ScaleUpPatch s'.trace d.targetReplicas := by
  simp only [doScaleUp, WP.bind_iff, WP.get_iff, WP.modify_iff]
  refine WP.forM (fun _ _ => True) trivial (fun _ _ s _ => by simp) fun s₁ _ => ?_
  refine failing_traceSpan fun s₂ _ => ?_
  simp only [wp_perform, failing, WP.tryCatch_iff, WP.bind_iff, List.append_assoc]
  exact ⟨t, st.currentReplicas, .ok (), .ok (), s₂.trace, _, List.append_assoc _ _ _⟩

theorem RaisesBelow.not_safe (cfg : Config) (h : RaisesBelow p w f) : ∃ m env, Observes w f env ∧
    ¬ SafeTurn w m ((runOnce cfg p).calls env ⟨m, []⟩) := by
  obtain ⟨hf, hpos, hlt⟩ := h
  refine ⟨{}, failing w f true 0, failing_observes fun _ => hf, fun hsafe => ?_⟩
  refine absurd (hsafe.raises (aim p (observed p w 0)) ?_) (by omega)
  refine failing_runOnce (m := {}) (R := (ScaleUpPatch · _)) rfl fun age missing since s hmem => ?_
  have hup := (evaluate_scaleUp_iff cfg.checkpointGuardEnabled p (observed p w 0) age missing).mpr
    hpos
  simp only [↓reduceIte, dispatch, WP.bind_iff, WP.get_iff, hup, hmem, Option.getD_none,
    lt_self_iff_false]
  rw [if_neg (by decide), WP.bind_iff, clearRetry, if_neg (by decide), WP.pure_iff]
  rw [← evaluate_target (by rw [hup]; decide)]
  exact failing_doScaleUp _ _ s

theorem givenUp_of_processPool {m : Memory} {node : Int}
    (h : ∀ s, s.mem = m → s.trace.length = 3 → GivenUp ((processPool cfg p
      (observed p w (if noReplicas then 0 else w.replicas))).calls
        (failing w f noReplicas now) s) node) :
    GivenUp ((runOnce cfg p).calls (failing w f noReplicas now) ⟨m, []⟩) node := by
  obtain ⟨hst, hmem, hlen⟩ := failing_collect p w f noReplicas now m
  obtain ⟨r, he⟩ := h _ hmem hlen
  exact ⟨r, Prog.mem_calls_tryCatch.mpr (.inl (Prog.mem_calls_bind.mpr (.inr ⟨_, hst, he⟩)))⟩

theorem RollsBackReady.not_safe (p : PartitionConfig) (h : RollsBackReady cfg w f) :
    ∃ m env, Observes w f env ∧
    ¬ SafeTurn w m ((runOnce cfg p).calls env ⟨m, []⟩) := by
  obtain ⟨hf, hpos, htimeout⟩ := h
  refine ⟨{ provisioning := some ⟨0, 0, 1⟩ }, failing w f false cfg.provisioningTimeoutSeconds,
    failing_observes nofun, fun hsafe => ?_⟩
  refine hsafe.givesUp ⟨0, 0, 1⟩ 0 rfl (by simp only; omega) ?_
  refine givenUp_of_processPool fun s hmem hlen => ?_
  set env : OpEnv := failing w f false cfg.provisioningTimeoutSeconds with henv
  have hready : readyReplicas (env s.trace.length .readStatefulSet) = .ok 0 := by
    simp [henv, hlen, failing, readyReplicas, hf]
  refine ⟨.ok (), mem_processPool_of_provisioningPhase hready ((mem_provisioningPhase id).mpr
    ⟨⟨0, 0, 1⟩, cfg.provisioningTimeoutSeconds, congrArg _ hmem, by decide, htimeout, rfl, by simp,
      ?_⟩)⟩
  refine Prog.mem_calls_bind.mpr (.inl (Prog.mem_calls_bind.mpr (.inl ?_)))
  show _ ∈ (Prog.attempt (I := interface) _).calls _ _
  rw [Prog.calls_attempt]
  exact List.mem_singleton_self _

/-- A node is read as idle. -/
def ReadsIdle (w : Actual) (f : MayFail) (node : Int) : Prop :=
  f.getNodeCpuAlloc node ∨ w.cpuAlloc node = 0

theorem failing_getNodeCpuAlloc (node : Int) (s : OpState) {Q : Except Exc Nat → OpState → Prop}
    (h : ∀ alloc s', (alloc = 0 ↔ ReadsIdle w f node) → s'.mem = s.mem →
      s.trace ⊆ s'.trace → (f.getNodeCpuAlloc node → Unread s'.trace node) → Q (.ok alloc) s') :
    WP (failing w f noReplicas now) (K8sClient.getNodeCpuAlloc node) s Q := by
  simp only [K8sClient.getNodeCpuAlloc, WP.bind_iff, wp_showNode, failing, WP.pure_iff]
  refine h _ _ ?_ rfl (List.subset_append_left _ _) fun hf => ?_
  · cases hf : f.getNodeCpuAlloc node <;> simp [ReadsIdle, hf]
  · simp [Unread, hf]

/-- The nodes that were killed: those that do not read as idle. -/
theorem failing_forceKillExpired {nodes : List Int} {s : OpState}
    {Q : Except Exc (List Int) → OpState → Prop}
    (hkill : ∀ x ∈ nodes, ReadsIdle w f x ∨
      0 < p.drainTimeoutSeconds ∧ p.drainTimeoutSeconds < now)
    (hQ : ∀ killed s', (∀ x ∈ nodes, ReadsIdle w f x ↔ x ∉ killed) → Q (.ok killed) s') :
    WP (failing w f noReplicas now)
      (forceKillExpired p nodes (nodes.map fun x => (x, 0)) now) s Q := by
  unfold forceKillExpired
  dsimp only
  split
  swap
  · exact hQ [] s fun x hx => iff_of_true ((hkill x hx).resolve_right (by omega)) (by simp)
  refine WP.foldlM (fun xs killed _ => (∀ x ∈ nodes, x ∈ xs ∨ ReadsIdle w f x ∨ x ∈ killed) ∧
    (∀ x ∈ xs, x ∈ nodes) ∧ ∀ x ∈ killed, ¬ ReadsIdle w f x) ?_ ?_ ?_
  · exact ⟨fun x hx => .inl hx, fun x hx => hx, by simp⟩
  · rintro x xs killed s₁ ⟨hdone, hsub, hbusy⟩
    have hx := hsub x List.mem_cons_self
    have hrest : ∀ y ∈ xs, y ∈ nodes := fun y hy => hsub y (List.mem_cons_of_mem _ hy)
    simp only [forceKill, Dict.get?_map (fun _ => (0 : ℚ)) hx]
    refine WP.bind_iff.mpr (failing_getNodeCpuAlloc x s₁ fun alloc s₂ halloc _ _ _ => ?_)
    dsimp only
    by_cases hidle : ReadsIdle w f x
    · rw [if_pos (halloc.mpr hidle)]
      refine ⟨fun y hy => ?_, hrest, hbusy⟩
      rcases hdone y hy with h | h
      · rcases List.mem_cons.mp h with rfl | h
        · exact .inr (.inl hidle)
        · exact .inl h
      · exact .inr h
    · have hlate := ((hkill x hx).resolve_left hidle).2
      rw [if_neg (mt halloc.mp hidle), if_neg (by rw [sub_zero]; exact not_le.mpr hlate)]
      simp only [WP.bind_iff, WP.tryCatch_iff, wp_perform, failing, WP.pure_iff]
      refine ⟨fun y hy => ?_, hrest, fun y hy => ?_⟩
      · rcases hdone y hy with h | h | h
        · rcases List.mem_cons.mp h with rfl | h
          · exact .inr (.inr List.mem_cons_self)
          · exact .inl h
        · exact .inr (.inl h)
        · exact .inr (.inr (List.mem_cons_of_mem _ h))
      · rcases List.mem_cons.mp hy with rfl | h
        · exact hidle
        · exact hbusy y h
  · rintro killed s₁ ⟨hdone, -, hbusy⟩
    refine hQ killed s₁ fun x hx => ⟨fun h hk => hbusy x hk h, fun hk => ?_⟩
    exact ((hdone x hx).resolve_left (by simp)).resolve_right hk

theorem failing_drainThenScale {st : PartitionState} {d : ScalingDecision} {s : OpState}
    {node : Int}
    (hdraining : s.mem.drainingNodes = some (range d.targetReplicas st.currentReplicas))
    (hstarted : s.mem.drainingStarted =
      some ((range d.targetReplicas st.currentReplicas).map fun x => (x, 0)))
    (hkill : ∀ x ∈ range d.targetReplicas st.currentReplicas, ReadsIdle w f x ∨
      0 < p.drainTimeoutSeconds ∧ p.drainTimeoutSeconds < now)
    (hnode : node ∈ range d.targetReplicas st.currentReplicas) (hf : f.getNodeCpuAlloc node) :
    WP (failing w f noReplicas now) (drainThenScale p st d) s fun _ s' =>
      Removed s'.trace node ∧ Unread s'.trace node := by
  generalize hnodes : range d.targetReplicas st.currentReplicas = nodes at *
  have hnew : (nodes.filter fun x => x ∉ nodes) = [] := by simp
  simp only [drainThenScale, WP.bind_iff, WP.get_iff, WP.modify_iff, wp_time, failing, hdraining,
    hstarted, hnodes, Option.getD_some, hnew, List.append_nil]
  rw [show ([] : List Int).forM (startDrain now) = pure () from rfl, WP.pure_iff]
  simp only [ne_eq, not_true, ite_false, Option.getD_some]
  refine failing_forceKillExpired hkill fun killed s₁ hkilled => ?_
  have hidle : ReadsIdle w f node := .inl hf
  refine WP.allM (fun xs s => (∀ x ∈ xs, x ∈ nodes) ∧ (node ∈ xs ∨ Unread s.trace node))
    ⟨fun _ h => h, .inl hnode⟩ (fun x xs s₂ hinv => ?_) fun s₂ hinv => ?_
  · obtain ⟨hsub, hread⟩ := hinv
    have hrest : ∀ y ∈ xs, y ∈ nodes := fun y hy => hsub y (List.mem_cons_of_mem _ hy)
    have hx := hkilled x (hsub x List.mem_cons_self)
    unfold nodeIdle
    split
    · refine ⟨hrest, hread.imp_left fun h => (List.mem_cons.mp h).resolve_left ?_⟩
      rintro rfl
      exact hx.mp hidle ‹_›
    · refine WP.bind_iff.mpr (failing_getNodeCpuAlloc x s₂ fun alloc s₃ halloc _ hsub hun => ?_)
      simp only [WP.pure_iff, halloc.mpr (hx.mpr ‹_›), decide_true]
      refine ⟨hrest, ?_⟩
      rcases hread with h | h
      · rcases List.mem_cons.mp h with rfl | h
        · exact .inr (hun hf)
        · exact .inl h
      · exact .inr (hsub h)
  · have hunread := hinv.2.resolve_left List.not_mem_nil
    simp only [↓reduceIte, completeScaleDown, WP.bind_iff, wp_perform, failing]
    refine WP.forM (fun xs s => Unread s.trace node ∧ (node ∈ xs ∨ Removed s.trace node))
      ⟨List.mem_append_left _ hunread, .inl hnode⟩ (fun x xs s₃ hinv => ?_) fun s₃ hinv => ?_
    · obtain ⟨hun, hrem⟩ := hinv
      refine wp_attempt.mpr ⟨List.mem_append_left _ hun, ?_⟩
      rcases hrem with h | ⟨r, h⟩
      · rcases List.mem_cons.mp h with rfl | h
        · exact .inr ⟨_, List.mem_append_right _ List.mem_cons_self⟩
        · exact .inl h
      · exact .inr ⟨r, List.mem_append_left _ h⟩
    · obtain ⟨hun, hrem⟩ := hinv
      obtain ⟨r, hrem⟩ := hrem.resolve_left List.not_mem_nil
      simp only [WP.modify_iff, wp_attempt]
      exact ⟨⟨r, List.mem_append_left _ hrem⟩, List.mem_append_left _ hun⟩

theorem RemovesBusy.not_safe (cfg : Config) (h : RemovesBusy p w f) : ∃ m env, Observes w f env ∧
    ¬ SafeTurn w m ((runOnce cfg p).calls env ⟨m, []⟩) := by
  obtain ⟨hrun, ⟨node, hnode, hf, hbusy⟩, hothers⟩ := h
  have hlt : aim p (observed p w w.replicas) < w.replicas := by
    have := mem_range.mp hnode; omega
  -- the nodes drain since 0, and it is late
  let late : Int := max p.drainTimeoutSeconds p.scaleDownCooldown + 1
  let nodes := range (aim p (observed p w w.replicas)) w.replicas
  let m : Memory :=
    { drainingNodes := some nodes, drainingStarted := some (nodes.map fun x => (x, 0)) }
  refine ⟨m, failing w f false late, failing_observes nofun, fun hsafe => ?_⟩
  suffices hboth : Removed ((runOnce cfg p).calls (failing w f false late) ⟨m, []⟩) node ∧
      Unread ((runOnce cfg p).calls (failing w f false late) ⟨m, []⟩) node by
    exact hbusy.ne' (hsafe.removes node hboth.1 hboth.2)
  refine failing_runOnce (m := m) (R := fun es => Removed es node ∧ Unread es node) rfl
    fun age missing since s hmem => ?_
  have hdown := (evaluate_scaleDown_iff cfg.checkpointGuardEnabled p (observed p w w.replicas) age
    missing).mpr ⟨hlt, .inr (by simp [observed, hrun])⟩
  have htarget : (CheckpointAwareQueuePolicy.evaluate cfg.checkpointGuardEnabled p
      (observed p w w.replicas) age missing).targetReplicas = aim p (observed p w w.replicas) :=
    evaluate_target (by rw [hdown]; decide)
  have hcool : ¬ (late : ℚ) - m.lastScaleActionAt < p.scaleDownCooldown := by
    have : p.scaleDownCooldown ≤ late := by simp only [late]; omega
    rw [sub_zero, not_lt]
    exact_mod_cast this
  simp only [Bool.false_eq_true, ↓reduceIte, dispatch, WP.bind_iff, WP.get_iff, hdown]
  rw [doScaleDown, if_neg (by simp [observed, hrun]), if_neg hcool]
  refine failing_drainThenScale ?_ ?_ (fun x hx => ?_) ?_ hf
  · rw [htarget, hmem]; rfl
  · rw [htarget, hmem]; rfl
  · rw [htarget] at hx
    rcases hothers with ht | hall
    · refine .inr ⟨ht, ?_⟩
      have : p.drainTimeoutSeconds < late := by simp only [late]; omega
      exact_mod_cast this
    · rcases Nat.eq_zero_or_pos (w.cpuAlloc x) with h0 | hpos
      · exact .inl (.inr h0)
      · exact .inl (.inl (hall x hx hpos))
  · rw [htarget]; exact hnode

/-- A turn of the loop is safe for every memory and every environment that the
observations allow, if and only if no failed read can lower the replicas, hide
running jobs or give ready workers up. -/
theorem failed_reads_safe_iff {partitionCfgs : List PartitionConfig}
    (hvalid : validateConfig cfg partitionCfgs = .ok ()) (hmem : p ∈ partitionCfgs) :
    (∀ m env, Observes w f env → SafeTurn w m ((runOnce cfg p).calls env ⟨m, []⟩)) ↔
      ¬ RaisesBelow p w f ∧ ¬ RemovesBusy p w f ∧ ¬ RollsBackReady cfg w f := by
  constructor
  · intro h
    refine ⟨fun hp => ?_, fun hp => ?_, fun hp => ?_⟩
    · obtain ⟨m, env, hobs, hunsafe⟩ := hp.not_safe cfg
      exact hunsafe (h m env hobs)
    · obtain ⟨m, env, hobs, hunsafe⟩ := hp.not_safe cfg
      exact hunsafe (h m env hobs)
    · obtain ⟨m, env, hobs, hunsafe⟩ := hp.not_safe p
      exact hunsafe (h m env hobs)
  · rintro ⟨hraise, hremove, hroll⟩ m env hobs
    exact ⟨fun _ => raises_of hobs hraise,
      fun _ => removes_of (validatePool_ok (validateConfig_ok hvalid p hmem)).1 hobs hremove,
      fun _ _ => givesUp_of hobs hroll⟩

/-- Of a pool of one busy worker, the replicas and the node may fail to be read: it
is not scaled up to fewer workers, and its jobs hold it up. -/
theorem failed_reads_safe_one_worker :
    let pool : PartitionConfig :=
      { partition := "gpu", workerStatefulset := "slurm-worker-gpu", minReplicas := 0,
        maxReplicas := 8, scaleUpStep := 1, scaleDownStep := 1, scaleDownCooldown := 60 }
    let w : Actual := ⟨1, 1, ⟨1, 1, 3⟩, 1, fun _ => 2⟩
    ∀ m env, Observes w ⟨true, false, fun _ => true⟩ env →
      SafeTurn w m ((runOnce {} pool).calls env ⟨m, []⟩) := by
  intro pool w
  exact (failed_reads_safe_iff (show validateConfig {} [pool] = .ok () from rfl)
    (List.mem_singleton_self pool)).mpr
      ⟨fun h => absurd h.2 (by decide), fun h => absurd h.1 (by decide), nofun⟩

/-- The read of its replicas fails: it is scaled up to one worker. -/
theorem failed_read_lowers_replicas :
    let pool : PartitionConfig :=
      { partition := "gpu", workerStatefulset := "slurm-worker-gpu", minReplicas := 0,
        maxReplicas := 8, scaleUpStep := 1, scaleDownStep := 1, scaleDownCooldown := 60 }
    let w : Actual := ⟨4, 4, ⟨1, 1, 3⟩, 3, fun _ => 2⟩
    let f : MayFail := ⟨true, false, fun _ => false⟩
    validateConfig {} [pool] = .ok () ∧ Observes w f (failing w f true 1000) ∧
      ScaleUpPatch ((runOnce {} pool).calls (failing w f true 1000) ⟨{}, []⟩) 1 ∧
      ¬ SafeTurn w {} ((runOnce {} pool).calls (failing w f true 1000) ⟨{}, []⟩) := by
  intro pool w f
  have hpatch : ScaleUpPatch ((runOnce {} pool).calls (failing w f true 1000) ⟨{}, []⟩) 1 :=
    ⟨1000, 0, .ok (), .ok (), ((runOnce {} pool).calls (failing w f true 1000) ⟨{}, []⟩).take 6,
      ((runOnce {} pool).calls (failing w f true 1000) ⟨{}, []⟩).drop 8, by decide +kernel⟩
  exact ⟨rfl, failing_observes fun _ => rfl, hpatch, fun h => absurd (h.raises 1 hpatch) (by decide)⟩

end Kelpflux.Proof.Operator
