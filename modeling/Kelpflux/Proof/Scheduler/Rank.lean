import Kelpflux.Impl.Scheduler.ReorderDaemon
import Kelpflux.Proof.Scheduler.Client

/-!
# The ranking loop

What `rank_pending` does whatever the policy answers. A round takes a waiting
job (`take_waiting`), so that the loop ends, and ends with a permutation of the
waiting jobs (`rankPending_perm`). What it takes is safe (`Picks`): the node is
allowed to the job and has the slots. With `strict` off a run raises only at
the deadline, unless an answer is one that the daemon does not read
(`Readable`): `rankPending_ranks_iff`.
-/

namespace Kelpflux.Proof.Scheduler

open Framework Framework.Python Impl.Scheduler

variable {σ : Type} {rt : Runtime} {args : RankArgs} {post : ActPayload → Client σ Json}
  {env : ClientEnv} {s : ClientState σ} {st st' : RankState}

/-! ## One round -/

theorem take_ok {pick node : String} (h : st.take pick node = .ok st') :
    ∃ free job, st.localfree.get? node = some free ∧ st.remaining.get? pick = some job ∧
      st' = { remaining := st.remaining.erase pick
              localfree := st.localfree.set node (free - job.mpsReq)
              order := st.order ++ [pick] } := by
  unfold RankState.take at h
  split at h
  · rename_i free job hfree hjob
    exact ⟨free, job, hfree, hjob, (Except.ok.inj h).symm⟩
  · cases h

/-- The job that an answer selects. -/
def selectedJob (rt : Runtime) (items : List (String × Json)) : String :=
  (((Dict.get? items "selected_job_id").getD .null).or (.str "")).toStr rt

/-- The node that an answer selects. -/
def selectedNode (items : List (String × Json)) : Json := (Dict.get? items "node_j").getD .null

theorem choose_obj (items : List (String × Json)) :
    args.choose rt st (.obj items) =
      (args.policyPick rt st (selectedJob rt items) (selectedNode items) >>= fun pick =>
        match pick with
        | some (pick, node) => do return .inl (← st.take pick node)
        | none => args.fallBack rt st (selectedJob rt items) (.obj items)) := rfl

/-- A job and a node as the policy or the first fit picks them. -/
def Chosen (rt : Runtime) (args : RankArgs) (st : RankState) (pick node : String) : Prop :=
  (∃ selected nodeJ, args.policyPick rt st selected nodeJ = .ok (some (pick, node))) ∨
    args.firstFit st none (sortedBy SlurmJob.submitTs st.remaining.values) = some (pick, node)

/-- How a round goes: it takes what is chosen, or ends with the backlog. -/
def Goes (rt : Runtime) (args : RankArgs) (st : RankState) : RankState ⊕ List String → Prop
  | .inl st' => ∃ pick node, Chosen rt args st pick node ∧ st.take pick node = .ok st'
  | .inr order => order = st.order ++ st.backlog

theorem fallBack_ok {selected : String} {act : Json} {r : RankState ⊕ List String}
    (h : args.fallBack rt st selected act = .ok r) : Goes rt args st r := by
  unfold RankArgs.fallBack at h
  split at h
  · obtain ⟨noop, -, h⟩ := bind_eq_ok.mp h
    cases noop with
    | true =>
      obtain rfl := Except.ok.inj h
      rfl
    | false => cases h
  · split at h
    · rename_i pick node hf
      obtain ⟨st', ht, h⟩ := bind_eq_ok.mp h
      obtain rfl := Except.ok.inj h
      exact ⟨pick, node, .inr hf, ht⟩
    · obtain rfl := Except.ok.inj h
      rfl

theorem choose_ok {act : Json} {r : RankState ⊕ List String} (h : args.choose rt st act = .ok r) :
    Goes rt args st r := by
  cases act with
  | obj items =>
    rw [choose_obj] at h
    obtain ⟨pick, hp, h⟩ := bind_eq_ok.mp h
    match pick with
    | none => exact fallBack_ok h
    | some (pick, node) =>
      obtain ⟨st', ht, h⟩ := bind_eq_ok.mp h
      obtain rfl := Except.ok.inj h
      exact ⟨pick, node, .inl ⟨_, _, hp⟩, ht⟩
  | _ => cases h

/-- What a round of a loop whose queue is not empty leaves. -/
theorem round_ok {r : RankState ⊕ List String} {s' : ClientState σ}
    (h : (args.round post rt st).run env s = (.ok r, s')) :
    (st.remaining = [] ∧ r = .inr st.order) ∨ ∃ act, args.choose rt st act = .ok r := by
  have hwp : WP env (args.round post rt st) s fun r' _ => r' = .ok r →
      (st.remaining = [] ∧ r = .inr st.order) ∨ ∃ act, args.choose rt st act = .ok r := by
    unfold RankArgs.round
    split
    · rename_i he
      rw [WP.pure_iff]
      exact fun hr => .inl ⟨List.isEmpty_iff.mp he, (Except.ok.inj hr).symm⟩
    · rw [WP.bind_iff]
      refine WP.of_forall fun r' s' => ?_
      cases r' with
      | ok act => exact fun hr => .inr ⟨act, hr⟩
      | error e => exact fun hr => by cases hr
  unfold WP at hwp
  rw [h] at hwp
  exact hwp rfl

/-! ## The waiting jobs -/

/-- The jobs of `ids` are taken, or wait under their ids. -/
structure Waiting (ids : List String) (st : RankState) : Prop where
  keyed : ∀ kv ∈ st.remaining, kv.2.jobId = kv.1
  perm : (st.order ++ st.remaining.keys).Perm ids

theorem Waiting.nodup {ids : List String} (h : Waiting ids st) (hids : ids.Nodup) :
    st.remaining.keys.Nodup :=
  (List.nodup_append.mp (h.perm.nodup_iff.mpr hids)).2.1

theorem Waiting.start (pending : List PendingItem) (free : Dict String Int) :
    Waiting (RankState.start pending free).remaining.keys (.start pending free) where
  keyed kv hkv := by
    obtain ⟨item, -, rfl⟩ := List.mem_map.mp (Dict.mem_of_mem_ofList hkv)
    rfl
  perm := List.Perm.refl _

theorem Waiting.backlog {ids : List String} (h : Waiting ids st) :
    (st.order ++ st.backlog).Perm ids := by
  have hb : st.backlog.Perm st.remaining.keys := by
    refine ((sortedBy_perm _ _).map _).trans ?_
    rw [Dict.values, List.map_map]
    exact List.Perm.of_eq (List.map_congr_left h.keyed)
  exact (hb.append_left _).trans h.perm

/-- Taking a job leaves the others waiting. -/
theorem take_waiting {ids : List String} (hids : ids.Nodup) (h : Waiting ids st)
    {pick node : String} (ht : st.take pick node = .ok st') :
    Waiting ids st' ∧ st'.remaining.length < st.remaining.length := by
  obtain ⟨free, job, -, hjob, rfl⟩ := take_ok ht
  have hp := Dict.perm_erase (h.nodup hids) (Dict.mem_keys_of_get? hjob)
  refine ⟨⟨fun kv hkv => h.keyed kv (List.mem_of_mem_filter hkv), ?_⟩, ?_⟩
  · rw [List.append_assoc]
    exact (hp.append_left _).trans h.perm
  · have hlen := hp.length_eq
    simp only [Dict.keys, List.length_cons, List.length_map] at hlen
    show (st.remaining.erase pick).length < _
    omega

/-- The loop ends, and if it returns then the waiting jobs, each once. -/
theorem iterate_waiting {ids : List String} (hids : ids.Nodup) (h : Waiting ids st) {fuel : Nat}
    (hfuel : st.remaining.length < fuel) :
    WP env (Prog.iterate (args.round post rt) fuel st) s fun r _ =>
      r ≠ .ok none ∧ ∀ order, r = .ok (some order) → order.Perm ids := by
  refine WP.iterate (fun st _ => Waiting ids st) (fun st => st.remaining.length) h hfuel
    fun st s hst => ?_
  unfold WP
  rcases hr : (args.round post rt st).run env s with ⟨e | st' | order, s'⟩
  · exact ⟨nofun, nofun⟩
  · obtain ⟨-, hnil⟩ | ⟨act, hc⟩ := round_ok hr
    · cases hnil
    · obtain ⟨pick, node, -, ht⟩ := choose_ok hc
      exact take_waiting hids hst ht
  · refine ⟨nofun, fun order' ho => ?_⟩
    obtain rfl := Option.some.inj (Except.ok.inj ho)
    obtain ⟨hnil, ho⟩ | ⟨act, hc⟩ := round_ok hr
    · obtain rfl := Sum.inr.inj ho
      simpa [hnil, Dict.keys] using hst.perm
    · rw [show order = _ from choose_ok hc]
      exact hst.backlog

theorem start_length (pending : List PendingItem) (free : Dict String Int) :
    (RankState.start pending free).remaining.length ≤ pending.length :=
  (Dict.length_ofList_le _).trans (by simp)

section Whole

variable (rt args post env s) (pending : List PendingItem) (free : Dict String Int)

/-- The loop of `rank_pending`, for at most `fuel` rounds. -/
abbrev rankLoop (fuel : Nat) : Client σ (Option (List String)) :=
  Prog.iterate (args.round post rt) fuel (.start pending free)

theorem rankLoop_waiting {fuel : Nat} (hfuel : pending.length < fuel) :
    WP env (rankLoop rt args post pending free fuel) s fun r _ =>
      r ≠ .ok none ∧
        ∀ order, r = .ok (some order) → order.Perm (RankState.start pending free).remaining.keys :=
  iterate_waiting (Dict.nodup_ofList _) (Waiting.start pending free)
    (Nat.lt_of_le_of_lt (start_length pending free) hfuel)

/-- `rank_pending` is its loop, run to the end. -/
theorem run_rankPending {fuel : Nat} (hfuel : pending.length < fuel) :
    ∃ r s', (rankLoop rt args post pending free fuel).run env s = (r.map some, s') ∧
      (rankPending rt args post pending free).run env s = (r, s') := by
  have hwp := rankLoop_waiting rt args post env s pending free (Nat.lt_succ_self _)
  have hrun : WP env (rankPending rt args post pending free) s fun r s' =>
      (rankLoop rt args post pending free (pending.length + 1)).run env s = (r.map some, s') := by
    unfold rankPending
    rw [WP.bind_iff]
    unfold WP at hwp ⊢
    rcases h : (rankLoop rt args post pending free (pending.length + 1)).run env s with
      ⟨e | _ | order, s'⟩
    · rfl
    · rw [h] at hwp
      exact absurd rfl hwp.1
    · rfl
  refine ⟨_, _, ?_, rfl⟩
  rw [Prog.iterate_fuel (Nat.succ_le_of_lt hfuel) hwp.1]
  exact hrun

/-- What `rank_pending` returns is the pending jobs, each once. -/
theorem rankPending_perm : (rankPending rt args post pending free).Returns fun order =>
    order.Perm (RankState.start pending free).remaining.keys := by
  intro env s order ho
  have h := rankLoop_waiting rt args post env s pending free (Nat.lt_succ_self _)
  obtain ⟨r, s', hit, hrun⟩ := run_rankPending rt args post env s pending free (Nat.lt_succ_self _)
  unfold WP at h
  rw [hit] at h
  rw [hrun] at ho
  exact h.2 order (congrArg (Except.map some) ho)

end Whole

/-! ## What is taken -/

/-- A node's name, whatever is free on it. -/
def nodeName : NodeItem → String
  | .node n => n.name
  | .name n => n

/-- The simulated free slots: none is negative, and every node has its own. -/
structure Room (nodes : List NodeItem) (localfree : Dict String Int) : Prop where
  covered : ∀ node ∈ nodes, nodeName node ∈ localfree.keys
  nonneg : ∀ kv ∈ localfree, 0 ≤ kv.2

/-- `st'` is `st` after one of its jobs has got its slots on a node that is
allowed to it and has them. -/
def Picks (args : RankArgs) (st st' : RankState) : Prop :=
  ∃ job node free, st.remaining.get? job.jobId = some job ∧ node ∈ args.fnodes st ∧
    node.available ∧ allows job node ∧ st.localfree.get? node.name = some free ∧
    job.mpsReq ≤ free ∧
    st' = { remaining := st.remaining.erase job.jobId
            localfree := st.localfree.set node.name (free - job.mpsReq)
            order := st.order ++ [job.jobId] }

theorem Picks.room (h : Room args.nodes st.localfree) (hp : Picks args st st') :
    Room args.nodes st'.localfree := by
  obtain ⟨job, node, free, -, -, -, -, -, hreq, rfl⟩ := hp
  refine ⟨fun n hn => Dict.mem_keys_set.mpr (.inl (h.covered n hn)), fun kv hkv => ?_⟩
  rcases Dict.mem_set hkv with rfl | hkv
  · show 0 ≤ free - job.mpsReq
    omega
  · exact h.nonneg kv hkv

theorem mem_fnodes {node : SlurmNode} (h : Room args.nodes st.localfree)
    (hn : node ∈ args.fnodes st) : st.localfree.get? node.name = some node.freeMps := by
  obtain ⟨item, hi, rfl⟩ := List.mem_map.mp hn
  obtain ⟨free, hf⟩ := Dict.get?_of_mem_keys (h.covered item hi)
  cases item with
  | node n =>
    have hf : st.localfree.get? n.name = some free := hf
    simp [NodeItem.coerce, hf]
  | name n =>
    have hf : st.localfree.get? n = some free := hf
    simp [NodeItem.coerce, hf]

theorem mem_window {job : SlurmJob} {jobs : List SlurmJob} (h : job ∈ window jobs) : job ∈ jobs :=
  mem_sortedBy.mp (List.mem_of_mem_take h)

theorem mem_eligibleNodeIndices {job : SlurmJob} {nodes : List SlurmNode} {i : Nat} :
    i ∈ eligibleNodeIndices job nodes ↔ ∃ node, nodes[i]? = some node ∧ allows job node := by
  simp [eligibleNodeIndices, List.mem_zipIdx_iff_getElem?]

/-- A node that a round finds eligible for a waiting job is allowed to it. -/
theorem eligible_allows {ids : List String} (hids : ids.Nodup) (h : Waiting ids st) {i : Nat}
    {jobId : String} {job : SlurmJob} {node : SlurmNode}
    (hjob : st.remaining.get? jobId = some job) (hnode : (args.fnodes st)[i]? = some node)
    (hi : i ∈ ((args.eligible st).get? jobId).getD []) : allows job node := by
  cases hl : (args.eligible st).get? jobId with
  | none => simp [hl] at hi
  | some l =>
    obtain ⟨job', hw, he⟩ := List.mem_map.mp (Dict.mem_of_mem_ofList (Dict.get?_mem hl))
    obtain ⟨rfl, rfl⟩ := Prod.mk.inj he
    obtain ⟨kv, hkv, rfl⟩ := List.mem_map.mp (mem_window (mem_window hw))
    have hsame := Dict.get?_of_mem (h.nodup hids) hkv
    rw [← h.keyed kv hkv, hjob] at hsame
    obtain rfl := Option.some.inj hsame
    obtain ⟨node', hnode', ha⟩ := mem_eligibleNodeIndices.mp (by simpa [hl] using hi)
    rw [hnode] at hnode'
    exact Option.some.inj hnode' ▸ ha

/-- A job and a node with room for it. -/
def Fits (args : RankArgs) (st : RankState) (pick node : String) : Prop :=
  ∃ job n, st.remaining.get? pick = some job ∧ n ∈ args.fnodes st ∧ n.name = node ∧
    n.available ∧ allows job n ∧ job.mpsReq ≤ n.freeMps

theorem policyPick_fits {ids : List String} (hids : ids.Nodup) (h : Waiting ids st)
    {selected pick node : String} {nodeJ : Json}
    (hp : args.policyPick rt st selected nodeJ = .ok (some (pick, node))) :
    Fits args st pick node := by
  unfold RankArgs.policyPick at hp
  split at hp
  · cases hp
  · cases hp
  · rename_i job hjob _
    split at hp
    · split at hp <;> cases hp
    · cases hp
    · rename_i i _
      split at hp
      · cases hp
      · rename_i n hn
        split at hp
        · rename_i hc
          obtain ⟨rfl, rfl⟩ := Prod.mk.inj (Option.some.inj (Except.ok.inj hp))
          exact ⟨job, n, hjob, List.mem_of_getElem? hn, rfl, hc.2.1,
            eligible_allows hids h hjob hn hc.1, hc.2.2⟩
        · cases hp

theorem firstNode_fits {ids : List String} (hids : ids.Nodup) (h : Waiting ids st)
    (hroom : Room args.nodes st.localfree) {job : SlurmJob} {node : String}
    (hjob : st.remaining.get? job.jobId = some job) (hf : args.firstNode st job = some node) :
    Fits args st job.jobId node := by
  obtain ⟨⟨n, i⟩, hfind, rfl⟩ := Option.map_eq_some_iff.mp hf
  have hn : (args.fnodes st)[i]? = some n :=
    List.mem_zipIdx_iff_getElem?.mp (List.mem_of_find?_eq_some hfind)
  have hmem := List.mem_of_getElem? hn
  have hc := List.find?_some hfind
  simp only [Bool.and_eq_true, decide_eq_true_eq, mem_fnodes hroom hmem, Option.getD_some] at hc
  exact ⟨job, n, hjob, hmem, rfl, hc.1.1, eligible_allows hids h hjob hn hc.1.2, hc.2⟩

/-- What the first fit finds is what it had, or the first node of one of the
jobs. -/
theorem firstFit_some {pick node : String} :
    ∀ {jobs : List SlurmJob} {had : Option (String × String)},
      args.firstFit st had jobs = some (pick, node) →
      had = some (pick, node) ∨
        ∃ job ∈ jobs, job.jobId = pick ∧ args.firstNode st job = some node
  | [], _, h => .inl h
  | job :: jobs, had, h => by
    -- what the round of `job` has found is its first node, or what it had
    have hhere (hs : ((args.firstNode st job).map fun node => (job.jobId, node)).or had
        = some (pick, node)) : had = some (pick, node) ∨
          ∃ job' ∈ job :: jobs, job'.jobId = pick ∧ args.firstNode st job' = some node := by
      rcases Option.or_eq_some_iff.mp hs with hs | ⟨-, hs⟩
      · obtain ⟨n, hn, he⟩ := Option.map_eq_some_iff.mp hs
        obtain ⟨rfl, rfl⟩ := Prod.mk.inj he
        exact .inr ⟨job, List.mem_cons_self, rfl, hn⟩
      · exact .inl hs
    rw [RankArgs.firstFit] at h
    split at h
    · exact hhere h
    · rcases firstFit_some h with h | ⟨job', hj, hp⟩
      · exact hhere h
      · exact .inr ⟨job', List.mem_cons_of_mem _ hj, hp⟩

theorem chosen_fits {ids : List String} (hids : ids.Nodup) (h : Waiting ids st)
    (hroom : Room args.nodes st.localfree) {pick node : String}
    (hc : Chosen rt args st pick node) : Fits args st pick node := by
  obtain ⟨selected, nodeJ, hp⟩ | hf := hc
  · exact policyPick_fits hids h hp
  · obtain hnone | ⟨job, hj, rfl, hn⟩ := firstFit_some hf
    · cases hnone
    · obtain ⟨kv, hkv, rfl⟩ := List.mem_map.mp (mem_sortedBy.mp hj)
      refine firstNode_fits hids h hroom ?_ hn
      rw [h.keyed kv hkv]
      exact Dict.get?_of_mem (h.nodup hids) hkv

theorem Fits.picks {ids : List String} (h : Waiting ids st) (hroom : Room args.nodes st.localfree)
    {pick node : String} (hf : Fits args st pick node) (ht : st.take pick node = .ok st') :
    Picks args st st' := by
  obtain ⟨job, n, hjob, hn, rfl, hav, ha, hreq⟩ := hf
  have hfree := mem_fnodes hroom hn
  obtain ⟨free, job', hfree', hjob', rfl⟩ := take_ok ht
  rw [hfree] at hfree'
  rw [hjob] at hjob'
  obtain rfl := Option.some.inj hfree'
  obtain rfl := Option.some.inj hjob'
  obtain rfl : job.jobId = pick := h.keyed _ (Dict.get?_mem hjob)
  exact ⟨job, n, n.freeMps, hjob, hn, hav, ha, hfree, hreq, rfl⟩

theorem Fits.take {pick node : String} (hroom : Room args.nodes st.localfree)
    (hf : Fits args st pick node) : ∃ st', st.take pick node = .ok st' := by
  obtain ⟨job, n, hjob, hn, rfl, -⟩ := hf
  rw [RankState.take, mem_fnodes hroom hn, hjob]
  exact ⟨_, rfl⟩

/-- A round takes a job that fits where it is put. -/
theorem next_picks {ids : List String} (hids : ids.Nodup) {x y : RankState × ClientState σ}
    (h : Waiting ids x.1) (hroom : Room args.nodes x.1.localfree)
    (hn : Prog.Next env (args.round post rt) x y) : Waiting ids y.1 ∧ Picks args x.1 y.1 := by
  obtain ⟨-, hnil⟩ | ⟨act, hc⟩ := round_ok hn
  · cases hnil
  · obtain ⟨pick, node, hch, ht⟩ := choose_ok hc
    exact ⟨(take_waiting hids h ht).1, (chosen_fits hids h hroom hch).picks h hroom ht⟩

theorem rounds_room {ids : List String} (hids : ids.Nodup) (h : Waiting ids st)
    (hroom : Room args.nodes st.localfree) (fuel : Nat) :
    ∀ x ∈ Prog.rounds env (args.round post rt) fuel st s,
      Waiting ids x.1 ∧ Room args.nodes x.1.localfree :=
  Prog.rounds_invariant (fun st _ => Waiting ids st ∧ Room args.nodes st.localfree)
    (fun x y hx hn => by
      obtain ⟨hw, hp⟩ := next_picks hids hx.1 hx.2 hn
      exact ⟨hw, hp.room hx.2⟩)
    fuel ⟨h, hroom⟩

/-! ## What is raised -/

/-- An answer that a round can go on from: an object, and if it selects a
waiting job then not with an infinite node index. -/
def Readable (rt : Runtime) (st : RankState) : Json → Prop
  | .obj items => selectedJob rt items ∈ st.remaining.keys → (selectedNode items).infinite = false
  | _ => False

theorem policyPick_error {selected : String} {nodeJ : Json} {e : Exc}
    (h : args.policyPick rt st selected nodeJ = .error e) :
    selected ∈ st.remaining.keys ∧ nodeJ.infinite := by
  unfold RankArgs.policyPick at h
  split at h
  · cases h
  · cases h
  · rename_i job hjob _
    split at h
    · rename_i e' he
      split at h
      · cases h
      · rename_i hk
        rw [Json.toInt_error he] at hk
        exact ⟨Dict.mem_keys_of_get? hjob, by simpa using hk⟩
    · cases h
    · split at h <;> cases h

theorem policyPick_infinite {selected : String} {nodeJ : Json}
    (hs : selected ∈ st.remaining.keys) (hi : nodeJ.infinite) :
    args.policyPick rt st selected nodeJ = .error .overflowError := by
  obtain ⟨job, hjob⟩ := Dict.get?_of_mem_keys hs
  unfold RankArgs.policyPick
  rw [hjob]
  match nodeJ, hi with
  | .float .inf, _ => rfl
  | .float .negInf, _ => rfl

theorem choose_unreadable {act : Json} (h : ¬ Readable rt st act) :
    args.choose rt st act = .error .attributeError ∨
      args.choose rt st act = .error .overflowError := by
  cases act with
  | obj items =>
    have ⟨hs, hi⟩ : selectedJob rt items ∈ st.remaining.keys ∧ (selectedNode items).infinite := by
      simpa [Readable] using h
    rw [choose_obj, policyPick_infinite hs hi]
    exact .inr rfl
  | _ => exact .inl rfl

theorem choose_readable {ids : List String} (hids : ids.Nodup) (h : Waiting ids st)
    (hroom : Room args.nodes st.localfree) (hstrict : args.strict = false) {act : Json}
    (ha : Readable rt st act) : ∃ r, args.choose rt st act = .ok r := by
  cases act with
  | obj items =>
    rw [choose_obj]
    cases hp : args.policyPick rt st (selectedJob rt items) (selectedNode items) with
    | error e =>
      obtain ⟨hs, hi⟩ := policyPick_error hp
      rw [ha hs] at hi
      cases hi
    | ok pick =>
      match pick with
      | some (pick, node) =>
        obtain ⟨st', ht⟩ := (policyPick_fits hids h hp).take hroom
        exact ⟨.inl st', by simp [bind, Except.bind, ht, pure, Except.pure]⟩
      | none =>
        show ∃ r, args.fallBack rt st _ _ = .ok r
        rw [RankArgs.fallBack, hstrict, if_neg Bool.false_ne_true]
        split
        · rename_i pick node hf
          have hc : Chosen rt args st pick node := .inr hf
          obtain ⟨st', ht⟩ := (chosen_fits hids h hroom hc).take hroom
          exact ⟨.inl st', by simp [bind, Except.bind, ht, pure, Except.pure]⟩
        · exact ⟨_, rfl⟩
  | _ => exact ha.elim

/-- `e` is raised because the deadline has passed, at a last look at the clock. -/
def AtDeadline (deadlineAt : Option ℚ) (e : Exc) (s : ClientState σ) : Prop :=
  ∃ deadline now, deadlineAt = some deadline ∧ deadline ≤ now ∧
    e = .timeoutError RankArgs.deadlineMessage ∧
    s.trace.getLast? = some ⟨Call.monotonic, .ok now⟩

theorem checkDeadline_error (hclock : ClocksAnswer env) :
    WP env args.checkDeadline s fun r s' => ∀ e, r = .error e → AtDeadline args.deadlineAt e s' := by
  unfold RankArgs.checkDeadline
  split
  · exact nofun
  · rename_i deadline hd
    obtain ⟨now, hnow⟩ := (hclock s.trace.length).1
    rw [WP.bind_iff, wp_monotonic, hnow]
    refine WP.ensure_iff.mpr ⟨fun _ => nofun, fun hlt e he => ?_⟩
    obtain rfl := Except.error.inj he
    exact ⟨deadline, now, hd, not_lt.mp hlt, rfl, List.getLast?_concat⟩

theorem ask_error (hclock : ClocksAnswer env) :
    WP env (args.ask post st) s fun r s' =>
      ∀ e, r = .error e → args.strict ∨ AtDeadline args.deadlineAt e s' := by
  unfold RankArgs.ask
  rw [WP.bind_iff]
  refine WP.mono (checkDeadline_error hclock) fun r s₁ hr => ?_
  cases r with
  | error e =>
    intro e' he
    obtain rfl := Except.error.inj he
    exact .inr (hr e rfl)
  | ok _ =>
    obtain ⟨now, hnow⟩ := (hclock s₁.trace.length).2
    show WP env _ s₁ _
    rw [WP.bind_iff, wp_time, hnow]
    show WP env (tryCatch (post _) _) _ _
    rw [WP.tryCatch_iff]
    refine WP.of_forall fun r s₂ => ?_
    cases r with
    | ok act => exact nofun
    | error e =>
      by_cases hs : args.strict
      · exact fun _ _ => .inl hs
      · show WP env (if args.strict then throw e else pure (Json.obj [])) _ _
        rw [if_neg hs]
        exact nofun

/-- What a round raises: what asking the policy raises, or what its answer
makes of the round. -/
theorem round_error {e : Exc} {s' : ClientState σ}
    (h : (args.round post rt st).run env s = (.error e, s')) :
    (args.ask post st).run env s = (.error e, s') ∨
      ∃ act, (args.ask post st).run env s = (.ok act, s') ∧ args.choose rt st act = .error e := by
  unfold RankArgs.round at h
  split at h
  · cases congrArg Prod.fst h
  · simp only [bind, Prog.run_andThen] at h
    rcases ha : (args.ask post st).run env s with ⟨e' | act, s₁⟩
    · rw [ha] at h
      obtain ⟨he, rfl⟩ := Prod.mk.inj
        (show ((.error e' : Except Exc (RankState ⊕ List String)), s₁) = _ from h)
      obtain rfl := Except.error.inj he
      exact .inl rfl
    · rw [ha] at h
      obtain ⟨hc, rfl⟩ := Prod.mk.inj (show (args.choose rt st act, s₁) = _ from h)
      exact .inr ⟨act, rfl, hc⟩

section Whole

variable (rt args post env s) (pending : List PendingItem) (free : Dict String Int)

/-- The rounds of `rank_pending`, for at most `fuel` of them. -/
abbrev rankRounds (fuel : Nat) : List (RankState × ClientState σ) :=
  Prog.rounds env (args.round post rt) fuel (.start pending free) s

/-- What `rank_pending` promises of a run. -/
structure Ranks : Prop where
  /-- It ends: no number of rounds beyond the jobs' makes a difference. -/
  terminates : ∀ fuel, pending.length < fuel → ∃ r s',
    (rankLoop rt args post pending free fuel).run env s = (r.map some, s') ∧
    (rankPending rt args post pending free).run env s = (r, s')
  returns : ∀ order s', (rankPending rt args post pending free).run env s = (.ok order, s') →
    order.Perm (pending.map fun item => item.coerce.jobId)
  raises : ∀ e s', (rankPending rt args post pending free).run env s = (.error e, s') →
    args.strict ∨ AtDeadline args.deadlineAt e s'
  picks : ∀ fuel, (rankRounds rt args post env s pending free fuel).IsChain
    fun x y => Picks args x.1 y.1
  free_nonneg : ∀ fuel, ∀ x ∈ rankRounds rt args post env s pending free fuel,
    ∀ kv ∈ x.1.localfree, 0 ≤ kv.2

/-- Every answer of the policy in a run is one that the round it is for can go
on from. -/
def AllReadable : Prop :=
  ∀ x ∈ rankRounds rt args post env s pending free (pending.length + 1), x.1.remaining ≠ [] →
    ∀ act s', (args.ask post x.1).run env x.2 = (.ok act, s') → Readable rt x.1 act

variable {rt args post env s pending free}

theorem start_keys (hids : (pending.map fun item => item.coerce.jobId).Nodup) :
    (RankState.start pending free).remaining.keys
      = pending.map fun item => item.coerce.jobId := by
  show (Dict.ofList _).keys = _
  rw [Dict.ofList_eq (by simpa [Function.comp_def] using hids)]
  simp [Dict.keys]

theorem rankPending_error {e : Exc} {s' : ClientState σ}
    (h : (rankPending rt args post pending free).run env s = (.error e, s')) :
    ∃ x ∈ rankRounds rt args post env s pending free (pending.length + 1),
      (args.round post rt x.1).run env x.2 = (.error e, s') := by
  obtain ⟨r, s₁, hit, hrun⟩ := run_rankPending rt args post env s pending free (Nat.lt_succ_self _)
  rw [h] at hrun
  obtain ⟨rfl, rfl⟩ := Prod.mk.inj hrun
  exact Prog.iterate_error_iff.mp hit

/-- With every answer readable, `rank_pending` raises at the deadline only. -/
theorem raises_of_readable (hclock : ClocksAnswer env) (hroom : Room args.nodes free)
    (hr : AllReadable rt args post env s pending free) {e : Exc} {s' : ClientState σ}
    (h : (rankPending rt args post pending free).run env s = (.error e, s')) :
    args.strict ∨ AtDeadline args.deadlineAt e s' := by
  obtain ⟨x, hx, hb⟩ := rankPending_error h
  have hids := Dict.nodup_ofList (pending.map fun item => (item.coerce.jobId, item.coerce))
  have hinv := rounds_room hids (Waiting.start pending free) hroom _ x hx
  obtain ha | ⟨act, ha, hc⟩ := round_error hb
  · have hask : WP env (args.ask post x.1) x.2 _ := ask_error hclock
    unfold WP at hask
    rw [ha] at hask
    exact hask e rfl
  · by_cases hs : args.strict
    · exact .inl hs
    · have hne : x.1.remaining ≠ [] := by
        intro hnil
        rw [RankArgs.round, hnil] at hb
        cases congrArg Prod.fst hb
      obtain ⟨r, hok⟩ := choose_readable hids hinv.1 hinv.2 (Bool.eq_false_of_not_eq_true hs)
        (hr x hx hne act s' ha)
      rw [hok] at hc
      cases hc

/-- An answer that is not readable is raised. -/
theorem readable_of_raises
    (hraise : ∀ e s', (rankPending rt args post pending free).run env s = (.error e, s') →
      args.strict ∨ AtDeadline args.deadlineAt e s')
    (hs : ¬ args.strict) : AllReadable rt args post env s pending free := by
  intro x hx hne act s' ha
  by_contra hbad
  obtain ⟨e, hc, he⟩ : ∃ e, args.choose rt x.1 act = .error e ∧
      e ≠ .timeoutError RankArgs.deadlineMessage := by
    rcases (choose_unreadable hbad : args.choose rt x.1 act = _ ∨ _) with hc | hc
    · exact ⟨_, hc, nofun⟩
    · exact ⟨_, hc, nofun⟩
  have hb : (args.round post rt x.1).run env x.2 = (.error e, s') := by
    have hempty : ¬ x.1.remaining.isEmpty := fun h => hne (List.isEmpty_iff.mp h)
    rw [RankArgs.round, if_neg hempty]
    simp only [bind, Prog.run_andThen, ha]
    exact congrArg (fun r => (r, s')) hc
  have hit := Prog.iterate_error_iff.mpr ⟨x, hx, hb⟩
  obtain ⟨r, s₁, hit', hrun⟩ := run_rankPending rt args post env s pending free (Nat.lt_succ_self _)
  rw [hit] at hit'
  obtain ⟨hr, rfl⟩ := Prod.mk.inj hit'
  cases r with
  | ok _ => cases hr
  | error e' =>
    obtain rfl : e = e' := Except.error.inj hr
    obtain h | ⟨_, _, _, _, h, _⟩ := hraise e s' hrun
    · exact hs h
    · exact he h

/-- `rank_pending` ends with the pending jobs, each once, whatever the policy
answers, and puts each where it fits; but with `strict` off it raises an answer
that is not an object, or selects a waiting job with an infinite node index. -/
theorem rankPending_ranks_iff (hids : (pending.map fun item => item.coerce.jobId).Nodup)
    (hroom : Room args.nodes free) (hclock : ClocksAnswer env) :
    Ranks rt args post env s pending free ↔
      args.strict ∨ AllReadable rt args post env s pending free := by
  have hnd := Dict.nodup_ofList (pending.map fun item => (item.coerce.jobId, item.coerce))
  have hw := Waiting.start pending free
  constructor
  · intro h
    by_cases hs : args.strict
    · exact .inl hs
    · exact .inr (readable_of_raises h.raises hs)
  · intro h
    refine ⟨fun fuel hf => run_rankPending rt args post env s pending free hf, fun order s' hr => ?_,
      fun e s' hr => ?_, fun fuel => ?_, fun fuel x hx => ?_⟩
    · rw [← start_keys hids]
      exact rankPending_perm rt args post pending free env s order (congrArg Prod.fst hr)
    · rcases h with h | h
      · exact .inl h
      · exact raises_of_readable hclock hroom h hr
    · refine (Prog.rounds_isChain fuel _ s).imp_of_mem_imp fun x y hx _ hn => ?_
      have hinv := rounds_room hnd hw hroom fuel x hx
      exact (next_picks hnd hinv.1 hinv.2 hn).2
    · exact (rounds_room hnd hw hroom fuel x hx).2.nonneg

end Whole

section Runs

/-- Two jobs that fit on the node one by one, but not together. -/
def twoJobs : List PendingItem := [.tuple "1" 50 (.fin 1), .tuple "2" 60 (.fin 2)]

def oneNode : RankArgs where
  mpsPerGpu := 100
  nodes := [.node ⟨"a", 100, 0, "rtx4070", true⟩]

/-- A policy that always selects job 1, for the node `nodeJ`. -/
def selects (nodeJ : Json) : Json := .obj [("selected_job_id", .str "1"), ("node_j", nodeJ)]

theorem rankPending_ranks_two_jobs :
    Ranks plainRuntime oneNode postAct (replyEnv fun _ _ => .ok (selects (.int 0))) ⟨(), []⟩
      twoJobs [("a", 100)] := by
  refine (rankPending_ranks_iff (by decide) ⟨by decide, by decide⟩ (replyEnv_clocks _)).mpr
    (.inr fun x _ _ act s' ha => ?_)
  have hact : act = selects (.int 0) := (Except.ok.inj (congrArg Prod.fst ha)).symm
  rw [hact]
  exact fun _ => rfl

/-- An infinite node index, as `json.loads` reads `1e999`, is raised though
`strict` is off. -/
theorem rankPending_infinite_node :
    ¬ Ranks plainRuntime oneNode postAct (replyEnv fun _ _ => .ok (selects (.float .inf))) ⟨(), []⟩
      twoJobs [("a", 100)] := by
  intro h
  obtain hs | ⟨deadline, -, hd, -⟩ := h.raises .overflowError _ (Prod.ext rfl rfl)
  · cases hs
  · cases hd

end Runs

end Kelpflux.Proof.Scheduler
