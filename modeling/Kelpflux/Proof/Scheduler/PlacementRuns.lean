import Kelpflux.Framework.Evidence
import Kelpflux.Proof.Scheduler.HardPlacement

/-!
# Runs of the placement controller

Each update of a run rests on the last listing before it (`PlacedNow`): nothing
was placed since. Under a Slurm that no longer shows a job as held once it has
taken its release, no job is placed twice (`placed_once`). What a drain returns
is what Slurm has taken of it (`drain_decisions`).
-/

namespace Kelpflux.Proof.Scheduler

open Framework Framework.Python Impl.Scheduler

variable {σ : Type} {rt : Runtime} {args : PlaceArgs} {env : ClientEnv} {s : ClientState σ}

/-- A placement that Slurm has taken: the job, and its node. -/
def accepted (e : ClientEvent) : Option (String × String) :=
  match e with
  | ⟨Call.updateJob jobId (.place nodeName _), .ok _⟩ => some (jobId, nodeName)
  | _ => none

/-- A release that Slurm has taken, of this job. -/
def released (e : ClientEvent) : Option String :=
  match e with
  | ⟨Call.updateJob jobId (.place _ (some _)), .ok _⟩ => some jobId
  | _ => none

/-- A listing does not show a job as held whose release was taken before it. -/
def Released (rt : Runtime) (args : PlaceArgs) (t : List ClientEvent) : Prop :=
  ∀ es doc es', t = es ++ ⟨Call.getJobs, .ok doc⟩ :: es' → ∀ now jobs,
    parseJobs rt args.defaultRuntime args.defaultMps now doc = .ok jobs →
    ∀ job ∈ jobs, job.jobId ∈ es.filterMap released → heldReason job.reason = false

/-- What neither lists jobs nor updates one. -/
def Passive (c : interface.Call) : Prop := c ≠ Call.getJobs ∧ NoUpdate c

/-! ## The last listing -/

/-- An update is as it should be by the last listing of `es` and what follows it. -/
def PlacedNow (rt : Runtime) (args : PlaceArgs) (es : List ClientEvent) (c : interface.Call) :
    Prop :=
  ∀ jobId body, c = Call.updateJob jobId body → ∃ before doc after,
    es = before ++ ⟨Call.getJobs, .ok doc⟩ :: after ∧ (∀ e ∈ after, Passive e.call) ∧
      Placed rt args (⟨Call.getJobs, .ok doc⟩ :: after) jobId body

/-- Of the calls that lead to an answer only the first lists jobs. -/
theorem exists_passive (args : PlaceArgs) (ask : Ask) : ∃ after,
    ask.calls args = ⟨Call.getJobs, .ok ask.jobsDoc⟩ :: after ∧ ∀ e ∈ after, Passive e.call := by
  have htail : ask.calls args = ⟨Call.getJobs, .ok ask.jobsDoc⟩ :: (ask.calls args).tail := rfl
  refine ⟨_, htail, fun e he => ⟨?_, noUpdate_calls e (List.mem_of_mem_tail he)⟩⟩
  have htime : (Call.time : interface.Call) ≠ Call.getJobs := nofun
  have hnodes : (Call.getNodes : interface.Call) ≠ Call.getJobs := nofun
  have hhealth : (Call.healthz : interface.Call) ≠ Call.getJobs := nofun
  have hact : (Call.act (ask.payload args) : interface.Call) ≠ Call.getJobs := nofun
  revert e
  unfold Ask.calls Ask.trimmed Ask.listings
  split
  · simpa using ⟨htime, hnodes, hhealth, htime, hact⟩
  · simpa using ⟨htime, hnodes, htime, hact⟩

/-- Wherever it is made, an update follows the listings of its own call. -/
theorem choose_fresh (hserved : ServedLegal env) (hdistinct : DistinctIds rt args env)
    (s : ClientState σ) : (chooseAndApply rt args).Guards (PlacedNow rt args) env s := by
  refine (choose_ensures (R := fun _ _ => True) ?_ (fun _ _ _ _ => trivial) fun ask h =>
    ⟨?_, trivial⟩).1
  · exact fun es c hc jobId body hcall => absurd hcall (hc jobId body)
  · refine (h.placed hserved hdistinct).mono fun es c hupdate jobId body hcall => ?_
    obtain ⟨rfl, hplaced⟩ := hupdate jobId body hcall
    obtain ⟨after, hcalls, hpassive⟩ := exists_passive args ask
    rw [hcalls] at hplaced ⊢
    exact ⟨s.trace, ask.jobsDoc, after, rfl, hpassive, hplaced⟩

/-! ## The loops -/

theorem drain_fresh (hserved : ServedLegal env) (hdistinct : DistinctIds rt args env) (turns : ℕ)
    (decisions : List PlacementDecision) (s : ClientState σ) :
    (drainLoop rt args turns decisions).Guards (PlacedNow rt args) env s := by
  induction turns generalizing decisions s with
  | zero => exact trivial
  | succ turns ih =>
    refine .bind (choose_fresh hserved hdistinct s) fun decision s' => ?_
    dsimp only
    split
    · exact ih _ s'
    · exact trivial

theorem cycle_fresh (hserved : ServedLegal env) (hdistinct : DistinctIds rt args env) (drain : Bool)
    (s : ClientState σ) :
    (placementCycle rt args drain).Guards (PlacedNow rt args) env s := by
  refine Prog.Guards.tryCatch (h := fun _ => pure none) ?_ fun _ _ => trivial
  split
  · exact .bind (drain_fresh hserved hdistinct _ _ s) fun _ _ => trivial
  · exact .bind (choose_fresh hserved hdistinct s) fun _ _ => trivial

/-- Whatever fails in a cycle, each update of a run pins the one job of its id
that the last listing showed the policy, on a node shown beside it that it fits;
nothing was updated since that listing. -/
theorem placed_fresh (hserved : ServedLegal env) (hdistinct : DistinctIds rt args env)
    (drain once : Bool) (cycles : ℕ) (s : ClientState σ) :
    (placementMain rt args drain once cycles).Guards (PlacedNow rt args) env s := by
  induction cycles generalizing s with
  | zero => exact trivial
  | succ cycles ih =>
    refine .bind (cycle_fresh hserved hdistinct drain s) fun decision s' => ?_
    split
    · exact trivial
    · exact ih s'

/-! ## Once -/

theorem accepted_eq {e : ClientEvent} {jobId nodeName : String}
    (h : accepted e = some (jobId, nodeName)) :
    ∃ release doc, e = ⟨Call.updateJob jobId (.place nodeName release), .ok doc⟩ := by
  unfold accepted at h
  split at h
  · obtain ⟨rfl, rfl⟩ := Prod.mk.inj (Option.some.inj h)
    exact ⟨_, _, rfl⟩
  · cases h

/-- A placement that is taken releases its job, where the controller releases. -/
theorem released_of_accepted {es : List ClientEvent} {e : ClientEvent} {jobId nodeName : String}
    (h : PlacedNow rt args es e.call) (hrelease : args.release = true)
    (he : accepted e = some (jobId, nodeName)) : released e = some jobId := by
  obtain ⟨release, doc, rfl⟩ := accepted_eq he
  obtain ⟨-, -, -, -, -, jobs, nodes, now, answer, -, -, job, node, -, -, hbody⟩ := h _ _ rfl
  unfold PlaceArgs.hardPlacement at hbody
  rw [if_pos hrelease] at hbody
  obtain ⟨-, rfl⟩ := JobUpdate.place.inj hbody
  rfl

theorem selectJobs_held (hheld : args.requireHeld = true) {parsed : List SlurmJob} {job : SlurmJob}
    (h : job ∈ args.selectJobs parsed) : heldReason job.reason = true := by
  have hsub : (args.selectJobs parsed).Sublist (filterHeldJobs parsed) := by
    have hrest : (({ args with requireHeld := false } : PlaceArgs).selectJobs
        (filterHeldJobs parsed)).Sublist (filterHeldJobs parsed) := selectJobs_sublist _
    unfold PlaceArgs.selectJobs at hrest ⊢
    rwa [if_pos hheld]
  exact (List.mem_filter.mp (hsub.subset h)).2

/-- The listing that an update rests on shows its job as held. -/
theorem PlacedNow.held {es : List ClientEvent} {jobId : String} {body : JobUpdate}
    (h : PlacedNow rt args es (Call.updateJob jobId body)) (hheld : args.requireHeld = true) :
    ∃ before doc after, es = before ++ ⟨Call.getJobs, .ok doc⟩ :: after ∧
      (∀ e ∈ after, Passive e.call) ∧ ∃ now jobs,
        parseJobs rt args.defaultRuntime args.defaultMps now doc = .ok jobs ∧
        ∃ job ∈ jobs, job.jobId = jobId ∧ heldReason job.reason = true := by
  obtain ⟨before, doc, after, hes, hpassive, jobs, nodes, -, -, hlisted, -, job, node, hfit, -, -⟩ :=
    h _ _ rfl
  obtain ⟨doc', now, parsed, hdoc, rfl, hparsed⟩ := hlisted.jobs_listed
  have hdoc' : doc' = doc := by
    rcases List.mem_cons.mp hdoc with heq | hafter
    · exact Except.ok.inj (eq_of_heq (Event.mk.inj heq).2)
    · exact absurd rfl (hpassive _ hafter).1
  subst hdoc'
  have hjob : job ∈ args.selectJobs parsed := mem_window hfit.job_mem
  exact ⟨before, doc', after, hes, hpassive, now, parsed, hparsed, job,
    (selectJobs_sublist parsed).subset hjob, hfit.job_id, selectJobs_held hheld hjob⟩

/-- However its cycles go, a controller that releases held jobs places none
twice, if Slurm shows no job as held again once it has taken its release. -/
theorem placed_once (hserved : ServedLegal env) (hdistinct : DistinctIds rt args env)
    (hrelease : args.release = true) (hheld : args.requireHeld = true) (drain once : Bool)
    (cycles : ℕ) (m : σ)
    (hslurm : Released rt args ((placementMain rt args drain once cycles).calls env ⟨m, []⟩)) :
    ((((placementMain rt args drain once cycles).calls env ⟨m, []⟩).filterMap accepted).map
      Prod.fst).Nodup := by
  have hall : Prog.AllCalls (PlacedNow rt args)
      ((placementMain rt args drain once cycles).calls env ⟨m, []⟩) :=
    Prog.guards_iff.mp (placed_fresh hserved hdistinct drain once cycles ⟨m, []⟩)
  refine List.pairwise_map.mpr (List.pairwise_filterMap.mpr
    (List.pairwise_iff_forall_sublist.mpr ?_))
  rintro e₁ e₂ hsub ⟨jobId, node₁⟩ h₁ ⟨jobId', node₂⟩ h₂ heq
  obtain rfl : jobId = jobId' := heq
  obtain ⟨pre, post, hcalls, he₁, he₂⟩ := List.cons_sublist_iff.mp hsub
  obtain ⟨pre₁, pre₂, rfl⟩ := List.append_of_mem he₁
  obtain ⟨post₁, post₂, rfl⟩ := List.append_of_mem (List.singleton_sublist.mp he₂)
  have hreleased : released e₁ = some jobId :=
    released_of_accepted (hall pre₁ e₁ (pre₂ ++ (post₁ ++ e₂ :: post₂)) (by simp [hcalls]))
      hrelease h₁
  have hnow := hall (pre₁ ++ e₁ :: pre₂ ++ post₁) e₂ post₂ (by simp [hcalls])
  obtain ⟨r₂, d₂, he⟩ := accepted_eq h₂
  rw [he] at hnow
  obtain ⟨before, doc, after, hes, hpassive, now, jobs, hparsed, job, hjob, rfl, hshown⟩ :=
    hnow.held hheld
  -- The first placement is before that listing, as no update is after it.
  have hbefore : e₁ ∈ before := by
    have hmem : e₁ ∈ before ++ ⟨Call.getJobs, .ok doc⟩ :: after := hes ▸ by simp
    obtain ⟨r₁, d₁, rfl⟩ := accepted_eq h₁
    rcases List.mem_append.mp hmem with hin | hin
    · exact hin
    · rcases List.mem_cons.mp hin with heq | hafter
      · exact nomatch (Event.mk.inj heq).1
      · exact absurd rfl ((hpassive _ hafter).2 _ _)
  have hsplit : (placementMain rt args drain once cycles).calls env ⟨m, []⟩ =
      before ++ ⟨Call.getJobs, .ok doc⟩ :: (after ++ e₂ :: post₂) := by
    rw [hcalls, ← List.append_assoc, hes, List.append_assoc, List.cons_append]
  have hnot := hslurm before doc _ hsplit now jobs hparsed job hjob
    (List.mem_filterMap.mpr ⟨e₁, hbefore, hreleased⟩)
  rw [hshown] at hnot
  cases hnot

/-! ## Two held jobs -/

def heldItem (jobId submitTime : ℤ) : Json :=
  .obj [("job_id", .int jobId), ("job_state", .arr [.str "PENDING"]),
    ("state_reason", .str "JobHeldUser"), ("partition", .str "gpu"),
    ("tres_req_str", .str "gres/mps=25"), ("submit_time", .obj [("number", .int submitTime)])]

/-- The jobs that are held by the call `n`: each placement is the seventh call. -/
def heldAt (n : ℕ) : List Json :=
  if n < 7 then [heldItem 7 5, heldItem 8 3] else if n < 14 then [heldItem 7 5] else []

def heldIds (n : ℕ) : List String := if n < 7 then ["7", "8"] else if n < 14 then ["7"] else []

def heldEnv : ClientEnv := fun n c => match c with
  | .getJobs => .ok (jobsDoc (heldAt n))
  | c => placeEnv n c

def heldArgs : PlaceArgs where
  shadow := false

theorem heldEnv_served : ServedLegal heldEnv :=
  fun n payload doc h => placeEnv_served n payload doc h

theorem heldAt_ids (n : ℕ) (now : ℚ) :
    (parseJobs plainRuntime (.fin 600) 100 now (jobsDoc (heldAt n))).map
      (fun jobs => jobs.map fun job => job.jobId) = .ok (heldIds n) := by
  unfold heldAt heldIds
  split_ifs
  · rfl
  · rfl
  · rfl

theorem heldEnv_ids {n : ℕ} {now : ℚ} {doc : Json} {jobs : List SlurmJob}
    (hdoc : heldEnv n Call.getJobs = .ok doc)
    (hjobs : parseJobs plainRuntime (.fin 600) 100 now doc = .ok jobs) :
    (jobs.map fun job => job.jobId) = heldIds n := by
  obtain rfl : jobsDoc (heldAt n) = doc := Except.ok.inj hdoc
  have hids := heldAt_ids n now
  rw [hjobs] at hids
  exact Except.ok.inj hids

theorem heldEnv_distinct : DistinctIds plainRuntime heldArgs heldEnv := by
  intro n doc now jobs hdoc hjobs
  rw [heldEnv_ids hdoc hjobs]
  unfold heldIds
  split_ifs
  · decide
  · decide
  · decide

/-- Both are placed in one cycle, the earlier first. -/
theorem placed_fresh_two :
    ((placementMain plainRuntime heldArgs true true 1 : Client Unit _).Guards
      (PlacedNow plainRuntime heldArgs) heldEnv ⟨(), []⟩) ∧
    ((placementMain plainRuntime heldArgs true true 1 : Client Unit _).calls heldEnv
      ⟨(), []⟩).filterMap accepted = [("8", "gpu-4070"), ("7", "gpu-4070")] :=
  ⟨placed_fresh heldEnv_served heldEnv_distinct true true 1 ⟨(), []⟩, by decide +kernel⟩

/-- What has been released is not shown as held. -/
theorem heldEnv_released : Released plainRuntime heldArgs
    ((placementMain plainRuntime heldArgs true true 1 : Client Unit _).calls heldEnv ⟨(), []⟩) := by
  intro es doc es' hcalls now jobs hparsed job hjob hreleased
  have hdoc : heldEnv es.length Call.getJobs = .ok doc := by
    have hreply := Prog.reply_eq hcalls
    rw [show ([] : List ClientEvent).length + es.length = es.length from Nat.zero_add _] at hreply
    exact hreply.symm
  have hid : job.jobId ∈ heldIds es.length :=
    heldEnv_ids hdoc hparsed ▸ List.mem_map_of_mem hjob
  have hnone : ∀ n ∈ List.range 16, ∀ j ∈ heldIds n, j ∉ (((placementMain plainRuntime heldArgs true
      true 1 : Client Unit _).calls heldEnv ⟨(), []⟩).take n).filterMap released := by
    decide +kernel
  have hlength : es.length < 16 := by
    have htotal : ((placementMain plainRuntime heldArgs true true 1 : Client Unit _).calls heldEnv
      ⟨(), []⟩).length = 16 := by decide +kernel
    rw [hcalls, List.length_append, List.length_cons] at htotal
    omega
  refine absurd hreleased ?_
  have htake := hnone es.length (List.mem_range.mpr hlength) job.jobId hid
  rwa [hcalls, List.take_left] at htake

theorem placed_once_two :
    ((((placementMain plainRuntime heldArgs true true 1 : Client Unit _).calls heldEnv
      ⟨(), []⟩).filterMap accepted).map Prod.fst).Nodup :=
  placed_once heldEnv_served heldEnv_distinct rfl rfl true true 1 () heldEnv_released

/-! ## What a drain returns -/

/-- The placement that a decision says was made. -/
def placement (d : PlacementDecision) : Option (String × String) :=
  if d.applied then d.jobId.bind fun jobId => d.nodeName.map fun nodeName => (jobId, nodeName)
  else none

/-- The placements taken so far. -/
def Taken (ps : List (String × String)) (t : List ClientEvent) : Prop := t.filterMap accepted = ps

theorem accepted_none {e : ClientEvent} (h : NoUpdate e.call) : accepted e = none := by
  unfold accepted
  split
  · exact absurd rfl (h _ _)
  · rfl

variable {α : Type} {ps : List (String × String)}

theorem taken_kept {p : Client σ α} (h : p.Only NoUpdate) :
    p.Learns (Taken ps) fun _ => Taken ps :=
  .of_only h fun t e he ht => by
    unfold Taken
    rw [List.filterMap_append, ht, List.filterMap_cons, accepted_none he, List.filterMap_nil,
      List.append_nil]

/-- After calls that update nothing. -/
theorem taken_bind {β : Type} {p : Client σ α} (h : p.Only NoUpdate) {f : α → Client σ β}
    {L : β → List ClientEvent → Prop} (hf : ∀ a, (f a).Learns (Taken ps) L) :
    (p >>= f).Learns (Taken ps) L :=
  .bind (taken_kept h) hf

/-- A decision that is returned says what was taken. -/
theorem applyAct_taken (names : List String) (act : Json) :
    (applyAct rt args names act : Client σ _).Learns (Taken ps) fun d t =>
      Taken (ps ++ (placement d).toList) t := by
  have hnone {d : PlacementDecision} {t : List ClientEvent} (happlied : d.applied = false)
      (ht : Taken ps t) : Taken (ps ++ (placement d).toList) t := by
    unfold placement
    rw [if_neg (by simp [happlied])]
    simpa using ht
  refine taken_bind (.ofExcept _) fun selectedId => taken_bind (.ofExcept _) fun nodeIndex =>
    taken_bind (.ofExcept _) fun gpuIndex => ?_
  split
  · exact .ofExcept fun d t hd ht => hnone (decision_fields hd).2.2 ht
  refine taken_bind (.ofExcept _) fun nodeJ => ?_
  split
  · refine .ofExcept fun d t hd ht => ?_
    obtain ⟨gpuK, -, hd⟩ := bind_eq_ok.mp hd
    exact hnone (decision_fields hd).2.2 ht
  rename_i nodeName _
  by_cases hshadow : args.shadow = true
  · rw [if_pos hshadow, hshadow]
    refine taken_bind (.pure ()) fun _ => .ofExcept fun d t hd ht => ?_
    obtain ⟨gpuK, -, hd⟩ := bind_eq_ok.mp hd
    exact hnone (decision_fields hd).2.2 ht
  · rw [if_neg hshadow, Bool.eq_false_iff.mpr hshadow]
    refine .bind (L := fun _ => Taken (ps ++ [(selectedId.toStr rt, nodeName)])) ?_ fun _ =>
      .ofExcept fun d t hd ht => ?_
    · refine .bind (L := fun _ => Taken (ps ++ [(selectedId.toStr rt, nodeName)]))
        (.perform fun t doc ht => ?_) fun _ => .pure fun t ht => ht
      unfold Taken at ht ⊢
      rw [List.filterMap_append, ht]
      rfl
    · obtain ⟨gpuK, -, hd⟩ := bind_eq_ok.mp hd
      obtain ⟨hjob, hnode, happlied⟩ := decision_fields hd
      unfold placement
      rw [happlied, hjob, hnode]
      exact ht

theorem choose_taken (rt : Runtime) (args : PlaceArgs) :
    (chooseAndApply rt args : Client σ _).Learns (Taken ps) fun d t =>
      Taken (ps ++ (placement d).toList) t := by
  have hnone (reason : String) : (pure (noDecision reason) : Client σ _).Learns (Taken ps) fun d t =>
      Taken (ps ++ (placement d).toList) t := .pure fun t ht => by
    show Taken (ps ++ []) t
    rwa [List.append_nil]
  refine taken_bind (Prog.Only.perform.mpr noUpdate_getJobs) fun jobsDoc =>
    taken_bind (Prog.Only.perform.mpr noUpdate_time) fun now =>
      taken_bind (.ofExcept _) fun parsed => ?_
  refine .ite (fun _ => hnone _) fun _ => ?_
  refine taken_bind (Prog.Only.perform.mpr noUpdate_getNodes) fun nodesDoc =>
    taken_bind (.ofExcept _) fun discovered => ?_
  refine .ite (fun _ => hnone _) fun _ => taken_bind ?_ fun names =>
    taken_bind (Prog.Only.perform.mpr noUpdate_time) fun now' =>
      taken_bind (Prog.Only.perform.mpr (noUpdate_act _)) fun act => applyAct_taken names act
  exact .ite (fun _ => .bind (Prog.Only.perform.mpr noUpdate_healthz) fun _ => .ofExcept _)
    fun _ => .pure _

/-- All that is taken in a drain is among its decisions, in their order. -/
theorem drain_taken (turns : ℕ) (decisions : List PlacementDecision) :
    (drainLoop rt args turns decisions : Client σ _).Learns
      (Taken (ps ++ decisions.filterMap placement)) fun decisions' t =>
        Taken (ps ++ decisions'.filterMap placement) t := by
  induction turns generalizing decisions with
  | zero => exact .pure fun t ht => ht
  | succ turns ih =>
    refine .bind (choose_taken rt args) fun d => ?_
    have heq : ps ++ decisions.filterMap placement ++ (placement d).toList =
        ps ++ (decisions ++ [d]).filterMap placement := by
      rw [List.filterMap_append, ← List.append_assoc]
      rfl
    rw [heq]
    exact .ite (fun _ => ih _) fun _ => .pure fun t ht => ht

/-- A drain goes on while its decisions are applied. -/
theorem drain_length (turns : ℕ) (decisions : List PlacementDecision) :
    (drainLoop rt args turns decisions : Client σ _).Returns fun decisions' =>
      ∃ ds, decisions' = decisions ++ ds ∧ ds.length ≤ turns ∧
        (∀ d ∈ ds.dropLast, d.applied = true) ∧
        (ds.length < turns → ∃ d, ds.getLast? = some d ∧ d.applied = false) := by
  induction turns generalizing decisions with
  | zero => exact .pure ⟨[], by simp⟩
  | succ turns ih =>
    refine .bind (.any _) fun d _ => .ite (fun happlied => ?_) fun hnot => ?_
    · intro env s decisions' hrun
      obtain ⟨ds, rfl, hlength, hall, hlast⟩ := ih (decisions ++ [d]) env s decisions' hrun
      refine ⟨d :: ds, by simp, Nat.succ_le_succ hlength, fun d' hd' => ?_, fun hlt => ?_⟩
      · cases ds with
        | nil => cases hd'
        | cons d₂ ds =>
          rcases List.mem_cons.mp hd' with rfl | hrest
          · exact happlied
          · exact hall d' hrest
      · obtain ⟨d', hd', hfalse⟩ := hlast (Nat.lt_of_succ_lt_succ hlt)
        refine ⟨d', ?_, hfalse⟩
        rw [List.getLast?_cons, hd', Option.getD_some]
    · exact .pure ⟨[d], rfl, Nat.succ_le_succ (Nat.zero_le _), by simp,
        fun _ => ⟨d, rfl, Bool.eq_false_iff.mpr hnot⟩⟩

/-- What a drain returns is what it did: the placements of its decisions are
those that Slurm has taken of it, in order; it ends at the first that is not
applied, or at the bound. -/
theorem drain_decisions {maxPlacements : ℤ} {decisions : List PlacementDecision}
    (h : ((drainAndApply rt args maxPlacements).run env s).1 = .ok decisions) :
    ((drainAndApply rt args maxPlacements).calls env s).filterMap accepted
        = decisions.filterMap placement ∧
      decisions.length ≤ (max 1 maxPlacements).toNat ∧
      (∀ d ∈ decisions.dropLast, d.applied = true) ∧
      (decisions.length < (max 1 maxPlacements).toNat →
        ∃ d, decisions.getLast? = some d ∧ d.applied = false) := by
  refine ⟨?_, ?_⟩
  · have htaken : Taken (s.trace.filterMap accepted ++ decisions.filterMap placement)
        ((drainAndApply rt args maxPlacements).run env s).2.trace :=
      drain_taken _ [] env s decisions (by simp [Taken]) h
    unfold Taken at htaken
    rw [Prog.trace_eq, List.filterMap_append] at htaken
    exact List.append_cancel_left htaken
  · obtain ⟨ds, rfl, hds⟩ := drain_length (max 1 maxPlacements).toNat [] env s decisions h
    exact hds

/-- A drain that places both jobs and then finds none. -/
theorem drain_decisions_two : ∃ decisions,
    ((drainAndApply plainRuntime heldArgs : Client Unit _).run heldEnv ⟨(), []⟩).1 = .ok decisions ∧
    ((drainAndApply plainRuntime heldArgs : Client Unit _).calls heldEnv ⟨(), []⟩).filterMap accepted
      = decisions.filterMap placement ∧
    ∀ d ∈ decisions.dropLast, d.applied = true := by
  cases hrun : ((drainAndApply plainRuntime heldArgs : Client Unit _).run heldEnv ⟨(), []⟩).1 with
  | ok decisions =>
    obtain ⟨haccepted, -, happlied, -⟩ := drain_decisions hrun
    exact ⟨decisions, rfl, haccepted, happlied⟩
  | error e =>
    have hlength : ((drainAndApply plainRuntime heldArgs : Client Unit _).run heldEnv
      ⟨(), []⟩).1.toOption.map List.length = some 3 := by decide +kernel
    rw [hrun] at hlength
    cases hlength

end Kelpflux.Proof.Scheduler
