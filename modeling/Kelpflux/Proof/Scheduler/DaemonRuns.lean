import Kelpflux.Framework.Evidence
import Kelpflux.Framework.Lists
import Kelpflux.Proof.Scheduler.OwnedBand
import Kelpflux.Proof.Scheduler.Rollback
import Mathlib.Data.List.ReduceOption

/-!
# Runs of the reorder daemon

From its start to its end, whatever fails on the way, the daemon writes a
priority only of a job that a listing it had read showed, and only one of its
band, INFINITE where the job was listed with one of its band, or the very
priority that the job was listed with (`Rests`).
-/

namespace Kelpflux.Proof.Scheduler

open Framework Framework.Python Impl.Scheduler

variable {σ : Type} {rt : Runtime} {args : CycleArgs}

/-! ## What a listing shows -/

/-- An item of a listing is of job `j` and gives it priority `p`, which is `d`
where the item has no number. -/
def ShowsItem (rt : Runtime) (d : ℤ) (j : String) (p : ℤ) (item : Json) : Prop :=
  (∃ v, item.getD "job_id" (.str "") = .ok v ∧ v.toStr rt = j) ∧ intField rt item "priority" d = .ok p

/-- A document lists job `j` with priority `p`. -/
def DocShows (rt : Runtime) (d : ℤ) (j : String) (p : ℤ) (doc : Json) : Prop :=
  ∃ items, docItems doc "jobs" = .ok items ∧ ∃ item ∈ items, ShowsItem rt d j p item

/-- A listing among the calls of a run does. -/
def Shown (rt : Runtime) (d : ℤ) (j : String) (p : ℤ) (t : List ClientEvent) : Prop :=
  ∃ e ∈ t, ∃ doc, e = ⟨Call.getJobs, .ok doc⟩ ∧ DocShows rt d j p doc

/-- What a priority that is written rests on. -/
def Rests (rt : Runtime) (t : List ClientEvent) (c : interface.Call) : Prop :=
  ∀ j p, priorityWrite c = some (j, p) →
    (isOwned p ∧ ∃ q, Shown rt 0 j q t) ∨
    (p = releasePriority ∧ ∃ q, isOwned q ∧ Shown rt (-1) j q t) ∨
    Shown rt 0 j p t

theorem shown_lasting {d : ℤ} {j : String} {p : ℤ} : Lasting (Shown rt d j p) := .mem _

theorem Reads.rests {c : interface.Call} (hc : Reads c) (t : List ClientEvent) : Rests rt t c := by
  intro j p hw
  rw [hc] at hw
  cases hw

/-- What makes no write may be done at any time. -/
theorem cautious_of_reads {α : Type} {K : List ClientEvent → Prop} {p : Client σ α}
    (h : p.Only Reads) : p.Cautious (Rests rt) K :=
  .of_only (h.mono fun _ hc => hc.rests)

theorem setPriority_cautious {K : List ClientEvent → Prop} {j : String} {p : ℤ}
    (h : ∀ t, K t → Rests rt t (Call.updateJob j (.priority p))) :
    (setPriority rt j p : Client σ Unit).Cautious (Rests rt) K :=
  .bind (.perform h) (L := fun _ _ => True) (fun _ _ _ _ _ => trivial) fun _ =>
    cautious_of_reads (.bind (.ofExcept _) fun _ => .ensure _ _)

/-- A listing is read. -/
theorem getJobs_learns (rt : Runtime) {K : List ClientEvent → Prop} (hK : Lasting K) :
    (getJobs : Client σ Json).Learns K fun doc t =>
      K t ∧ ∀ d j p, DocShows rt d j p doc → Shown rt d j p t :=
  .perform fun t doc ht => ⟨hK t _ ht, fun _ _ _ hshows =>
    ⟨_, List.mem_append_right t (List.mem_singleton_self _), doc, rfl, hshows⟩⟩

/-! ## Reading -/

theorem getD_of_get {item v d : Json} {k : String} (h : item.get k = .ok v) (hv : v ≠ .null) :
    item.getD k d = .ok v := by
  cases item with
  | obj items =>
    have hv' : (Dict.get? items k).getD .null = v := Except.ok.inj h
    unfold Json.getD
    cases hget : Dict.get? items k with
    | none =>
      rw [hget] at hv'
      exact absurd hv'.symm hv
    | some w =>
      rw [hget] at hv'
      show Except.ok ((Dict.get? items k).getD d) = _
      rw [hget]
      exact congrArg _ hv'
  | _ => cases h

/-- Each of the pending jobs' priorities is listed. -/
theorem pendingPriority_shows {item : Json} {j : String} {p : ℤ}
    (h : pendingPriority rt item = .ok (some (j, p))) : ShowsItem rt (-1) j p item := by
  unfold pendingPriority at h
  obtain ⟨v, hv, h⟩ := bind_eq_ok.mp h
  split at h
  · cases h
  rename_i hnull
  obtain ⟨state, -, h⟩ := bind_eq_ok.mp h
  split at h
  · cases h
  obtain ⟨q, hq, h⟩ := bind_eq_ok.mp h
  obtain ⟨rfl, rfl⟩ := Prod.mk.inj (Option.some.inj (Except.ok.inj h))
  exact ⟨⟨v, getD_of_get hv hnull, rfl⟩, hq⟩

theorem parseJob_shows {d : PyFloat} {mps : ℤ} {now : ℚ} {item : Json} {job : SlurmJob}
    (h : parseJob rt d mps now item = .ok (some job)) :
    ShowsItem rt 0 job.jobId job.priority item := by
  unfold parseJob at h
  obtain ⟨state, -, h⟩ := bind_eq_ok.mp h
  split at h
  · cases h
  obtain ⟨tres, -, h⟩ := bind_eq_ok.mp h
  dsimp only at h
  split at h
  case' isFalse => obtain ⟨total, -, h⟩ := bind_eq_ok.mp h
  all_goals
    obtain ⟨gpuCount, -, h⟩ := bind_eq_ok.mp h
    obtain ⟨partition, -, h⟩ := bind_eq_ok.mp h
    obtain ⟨metadata, -, h⟩ := bind_eq_ok.mp h
    obtain ⟨timeLimit, -, h⟩ := bind_eq_ok.mp h
    obtain ⟨reported, -, h⟩ := bind_eq_ok.mp h
    obtain ⟨gtype, -, h⟩ := bind_eq_ok.mp h
    obtain ⟨jobId, hjobId, h⟩ := bind_eq_ok.mp h
    obtain ⟨name, -, h⟩ := bind_eq_ok.mp h
    obtain ⟨reason, -, h⟩ := bind_eq_ok.mp h
    obtain ⟨submitTime, -, h⟩ := bind_eq_ok.mp h
    obtain ⟨priority, hpriority, h⟩ := bind_eq_ok.mp h
    obtain ⟨requiredNodes, -, h⟩ := bind_eq_ok.mp h
    obtain ⟨ram, -, h⟩ := bind_eq_ok.mp h
    obtain ⟨slo, -, h⟩ := bind_eq_ok.mp h
    obtain ⟨cls, -, h⟩ := bind_eq_ok.mp h
    obtain rfl := Option.some.inj (Except.ok.inj h)
    exact ⟨⟨jobId, hjobId, rfl⟩, hpriority⟩

theorem pendingJobPriorities_shows {doc : Json} {listed : Dict String ℤ}
    (h : pendingJobPriorities rt doc = .ok listed) {jp : String × ℤ} (hjp : jp ∈ listed) :
    DocShows rt (-1) jp.1 jp.2 doc := by
  obtain ⟨items, hitems, h⟩ := bind_eq_ok.mp h
  obtain ⟨pending, hpending, h⟩ := bind_eq_ok.mp h
  obtain rfl := Except.ok.inj h
  have hmem := List.reduceOption_mem_iff.mp (Dict.mem_of_mem_ofList hjp)
  obtain ⟨item, hitem, hshows⟩ := exists_of_forall₂ (forall₂_of_mapM_ok hpending) _ hmem
  exact ⟨items, hitems, item, hitem, pendingPriority_shows hshows⟩

theorem eligibleJob_shows (item : Json) : (eligibleJob rt args item : Client σ _).Returns
    fun found => ∀ job ∈ found, ShowsItem rt 0 job.jobId job.priority item := by
  have hjob : (jobFromItem rt args item : Client σ _).Returns
      fun found => ∀ job ∈ found, ShowsItem rt 0 job.jobId job.priority item := by
    refine .bind (.any _) fun now _ => .bind (Prog.Returns.ofExcept _) fun found hfound => ?_
    cases found with
    | none => exact .pure fun job hjob => absurd hjob (Option.not_mem_none job)
    | some job =>
      have hshows := parseJob_shows hfound
      refine .bind (.any _) fun tres _ => .pure fun job' hjob' => ?_
      split at hjob'
      · cases hjob'
      · exact Option.some.inj hjob' ▸ hshows
  refine .bind (.any _) fun reads _ => ?_
  cases reads with
  | false => exact .pure fun job hjob => absurd hjob (Option.not_mem_none job)
  | true => exact .bind hjob fun found hfound => .pure fun job' hjob' =>
      hfound job' (Option.filter_eq_some_iff.mp hjob').1

/-- The jobs that are read are listed with their priorities. -/
theorem parseEligibleJobs_shows (doc : Json) :
    (parseEligibleJobs rt args doc : Client σ _).Returns
      fun jobs => ∀ job ∈ jobs, DocShows rt 0 job.jobId job.priority doc := by
  refine .bind (Prog.Returns.ofExcept _) fun items hitems => .bind
    (Prog.Returns.foldlM (fun jobs => ∀ job ∈ jobs, DocShows rt 0 job.jobId job.priority doc)
      (fun eligible item hitem hall => ?_) [] fun job hjob => absurd hjob List.not_mem_nil)
      fun jobs hjobs => .pure fun job hjob => hjobs job (mem_sortedBy.mp hjob)
  refine .bind (eligibleJob_shows item) fun found hfound => .pure fun job hjob => ?_
  rcases List.mem_append.mp hjob with hjob | hjob
  · exact hall job hjob
  · exact ⟨items, hitems, item, hitem, hfound job (Option.mem_toList.mp hjob)⟩

theorem readState_learns {K : List ClientEvent → Prop} (hK : Lasting K) :
    (readState rt args : Client σ _).Learns K fun state t =>
      K t ∧ ∀ job ∈ state.1, Shown rt 0 job.jobId job.priority t := by
  refine .bind (getJobs_learns rt hK) fun jobsDoc => ?_
  have hlast : Lasting fun t => K t ∧ ∀ d j p, DocShows rt d j p jobsDoc → Shown rt d j p t :=
    hK.and fun t t' h d j p hshows => shown_lasting t t' (h d j p hshows)
  refine .skip hlast fun nodesDoc => .bind (.of_returns hlast (parseEligibleJobs_shows jobsDoc))
    fun jobs => .skip (fun t t' h => ⟨h.1, hlast t t' h.2⟩) fun discovered => .pure fun t h => ?_
  obtain ⟨hjobs, hknown, hshown⟩ := h
  exact ⟨hknown, fun job hjob => hshown 0 job.jobId job.priority (hjobs job hjob)⟩

/-! ## Planning -/

/-- The ranking orders jobs that it was given. -/
theorem rankCycle_subset (deadline : ℚ) (jobs : List SlurmJob) (nodes : List SlurmNode) :
    (rankCycle rt args deadline jobs nodes).Returns
      fun order => ∀ j ∈ order, ∃ job ∈ jobs, job.jobId = j := by
  intro env s order ho j hj
  have hperm := rankPending_perm _ _ _ _ _ env s order ho
  have hkey := Dict.mem_keys_ofList.mp (hperm.subset hj)
  rw [List.map_map, List.map_map] at hkey
  obtain ⟨job, hjob, hid⟩ := List.mem_map.mp hkey
  exact ⟨job, hjob, hid⟩

/-- What a plan rests on. -/
def PlanShown (rt : Runtime) (plan : CyclePlan) (t : List ClientEvent) : Prop :=
  ∀ order current deadline, plan = .write order current deadline →
    (∀ j ∈ order, ∃ q, Shown rt 0 j q t) ∧ ∀ jp ∈ current, Shown rt 0 jp.1 jp.2 t

theorem planCycle_learns : (planCycle rt args).Learns (fun _ => True) (PlanShown rt) := by
  have hjobs : ∀ jobs : List SlurmJob, Lasting fun t =>
      ∀ job ∈ jobs, Shown rt 0 job.jobId job.priority t :=
    fun jobs t t' h job hjob => shown_lasting t t' (h job hjob)
  refine .skip .true fun _ => .skip .true fun start =>
    .bind (readState_learns .true) fun state => ?_
  refine .ite (fun _ => .pure nofun) fun _ => ?_
  have hlast : Lasting fun t => True ∧ ∀ job ∈ state.1, Shown rt 0 job.jobId job.priority t :=
    Lasting.true.and (hjobs state.1)
  refine .skip hlast fun _ => .skip hlast fun _ =>
    .bind (.of_returns hlast (rankCycle_subset _ _ _)) fun order => ?_
  have hordered : Lasting fun t => (∀ j ∈ order, ∃ job ∈ state.1, job.jobId = j) ∧
      True ∧ ∀ job ∈ state.1, Shown rt 0 job.jobId job.priority t :=
    fun t t' h => ⟨h.1, hlast t t' h.2⟩
  refine .skip hordered fun now => .skip hordered fun _ =>
    .bind (readState_learns hordered) fun current => .skip (hordered.and (hjobs current.1))
      fun _ => .pure fun t h order' current' deadline' hplan => ?_
  obtain ⟨⟨horder, -, hshown⟩, hcurrent⟩ := h
  split at hplan
  · cases hplan
  obtain ⟨rfl, rfl, -⟩ := CyclePlan.write.inj hplan
  refine ⟨fun j hj => ?_, fun jp hjp => ?_⟩
  · obtain ⟨job, hjob, rfl⟩ := horder j hj
    exact ⟨job.priority, hshown job hjob⟩
  · obtain ⟨job, hjob, rfl⟩ := List.mem_map.mp (Dict.mem_of_mem_ofList hjp)
    exact hcurrent job hjob

/-! ## Writing -/

theorem updateJob_write {j : String} {p : ℤ} {t : List ClientEvent}
    (h : (isOwned p ∧ ∃ q, Shown rt 0 j q t) ∨
      (p = releasePriority ∧ ∃ q, isOwned q ∧ Shown rt (-1) j q t) ∨ Shown rt 0 j p t) :
    Rests rt t (Call.updateJob j (.priority p)) := by
  intro j' p' hw
  obtain ⟨rfl, rfl⟩ := Prod.mk.inj (Option.some.inj hw)
  exact h

theorem resetJobs_cautious {K : List ClientEvent → Prop} (hK : Lasting K) {owned : List String}
    (h : ∀ t, K t → ∀ j ∈ owned, ∃ q, isOwned q ∧ Shown rt (-1) j q t) :
    (resetJobs rt owned : Client σ _).Cautious (Rests rt) K := by
  refine .seq hK (.forM hK fun j hj => setPriority_cautious fun t ht => ?_) fun _ => ?_
  · exact updateJob_write (.inr (.inl ⟨rfl, h t ht j hj⟩))
  · exact cautious_of_reads (.ite (fun _ => .pure _) fun _ =>
      .bind (Prog.Only.perform.mpr rfl) fun _ => .bind (.ofExcept _) fun _ =>
        .bind (.ensure _ _) fun _ => .pure _)

theorem reset_cautious {K : List ClientEvent → Prop} :
    (resetOwnedPriorities rt : Client σ _).Cautious (Rests rt) K := by
  suffices h : (resetOwnedPriorities rt : Client σ _).Cautious (Rests rt) fun _ => True from
    .mono h fun _ _ => trivial
  refine .bind (cautious_of_reads (Prog.Only.perform.mpr rfl)) (getJobs_learns rt .true) fun doc => ?_
  have hlast : Lasting fun t => True ∧ ∀ d j p, DocShows rt d j p doc → Shown rt d j p t :=
    Lasting.true.and fun t t' h d j p hshows => shown_lasting t t' (h d j p hshows)
  refine .bind (cautious_of_reads (.ofExcept _)) (.of_returns hlast (.ofExcept _)) fun pending => ?_
  refine resetJobs_cautious (fun t t' h => ⟨h.1, hlast t t' h.2⟩) fun t h j hj => ?_
  obtain ⟨hpending, -, hshown⟩ := h
  obtain ⟨jp, hjp, rfl⟩ := List.mem_map.mp hj
  obtain ⟨hmem, howned⟩ := List.mem_filter.mp hjp
  exact ⟨jp.2, howned, hshown _ _ _ (pendingJobPriorities_shows hpending hmem)⟩

theorem restore_cautious {K : List ClientEvent → Prop} (hK : Lasting K)
    {original : Dict String ℤ} (h : ∀ t, K t → ∀ jp ∈ original, Shown rt 0 jp.1 jp.2 t) :
    (restoreCyclePriorities rt original : Client σ Unit).Cautious (Rests rt) K := by
  refine .ite (fun _ => cautious_of_reads (.pure _)) fun _ => .seq hK
    (cautious_of_reads (Prog.Only.perform.mpr rfl)) fun doc => .seq hK
    (cautious_of_reads (.ofExcept _)) fun pending => .seq hK ?_ fun _ => ?_
  · refine .forM hK fun jp hjp => setPriority_cautious fun t ht => ?_
    exact updateJob_write (.inr (.inr (h t ht jp (List.mem_filter.mp hjp).1)))
  · exact cautious_of_reads (.bind (Prog.Only.perform.mpr rfl) fun _ => .bind (.ofExcept _) fun _ =>
      .ensure _ _)

theorem planShown_lasting {plan : CyclePlan} : Lasting (PlanShown rt plan) := by
  intro t t' h order current deadline hplan
  obtain ⟨horder, hcurrent⟩ := h order current deadline hplan
  refine ⟨fun j hj => ?_, fun jp hjp => shown_lasting t t' (hcurrent jp hjp)⟩
  obtain ⟨q, hq⟩ := horder j hj
  exact ⟨q, shown_lasting t t' hq⟩

theorem writePriorities_cautious {order : List String} {current : Dict String ℤ} {deadline : ℚ}
    (hlen : order.length ≤ maxPendingJobs) :
    (writePriorities rt order current deadline).Cautious (Rests rt)
      (PlanShown rt (.write order current deadline)) := by
  refine .seq planShown_lasting (.forM planShown_lasting fun jp hjp => ?_) fun _ => ?_
  · refine .seq planShown_lasting (cautious_of_reads (Prog.Only.perform.mpr rfl)) fun now =>
      .seq planShown_lasting (cautious_of_reads (.ensure _ _)) fun _ =>
      .ite (fun _ => cautious_of_reads (.pure _)) fun _ =>
      .seq planShown_lasting (setPriority_cautious fun t ht => ?_) fun _ =>
        cautious_of_reads (.modify _)
    obtain ⟨ji, hji, hjp'⟩ := List.mem_map.mp (Dict.mem_of_mem_ofList hjp)
    have hmem : jp.1 ∈ order := by
      rw [← hjp']
      exact List.mem_of_getElem? (List.mem_zipIdx_iff_getElem?.mp hji)
    exact updateJob_write (.inl ⟨orderPriorities_owned hlen jp hjp,
      (ht order current deadline rfl).1 jp.1 hmem⟩)
  · exact cautious_of_reads (.bind (Prog.Only.perform.mpr rfl) fun _ =>
      .bind (Prog.Only.perform.mpr rfl) fun _ => .bind (.ofExcept _) fun _ => .ensure _ _)

theorem cycle_cautious : (reorderCycle rt args).Cautious (Rests rt) fun _ => True := by
  have hlearns : (planCycle rt args).Learns (fun _ => True) fun plan t =>
      Planned plan ∧ PlanShown rt plan t := fun env s plan hs ha =>
    ⟨planCycle_planned env s plan ha, planCycle_learns env s plan hs ha⟩
  refine .bind (cautious_of_reads planCycle_reads) hlearns fun plan => ?_
  cases plan with
  | done order => exact cautious_of_reads (.pure _)
  | write order current deadline =>
    by_cases hplanned : Planned (.write order current deadline)
    · have hlen := (hplanned order current deadline rfl).2.1
      refine .mono ?_ fun t ht => ht.2
      refine .seq planShown_lasting (cautious_of_reads (.modify _)) fun _ =>
        .seq planShown_lasting ?_ fun _ => cautious_of_reads (.pure _)
      refine .tryCatch planShown_lasting (writePriorities_cautious hlen) fun e => ?_
      refine .seq planShown_lasting (.seq planShown_lasting ?_ fun _ => ?_) fun _ =>
        cautious_of_reads (.throw _)
      · exact .tryCatch planShown_lasting (restore_cautious planShown_lasting
          fun t ht => (ht order current deadline rfl).2) fun _ => cautious_of_reads (.pure _)
      · exact .tryCatch planShown_lasting (.seq planShown_lasting reset_cautious fun _ =>
          cautious_of_reads (.pure _)) fun _ => cautious_of_reads (.pure _)
    · exact fun _ _ ht => absurd ht.1 hplanned

/-! ## The daemon -/

theorem tryReset_cautious : (tryReset rt args).Cautious (Rests rt) fun _ => True :=
  .ite (fun _ => cautious_of_reads (.pure _)) fun _ => .tryCatch .true
    (.seq .true reset_cautious fun _ => cautious_of_reads (.pure _)) fun _ =>
      cautious_of_reads (.pure _)

theorem mainLoop_cautious (cycles : ℕ) :
    (mainLoop rt args cycles).Cautious (Rests rt) fun _ => True := by
  have hcycles : ((List.range cycles).forM fun _ => mainCycle rt args).Cautious (Rests rt)
      fun _ => True :=
    .forM .true fun _ _ => .tryCatch .true (.seq .true cycle_cautious fun _ =>
      cautious_of_reads (.pure _)) fun _ => tryReset_cautious
  refine .seq .true (.ite (fun _ => cautious_of_reads (.pure _)) fun _ => ?_) fun _ => hcycles
  exact .seq .true reset_cautious fun _ => cautious_of_reads (.pure _)

/-- Every priority that the daemon writes, from its start over any number of
cycles to its end, whatever the environment replies or raises, rests on a
listing that it had read before. -/
theorem daemon_rests (rt : Runtime) (args : CycleArgs) (cycles : ℕ) (env : ClientEnv) (m : Cycle) :
    Prog.AllCalls (Rests rt) ((reorderMain rt args cycles).calls env ⟨m, []⟩) :=
  Prog.Cautious.allCalls (.andThen .true (mainLoop_cautious cycles) fun r =>
    .seq .true tryReset_cautious fun _ => cautious_of_reads (.ofExcept r)) env m

/-! ## Shadow mode -/

theorem planCycle_shadow (hshadow : args.shadow = true) :
    (planCycle rt args).Returns fun plan => ∃ order, plan = .done order := by
  refine .bind (.any _) fun _ _ => .bind (.any _) fun start _ => .bind (.any _) fun state _ =>
    .ite (fun _ => .pure ⟨_, rfl⟩) fun _ => .bind (.any _) fun _ _ => .bind (.any _) fun _ _ =>
    .bind (.any _) fun order _ => .bind (.any _) fun now _ => .bind (.any _) fun _ _ =>
    .bind (.any _) fun current _ => .bind (.any _) fun _ _ => .pure ⟨order, ?_⟩
  rw [if_pos hshadow]

/-- In shadow mode no run of the daemon writes a priority. -/
theorem daemon_shadow (rt : Runtime) (args : CycleArgs) (hshadow : args.shadow = true) (cycles : ℕ)
    (env : ClientEnv) (m : Cycle) :
    writesOf ((reorderMain rt args cycles).calls env ⟨m, []⟩) = [] := by
  have hreads : ∀ {α : Type} {K : List ClientEvent → Prop} {p : Daemon α}, p.Only Reads →
      p.Cautious (fun _ c => Reads c) K := fun h => .of_only (h.mono fun _ hc _ => hc)
  have hcycle : (reorderCycle rt args).Cautious (fun _ c => Reads c) fun _ => True := by
    refine .bind (hreads planCycle_reads) (.of_returns .true (planCycle_shadow hshadow))
      fun plan => ?_
    cases plan with
    | done order => exact hreads (.pure _)
    | write order current deadline =>
      rintro env s ⟨⟨_, hplan⟩, -⟩
      cases hplan
  have hreset : (tryReset rt args).Only Reads := by
    rw [tryReset, if_pos hshadow]
    exact .pure _
  have hstart : (startReset rt args).Only Reads := by
    rw [startReset, if_pos hshadow]
    exact .pure _
  have hmain : (reorderMain rt args cycles).Cautious (fun _ c => Reads c) fun _ => True := by
    refine .andThen .true (.seq .true (hreads hstart) fun _ => .forM .true fun _ _ => ?_) fun r =>
      .seq .true (hreads hreset) fun _ => hreads (.ofExcept r)
    exact .tryCatch .true (.seq .true hcycle fun _ => hreads (.pure _)) fun _ => hreads hreset
  refine List.filterMap_eq_nil_iff.mpr fun e he => ?_
  obtain ⟨pre, post, hsplit⟩ := List.append_of_mem he
  exact hmain.allCalls env m pre e post hsplit

theorem daemon_shadow_two_jobs :
    writesOf ((reorderMain plainRuntime { cycleArgs with shadow := true } 2).calls
      (cycleEnv fun _ => [jobItem 7 100 2, jobItem 8 100 1]) ⟨{}, []⟩) = [] :=
  daemon_shadow plainRuntime { cycleArgs with shadow := true } rfl 2 _ {}

/-! ## The end of a run -/

/-- A reset that returns makes the calls that it makes by itself. -/
theorem tryReset_calls {env : ClientEnv} {s : ClientState Cycle} {owned : List String}
    (hlive : args.shadow = false) (h : ((resetOwnedPriorities rt).run env s).1 = .ok owned) :
    (tryReset rt args).calls env s = (resetOwnedPriorities rt).calls env s := by
  let body : Daemon Unit := do let _ ← resetOwnedPriorities rt
  have hbody : body.calls env s = (resetOwnedPriorities rt).calls env s :=
    (Prog.calls_bind h).trans (by rw [show Prog.calls env (pure ⟨⟩ : Daemon Unit) _ = [] from
      Prog.calls_done _ _ _, List.append_nil])
  have hrun : (body.run env s).1 = .ok () := by
    show (((resetOwnedPriorities rt) >>= fun _ => pure ()).run env s).1 = _
    simp only [bind, Prog.run_andThen, h]
    rfl
  have htry : tryReset rt args = tryCatch body fun _ => pure () := by
    rw [tryReset, hlive, if_neg Bool.false_ne_true]
  rw [htry]
  show (Prog.andThen body _).calls env s = _
  rw [Prog.calls_andThen, hrun, hbody]
  exact (congrArg _ (Prog.calls_done _ _ _)).trans (List.append_nil _)

/-- The daemon's last calls are those of a reset. -/
theorem reorderMain_calls (rt : Runtime) (args : CycleArgs) (cycles : ℕ) (env : ClientEnv)
    (m : Cycle) :
    (reorderMain rt args cycles).calls env ⟨m, []⟩ = (mainLoop rt args cycles).calls env ⟨m, []⟩ ++
      (tryReset rt args).calls env ((mainLoop rt args cycles).run env ⟨m, []⟩).2 := by
  rw [reorderMain, Prog.calls_andThen]
  generalize (mainLoop rt args cycles).run env ⟨m, []⟩ = out
  refine congrArg _ ((Prog.calls_andThen env (tryReset rt args) _ out.2).trans ?_)
  cases ((tryReset rt args).run env out.2).1 with
  | ok a => exact (congrArg _ (Prog.calls_done _ _ _)).trans (List.append_nil _)
  | error e => exact (congrArg _ (Prog.calls_done _ _ _)).trans (List.append_nil _)

/-- Whatever its cycles did, and whatever jobs came meanwhile, a daemon whose last
reset returns leaves no job with a priority of its band that is pending during it. -/
theorem daemon_leaves_none (rt : Runtime) (args : CycleArgs) (hlive : args.shadow = false)
    (cycles : ℕ) (env : ClientEnv) (m : Cycle) (owned : List String)
    (hreset : ((resetOwnedPriorities rt).run env
      ((mainLoop rt args cycles).run env ⟨m, []⟩).2).1 = .ok owned)
    (pending : String → Prop) (prio prio' : String → ℤ)
    (hserved : Served rt pending prio
      ((tryReset rt args).calls env ((mainLoop rt args cycles).run env ⟨m, []⟩).2) prio') :
    (reorderMain rt args cycles).calls env ⟨m, []⟩ = (mainLoop rt args cycles).calls env ⟨m, []⟩ ++
        (tryReset rt args).calls env ((mainLoop rt args cycles).run env ⟨m, []⟩).2 ∧
      ∀ j, pending j → ¬ isOwned (prio' j) := by
  refine ⟨reorderMain_calls rt args cycles env m, fun j hj => ?_⟩
  rw [tryReset_calls hlive hreset] at hserved
  exact reset_clears hreset hserved hj

section Released

variable {pending : String → Prop} {prio prio' : String → ℤ} {e : ClientEvent}

/-- The priorities that a call lists, if it is a listing. -/
def listing (rt : Runtime) : ClientEvent → Option (Except Exc (Dict String ℤ))
  | ⟨.getJobs, .ok doc⟩ => some (pendingJobPriorities rt doc)
  | _ => none

theorem serves_listing {listed : Dict String ℤ}
    (he : (priorityWrite e.call, listing rt e) = (none, some (.ok listed)))
    (h : ∀ j, pending j → listed.get? j = some (prio j)) : Serves rt pending prio prio e := by
  obtain ⟨hreads, hlisted⟩ := Prod.mk.inj he
  unfold Serves
  rw [hreads]
  refine ⟨fun k => .inl rfl, fun doc hdoc => ⟨listed, ?_, h⟩⟩
  subst hdoc
  exact Option.some.inj hlisted

theorem serves_release {j : String} {found : Option (Except Exc (Dict String ℤ))}
    (he : (priorityWrite e.call, listing rt e) = (some (j, releasePriority), found))
    (hothers : ∀ k ≠ j, prio' k = prio k) (hreleased : ¬ isOwned (prio' j)) :
    Serves rt pending prio prio' e := by
  unfold Serves
  rw [(Prod.mk.inj he).1]
  exact ⟨fun k hk => .inl (hothers k hk), by rwa [if_pos rfl]⟩

/-- Two jobs, listed with the priorities that they were written with until they are
released. -/
def releasedEnv : ClientEnv := cycleEnv fun n =>
  if n < 25 ∨ 27 ≤ n then [jobItem 7 100 2, jobItem 8 100 1]
  else [jobItem 7 4990000 2, jobItem 8 5000000 1]

/-- Both jobs are written in the cycle and released at the end. -/
theorem daemon_leaves_none_released :
    writesOf ((mainLoop plainRuntime cycleArgs 1).calls releasedEnv ⟨{}, []⟩) =
        [("8", 5000000), ("7", 4990000)] ∧
      writesOf ((tryReset plainRuntime cycleArgs).calls releasedEnv
          ((mainLoop plainRuntime cycleArgs 1).run releasedEnv ⟨{}, []⟩).2) =
        [("7", releasePriority), ("8", releasePriority)] ∧
      (reorderMain plainRuntime cycleArgs 1).calls releasedEnv ⟨{}, []⟩ =
        (mainLoop plainRuntime cycleArgs 1).calls releasedEnv ⟨{}, []⟩ ++
          (tryReset plainRuntime cycleArgs).calls releasedEnv
            ((mainLoop plainRuntime cycleArgs 1).run releasedEnv ⟨{}, []⟩).2 ∧
      ∀ j, j ∈ ["7", "8"] → ¬ isOwned 100 := by
  let released : String → ℤ := fun j => if j = "8" then 5000000 else 100
  let written : String → ℤ := fun j => if j = "7" then 4990000 else released j
  have hviews : (((tryReset plainRuntime cycleArgs).calls releasedEnv
      ((mainLoop plainRuntime cycleArgs 1).run releasedEnv ⟨{}, []⟩).2).map fun e =>
        (priorityWrite e.call, listing plainRuntime e)) =
      [(none, some (.ok [("7", 4990000), ("8", 5000000)])), (some ("7", releasePriority), none),
        (some ("8", releasePriority), none), (none, some (.ok [("7", 100), ("8", 100)]))] := by
    decide +kernel
  have hserved : Served plainRuntime (· ∈ ["7", "8"]) written
      ((tryReset plainRuntime cycleArgs).calls releasedEnv
        ((mainLoop plainRuntime cycleArgs 1).run releasedEnv ⟨{}, []⟩).2) fun _ => 100 := by
    obtain ⟨_, _, hcalls, hlists, hviews⟩ := List.map_eq_cons_iff.mp hviews
    obtain ⟨_, _, rfl, hseven, hviews⟩ := List.map_eq_cons_iff.mp hviews
    obtain ⟨_, _, rfl, height, hviews⟩ := List.map_eq_cons_iff.mp hviews
    obtain ⟨_, _, rfl, hverifies, hviews⟩ := List.map_eq_cons_iff.mp hviews
    obtain rfl := List.map_eq_nil_iff.mp hviews
    rw [hcalls]
    have hout : ¬ isOwned 100 := by decide
    have hfirst : Serves plainRuntime (· ∈ ["7", "8"]) written released _ :=
      serves_release hseven (fun k hk => (if_neg hk).symm) hout
    refine .cons (serves_listing hlists ?_) (.cons hfirst (.cons (serves_release height ?_ hout)
      (.cons (serves_listing hverifies ?_) (.nil _))))
    · decide
    · exact fun k hk => (if_neg hk).symm
    · decide
  exact ⟨by decide +kernel, by decide +kernel,
    daemon_leaves_none plainRuntime cycleArgs rfl 1 releasedEnv {} ["7", "8"] (by decide +kernel)
      (· ∈ ["7", "8"]) written (fun _ => 100) hserved⟩

end Released

end Kelpflux.Proof.Scheduler
