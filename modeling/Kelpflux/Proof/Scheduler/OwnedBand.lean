import Kelpflux.Proof.Scheduler.Writes

/-!
# The daemon's own priorities

A cycle writes priorities of its band only, decreasing along its order
(`orderPriorities_owned`, `orderPriorities_decreasing`), so that wherever it is
cut short every job has the priority it had or one of the band
(`applyWrites_band`). A reset that returns has sent INFINITE to every pending
job listed with a priority of the band, and none is left with one
(`reset_clears`).
-/

namespace Kelpflux.Proof.Scheduler

open Framework Framework.Python Impl.Scheduler

variable {σ : Type} {rt : Runtime}

theorem isOwned_iff {p : Int} : isOwned p ↔ minOwnedPriority ≤ p ∧ p ≤ releaseBase := by
  simp [isOwned]

/-! ## The ranking's priorities -/

section Order

variable {order : List String}

theorem orderPriorities_eq (h : order.Nodup) :
    orderPriorities order = order.zipIdx.map fun ji => (ji.1, releaseBase - ji.2 * releaseSpacing) := by
  refine Dict.ofList_eq ?_
  rw [List.map_map]
  show (order.zipIdx.map Prod.fst).Nodup
  rwa [List.zipIdx_map_fst]

theorem orderPriorities_keys (h : order.Nodup) : (orderPriorities order).keys = order := by
  rw [orderPriorities_eq h, Dict.keys, List.map_map]
  exact List.zipIdx_map_fst 0 order

/-- The priorities decrease along the order. -/
theorem orderPriorities_decreasing (h : order.Nodup) :
    (orderPriorities order).values.Pairwise (· > ·) := by
  have hv : (orderPriorities order).values
      = (order.zipIdx.map Prod.snd).map fun i : Nat => releaseBase - i * releaseSpacing := by
    rw [orderPriorities_eq h, Dict.values, List.map_map, List.map_map]
    rfl
  rw [hv, List.zipIdx_map_snd, List.pairwise_map]
  refine (List.pairwise_lt_range' 1).imp fun hij => ?_
  simp only [releaseBase, releaseSpacing]
  omega

/-- Of a queue within the limit every priority is in the band. -/
theorem orderPriorities_owned (hlen : order.length ≤ maxPendingJobs) :
    ∀ jp ∈ orderPriorities order, isOwned jp.2 := by
  intro jp hjp
  obtain ⟨ji, hji, rfl⟩ := List.mem_map.mp (Dict.mem_of_mem_ofList hjp)
  have hi : ji.2 < order.length := by
    have := List.mem_zipIdx hji
    omega
  rw [isOwned_iff]
  simp only [minOwnedPriority, releaseBase, releaseSpacing, maxPendingJobs] at hlen ⊢
  omega

end Order

/-! ## A cycle cut short -/

/-- The jobs' priorities after the updates `ws`. -/
def applyWrites (prio : String → Int) (ws : List (String × Int)) : String → Int :=
  ws.foldl (fun prio w => Function.update prio w.1 w.2) prio

/-- A job's priority is the one it had, or one written. -/
theorem applyWrites_cases (ws : List (String × Int)) (prio : String → Int) (j : String) :
    applyWrites prio ws j = prio j ∨ ∃ w ∈ ws, applyWrites prio ws j = w.2 := by
  induction ws generalizing prio with
  | nil => exact .inl rfl
  | cons w ws ih =>
    rcases ih (Function.update prio w.1 w.2) with h | ⟨w', hw', h⟩
    · by_cases hj : j = w.1
      · refine .inr ⟨w, List.mem_cons_self, ?_⟩
        rw [applyWrites, List.foldl_cons, ← applyWrites, h, hj, Function.update_self]
      · refine .inl ?_
        rw [applyWrites, List.foldl_cons, ← applyWrites, h, Function.update_of_ne hj]
    · exact .inr ⟨w', List.mem_cons_of_mem _ hw', h⟩

theorem applyWrites_band {ws : List (String × Int)} (hws : ∀ w ∈ ws, isOwned w.2)
    (prio : String → Int) (j : String) :
    applyWrites prio ws j = prio j ∨ isOwned (applyWrites prio ws j) := by
  rcases applyWrites_cases ws prio j with h | ⟨w, hw, h⟩
  · exact .inl h
  · rw [h]
    exact .inr (hws w hw)

/-! ## The reset -/

/-- Left alone, a job keeps its priority, or Slurm gives it one outside the
band. -/
def Ages (prio prio' : String → Int) (j : String) : Prop := prio' j = prio j ∨ ¬ isOwned (prio' j)

/-- How Slurm serves a call: it lists the pending jobs with their priorities,
and takes an update, INFINITE as some priority outside the band. -/
def Serves (rt : Runtime) (pending : String → Prop) (prio prio' : String → Int)
    (e : ClientEvent) : Prop :=
  match priorityWrite e.call with
  | some (j, p) => (∀ k, k ≠ j → Ages prio prio' k) ∧
      if p = releasePriority then ¬ isOwned (prio' j) else prio' j = p
  | none => (∀ k, Ages prio prio' k) ∧ ∀ doc, e = ⟨Call.getJobs, .ok doc⟩ →
      ∃ listed, pendingJobPriorities rt doc = .ok listed ∧
        ∀ j, pending j → listed.get? j = some (prio j)

/-- How Slurm serves one call after another. -/
inductive Served (rt : Runtime) (pending : String → Prop) :
    (String → Int) → List ClientEvent → (String → Int) → Prop where
  | nil (prio : String → Int) : Served rt pending prio [] prio
  | cons {prio prio' prio'' : String → Int} {e : ClientEvent} {es : List ClientEvent} :
      Serves rt pending prio prio' e → Served rt pending prio' es prio'' →
      Served rt pending prio (e :: es) prio''

/-- Where nothing but INFINITE is written, a priority of the band was there
before, and its job was not written. -/
theorem Served.owned {pending : String → Prop} {prio prio' : String → Int}
    {es : List ClientEvent} (h : Served rt pending prio es prio')
    (hes : ∀ w ∈ writesOf es, w.2 = releasePriority) {j : String} (hj : isOwned (prio' j)) :
    isOwned (prio j) ∧ j ∉ (writesOf es).map Prod.fst := by
  induction h with
  | nil => exact ⟨hj, List.not_mem_nil⟩
  | @cons prio prio' prio'' e es he _ ih =>
    unfold Serves at he
    cases hw : priorityWrite e.call with
    | none =>
      have hcons : writesOf (e :: es) = writesOf es := List.filterMap_cons_none hw
      rw [hw] at he
      rw [hcons] at hes ⊢
      obtain ⟨hown, hnot⟩ := ih hes hj
      rcases he.1 j with hk | hk
      · exact ⟨hk ▸ hown, hnot⟩
      · exact absurd hown hk
    | some w =>
      have hcons : writesOf (e :: es) = w :: writesOf es := List.filterMap_cons_some hw
      rw [hw] at he
      rw [hcons] at hes ⊢
      obtain ⟨hown, hnot⟩ := ih (fun w' hw' => hes w' (List.mem_cons_of_mem _ hw')) hj
      obtain ⟨hothers, hwritten⟩ := he
      rw [if_pos (hes w List.mem_cons_self)] at hwritten
      by_cases hjw : j = w.1
      · exact absurd (hjw ▸ hown) hwritten
      · rcases hothers j hjw with hk | hk
        · refine ⟨hk ▸ hown, ?_⟩
          rw [List.map_cons, List.mem_cons, not_or]
          exact ⟨hjw, hnot⟩
        · exact absurd hown hk

/-- A reset writes nothing but INFINITE. -/
theorem reset_emits (env : ClientEnv) (s : ClientState σ) :
    ∀ w ∈ writesOf ((resetOwnedPriorities rt).calls env s), w.2 = releasePriority := by
  have hreads : ∀ c, Reads c → ∀ w, priorityWrite c = some w → w.2 = releasePriority := by
    intro c hc w hw
    rw [hc] at hw
    cases hw
  have hset : ∀ j, (setPriority rt j releasePriority : Client σ Unit).Only
      fun c => ∀ w, priorityWrite c = some w → w.2 = releasePriority := fun j => by
    refine .bind (Prog.Only.perform.mpr fun w hw => ?_) fun result => .bind (.ofExcept _) fun _ =>
      .ensure _ _
    obtain rfl := Option.some.inj hw
    rfl
  have honly : (resetOwnedPriorities rt : Client σ _).Only
      fun c => ∀ w, priorityWrite c = some w → w.2 = releasePriority :=
    .bind (.mono hreads (Prog.Only.perform.mpr rfl)) fun jobsDoc =>
      .bind (.ofExcept _) fun pending => .bind (.forM fun j _ => hset j) fun _ =>
      .ite (fun _ => .pure _) fun _ => .bind (.mono hreads (Prog.Only.perform.mpr rfl)) fun doc =>
      .bind (.ofExcept _) fun pending => .bind (.ensure _ _) fun _ => .pure _
  intro w hw
  obtain ⟨e, he, hew⟩ := mem_emitted.mp hw
  exact honly.calls env s e he w hew

/-- A reset that returns has written each of its jobs. -/
theorem resetJobs_writes {env : ClientEnv} {s : ClientState σ} {owned r : List String}
    (h : ((resetJobs rt owned).run env s).1 = .ok r) {j : String} (hj : j ∈ owned) :
    j ∈ (writesOf ((resetJobs rt owned).calls env s)).map Prod.fst := by
  obtain ⟨_, hwrites, -⟩ := Prog.bind_ok h
  have hw := forM_writes (fun j => (j, releasePriority)) hwrites j hj
  have hsub : writesOf _ ⊆ writesOf ((resetJobs rt owned).calls env s) :=
    List.filterMap_subset _ fun _ he => Prog.mem_calls_bind.mpr (.inl he)
  exact List.mem_map_of_mem (hsub hw)

/-- A reset that returns has read the jobs and written each that it found in
the band. -/
theorem reset_calls {env : ClientEnv} {s : ClientState σ} {owned : List String}
    (h : ((resetOwnedPriorities rt).run env s).1 = .ok owned) :
    ∃ doc listed rest, (resetOwnedPriorities rt).calls env s = ⟨Call.getJobs, .ok doc⟩ :: rest ∧
      pendingJobPriorities rt doc = .ok listed ∧
      ∀ j p, listed.get? j = some p → isOwned p → j ∈ (writesOf rest).map Prod.fst := by
  obtain ⟨doc, hdoc, h⟩ := Prog.bind_ok h
  obtain ⟨listed, hl, h⟩ := Prog.bind_ok h
  have hget : (getJobs : Client σ Json).calls env s = [⟨Call.getJobs, .ok doc⟩] :=
    Prog.calls_perform_eq hdoc
  have hcalls : (resetOwnedPriorities rt).calls env s = _ ++ _ :=
    (Prog.calls_bind hdoc).trans (congrArg _ (Prog.calls_bind hl))
  rw [hget] at hcalls
  refine ⟨doc, listed, _, hcalls, hl, fun j p hj hp => ?_⟩
  have hmem : j ∈ Dict.keys (listed.filter fun jp => isOwned jp.2) :=
    List.mem_map.mpr ⟨(j, p), List.mem_filter.mpr ⟨Dict.get?_mem hj, hp⟩, rfl⟩
  have hnil : (Prog.ofExcept (pendingJobPriorities rt doc) : Client σ _).calls env
      (getJobs.run env s).2 = [] := Prog.calls_done _ _ _
  rw [hnil]
  exact resetJobs_writes h hmem

/-- After a reset that returns, no pending job has a priority of the band. -/
theorem reset_clears {env : ClientEnv} {s : ClientState σ} {owned : List String}
    {pending : String → Prop} {prio prio' : String → Int}
    (h : ((resetOwnedPriorities rt).run env s).1 = .ok owned)
    (hserved : Served rt pending prio ((resetOwnedPriorities rt).calls env s) prio') {j : String}
    (hj : pending j) : ¬ isOwned (prio' j) := by
  intro hown
  obtain ⟨doc, listed, rest, hcalls, hl, hall⟩ := reset_calls h
  obtain ⟨hprio, hnot⟩ := hserved.owned (reset_emits env s) hown
  rw [hcalls] at hserved hnot
  cases hserved with
  | cons he _ =>
    obtain ⟨listed', hl', hlists⟩ := he.2 doc rfl
    rw [hl] at hl'
    obtain rfl := Except.ok.inj hl'
    exact hnot (hall j _ (hlists j hj) hprio)

/-! ## Whole cycles -/

/-- What a cycle that plans to write `order` keeps of Slurm's priorities. -/
structure KeepsBand (rt : Runtime) (args : CycleArgs) (env : ClientEnv) (s : ClientState Cycle)
    (order : List String) (current : Dict String Int) (deadline : ℚ) : Prop where
  /-- Nothing is written before the ranking's priorities. -/
  planned : writesOf ((planCycle rt args).calls env s) = []
  keys : (orderPriorities order).keys = order
  decreasing : (orderPriorities order).values.Pairwise (· > ·)
  owned : ∀ jp ∈ orderPriorities order, isOwned jp.2
  /-- Cut short after the calls `es`, of which the writes `ws` took effect. -/
  interrupted : ∀ (s' : ClientState Cycle) es,
    es <+: (writePriorities rt order current deadline).calls env s' →
    (writesOf es).Sublist (orderPriorities order) ∧
    ∀ ws, ws.Sublist (writesOf es) → ∀ (prio : String → Int) j,
      applyWrites prio ws j = prio j ∨ isOwned (applyWrites prio ws j)
  /-- A reset that returns, from any priorities. -/
  reset : ∀ (env' : ClientEnv) (s' : ClientState Cycle) owned pending (prio prio' : String → Int),
    ((resetOwnedPriorities rt).run env' s').1 = .ok owned →
    Served rt pending prio ((resetOwnedPriorities rt).calls env' s') prio' →
    ∀ j, pending j → ¬ isOwned (prio' j) ∧ ∀ jp ∈ orderPriorities order, prio' j ≠ jp.2

/-- Wherever the writes of a cycle stop, a job has the priority it had or one of
the daemon's band, and a reset clears the band. -/
theorem cycle_keepsBand {args : CycleArgs} {env : ClientEnv} {s : ClientState Cycle}
    {order : List String} {current : Dict String Int} {deadline : ℚ}
    (h : ((planCycle rt args).run env s).1 = .ok (.write order current deadline)) :
    KeepsBand rt args env s order current deadline := by
  obtain ⟨hnodup, hlen, -⟩ := planCycle_planned env s _ h order current deadline rfl
  have howned := orderPriorities_owned hlen
  refine ⟨?_, orderPriorities_keys hnodup, orderPriorities_decreasing hnodup, howned,
    fun s' es hes => ?_, fun env' s' owned pending prio prio' hr hs j hj => ?_⟩
  · exact List.sublist_nil.mp (Prog.Emits.of_only planCycle_reads env s)
  · have hsub : (writesOf es).Sublist (orderPriorities order) :=
      (hes.sublist.filterMap _).trans (writePriorities_emits order current deadline env s')
    refine ⟨hsub, fun ws hws prio j => applyWrites_band (fun w hw => ?_) prio j⟩
    exact howned w ((hws.trans hsub).subset hw)
  · have hclear := reset_clears hr hs hj
    refine ⟨hclear, fun jp hjp heq => hclear ?_⟩
    rw [heq]
    exact howned jp hjp

theorem cycle_keepsBand_two_jobs :
    KeepsBand plainRuntime cycleArgs (cycleEnv fun _ => [jobItem 7 100 2, jobItem 8 100 1]) ⟨{}, []⟩
      ["8", "7"] [("8", 100), ("7", 100)] 25 :=
  cycle_keepsBand (by decide +kernel)

end Kelpflux.Proof.Scheduler
