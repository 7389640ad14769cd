import Kelpflux.Framework.Guards
import Kelpflux.Impl.Scheduler.Placement

/-!
# Until the policy has answered

A call of `choose_and_apply` reads the listings, asks the policy (`Ask`) and does
what it answers (`choose_of_reads`); where something fails, or nothing is listed, it
stops before and decides nothing. `choose_ensures` is the rule for both.
-/

namespace Kelpflux.Proof.Scheduler

open Framework Framework.Python Impl.Scheduler

/-- What updates no job. -/
def NoUpdate (c : interface.Call) : Prop := ∀ jobId body, c ≠ Call.updateJob jobId body

@[simp] theorem noUpdate_time : NoUpdate Call.time := nofun
@[simp] theorem noUpdate_getJobs : NoUpdate Call.getJobs := nofun
@[simp] theorem noUpdate_getNodes : NoUpdate Call.getNodes := nofun
@[simp] theorem noUpdate_healthz : NoUpdate Call.healthz := nofun
@[simp] theorem noUpdate_act (payload : ActPayload) : NoUpdate (Call.act payload) := nofun

/-- What a call has read once the policy has answered. -/
structure Ask where
  jobsDoc : Json
  readAt : ℚ
  parsed : List SlurmJob
  nodesDoc : Json
  discovered : List SlurmNode
  /-- Of `/healthz`, where it is asked. -/
  health : Json
  names : List String
  now : ℚ
  answer : Json

namespace Ask

variable (args : PlaceArgs) (ask : Ask)

def jobs : List SlurmJob := args.selectJobs ask.parsed

def available : List SlurmNode := args.selectNodes ask.discovered

def nodes : List SlurmNode := nodesByName (ask.available args) ask.names

def payload : ActPayload := buildActPayload (ask.jobs args) (ask.nodes args) args.mpsPerGpu ask.now

/-- The calls until the listings are read. -/
def listings : List ClientEvent :=
  [⟨Call.getJobs, .ok ask.jobsDoc⟩, ⟨Call.time, .ok ask.readAt⟩, ⟨Call.getNodes, .ok ask.nodesDoc⟩]

/-- And until the nodes are trimmed. -/
def trimmed : List ClientEvent :=
  ask.listings ++ if args.autoTrimModelTopology then [⟨Call.healthz, .ok ask.health⟩] else []

def calls : List ClientEvent :=
  ask.trimmed args ++ [⟨Call.time, .ok ask.now⟩, ⟨Call.act (ask.payload args), .ok ask.answer⟩]

/-- It is read by a call that is made after `n` others. -/
structure Reads (rt : Runtime) (args : PlaceArgs) (env : ClientEnv) (n : ℕ) (ask : Ask) : Prop where
  jobsDoc : env n Call.getJobs = .ok ask.jobsDoc
  readAt : env (n + 1) Call.time = .ok ask.readAt
  parsed : parseJobs rt args.defaultRuntime args.defaultMps ask.readAt ask.jobsDoc = .ok ask.parsed
  jobs_ne_nil : ask.jobs args ≠ []
  nodesDoc : env (n + 2) Call.getNodes = .ok ask.nodesDoc
  discovered : parseNodes rt args.mpsPerGpu ask.nodesDoc = .ok ask.discovered
  available_ne_nil : ask.available args ≠ []
  names : if args.autoTrimModelTopology then env (n + 3) Call.healthz = .ok ask.health ∧
      trimNodes ((ask.available args).map fun node => node.name) ask.health = .ok ask.names
    else (ask.available args).map (fun node => node.name) = ask.names
  now : env (n + (ask.trimmed args).length) Call.time = .ok ask.now
  answer : env (n + (ask.trimmed args).length + 1) (Call.act (ask.payload args)) = .ok ask.answer

end Ask

variable {σ : Type} {rt : Runtime} {args : PlaceArgs} {env : ClientEnv} {s : ClientState σ}
  {ask : Ask}

theorem noUpdate_trimmed : ∀ e ∈ ask.trimmed args, NoUpdate e.call := by
  unfold Ask.trimmed Ask.listings
  split
  · simp
  · simp

theorem noUpdate_calls : ∀ e ∈ ask.calls args, NoUpdate e.call := by
  refine List.forall_mem_append.mpr ⟨noUpdate_trimmed, ?_⟩
  simp

/-- The names that a call looks up are those of available nodes. -/
theorem trimNodes_subset {names kept : List String} {health : Json}
    (h : trimNodes names health = .ok kept) : ∀ name ∈ kept, name ∈ names := by
  obtain ⟨v, -, h⟩ := bind_eq_ok.mp h
  split at h
  · split at h
    · obtain rfl := Except.ok.inj h
      exact fun _ hname => hname
    · obtain rfl := Except.ok.inj h
      intro name hname
      split at hname
      · exact hname
      · exact List.mem_of_mem_take hname
  · obtain rfl := Except.ok.inj h
    exact fun _ hname => hname

/-- The controller's nodes have the names that it looks up, at their indices. -/
theorem nodesByName_names (available : List SlurmNode) {names : List String}
    (h : ∀ name ∈ names, ∃ node ∈ available, node.name = name) :
    (nodesByName available names).map (fun n => n.name) = names := by
  have hget : ∀ name ∈ names, ∃ node,
      (Dict.ofList (available.map fun n => (n.name, n))).get? name = some node
        ∧ node.name = name := by
    intro name hname
    obtain ⟨node, hnode, rfl⟩ := h name hname
    have hkey : node.name ∈ (Dict.ofList (available.map fun n => (n.name, n))).keys :=
      Dict.mem_keys_ofList.mpr (List.mem_map.mpr ⟨_, List.mem_map_of_mem hnode, rfl⟩)
    obtain ⟨found, hfound⟩ := Dict.get?_of_mem_keys hkey
    obtain ⟨n, -, hpair⟩ := List.mem_map.mp (Dict.mem_of_mem_ofList (Dict.get?_mem hfound))
    obtain ⟨hname, rfl⟩ := Prod.mk.inj hpair
    exact ⟨n, hfound, hname⟩
  unfold nodesByName
  dsimp only
  induction names with
  | nil => rfl
  | cons name names ih =>
    obtain ⟨node, hfound, hname⟩ := hget name List.mem_cons_self
    rw [List.filterMap_cons, hfound]
    dsimp only
    rw [List.map_cons, hname, ih (fun name' h' => h name' (List.mem_cons_of_mem _ h'))
      fun name' h' => hget name' (List.mem_cons_of_mem _ h')]

theorem Ask.Reads.node_names {n : ℕ} (h : ask.Reads rt args env n) :
    (ask.nodes args).map (fun node => node.name) = ask.names := by
  refine nodesByName_names _ fun name hname => List.mem_map.mp ?_
  have hnames := h.names
  split at hnames
  · exact trimNodes_subset hnames.2 name hname
  · exact hnames ▸ hname

theorem decision_fields {act : Json} {jobId nodeName : Option String} {gpuIndex : Option ℤ}
    {applied : Bool} {reason : String} {d : PlacementDecision}
    (h : decision rt act jobId nodeName gpuIndex applied reason = .ok d) :
    d.jobId = jobId ∧ d.nodeName = nodeName ∧ d.applied = applied := by
  unfold decision at h
  obtain ⟨action, -, h⟩ := bind_eq_ok.mp h
  obtain ⟨action', -, h⟩ := bind_eq_ok.mp h
  obtain ⟨value, -, h⟩ := bind_eq_ok.mp h
  obtain ⟨value', -, h⟩ := bind_eq_ok.mp h
  obtain ⟨entropy, -, h⟩ := bind_eq_ok.mp h
  obtain ⟨entropy', -, h⟩ := bind_eq_ok.mp h
  obtain rfl := Except.ok.inj h
  exact ⟨rfl, rfl, rfl⟩

/-! ## The rule -/

section Ensures

variable {α β : Type} {Q : List ClientEvent → interface.Call → Prop}
  {R : Except Exc α → ClientState σ → Prop}

/-- A call after the calls `es` is answered or fails. -/
theorem ensures_call {c : interface.Call} {f : interface.Answer c → Client σ α}
    {es : List ClientEvent} (hc : Q (s.trace ++ es) c)
    (herror : ∀ e, R (.error e) ⟨s.mem, s.trace ++ (es ++ [⟨c, .error e⟩])⟩)
    (hok : ∀ a, env (s.trace.length + es.length) c = .ok a →
      Ensures Q env (f a) ⟨s.mem, s.trace ++ (es ++ [⟨c, .ok a⟩])⟩ R) :
    Ensures Q env (Prog.perform c >>= f) ⟨s.mem, s.trace ++ es⟩ R := by
  refine Ensures.bind_iff.mpr (Ensures.perform_iff.mpr ⟨hc, ?_⟩)
  rw [List.length_append, List.append_assoc]
  cases h : env (s.trace.length + es.length) c with
  | error e => exact herror e
  | ok a => exact hok a h

/-- What is read is read or fails. -/
theorem ensures_read {r : Except Exc β} {f : β → Client σ α} (herror : ∀ e, R (.error e) s)
    (hok : ∀ a, r = .ok a → Ensures Q env (f a) s R) :
    Ensures Q env (Prog.ofExcept r >>= f) s R := by
  refine Ensures.bind_iff.mpr (Ensures.ofExcept_iff.mpr ?_)
  cases r with
  | error e => exact herror e
  | ok a => exact hok a rfl

end Ensures

/-- Before a call gets to the answer it makes no update, and it decides nothing
where it stops. -/
theorem choose_ensures {Q : List ClientEvent → interface.Call → Prop}
    {R : Except Exc PlacementDecision → ClientState σ → Prop}
    (hask : ∀ es c, NoUpdate c → Q es c)
    (hstop : ∀ r es, (∀ e ∈ es, NoUpdate e.call) → (∀ d, r = .ok d → d.jobId = none) →
      R r ⟨s.mem, s.trace ++ es⟩)
    (hgo : ∀ ask : Ask, ask.Reads rt args env s.trace.length →
      Ensures Q env (applyAct rt args ask.names ask.answer) ⟨s.mem, s.trace ++ ask.calls args⟩ R) :
    Ensures Q env (chooseAndApply rt args) s R := by
  have hfail : ∀ (e : Exc) (es : List ClientEvent), (∀ e ∈ es, NoUpdate e.call) →
      R (.error e) ⟨s.mem, s.trace ++ es⟩ := fun e es hes => hstop _ es hes fun d hd => by cases hd
  have hnone : ∀ (reason : String) (es : List ClientEvent), (∀ e ∈ es, NoUpdate e.call) →
      R (.ok (noDecision reason)) ⟨s.mem, s.trace ++ es⟩ := fun reason es hes =>
    hstop _ es hes fun d hd => Except.ok.inj hd ▸ rfl
  suffices h : Ensures Q env (chooseAndApply rt args) ⟨s.mem, s.trace ++ []⟩ R by
    rwa [List.append_nil] at h
  refine ensures_call (hask _ _ nofun) (fun e => hfail e _ (by simp)) fun jobsDoc hjobs => ?_
  refine ensures_call (hask _ _ nofun) (fun e => hfail e _ (by simp)) fun readAt hreadAt => ?_
  refine ensures_read (fun e => hfail e _ (by simp)) fun parsed hparsed => ?_
  dsimp only
  split
  · exact Ensures.pure_iff.mpr (hnone _ _ (by simp))
  rename_i hjobs_ne
  refine ensures_call (hask _ _ nofun) (fun e => hfail e _ (by simp)) fun nodesDoc hnodes => ?_
  refine ensures_read (fun e => hfail e _ (by simp)) fun discovered hdiscovered => ?_
  split
  · exact Ensures.pure_iff.mpr (hnone _ _ (by simp))
  rename_i havailable_ne
  -- The listings are read; the rest is the same with the nodes trimmed or not.
  have hrest : ∀ health names,
      (if args.autoTrimModelTopology then env (s.trace.length + 3) Call.healthz = .ok health ∧
        trimNodes ((args.selectNodes discovered).map fun node => node.name) health = .ok names
      else (args.selectNodes discovered).map (fun node => node.name) = names) →
      Ensures Q env (do
        let now ← time
        let act ← postAct (buildActPayload (args.selectJobs parsed)
          (nodesByName (args.selectNodes discovered) names) args.mpsPerGpu now)
        applyAct rt args names act) ⟨s.mem, s.trace ++
          (Ask.mk jobsDoc readAt parsed nodesDoc discovered health names 0 .null).trimmed args⟩ R := by
    intro health names hnames
    refine ensures_call (hask _ _ nofun)
      (fun e => hfail e _ (List.forall_mem_append.mpr ⟨noUpdate_trimmed, by simp⟩)) fun now hnow => ?_
    refine ensures_call (hask _ _ nofun) (fun e => hfail e _ (List.forall_mem_append.mpr
      ⟨List.forall_mem_append.mpr ⟨noUpdate_trimmed, by simp⟩, by simp⟩)) fun answer hanswer => ?_
    rw [List.length_append] at hanswer
    rw [List.append_assoc]
    exact hgo ⟨jobsDoc, readAt, parsed, nodesDoc, discovered, health, names, now, answer⟩
      ⟨hjobs, hreadAt, hparsed, hjobs_ne, hnodes, hdiscovered, havailable_ne, hnames, hnow, hanswer⟩
  refine Ensures.bind_iff.mpr ?_
  split
  · rename_i htrim
    refine ensures_call (hask _ _ nofun) (fun e => hfail e _ (by simp)) fun health hhealth => ?_
    refine Ensures.ofExcept_iff.mpr ?_
    cases hnames : trimNodes _ health with
    | error e => exact hfail e _ (by simp)
    | ok names =>
    have h := hrest health names (by rw [if_pos htrim]; exact ⟨hhealth, hnames⟩)
    simpa [Ask.trimmed, Ask.listings, htrim] using h
  · rename_i htrim
    have h := hrest .null _ (by rw [if_neg htrim])
    refine Ensures.pure_iff.mpr ?_
    simpa [Ask.trimmed, Ask.listings, htrim] using h

/-- A call that is answered. -/
theorem wp_call {α : Type} {c : interface.Call} {f : interface.Answer c → Client σ α}
    {R : Except Exc α → ClientState σ → Prop} {n : ℕ} {answer : interface.Answer c}
    (hn : s.trace.length = n) (hanswer : env n c = .ok answer)
    (h : WP env (f answer) ⟨s.mem, s.trace ++ [⟨c, .ok answer⟩]⟩ R) :
    WP env (Prog.perform c >>= f) s R := by
  subst hn
  refine WP.bind_iff.mpr (WP.perform_iff.mpr ?_)
  rw [hanswer]
  exact h

/-- A call that gets to the answer does what it says. -/
theorem choose_of_reads {R : Except Exc PlacementDecision → ClientState σ → Prop}
    (h : ask.Reads rt args env s.trace.length) (hR : WP env (applyAct rt args ask.names ask.answer)
      ⟨s.mem, s.trace ++ ask.calls args⟩ R) : WP env (chooseAndApply rt args) s R := by
  have hrest : WP env (do
      let now ← time
      let act ← postAct (buildActPayload (args.selectJobs ask.parsed)
        (nodesByName (args.selectNodes ask.discovered) ask.names) args.mpsPerGpu now)
      applyAct rt args ask.names act) ⟨s.mem, s.trace ++ ask.trimmed args⟩ R := by
    have hR : WP env (applyAct rt args ask.names ask.answer) ⟨s.mem, s.trace ++ ask.trimmed args ++
        [⟨Call.time, .ok ask.now⟩] ++ [⟨Call.act (ask.payload args), .ok ask.answer⟩]⟩ R := by
      simpa [Ask.calls] using hR
    exact wp_call List.length_append h.now (wp_call (by simp [Nat.add_assoc]) h.answer hR)
  refine wp_call rfl h.jobsDoc (wp_call List.length_append h.readAt (WP.bind_iff.mpr ?_))
  rw [h.parsed]
  refine WP.ofExcept_iff.mpr ?_
  dsimp only
  rw [if_neg (show args.selectJobs ask.parsed ≠ [] from h.jobs_ne_nil)]
  refine wp_call (by simp) h.nodesDoc (WP.bind_iff.mpr ?_)
  rw [h.discovered]
  refine WP.ofExcept_iff.mpr ?_
  dsimp only
  rw [if_neg (show args.selectNodes ask.discovered ≠ [] from h.available_ne_nil)]
  have hnames := h.names
  refine WP.bind_iff.mpr ?_
  split
  · rename_i htrim
    rw [if_pos htrim] at hnames
    refine wp_call (by simp) hnames.1 (WP.ofExcept_iff.mpr ?_)
    have htrimmed : trimNodes ((args.selectNodes ask.discovered).map fun n => n.name) ask.health =
      .ok ask.names := hnames.2
    simpa [htrimmed, Ask.trimmed, Ask.listings, htrim] using hrest
  · rename_i htrim
    rw [if_neg htrim] at hnames
    have hall : (args.selectNodes ask.discovered).map (fun n => n.name) = ask.names := hnames
    refine WP.pure_iff.mpr ?_
    simpa [hall, Ask.trimmed, Ask.listings, htrim] using hrest

end Kelpflux.Proof.Scheduler
