import Kelpflux.Proof.Scheduler.PolicyServer

/-!
# Runs of the policy server

Whatever requests arrive, in whatever order: `/reload` never leaves the server
without an agent of the size that it started with (`agent_kept`), the counters
and gauges are those of the answers that `/decide` gave (`metrics_true`), and a
boost is answered only on the last snapshot let in, out of the mode that was
switched to last (`boost_from`).
-/

namespace Kelpflux.Proof.Scheduler

open Framework Framework.Python Impl.Sim Impl.Scheduler.Serve

variable {F : Type} {fl : Floats F} {tokens : Tokens}

/-! ## The agent -/

/-- An agent that a request of a run had the server load, with the control token. -/
def Loaded (tokens : Tokens) (xs : List (Input F)) (m : Model F) : Prop :=
  ∃ x ∈ xs, authorize tokens.control x.authorization = .ok () ∧
    ∃ ckpt, x.request = .reload ckpt ∧ x.files ckpt = some (.ok m)

/-- A step keeps the agent, or takes one of its size. -/
theorem model_step (fl : Floats F) (tokens : Tokens) {s : Server F} (x : Input F) {m : Model F}
    (h : s.model = some m) :
    ∃ m', (Service.next (Server.serve fl tokens) s x).model = some m' ∧
      m'.obsDim = m.obsDim ∧ m'.nActions = m.nActions ∧ (m' = m ∨ Loaded tokens [x] m') := by
  have hstep := serve_steps fl tokens s x
  cases hloads : loads (x, (Server.serve fl tokens s x).1) with
  | none =>
    refine ⟨m, ?_, rfl, rfl, .inl rfl⟩
    rw [hstep.model, hloads, ← h]
    rfl
  | some new =>
    obtain ⟨hauth, hckpt, hdims⟩ := hstep.size new hloads
    obtain ⟨hobs, hactions⟩ := hdims m h
    refine ⟨new, ?_, hobs, hactions, .inr ⟨x, List.mem_singleton_self x, hauth, hckpt⟩⟩
    rw [hstep.model, hloads]
    rfl

theorem model_run (fl : Floats F) (tokens : Tokens) {s : Server F} (xs : List (Input F))
    {m : Model F} (h : s.model = some m) :
    ∃ m', (run (Service.next (Server.serve fl tokens)) s xs).model = some m' ∧
      m'.obsDim = m.obsDim ∧ m'.nActions = m.nActions ∧ (m' = m ∨ Loaded tokens xs m') := by
  induction xs generalizing s m with
  | nil => exact ⟨m, h, rfl, rfl, .inl rfl⟩
  | cons x xs ih =>
    obtain ⟨m₁, h₁, hobs₁, hactions₁, hfrom₁⟩ := model_step fl tokens x h
    obtain ⟨m₂, h₂, hobs₂, hactions₂, hfrom₂⟩ := ih h₁
    refine ⟨m₂, h₂, hobs₂.trans hobs₁, hactions₂.trans hactions₁, ?_⟩
    rcases hfrom₂ with rfl | ⟨y, hy, hfrom⟩
    · rcases hfrom₁ with rfl | ⟨y, hy, hfrom⟩
      · exact .inl rfl
      · obtain rfl := List.mem_singleton.mp hy
        exact .inr ⟨y, List.mem_cons_self, hfrom⟩
    · exact .inr ⟨y, List.mem_cons_of_mem x hy, hfrom⟩

/-- An agent takes every request of its size. -/
theorem act_not_http {s : Server F} {m : Model F} (h : s.model = some m) (req : ActRequest F)
    (hdims : envDims req.nNodes req.gpusPerNode = (m.obsDim, m.nActions)) (status : ℕ)
    (detail : String) : s.act fl req ≠ .error (.http status detail) := by
  unfold Server.act
  rw [h]
  dsimp only
  rw [hdims]
  dsimp only
  rw [if_neg (by simp)]
  cases m.select req (req.mask fl.lt) with
  | error e => exact nofun
  | ok out =>
    dsimp only
    split <;> exact nofun

/-- Whatever is sent, the server keeps an agent of the size of its first one,
which a request with the control token loaded if it is another, and never turns
away an observation of that size for want of a model. -/
theorem agent_kept (fl : Floats F) (tokens : Tokens) (s : Server F) (xs : List (Input F))
    (m : Model F) (h : s.model = some m) :
    ∃ m', (run (Service.next (Server.serve fl tokens)) s xs).model = some m' ∧
      m'.obsDim = m.obsDim ∧ m'.nActions = m.nActions ∧ (m' = m ∨ Loaded tokens xs m') ∧
      ∀ req : ActRequest F, envDims req.nNodes req.gpusPerNode = (m.obsDim, m.nActions) →
        ∀ status detail, (run (Service.next (Server.serve fl tokens)) s xs).act fl req ≠
          .error (.http status detail) := by
  obtain ⟨m', hm', hobs, hactions, hfrom⟩ := model_run fl tokens xs h
  refine ⟨m', hm', hobs, hactions, hfrom, fun req hdims status detail => ?_⟩
  exact act_not_http hm' req (by rw [hdims, hobs, hactions]) status detail

/-- Floats that are exact and print as nothing. -/
def serverFloats : Floats ℚ := exactFloats (fun _ => "") fun _ => ""

def noTokens : Tokens := ⟨none, none, none⟩

/-- An agent for one GPU that takes action `a`. -/
def takes (a : ℕ) : Model ℚ := ⟨161, 17, none, none, fun _ _ => .ok (a, 0, 0)⟩

def boostSettings : Settings ℚ where
  snapshotTtlS := 30
  shadowMode := false
  valueAbstain := -1
  entropyAbstain := 5 / 2
  priorityBoost := 1000

/-- A checkpoint for one GPU, one for two, and one that does not load. -/
def checkpoints (ckpt : String) : Option (Except String (Model ℚ)) :=
  if ckpt = "one.pt" then some (.ok (takes 1))
  else if ckpt = "two.pt" then some (.ok ⟨168, 33, none, none, fun _ _ => .ok (0, 0, 0)⟩)
  else if ckpt = "bad.pt" then some (.error "bad magic number")
  else none

/-- The checkpoints, each asked for in turn. -/
def reloads : List (Input ℚ) := ["bad.pt", "one.pt", "two.pt", "none.pt"].map fun ckpt =>
  { time := 0, files := checkpoints, request := .reload ckpt }

theorem agent_kept_reloads : ∃ m',
    (run (Service.next (Server.serve serverFloats noTokens))
      (Server.start serverFloats boostSettings (some (takes 0))) reloads).model = some m' ∧
      m'.obsDim = 161 ∧ m'.nActions = 17 ∧ (m' = takes 0 ∨ Loaded noTokens reloads m') ∧
      ∀ req : ActRequest ℚ, envDims req.nNodes req.gpusPerNode = (161, 17) →
        ∀ status detail, (run (Service.next (Server.serve serverFloats noTokens))
          (Server.start serverFloats boostSettings (some (takes 0))) reloads).act serverFloats req ≠
            .error (.http status detail) :=
  agent_kept serverFloats noTokens (Server.start serverFloats boostSettings (some (takes 0))) reloads
    (takes 0) rfl

/-! ## Refused requests -/

/-- The requests that are refused, or that raise, might as well not have been
sent: without them the run ends in the same state, and gives the others the same
replies. -/
theorem refused_noEffect (fl : Floats F) (tokens : Tokens) (s : Server F) (xs : List (Input F)) :
    run (Service.next (Server.serve fl tokens)) s (Service.answered (Server.serve fl tokens) s xs) =
        run (Service.next (Server.serve fl tokens)) s xs ∧
      Service.log (Server.serve fl tokens) s (Service.answered (Server.serve fl tokens) s xs) =
        (Service.log (Server.serve fl tokens) s xs).filter fun e => e.2.isOk :=
  ⟨(Service.run_answered (fun _ _ _ h => serve_refused h) s xs).symm,
    Service.log_answered (fun _ _ _ h => serve_refused h) s xs⟩

/-! ## The metrics -/

/-- The answers that `/decide` gave in a run. -/
def answers (fl : Floats F) (tokens : Tokens) (s : Server F) (xs : List (Input F)) :
    List (DecideResponse F) :=
  (Service.log (Server.serve fl tokens) s xs).filterMap decided

theorem decided_reply {x : Input F} {reply : Except Refusal (Answer F)} {r : DecideResponse F}
    (h : decided (x, reply) = some r) : reply = .ok (.decide r) := by
  unfold decided at h
  cases reply with
  | error e => cases h
  | ok a =>
    cases a with
    | decide r' =>
      obtain rfl := Option.some.inj h
      rfl
    | _ => cases h

/-- An answer of `/decide` is one of the request's, with the token for it. -/
theorem decided_eq_some {s : Server F} {x : Input F} {r : DecideResponse F}
    (h : decided (x, (Server.serve fl tokens s x).1) = some r) :
    ∃ req, x.request = .decide req ∧ authorize tokens.api x.authorization = .ok () ∧
      (s.decide fl x.time x.traceparent req).1 = .ok r := by
  have hguard : ∀ (token : Option (List UInt8)) (endpoint : Except Refusal (Answer F) × Server F),
      decided (x, (s.guarded token x.authorization endpoint).1) = some r →
        authorize token x.authorization = .ok () ∧ decided (x, endpoint.1) = some r := by
    intro token endpoint h
    rcases guarded_cases (s := s) token x.authorization endpoint with ⟨hauth, hg⟩ | ⟨e, -, hg⟩
    · rw [hg] at h
      exact ⟨hauth, h⟩
    · rw [hg] at h
      cases h
  unfold Server.serve at h
  cases hreq : x.request with
  | healthz =>
    rw [hreq] at h
    cases h
  | metrics =>
    rw [hreq] at h
    cases h
  | reload ckpt =>
    rw [hreq] at h
    obtain ⟨-, h⟩ := hguard _ _ h
    rcases reloadCheckpoint_cases s x.files ckpt with ⟨e, hr⟩ | ⟨new, a, -, -, hr, ha⟩
    · rw [hr] at h
      cases h
    · rw [hr] at h
      cases a with
      | decide r => exact absurd rfl (ha r)
      | _ => cases h
  | shadow shadow =>
    rw [hreq] at h
    cases (hguard _ _ h).2
  | snapshot snap =>
    rw [hreq] at h
    cases (hguard _ _ h).2
  | act req =>
    rw [hreq] at h
    obtain ⟨-, h⟩ := hguard _ _ h
    cases hact : s.act fl req with
    | error e =>
      rw [hact] at h
      cases h
    | ok a =>
      rw [hact] at h
      cases h
  | decide req =>
    rw [hreq] at h
    obtain ⟨hauth, h⟩ := hguard _ _ h
    refine ⟨req, rfl, hauth, ?_⟩
    generalize s.decide fl x.time x.traceparent req = out at h ⊢
    obtain ⟨reply, s'⟩ := out
    cases reply with
    | error e => cases h
    | ok r' =>
      obtain rfl := Option.some.inj h
      rfl

/-- An answer that abstains gives no boost. -/
theorem boost_of_abstain {s : Server F} {x : Input F} {r : DecideResponse F}
    (h : decided (x, (Server.serve fl tokens s x).1) = some r) (habstain : r.abstain = true) :
    r.priorityBoost = 0 := by
  obtain ⟨req, -, -, hr⟩ := decided_eq_some h
  have hout := decides fl s x.time x.traceparent req
  generalize s.decide fl x.time x.traceparent req = out at hout hr
  cases hout with
  | abstained tp reason age =>
    obtain rfl := Except.ok.inj hr
    rfl
  | raised e => cases hr
  | acted hact =>
    obtain rfl := Except.ok.inj hr
    unfold decideAction at hact
    split at hact
    · obtain rfl := Except.ok.inj hact
      rfl
    split at hact
    · cases hact
    obtain rfl := Except.ok.inj hact
    dsimp only at habstain ⊢
    rw [habstain, Bool.or_true]
    rfl

/-- An answer is counted as one that selects where it gives a boost. -/
theorem resultOf_eq_selected {s : Server F} {x : Input F} {r : DecideResponse F}
    (h : decided (x, (Server.serve fl tokens s x).1) = some r) :
    resultOf r = .selected ↔ 0 < r.priorityBoost := by
  unfold resultOf
  cases habstain : r.abstain with
  | true => simp [boost_of_abstain h habstain]
  | false =>
    by_cases hboost : 0 < r.priorityBoost
    · simp [hboost]
    · simp [hboost]

theorem boosts_step (s : Server F) (x : Input F)
    (h : s.metrics.priorityBoosts = s.metrics.decisions .selected) :
    (Service.next (Server.serve fl tokens) s x).metrics.priorityBoosts =
      (Service.next (Server.serve fl tokens) s x).metrics.decisions .selected := by
  obtain ⟨hdecisions, hboosts, -⟩ := (serve_steps fl tokens s x).recorded
  rw [hdecisions, hboosts, h]
  congr 1
  cases hr : decided (x, (Server.serve fl tokens s x).1) with
  | none => rfl
  | some r =>
    rw [Option.toList_some, List.countP_singleton, List.countP_singleton]
    simp only [decide_eq_true_eq, resultOf_eq_selected hr]

theorem lastWrite_map {ι ε ρ τ τ' : Type} (f : ι × Except ε ρ → Option τ) (g : τ → τ')
    (entries : List (ι × Except ε ρ)) :
    Service.lastWrite (fun e => (f e).map g) entries =
      (entries.filterMap f).getLast?.map g := by
  rw [Service.lastWrite, ← List.head?_filterMap, List.filterMap_reverse, List.head?_reverse,
    ← List.map_filterMap, List.getLast?_map]

/-- After any run, the counters are the numbers of the answers with each label,
which are all the answers between them, as many boosts are counted as selecting
answers, and the gauges show the last answer. -/
theorem metrics_true (fl : Floats F) (tokens : Tokens) (settings : Settings F)
    (model : Option (Model F)) (xs : List (Input F)) :
    let start := Server.start fl settings model
    let m := (run (Service.next (Server.serve fl tokens)) start xs).metrics
    (∀ l, m.decisions l = (answers fl tokens start xs).countP fun r => resultOf r = l) ∧
      m.decisions .selected + m.decisions .noBoost + m.decisions .abstain =
        (answers fl tokens start xs).length ∧
      m.priorityBoosts = (answers fl tokens start xs).countP (fun r => 0 < r.priorityBoost) ∧
      m.priorityBoosts = m.decisions .selected ∧
      gauges m = ((answers fl tokens start xs).getLast?.map gaugesOf).getD (gauges start.metrics) := by
  intro start m
  have hdecisions : ∀ l, m.decisions l =
      (answers fl tokens start xs).countP fun r => resultOf r = l := by
    intro l
    have h := Service.countedReplies (S := Server.serve fl tokens)
      (fun s => s.metrics.decisions l) decided _ (fun s x => (serve_steps fl tokens s x).recorded.decisions l) start xs
    exact h.trans (Nat.zero_add _)
  refine ⟨hdecisions, ?_, ?_, ?_, ?_⟩
  · rw [hdecisions, hdecisions, hdecisions]
    induction answers fl tokens start xs with
    | nil => rfl
    | cons r rs ih =>
      rw [List.length_cons, ← ih]
      cases hr : resultOf r <;> simp [hr] <;> omega
  · have h := Service.countedReplies (S := Server.serve fl tokens) (fun s => s.metrics.priorityBoosts)
      decided _ (fun s x => (serve_steps fl tokens s x).recorded.boosts) start xs
    exact h.trans (Nat.zero_add _)
  · exact run_keeps (fun s : Server F => s.metrics.priorityBoosts = s.metrics.decisions .selected)
      (fun s x h => boosts_step s x h) rfl xs
  · rw [answers, ← lastWrite_map]
    exact Service.lastWritten (S := Server.serve fl tokens) (fun s => gauges s.metrics)
      (fun e => (decided e).map gaugesOf) (fun s x => (serve_steps fl tokens s x).recorded.gauges)
      start xs

/-! ## Where a boost comes from -/

/-- The agent after a run is the first one, or one that a request loaded. -/
theorem model_from {s : Server F} (xs : List (Input F)) {m : Model F}
    (h : (run (Service.next (Server.serve fl tokens)) s xs).model = some m) :
    some m = s.model ∨ Loaded tokens xs m := by
  induction xs generalizing s with
  | nil => exact .inl h.symm
  | cons x xs ih =>
    rcases ih h with h | ⟨y, hy, hfrom⟩
    · have hstep := serve_steps fl tokens s x
      rw [hstep.model] at h
      cases hloads : loads (x, (Server.serve fl tokens s x).1) with
      | none =>
        rw [hloads] at h
        exact .inl h
      | some new =>
        rw [hloads] at h
        obtain rfl := Option.some.inj h
        obtain ⟨hauth, hckpt, -⟩ := hstep.size m hloads
        exact .inr ⟨x, List.mem_cons_self, hauth, hckpt⟩
    · exact .inr ⟨y, List.mem_cons_of_mem x hy, hfrom⟩

theorem findSome?_map {α β γ : Type} (f : α → Option β) (g : β → γ) (xs : List α) :
    (xs.findSome? fun x => (f x).map g) = (xs.findSome? f).map g := by
  induction xs with
  | nil => rfl
  | cons x xs ih =>
    rw [List.findSome?_cons, List.findSome?_cons, ih]
    cases f x <;> rfl

/-- The snapshot and the mode after a run are those of the last requests let in
that set them. -/
theorem held_run (fl : Floats F) (tokens : Tokens) (s : Server F) (xs : List (Input F)) :
    (run (Service.next (Server.serve fl tokens)) s xs).snapshot =
        (xs.reverse.findSome? (brings tokens)).or s.snapshot ∧
      (run (Service.next (Server.serve fl tokens)) s xs).settings =
        { s.settings with
          shadowMode := (xs.reverse.findSome? (switches tokens)).getD s.settings.shadowMode } := by
  constructor
  · have h := Service.lastWritten (S := Server.serve fl tokens) Server.snapshot
      (fun e => (brings tokens e.1).map some) (fun s x => (serve_steps fl tokens s x).snapshot) s xs
    rw [h, Service.lastWrite_fst (fun x => (brings tokens x).map some), findSome?_map]
    cases xs.reverse.findSome? (brings tokens) <;> rfl
  · induction xs using List.reverseRecOn with
    | nil => rfl
    | append_singleton xs x ih =>
      have hstep :=
        (serve_steps fl tokens (run (Service.next (Server.serve fl tokens)) s xs) x).settings
      rw [run, List.foldl_append, List.foldl_cons, List.foldl_nil, List.reverse_append,
        List.reverse_singleton, List.singleton_append, List.findSome?_cons]
      rw [run] at hstep ih
      rw [hstep, ih]
      cases switches tokens x <;> rfl

/-- The answer `r` to a request `x` after `xs` is the model's on the last snapshot
that a request with the token for it brought, no older than the limit, while the mode
that was switched to last, or the server was started in, is not the shadow mode. The
agent that is asked is of the size of the snapshot and passes both limits. -/
def BoostFrom (fl : Floats F) (tokens : Tokens) (settings : Settings F) (model : Option (Model F))
    (xs : List (Input F)) (x : Input F) (r : DecideResponse F) : Prop :=
  authorize tokens.api x.authorization = .ok () ∧
    (xs.reverse.findSome? (switches tokens)).getD settings.shadowMode = false ∧
    ∃ req found agent action, x.request = .decide req ∧
      xs.reverse.findSome? (brings tokens) = some found ∧
      fl.lt settings.snapshotTtlS (fl.sub x.time found.ts) = false ∧
      (some agent = model ∨ Loaded tokens xs agent) ∧
      envDims found.nNodes found.gpusPerNode = (agent.obsDim, agent.nActions) ∧
      agent.select (fuse fl found req) ((fuse fl found req).mask fl.lt) =
        .ok (action, r.value, r.entropy) ∧
      fl.lt r.value settings.valueAbstain = false ∧
      fl.lt settings.entropyAbstain r.entropy = false ∧
      ∃ (i : ℕ) (nj : Fin found.nNodes) (gk : Fin found.gpusPerNode),
        action = slot i nj gk ∧
        (((fuse fl found req).topIds fl.lt)[i]?).join = some req.jobId ∧
        r.nodeJ = some nj.val ∧ r.gpuK = some gk.val

/-- A boost in any run is the model's answer on a snapshot and in a mode that
requests with their tokens have set. -/
theorem boost_from (fl : Floats F) (tokens : Tokens) (settings : Settings F)
    (model : Option (Model F)) (xs : List (Input F)) (x : Input F) (r : DecideResponse F)
    (hx : (Server.serve fl tokens (run (Service.next (Server.serve fl tokens))
      (Server.start fl settings model) xs) x).1 = .ok (.decide r))
    (hboost : 0 < r.priorityBoost) :
    BoostFrom fl tokens settings model xs x r := by
  obtain ⟨hsnapshot, hsettings⟩ := held_run fl tokens (Server.start fl settings model) xs
  generalize hs : run (Service.next (Server.serve fl tokens)) (Server.start fl settings model) xs = s
    at hx hsnapshot hsettings
  have hdecided : decided (x, (Server.serve fl tokens s x).1) = some r := by
    rw [hx]
    rfl
  obtain ⟨req, hreq, hauth, hr⟩ := decided_eq_some hdecided
  rw [decide_answer] at hr
  have hdecide : Impl.Scheduler.Serve.decide fl s.settings (s.model.map Model.holder) x.time
      s.snapshot x.traceparent req = .ok r := by
    generalize Impl.Scheduler.Serve.decide fl s.settings (s.model.map Model.holder) x.time
      s.snapshot x.traceparent req = out at hr ⊢
    cases out with
    | error e => cases hr
    | ok r' => exact congrArg _ (Except.ok.inj hr)
  rcases decide_cases hdecide with ⟨-, hzero⟩ | ⟨found, holder, action, value, entropy, hasked, hact⟩
  · exact absurd hboost (by simp [hzero])
  obtain ⟨hlive, hsafe, hvalue, hentropy, i, nj, gk, haction, -, hid, hnode, hgpu⟩ :=
    decideAction_boosted hact hboost
  obtain ⟨agent, hagent, rfl⟩ := Option.map_eq_some_iff.mp hasked.loaded
  obtain ⟨hlow, hhigh⟩ := safetyNet_eq_none.mp hsafe
  rw [hsettings] at hlive hlow hhigh
  have hfresh := hasked.fresh
  rw [hsettings] at hfresh
  refine ⟨hauth, hlive, req, found, agent, action, hreq, ?_, hfresh, ?_, ?_, ?_, ?_, ?_, i, nj, gk,
    haction, hid, hnode, hgpu⟩
  · have hfound := hasked.snap_eq
    rw [hsnapshot] at hfound
    exact hfound ▸ (Option.or_none (o := _)).symm
  · subst hs
    exact model_from xs hagent
  · exact Prod.ext (hasked.obsDim _ rfl) (hasked.nActions _ rfl)
  · rw [hvalue, hentropy]
    exact hasked.selects
  · rw [hvalue]
    exact hlow
  · rw [hentropy]
    exact hhigh

/-- A snapshot of one free GPU. -/
def freeSnapshot : Input ℚ where
  time := 5
  request := .snapshot { ts := 5, now := 5, nodes := [⟨[{ freeMps := 100, freeRamRatio := 1 }]⟩] }

/-- The only job asks for a part of it. -/
def onlyJob : Input ℚ where
  time := 10
  request := .decide { jobId := "7", mpsReq := 25, gpuCount := 1, runtime := 600, submitTs := 9 }

/-- Tokens of one letter each. -/
def letterTokens : Tokens := ⟨some [97], some [115], some [99]⟩

/-- A snapshot is turned away and one let in, and the shadow mode is switched off. -/
def switchedOff : List (Input ℚ) :=
  [{ freeSnapshot with request := .snapshot { ts := 5, now := 5, nodes := [] } },
    { freeSnapshot with authorization := some "Bearer s" },
    { time := 6, authorization := some "Bearer c", request := .shadow false }]

theorem boost_from_onlyJob : ∃ r : DecideResponse ℚ, 0 < r.priorityBoost ∧
    BoostFrom serverFloats letterTokens { boostSettings with shadowMode := true } (some (takes 0))
      switchedOff { onlyJob with authorization := some "Bearer a" } r := by
  let settings : Settings ℚ := { boostSettings with shadowMode := true }
  let x : Input ℚ := { onlyJob with authorization := some "Bearer a" }
  let s := run (Service.next (Server.serve serverFloats letterTokens))
    (Server.start serverFloats settings (some (takes 0))) switchedOff
  have hanswer : (decided (x, (Server.serve serverFloats letterTokens s x).1)).map
      DecideResponse.priorityBoost = some 1000 := by decide +kernel
  obtain ⟨r, hr, hpriority⟩ := Option.map_eq_some_iff.mp hanswer
  have hboost : 0 < r.priorityBoost := by rw [hpriority]; decide
  exact ⟨r, hboost, boost_from serverFloats letterTokens settings (some (takes 0)) switchedOff x r
    (decided_reply hr) hboost⟩

end Kelpflux.Proof.Scheduler
