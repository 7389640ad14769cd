import Kelpflux.Proof.Operator.Waiting

/-!
# The back-off after a rollback, across restarts

An operator that does not die between the clearing of the marker and the writing
of the retry time, and whose reads of the two annotations do not fail, issues no
scale-up before the back-off of a rollback is over (`backoff_kept`); one that does
die there forgets it (`backoff_forgotten`).
-/

namespace Kelpflux.Proof.Backoff

open Framework Kelpflux.Impl.Operator Kelpflux.Proof.Operator

section Clock

-- the time of each call
variable (clock : ℕ → ℚ) (cfg : Config)

/-- The replicas are not raised before a rollback's back-off is over. -/
def BackedOff (log : List Logged) : Prop :=
  ∀ current target l₁ l₂ l₃, log = l₁ ++ l₂ ++ l₃ → RollsBack (l₁.map Logged.event) →
    Raises current target l₂ →
    clock (l₁.length - 1) + cfg.provisioningRetrySeconds ≤ clock ((l₁ ++ l₂).length - 1)

/-- Annotations are written, and read as they were written if they are read; the
times are those of `clock`. -/
structure Timed (a : Annotation → AnnotationValue) (w : Deployment) (x : Turn) : Prop
    extends Readable a w x where
  clock : ∀ n, x.env n .time = .ok (clock n)

/-- A turn that does not lose the back-off: the process does not die in the
window, a new process reads the two annotations, and no scale-up that was rolled
back is read as ready. -/
structure Keeps (p : PartitionConfig) (a : Annotation → AnnotationValue) (w : Deployment)
    (x : Turn) : Prop where
  alive : ∀ n, x.crash = some n → ¬ InWindow
    (((w.prog cfg p x).run x.env ⟨w.mem.getD {}, w.events⟩).2.trace.take (w.events.length + n))
  marker : Owed clock cfg w.events → w.mem = none →
    storedBy a w.events .provisioning ≠ .cleared →
    ∀ n, ∃ v, x.env n (.readAnnotationText .provisioning) = .ok v
  retry : Owed clock cfg w.events → w.mem = none →
    storedBy a w.events .provisioning = .cleared →
    ∀ n, x.env n (.readAnnotationText .provisioningRetry) ≠ .error .api
  ready : Owed clock cfg w.events → ∀ m prov, w.mem = some m → m.provisioning = some prov →
    ∀ ready, readyReplicas (x.env w.events.length .readStatefulSet) = .ok ready →
      ready < prov.targetReplicas

end Clock

variable {clock : ℕ → ℚ} {a : Annotation → AnnotationValue} {cfg : Config} {p : PartitionConfig}
  {es : List OpEvent}

/-! ## Runs -/

/-- A new process keeps the back-off. -/
theorem initPool_waiting {w : Deployment} {x : Turn} (hmono : Monotone clock)
    (hs : Kept clock cfg a w.events) (hw : w.mem = none) (hx : Timed clock a w x)
    (hk : Keeps clock cfg p a w x) :
    Ensures (BackoffGuard clock cfg a) x.env initPool ⟨{}, w.events⟩ fun r s' =>
      Kept clock cfg a s'.trace ∧ (r = .ok () → Waiting clock cfg a s') := by
  by_cases howed : Owed clock cfg w.events
  swap
  · exact (over_ensures hmono initPool_notPatch howed).mono
      fun r s' hover => ⟨kept_of_over hover, fun _ => waiting_of_over hover⟩
  obtain ⟨t, hdue, hlt⟩ := id howed
  rcases hs t hdue hlt with ⟨retryAt, hle, hholds⟩ | ⟨prov, htimed⟩
  · refine initPool_held (s := ⟨{}, w.events⟩) hmono hle ⟨hdue, hholds⟩ rfl hx.clock hx.writes
      (fun n v hv => (hx.reads n _ v hv).trans hholds.2) fun n => ?_
    cases hv : x.env n (.readAnnotationText .provisioningRetry) with
    | ok v =>
      rw [hx.reads n _ v hv, hholds.1]
      exact .inl rfl
    | error e =>
      cases e with
      | api => exact absurd hv (hk.retry howed hw hholds.2 n)
      | other => exact .inr rfl
  · have hread : ∀ n, x.env n (.readAnnotationText .provisioning) = .ok (.marker prov) := by
      intro n
      obtain ⟨v, hv⟩ := hk.marker howed hw (by rw [htimed.1]; exact nofun) n
      rw [hv, hx.reads n _ v hv, htimed.1]
    exact (initPool_timedOut (s := ⟨{}, w.events⟩) hmono htimed hread).mono
      fun r s' ⟨hs', hmem⟩ => ⟨hs'.kept, fun hr => hs'.waiting (hmem hr)⟩

/-- What every turn keeps. -/
structure Backed (clock : ℕ → ℚ) (cfg : Config) (a : Annotation → AnnotationValue)
    (w : Deployment) : Prop where
  calls : Prog.AllCalls (BackoffGuard clock cfg a) w.events
  kept : Kept clock cfg a w.events
  running : ∀ m, w.mem = some m → Waiting clock cfg a ⟨m, w.events⟩ ∧ Recorded a ⟨m, w.events⟩

/-- With no process running. -/
theorem stopped_backed (hcalls : Prog.AllCalls (BackoffGuard clock cfg a) es)
    (hkept : Kept clock cfg a es) : Backed clock cfg a ⟨none, es⟩ := by
  refine ⟨hcalls, hkept, fun m hm => ?_⟩
  cases hm

theorem prog_backed {w : Deployment} {x : Turn} (hmono : Monotone clock) (hpos : ∀ n, 0 < clock n)
    (hw : Backed clock cfg a w) (hx : Timed clock a w x) (hk : Keeps clock cfg p a w x) :
    Ensures (BackoffGuard clock cfg a) x.env (w.prog cfg p x) ⟨w.mem.getD {}, w.events⟩
      fun r s' => (Kept clock cfg a s'.trace ∧ (r = .ok () → Waiting clock cfg a s')) ∧
        Recorded a s' := by
  have hclock : ∀ n t, x.env n .time = .ok t → 0 < t := by
    intro n t ht
    obtain rfl : clock n = t := Except.ok.inj ((hx.clock n).symm.trans ht)
    exact hpos n
  unfold Deployment.prog
  cases hm : w.mem with
  | none =>
    obtain ⟨hguards, hend⟩ := initPool_waiting hmono hw.kept hm hx hk
    exact ⟨hguards, hend, initPool_recorded rfl hx.reads⟩
  | some m =>
    obtain ⟨hwaiting, hrecorded⟩ := hw.running m hm
    obtain ⟨hguards, hend⟩ : Ensures (BackoffGuard clock cfg a) x.env (processPool cfg p x.state)
        ⟨m, w.events⟩ fun _ s' => Waiting clock cfg a s' :=
      processPool_waiting hmono hx.writes hx.clock hwaiting hrecorded
        fun howed prov hprov => hk.ready howed m prov hm hprov
    exact ⟨hguards, ⟨hend.kept, fun _ => hend⟩, processPool_recorded hrecorded hx.writes hclock⟩

theorem step_backed {w : Deployment} {x : Turn} (hmono : Monotone clock) (hpos : ∀ n, 0 < clock n)
    (hw : Backed clock cfg a w) (hx : Timed clock a w x) (hk : Keeps clock cfg p a w x) :
    Backed clock cfg a (w.step cfg p x) := by
  obtain ⟨hguards, ⟨hkept, hwaiting⟩, hrecorded⟩ := prog_backed hmono hpos hw hx hk
  have hcalls := hguards.allCalls hw.calls
  have hcut := hguards.take
  have halive := hk.alive
  unfold Deployment.step
  generalize (w.prog cfg p x).run x.env ⟨w.mem.getD {}, w.events⟩ = rs at *
  obtain ⟨r, s⟩ := rs
  cases hcrash : x.crash with
  | some n =>
    refine stopped_backed (hcalls.take _) ?_
    rcases hcut n with ⟨c, hc⟩ | hall
    · exact hc.1.resolve_right (halive n hcrash)
    · rw [hall]
      exact hkept
  | none =>
    cases r with
    | error e => exact stopped_backed hcalls hkept
    | ok _ =>
      refine ⟨hcalls, hkept, fun m hm => ?_⟩
      obtain rfl : s.mem = m := Option.some.inj hm
      exact ⟨hwaiting rfl, hrecorded⟩

theorem Timed.legible {w : Deployment} {x : Turn} (hpos : ∀ n, 0 < clock n) (h : Timed clock a w x) :
    Legible a w x := by
  refine ⟨h.toReadable, fun n t ht => ?_⟩
  rw [h.clock] at ht
  obtain rfl := Except.ok.inj ht
  exact hpos n

/-- No scale-up starts before the back-off is over. -/
theorem backedOff_of_scalesUpTo {prov : Provisioning} {es₁ es₂ es₃ : List OpEvent}
    (hmono : Monotone clock) (h : Prog.AllCalls (BackoffGuard clock cfg a) (es₁ ++ es₂ ++ es₃))
    (hroll : RollsBack es₁) (hup : ScalesUpTo prov es₂) :
    clock (es₁.length - 1) + cfg.provisioningRetrySeconds ≤ clock ((es₁ ++ es₂).length - 1) := by
  obtain ⟨es₂, r, r', rfl⟩ := hup
  have hover := (h (es₁ ++ es₂) ⟨.command (.annotate .provisioning (.marker prov)), r⟩
    (⟨.command (.patchReplicas prov.targetReplicas), r'⟩ :: es₃) (by simp)).2 prov rfl
  have hdue₁ : due clock cfg es₁ = some (clock (es₁.length - 1) + cfg.provisioningRetrySeconds) :=
    hroll.due
  obtain ⟨t, hdue, hle⟩ := due_grows hmono hdue₁ es₂
  have hpast : t ≤ clock (es₁ ++ es₂).length := not_lt.mp fun hlt => hover ⟨t, hdue, hlt⟩
  refine (hle.trans hpast).trans (hmono ?_)
  simp

/-- From any annotations on, in a run whose turns do not lose the back-off, no patch
raises the replicas before the back-off of a rollback is over, but for those of
rollbacks. -/
theorem backoff_kept (hmono : Monotone clock) (hpos : ∀ n, 0 < clock n) {xs : List Turn}
    (hxs : Along (Deployment.step cfg p) (fun w x => Timed clock a w x ∧ Keeps clock cfg p a w x)
      ⟨none, []⟩ xs) :
    BackedOff clock cfg (Deployment.log cfg p ⟨none, []⟩ xs) := by
  have hempty : Backed clock cfg a ⟨none, []⟩ := stopped_backed .nil fun _ => nofun
  have hcalls :=
    (hxs.reach (fun _ _ hw hx => step_backed hmono hpos hw hx.1 hx.2) hempty).calls
  rw [run_events, List.nil_append] at hcalls
  have hknown : Deployment.Known a ⟨none, []⟩ := fun m hm => by cases hm
  intro current target l₁ l₂ l₃ hlog hroll h
  rw [hlog, List.map_append, List.map_append] at hcalls
  have hlast : ∀ o ∈ l₁.getLast?, ∃ n, o.event.call = .command (.patchReplicas n) := by
    intro o ho
    obtain ⟨es₀, i, r, n, hes⟩ := hroll
    have he := congrArg List.getLast? hes
    rw [List.getLast?_map, Option.mem_def.mp ho, List.append_cons, List.getLast?_concat] at he
    exact ⟨n, congrArg Event.call (Option.some.inj he)⟩
  obtain ⟨t, hup⟩ := Raises.marked (fun before o after hsplit => by
    simpa using log_announced hknown (hxs.mono fun _ _ h => h.1.legible hpos) (hlog.trans hsplit))
    hlast h
  simpa using backedOff_of_scalesUpTo hmono hcalls hroll hup

/-! ## A cluster that answers -/

/-- The annotations hold `stored`, and each call takes its time; else as `quietEnv`. -/
def timedEnv (clock : ℕ → ℚ) (stored : Annotation → AnnotationValue) (sts : StatefulSet) : OpEnv
  | n, .time => .ok (clock n)
  | n, c => storedEnv stored sts 0 n c

/-- Turns for which the annotations hold what the turns before have written. -/
def timedTurns (clock : ℕ → ℚ) (cfg : Config) (p : PartitionConfig)
    (a : Annotation → AnnotationValue) :
    Deployment → List (PartitionState × StatefulSet × Option Nat) → List Turn
  | _, [] => []
  | w, (state, sts, crash) :: ys =>
    let x : Turn := ⟨state, timedEnv clock (storedBy a w.events) sts, crash⟩
    x :: timedTurns clock cfg p a (w.step cfg p x) ys

variable {state : PartitionState} {sts : StatefulSet} {crash : Option Nat} {w : Deployment}

theorem timed_turn :
    Timed clock a w ⟨state, timedEnv clock (storedBy a w.events) sts, crash⟩ := by
  refine ⟨⟨fun _ _ _ => rfl, fun _ _ _ hv => ?_⟩, fun _ => rfl⟩
  exact (Except.ok.inj hv).symm

theorem timedTurns_timed (ys : List (PartitionState × StatefulSet × Option Nat)) :
    Along (Deployment.step cfg p) (Timed clock a) w (timedTurns clock cfg p a w ys) := by
  induction ys generalizing w with
  | nil => trivial
  | cons y ys ih => exact ⟨timed_turn, ih⟩

theorem InWindow.last (h : InWindow es) :
    es.getLast?.map Event.call ≠ some Call.time := by
  obtain ⟨es₀, n, t, rest, rfl, rfl | ⟨v, rfl⟩⟩ := h <;> simp

/-- A turn whose process does not die, or dies after a reading of the clock. -/
theorem keeps_turn
    (hlast : ∀ n, crash = some n →
      ((((w.prog cfg p ⟨state, timedEnv clock (storedBy a w.events) sts, crash⟩).run
        (timedEnv clock (storedBy a w.events) sts) ⟨w.mem.getD {}, w.events⟩).2.trace.take
          (w.events.length + n)).getLast?.map Event.call = some .time))
    (hready : ∀ prov ∈ w.mem.bind Memory.provisioning,
      sts.readyReplicas.getD 0 < prov.targetReplicas) :
    Keeps clock cfg p a w ⟨state, timedEnv clock (storedBy a w.events) sts, crash⟩ where
  alive n hn hwindow := hwindow.last (hlast n hn)
  marker _ _ _ _ := ⟨_, rfl⟩
  retry _ _ _ _ := nofun
  ready _ m prov hm hprov ready hr := by
    obtain rfl : sts.readyReplicas.getD 0 = ready := Except.ok.inj hr
    refine hready prov ?_
    rw [hm]
    exact hprov

/-- A clock that goes ten seconds with each call. -/
def ticks (n : ℕ) : ℚ := 1000 + 10 * n

theorem ticks_mono : Monotone ticks := by
  intro m n hmn
  have : (m : ℚ) ≤ n := Nat.cast_le.mpr hmn
  unfold ticks
  linarith

theorem ticks_pos (n : ℕ) : 0 < ticks n := by
  have : (0 : ℚ) ≤ n := Nat.cast_nonneg n
  unfold ticks
  linarith

def shortTimeout : Config := { provisioningTimeoutSeconds := 60, provisioningRetrySeconds := 300 }

/-- The turns up to a rollback that dies after `calls` calls, and a new process
after it. -/
def rolledBack (calls : Nat) : List (PartitionState × StatefulSet × Option Nat) :=
  [(waiting 2, ⟨some 2, some 2⟩, none), (waiting 2, ⟨some 2, some 2⟩, none),
    (waiting 3, ⟨some 3, some 2⟩, some calls), (waiting 2, ⟨some 2, some 2⟩, none),
    (waiting 2, ⟨some 2, some 2⟩, none), (waiting 2, ⟨some 2, some 2⟩, none)]

/-- The operator dies before it has cleared the marker, rolls back once more, waits,
and scales up. -/
theorem backoff_kept_crash :
    let cfg : Config := { shortTimeout with provisioningRetrySeconds := 50 }
    let log := Deployment.log cfg fourWorkers ⟨none, []⟩
      (timedTurns ticks cfg fourWorkers (fun _ => .cleared) ⟨none, []⟩ (rolledBack 5))
    BackedOff ticks cfg log ∧ ∃ l₁ l₂ l₃, log = l₁ ++ l₂ ++ l₃ ∧
      RollsBack (l₁.map Logged.event) ∧ Raises 2 3 l₂ := by
  intro cfg log
  refine ⟨backoff_kept (a := fun _ => .cleared) ticks_mono ticks_pos
    ⟨⟨timed_turn, keeps_turn (fun _ => nofun) ?_⟩, ⟨timed_turn, keeps_turn (fun _ => nofun) ?_⟩,
      ⟨timed_turn, keeps_turn (fun n hn => Option.some.inj hn ▸ ?_) ?_⟩,
      ⟨timed_turn, keeps_turn (fun _ => nofun) ?_⟩, ⟨timed_turn, keeps_turn (fun _ => nofun) ?_⟩,
      ⟨timed_turn, keeps_turn (fun _ => nofun) ?_⟩, trivial⟩, log.take 28, (log.drop 28).take 13,
    log.drop 41, ?_, ⟨(log.take 26).map Logged.event, 2, .ok (), 2, ?_⟩,
    ⟨(log.drop 28).take 12, .ok (), ?_, ?_, ?_⟩⟩
  all_goals decide +kernel

/-- An operator that dies between the clearing of the marker and the writing of
the retry time forgets the back-off. -/
theorem backoff_forgotten :
    let xs := timedTurns ticks shortTimeout fourWorkers (fun _ => .cleared) ⟨none, []⟩
      (rolledBack 6)
    Along (Deployment.step shortTimeout fourWorkers) (Timed ticks fun _ => .cleared) ⟨none, []⟩ xs ∧
      ¬ BackedOff ticks shortTimeout (Deployment.log shortTimeout fourWorkers ⟨none, []⟩ xs) := by
  intro xs
  refine ⟨timedTurns_timed _, fun h => ?_⟩
  set log := Deployment.log shortTimeout fourWorkers ⟨none, []⟩ xs
  have hroll : RollsBack ((log.take 19).map Logged.event) :=
    ⟨(log.take 17).map Logged.event, 2, .ok (), 2, by decide +kernel⟩
  have hup : Raises 2 3 ((log.drop 19).take 13) :=
    ⟨(log.drop 19).take 12, .ok (), by decide +kernel, by decide, by decide +kernel⟩
  have hparts : log = log.take 19 ++ (log.drop 19).take 13 ++ log.drop 32 := by decide +kernel
  have hsoon := h 2 3 _ _ _ hparts hroll hup
  revert hsoon
  decide +kernel

end Kelpflux.Proof.Backoff
