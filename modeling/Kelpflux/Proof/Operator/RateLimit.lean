import Kelpflux.Framework.Run
import Kelpflux.Framework.Window
import Kelpflux.Proof.Operator.Requeue

/-!
# The limits on how often jobs are requeued

The decider's history has its decisions of the last hour, as of its last look
(`Remembers`): whatever it decides next, the cap on every hour holds, and so
does the least interval if that is no longer than an hour. A longer interval the
history forgets (`rate_limit_iff`).
-/

namespace Kelpflux.Proof.Fragmentation

open Framework Framework.Python Impl.Fragmentation

/-- A call of `decide`. -/
structure DecideCall where
  order : SetOrder
  snapshot : FragmentationSnapshot
  now : ℚ

/-- A decider, and when it has decided so far. -/
structure Decided where
  decider : RequeueDecider
  emitted : List ℚ

def Decided.step (s : Decided) (x : DecideCall) : Decided :=
  let r := s.decider.decide x.order x.snapshot x.now
  ⟨r.2.2, if r.1.isSome then s.emitted ++ [x.now] else s.emitted⟩

/-- When a new decider decides in a run of calls. -/
def emissions (dec : RequeueDecider) (calls : List DecideCall) : List ℚ :=
  (run Decided.step ⟨{ dec with history := [] }, []⟩ calls).emitted

/-- The clock never goes back. -/
def InOrder (calls : List DecideCall) : Prop := (calls.map DecideCall.now).Pairwise (· ≤ ·)

/-- Any two of the times are at least `gap` apart. -/
def Spaced (gap : PyFloat) (times : List ℚ) : Prop :=
  times.Pairwise fun t t' => (PyFloat.fin (t' - t)).lt gap = false

variable {dec : RequeueDecider} {s : Decided} {gap : PyFloat} {cap : Int} {T : ℚ}
  {order : SetOrder} {snap : FragmentationSnapshot} {now : ℚ}

/-! ## One decision -/

/-- A decision is one that is not limited, and is remembered; else nothing but
old decisions are forgotten. -/
theorem decide_cases (dec : RequeueDecider) (order : SetOrder) (snap : FragmentationSnapshot)
    (now : ℚ) :
    let r := dec.decide order snap now
    (r.1 = none ∧ (r.2.2 = dec ∨ r.2.2 = dec.trimHistory now)) ∨
      r.1.isSome = true ∧ (dec.trimHistory now).rateLimited now = none ∧
        r.2.2 = { dec with history := (dec.trimHistory now).history ++ [now] } := by
  unfold RequeueDecider.decide
  dsimp only
  split
  · exact .inl ⟨rfl, .inl rfl⟩
  split
  · exact .inl ⟨rfl, .inr rfl⟩
  · exact .inl ⟨rfl, .inr rfl⟩
  rename_i hlimit _
  unfold RequeueDecider.decideFor
  dsimp only
  split
  · exact .inl ⟨rfl, .inr rfl⟩
  split
  · exact .inl ⟨rfl, .inr rfl⟩
  · exact .inr ⟨rfl, hlimit, rfl⟩

theorem rateLimited_eq_none : dec.rateLimited now = none ↔
    (∀ t, dec.history.getLast? = some t → (PyFloat.fin (now - t)).lt dec.minIntervalSeconds = false) ∧
      dec.history.length < dec.maxRequeuesPerHour := by
  unfold RequeueDecider.rateLimited
  split
  · rename_i hlast
    refine iff_of_false nofun fun ⟨hclear, _⟩ => ?_
    obtain ⟨t, ht, hlt⟩ := (Option.any_eq_true _ _).mp hlast
    rw [hclear t ht] at hlt
    cases hlt
  rename_i hlast
  split
  · rename_i hfull
    exact iff_of_false nofun fun ⟨_, hlt⟩ => by omega
  rename_i hfull
  refine iff_of_true rfl ⟨fun t ht => ?_, by omega⟩
  by_contra hlt
  exact hlast ((Option.any_eq_true _ _).mpr ⟨t, ht, Bool.eq_true_of_not_eq_false hlt⟩)

theorem fin_lt_mono {d d' : ℚ} (hle : d ≤ d') (h : (PyFloat.fin d).lt gap = false) :
    (PyFloat.fin d').lt gap = false := by
  cases gap with
  | fin g =>
    have h := of_decide_eq_false h
    exact decide_eq_false (by linarith)
  | inf => cases h
  | negInf => rfl
  | nan => rfl

/-- An interval of at most an hour is over after an hour. -/
theorem fin_lt_of_hour {d : ℚ} (hgap : gap.le (.fin 3600) = true) (hd : 3600 ≤ d) :
    (PyFloat.fin d).lt gap = false := by
  refine fin_lt_mono hd ?_
  cases gap with
  | fin g =>
    simp only [PyFloat.le, PyFloat.lt, PyFloat.eq, Bool.or_eq_true, Bool.and_eq_true,
      decide_eq_true_eq, PyFloat.fin.injEq] at hgap
    refine decide_eq_false (not_lt.mpr ?_)
    rcases hgap with hlt | ⟨-, heq⟩
    · exact hlt.le
    · exact heq.le
  | inf => cases hgap
  | negInf => rfl
  | nan => rfl

/-! ## Runs -/

/-- The decider has its settings, and of its decisions, which were made up to
`T`, those that may still be within the last hour. -/
structure Remembers (gap : PyFloat) (cap : Int) (T : ℚ) (s : Decided) : Prop where
  gap_eq : s.decider.minIntervalSeconds = gap
  cap_eq : s.decider.maxRequeuesPerHour = cap
  sorted : s.emitted.Pairwise (· ≤ ·)
  past : ∀ t ∈ s.emitted, t ≤ T
  history : ∃ c ≤ T - 3600, s.decider.history = s.emitted.filter fun t => c ≤ t

theorem Remembers.trimmed (h : Remembers gap cap T s) (hT : T ≤ now) :
    (s.decider.trimHistory now).history = s.emitted.filter fun t => now - 3600 ≤ t := by
  obtain ⟨c, hc, hhistory⟩ := h.history
  unfold RequeueDecider.trimHistory
  dsimp only
  rw [hhistory, List.filter_filter]
  refine List.filter_congr fun t _ => Bool.and_eq_left_iff_imp.mpr fun hrecent => ?_
  have := of_decide_eq_true hrecent
  exact decide_eq_true (by linarith)

theorem Remembers.step {x : DecideCall} (h : Remembers gap cap T s) (hT : T ≤ x.now) :
    Remembers gap cap x.now (s.step x) := by
  have htrimmed := h.trimmed hT
  obtain ⟨c, hc, hhistory⟩ := h.history
  have hpast : ∀ t ∈ s.emitted, t ≤ x.now := fun t ht => (h.past t ht).trans hT
  unfold Decided.step
  obtain ⟨hnone, hdec⟩ | ⟨hsome, -, hdec⟩ := decide_cases s.decider x.order x.snapshot x.now
  · dsimp only
    rw [hnone]
    obtain hdec | hdec := hdec
    · rw [hdec]
      exact ⟨h.gap_eq, h.cap_eq, h.sorted, hpast, c, by linarith, hhistory⟩
    · rw [hdec]
      exact ⟨h.gap_eq, h.cap_eq, h.sorted, hpast, x.now - 3600, le_refl _, htrimmed⟩
  · dsimp only
    rw [hdec, if_pos hsome]
    refine ⟨h.gap_eq, h.cap_eq, ?_, ?_, x.now - 3600, le_refl _, ?_⟩
    · refine List.pairwise_append.mpr ⟨h.sorted, List.pairwise_singleton _ _, fun t ht t' ht' => ?_⟩
      rw [List.mem_singleton.mp ht']
      exact hpast t ht
    · intro t ht
      rcases List.mem_append.mp ht with ht | ht
      · exact hpast t ht
      · exact (List.mem_singleton.mp ht).le
    · dsimp only
      rw [htrimmed, List.filter_append, List.filter_cons_of_pos, List.filter_nil]
      exact decide_eq_true (by linarith)

/-- A new decision is one that there is room for, and none too soon. -/
theorem Remembers.emit {x : DecideCall} (h : Remembers gap cap T s) (hT : T ≤ x.now)
    (hsome : (s.decider.decide x.order x.snapshot x.now).1.isSome = true) :
    (∀ t ∈ s.emitted, x.now - 3600 ≤ t → (PyFloat.fin (x.now - t)).lt gap = false) ∧
      ((s.emitted.countP fun t => x.now - 3600 ≤ t) : Int) < cap := by
  have htrimmed := h.trimmed hT
  obtain ⟨hnone, -⟩ | ⟨-, hlimit, -⟩ := decide_cases s.decider x.order x.snapshot x.now
  · rw [hnone] at hsome
    cases hsome
  obtain ⟨hlast, hroom⟩ := rateLimited_eq_none.mp hlimit
  rw [htrimmed] at hlast hroom
  have hgap : (s.decider.trimHistory x.now).minIntervalSeconds = gap := h.gap_eq
  have hcap : (s.decider.trimHistory x.now).maxRequeuesPerHour = cap := h.cap_eq
  rw [hgap] at hlast
  rw [hcap, ← List.countP_eq_length_filter] at hroom
  refine ⟨fun t ht hrecent => ?_, hroom⟩
  have hmem : t ∈ s.emitted.filter fun t => x.now - 3600 ≤ t :=
    List.mem_filter.mpr ⟨ht, decide_eq_true hrecent⟩
  obtain ⟨ls, l, hl⟩ := (List.eq_nil_or_concat' _).resolve_left (List.ne_nil_of_mem hmem)
  have hle : t ≤ l := by
    have hsorted := h.sorted.filter fun t => decide (x.now - 3600 ≤ t)
    rw [hl] at hmem hsorted
    rcases List.mem_append.mp hmem with ht | ht
    · exact (List.pairwise_append.mp hsorted).2.2 t ht l List.mem_cons_self
    · exact (List.mem_singleton.mp ht).le
  refine fin_lt_mono ?_ (hlast l (by rw [hl, List.getLast?_concat]))
  linarith

/-- The decisions so far are within the limits. -/
structure Limited (gap : PyFloat) (cap : Int) (T : ℚ) (s : Decided) : Prop
    extends Remembers gap cap T s where
  spaced : Spaced gap s.emitted
  capped : Capped 3600 cap.toNat s.emitted

theorem Limited.step {x : DecideCall} (hlong : gap.le (.fin 3600) = true ∨ cap = 0)
    (h : Limited gap cap T s) (hT : T ≤ x.now) : Limited gap cap x.now (s.step x) := by
  refine ⟨h.toRemembers.step hT, ?_, ?_⟩
  · unfold Decided.step
    dsimp only
    split
    swap
    · exact h.spaced
    rename_i hsome
    obtain ⟨hrecent, hroom⟩ := h.emit hT hsome
    refine List.pairwise_append.mpr ⟨h.spaced, List.pairwise_singleton _ _, fun t ht t' ht' => ?_⟩
    rw [List.mem_singleton.mp ht']
    by_cases hold : x.now - 3600 ≤ t
    · exact hrecent t ht hold
    rcases hlong with hlong | hzero
    · exact fin_lt_of_hour hlong (by linarith)
    · omega
  · unfold Decided.step
    dsimp only
    split
    swap
    · exact h.capped
    rename_i hsome
    exact h.capped.concat (by have := (h.emit hT hsome).2; omega)

theorem limited_run (hlong : gap.le (.fin 3600) = true ∨ cap = 0) {calls : List DecideCall} :
    ∀ {s : Decided} {T : ℚ}, Limited gap cap T s → InOrder calls →
      (∀ x ∈ calls, T ≤ x.now) → ∃ T', Limited gap cap T' (run Decided.step s calls) := by
  induction calls with
  | nil => exact fun h _ _ => ⟨_, h⟩
  | cons x xs ih =>
    intro s T h horder hT
    obtain ⟨hx, hxs⟩ := List.pairwise_cons.mp horder
    exact ih (h.step hlong (hT x List.mem_cons_self)) hxs fun y hy =>
      hx y.now (List.mem_map_of_mem hy)

/-! ## An interval longer than the history -/

/-- There are times beyond the history and within the interval. -/
theorem exists_forgotten (hpos : (PyFloat.fin 0).le gap = true) (hlong : ¬ gap.le (.fin 3600) = true) :
    ∃ d : ℚ, 3600 < d ∧ (PyFloat.fin d).lt gap = true := by
  cases gap with
  | fin g =>
    have hg : 3600 < g := by
      by_contra hle
      refine hlong ?_
      rcases (not_lt.mp hle).lt_or_eq with hlt | rfl
      · exact Bool.or_eq_true_iff.mpr (.inl (decide_eq_true hlt))
      · decide +kernel
    refine ⟨(3600 + g) / 2, by linarith, decide_eq_true (by linarith)⟩
  | inf => exact ⟨3601, by norm_num, rfl⟩
  | negInf => cases hpos
  | nan => cases hpos

/-- A pending job that does not fit, and a job that may be requeued for it. -/
def oneVictim : FragmentationSnapshot :=
  let target : JobView := ⟨"1", "anon", "", "PENDING", 50, 100, 1, [], .fin 0, .fin 0⟩
  { timestamp := 0, score := 0, freeMpsPerNode := [0], pendingBlocked := [target]
    candidates := [⟨⟨"2", "anon", "", "RUNNING", 10, 100, 1, ["gpu-4070"], .fin 0, .fin 0⟩,
      target, "gpu-4070", 100⟩] }

theorem decide_oneVictim (h : (dec.trimHistory now).rateLimited now = none) :
    (dec.decide listOrder oneVictim now).1.isSome = true := by
  unfold RequeueDecider.decide
  rw [if_neg (by decide)]
  dsimp only
  rw [h]
  show ((dec.trimHistory now).decideFor listOrder oneVictim now _).1.isSome = true
  unfold RequeueDecider.decideFor RequeueDecider.choose
  dsimp only
  split
  · rename_i hnodes
    exact absurd hnodes (by decide +kernel)
  rw [if_neg]
  · rfl
  rename_i nid rest hnodes
  obtain ⟨rfl, -⟩ := List.cons.inj (hnodes.symm.trans
    (show nodesForTarget listOrder _ = ["gpu-4070"] by decide +kernel))
  exact Greedy.pick_ne_nil (by decide +kernel)

/-- With nothing left in its history, a decider that may requeue does. -/
theorem step_oneVictim (hmax : 0 < s.decider.maxRequeuesPerHour)
    (h : (s.decider.trimHistory now).history = []) :
    s.step ⟨listOrder, oneVictim, now⟩ =
      ⟨{ s.decider with history := [now] }, s.emitted ++ [now]⟩ := by
  have hlimit : (s.decider.trimHistory now).rateLimited now = none := by
    refine rateLimited_eq_none.mpr ⟨fun t ht => ?_, ?_⟩
    · rw [h] at ht
      cases ht
    · rw [h]
      exact hmax
  have hsome := decide_oneVictim hlimit
  unfold Decided.step
  obtain ⟨hnone, -⟩ | ⟨-, -, hdec⟩ := decide_cases s.decider listOrder oneVictim now
  · rw [hnone] at hsome
    cases hsome
  · dsimp only
    rw [hdec, if_pos hsome, h]
    rfl

theorem emissions_two {d : ℚ} (hmax : 0 < dec.maxRequeuesPerHour) (hd : 3600 < d) :
    emissions dec [⟨listOrder, oneVictim, 0⟩, ⟨listOrder, oneVictim, d⟩] = [0, d] := by
  have hold : ({ dec with history := [0] }.trimHistory d : RequeueDecider).history = [] :=
    List.filter_eq_nil_iff.mpr fun t ht => by
      rw [List.mem_singleton.mp ht, decide_eq_true_eq]
      linarith
  have hnone : ({ dec with history := [] }.trimHistory 0 : RequeueDecider).history = [] := rfl
  have hfirst := step_oneVictim (s := ⟨{ dec with history := [] }, []⟩) hmax hnone
  have hsecond := step_oneVictim (s := ⟨{ dec with history := [0] }, [] ++ [0]⟩) hmax hold
  unfold emissions
  rw [run_cons, run_cons, run_nil, hfirst, hsecond]
  rfl

/-- The limits hold in every run exactly when the interval is at most an hour, or
nothing may be requeued. -/
theorem rate_limit_iff (hgap : (PyFloat.fin 0).le dec.minIntervalSeconds = true)
    (hcap : 0 ≤ dec.maxRequeuesPerHour) :
    (∀ calls, InOrder calls → Spaced dec.minIntervalSeconds (emissions dec calls) ∧
      Capped 3600 dec.maxRequeuesPerHour.toNat (emissions dec calls)) ↔
    dec.minIntervalSeconds.le (.fin 3600) = true ∨ dec.maxRequeuesPerHour = 0 := by
  constructor
  · intro h
    by_contra hnot
    obtain ⟨hlong, hzero⟩ := not_or.mp hnot
    obtain ⟨d, hd, hsoon⟩ := exists_forgotten hgap hlong
    have hspaced := (h [⟨listOrder, oneVictim, 0⟩, ⟨listOrder, oneVictim, d⟩] ?_).1
    · rw [emissions_two (by omega) hd] at hspaced
      have hclear := (List.pairwise_cons.mp hspaced).1 d List.mem_cons_self
      rw [sub_zero, hsoon] at hclear
      cases hclear
    · refine List.pairwise_pair.mpr ?_
      show (0 : ℚ) ≤ d
      linarith
  · intro hlong calls horder
    have hstart : ∀ T, Limited dec.minIntervalSeconds dec.maxRequeuesPerHour T
        ⟨{ dec with history := [] }, []⟩ := fun T =>
      ⟨⟨rfl, rfl, List.Pairwise.nil, nofun, T - 3600, le_refl _, rfl⟩, List.Pairwise.nil,
        fun _ => Nat.zero_le _⟩
    cases calls with
    | nil => exact ⟨(hstart 0).spaced, (hstart 0).capped⟩
    | cons x xs =>
      obtain ⟨T, hrun⟩ := limited_run hlong (hstart x.now) horder fun y hy => by
        rcases List.mem_cons.mp hy with rfl | hy
        · exact le_refl _
        · exact (List.pairwise_cons.mp horder).1 _ (List.mem_map_of_mem hy)
      exact ⟨hrun.spaced, hrun.capped⟩

/-- The operator's defaults. -/
theorem rate_limit_iff_minute :
    (∀ calls, InOrder calls → Spaced (.fin 60) (emissions {} calls) ∧
      Capped 3600 5 (emissions {} calls)) ↔
    (PyFloat.fin 60).le (.fin 3600) = true ∨ (5 : Int) = 0 :=
  have hgap : (PyFloat.fin 0).le ({} : RequeueDecider).minIntervalSeconds = true := by
    decide +kernel
  rate_limit_iff hgap (by decide)

/-- Two decisions in two hours, with an interval of two hours. -/
theorem interval_forgotten :
    ¬ ∀ dec : RequeueDecider, (PyFloat.fin 0).le dec.minIntervalSeconds = true →
      0 ≤ dec.maxRequeuesPerHour → ∀ calls, InOrder calls →
        Spaced dec.minIntervalSeconds (emissions dec calls) ∧
          Capped 3600 dec.maxRequeuesPerHour.toNat (emissions dec calls) := by
  intro h
  have hspaced := (h { minIntervalSeconds := .fin 7200 } (by decide +kernel) (by decide)
    [⟨listOrder, oneVictim, 0⟩, ⟨listOrder, oneVictim, 3700⟩] ?_).1
  · rw [emissions_two (by decide) (by norm_num)] at hspaced
    exact absurd ((List.pairwise_cons.mp hspaced).1 3700 List.mem_cons_self) (by decide +kernel)
  · refine List.pairwise_pair.mpr ?_
    show (0 : ℚ) ≤ 3700
    norm_num

end Kelpflux.Proof.Fragmentation
