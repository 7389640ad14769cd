import Kelpflux.Framework.Loop

/-!
# What holds when a call is made

`Guards Q env p s`: `Q` of each call that `p` makes when run from `s`, and of
all the calls before it (`guards_iff`). Of two programs in a row it is the
first's, and the second's from where the first ends (`guards_bind`).
`Ensures Q env p s R` is both that and `WP env p s R`, with the same rules. What is
guarded call by call holds of a whole run's calls, wherever it is cut short
(`Prog.AllCalls`, `Prog.Guards.allCalls`).
-/

namespace Kelpflux.Framework

variable {I : Interface} {ε σ α β : Type}

namespace Prog

/-- `Q` of each call of the run, and of the calls before it. -/
def Guards (Q : List (Event I ε) → I.Call → Prop) (env : Env I ε) :
    Prog I ε σ α → State I ε σ → Prop
  | done _, _ => True
  | call c k, s => Q s.trace c ∧
    (k (env s.trace.length c)).Guards Q env ⟨s.mem, s.trace ++ [⟨c, env s.trace.length c⟩]⟩
  | get k, s => (k s.mem).Guards Q env s
  | put m k, s => k.Guards Q env ⟨m, s.trace⟩

variable {Q : List (Event I ε) → I.Call → Prop} {env : Env I ε} {p : Prog I ε σ α}
  {s : State I ε σ}

theorem guards_iff : p.Guards Q env s ↔
    ∀ es e es', p.calls env s = es ++ e :: es' → Q (s.trace ++ es) e.call := by
  induction p generalizing s with
  | done r =>
    rw [calls_done]
    exact iff_of_true trivial fun es e es' h => by simp at h
  | get k ih => exact ih _
  | put m k ih => exact ih
  | call c k ih =>
    rw [Guards, ih, calls_call]
    constructor
    · rintro ⟨hc, hk⟩ es e es' h
      cases es with
      | nil =>
        obtain ⟨rfl, -⟩ := List.cons.inj h
        rwa [List.append_nil]
      | cons e₀ es =>
        obtain ⟨rfl, htail⟩ := List.cons.inj h
        have := hk es e es' htail
        rwa [List.append_assoc] at this
    · intro h
      refine ⟨?_, fun es e es' hes => ?_⟩
      · have := h [] _ _ rfl
        rwa [List.append_nil] at this
      · have := h (_ :: es) e es' (congrArg _ hes)
        rwa [← List.append_cons]

theorem guards_andThen {f : Except ε α → Prog I ε σ β} : (p.andThen f).Guards Q env s ↔
    p.Guards Q env s ∧ (f (p.run env s).1).Guards Q env (p.run env s).2 := by
  induction p generalizing s with
  | done r => exact (iff_of_eq (true_and _)).symm
  | call c k ih => exact (and_congr_right fun _ => ih _).trans and_assoc.symm
  | get k ih => exact ih _
  | put m k ih => exact ih

theorem guards_bind {f : α → Prog I ε σ β} : (p >>= f).Guards Q env s ↔
    p.Guards Q env s ∧ WP env p s fun r s' =>
      match r with
      | .ok a => (f a).Guards Q env s'
      | .error _ => True := by
  show (p.andThen _).Guards Q env s ↔ _ ∧ _
  rw [guards_andThen]
  unfold WP
  cases (p.run env s).1 <;> exact Iff.rfl

theorem Guards.mono {Q' : List (Event I ε) → I.Call → Prop} (h : p.Guards Q env s)
    (hQ : ∀ es c, Q es c → Q' es c) : p.Guards Q' env s :=
  guards_iff.mpr fun es e es' hes => hQ _ _ (guards_iff.mp h es e es' hes)

/-- Whatever the first program returns, and wherever it ends. -/
theorem Guards.bind {f : α → Prog I ε σ β} (hp : p.Guards Q env s)
    (hf : ∀ a s', (f a).Guards Q env s') : (p >>= f).Guards Q env s := by
  refine guards_bind.mpr ⟨hp, WP.of_forall fun r s' => ?_⟩
  cases r with
  | ok a => exact hf a s'
  | error => exact trivial

theorem Guards.tryCatch {h : ε → Prog I ε σ α} (hp : p.Guards Q env s)
    (hh : ∀ e s', (h e).Guards Q env s') : (MonadExcept.tryCatch p h).Guards Q env s := by
  refine guards_andThen.mpr ⟨hp, ?_⟩
  cases (p.run env s).1 with
  | ok => exact trivial
  | error e => exact hh e _

/-- Calls `P`, each of which is as `Q` says wherever it is made. -/
theorem Only.guards {P : I.Call → Prop} (hp : p.Only P) (h : ∀ es c, P c → Q es c) :
    p.Guards Q env s := by
  rw [guards_iff]
  intro es e es' hes
  refine h _ _ (hp.calls env s e ?_)
  rw [hes]
  exact List.mem_append_right _ List.mem_cons_self

/-- `Q` of each call of a list, and of the calls before it. -/
def AllCalls (Q : List (Event I ε) → I.Call → Prop) (tr : List (Event I ε)) : Prop :=
  ∀ es e es', tr = es ++ e :: es' → Q es e.call

theorem AllCalls.nil : AllCalls Q [] :=
  fun _ _ _ h => absurd h.symm (List.append_ne_nil_of_right_ne_nil _ (List.cons_ne_nil _ _))

theorem AllCalls.take {tr : List (Event I ε)} (h : AllCalls Q tr) (n : Nat) :
    AllCalls Q (tr.take n) := by
  intro es e es' htake
  refine h es e (es' ++ tr.drop n) ?_
  rw [← List.cons_append, ← List.append_assoc, ← htake, List.take_append_drop]

/-- A run that is cut short is so before one of its calls, or at its end. -/
theorem Guards.take (h : p.Guards Q env s) (n : Nat) :
    (∃ c, Q ((p.run env s).2.trace.take (s.trace.length + n)) c) ∨
      (p.run env s).2.trace.take (s.trace.length + n) = (p.run env s).2.trace := by
  rw [trace_eq, List.take_length_add_append]
  by_cases hn : n < (p.calls env s).length
  · refine .inl ⟨_, guards_iff.mp h ((p.calls env s).take n) (p.calls env s)[n]
      ((p.calls env s).drop (n + 1)) ?_⟩
    rw [← List.drop_eq_getElem_cons hn, List.take_append_drop]
  · rw [List.take_of_length_le (not_lt.mp hn)]
    exact .inr rfl

/-- What is guarded is so of all calls of the run, those before it included. -/
theorem Guards.allCalls (h : p.Guards Q env s) (hs : AllCalls Q s.trace) :
    AllCalls Q (p.run env s).2.trace := by
  rw [trace_eq]
  intro es e es' heq
  rcases List.append_eq_append_iff.mp heq with ⟨as, rfl, has⟩ | ⟨bs, htr, hbs⟩
  · exact guards_iff.mp h as e es' has
  · cases bs with
    | nil =>
      have := guards_iff.mp h [] e es' hbs.symm
      rwa [List.append_nil, htr, List.append_nil] at this
    | cons e' bs =>
      obtain ⟨rfl, -⟩ := List.cons.inj hbs
      exact hs es e bs htr

end Prog

/-- Run from `s`, each call of `p` is as `Q` says, and `p` ends as `R` says. -/
def Ensures (Q : List (Event I ε) → I.Call → Prop) (env : Env I ε) (p : Prog I ε σ α)
    (s : State I ε σ) (R : Except ε α → State I ε σ → Prop) : Prop :=
  p.Guards Q env s ∧ WP env p s R

namespace Ensures

variable {Q : List (Event I ε) → I.Call → Prop} {env : Env I ε} {p : Prog I ε σ α}
  {s : State I ε σ} {R R' : Except ε α → State I ε σ → Prop}

theorem mono (h : Ensures Q env p s R) (hR : ∀ r s', R r s' → R' r s') : Ensures Q env p s R' :=
  ⟨h.1, h.2.mono hR⟩

theorem pure_iff {a : α} : Ensures Q env (pure a) s R ↔ R (.ok a) s :=
  iff_of_eq (true_and _)

theorem get_iff {R : Except ε σ → State I ε σ → Prop} :
    Ensures Q env (MonadState.get : Prog I ε σ σ) s R ↔ R (.ok s.mem) s :=
  iff_of_eq (true_and _)

theorem modify_iff {f : σ → σ} {R : Except ε PUnit → State I ε σ → Prop} :
    Ensures Q env (modify f : Prog I ε σ PUnit) s R ↔ R (.ok ⟨⟩) ⟨f s.mem, s.trace⟩ :=
  iff_of_eq (true_and _)

theorem perform_iff {c : I.Call} {R : Except ε (I.Answer c) → State I ε σ → Prop} :
    Ensures Q env (Prog.perform c) s R ↔ Q s.trace c ∧
      R (env s.trace.length c) ⟨s.mem, s.trace ++ [⟨c, env s.trace.length c⟩]⟩ :=
  and_congr_left fun _ => iff_of_eq (and_true _)

theorem ofExcept_iff {r : Except ε α} : Ensures Q env (Prog.ofExcept r) s R ↔ R r s :=
  iff_of_eq (true_and _)

theorem bind_iff {f : α → Prog I ε σ β} {R : Except ε β → State I ε σ → Prop} :
    Ensures Q env (p >>= f) s R ↔ Ensures Q env p s fun r s' =>
      match r with
      | .ok a => Ensures Q env (f a) s' R
      | .error e => R (.error e) s' := by
  unfold Ensures
  rw [Prog.guards_bind, WP.bind_iff, and_assoc]
  unfold WP
  refine and_congr_right fun _ => ?_
  cases (p.run env s).1
  · exact iff_of_eq (true_and _)
  · exact Iff.rfl

theorem tryCatch_iff {h : ε → Prog I ε σ α} :
    Ensures Q env (tryCatch p h) s R ↔ Ensures Q env p s fun r s' =>
      match r with
      | .ok a => R (.ok a) s'
      | .error e => Ensures Q env (h e) s' R := by
  unfold Ensures
  rw [WP.tryCatch_iff]
  show (p.andThen _).Guards Q env s ∧ _ ↔ _
  rw [Prog.guards_andThen, and_assoc]
  unfold WP
  refine and_congr_right fun _ => ?_
  cases (p.run env s).1
  · exact Iff.rfl
  · exact iff_of_eq (true_and _)

theorem attempt_iff {c : I.Call} {R : Except ε Unit → State I ε σ → Prop} :
    Ensures Q env (Prog.attempt c) s R ↔ Q s.trace c ∧
      R (.ok ()) ⟨s.mem, s.trace ++ [⟨c, env s.trace.length c⟩]⟩ := by
  rw [Prog.attempt, tryCatch_iff, bind_iff, perform_iff]
  refine and_congr_right fun _ => ?_
  cases env s.trace.length c
  · exact pure_iff
  · exact pure_iff

/-- A loop: what holds before an element's turn, of the elements left, holds
after it, unless the body raises. -/
theorem forM {xs : List β} {f : β → Prog I ε σ PUnit} (Inv : List β → State I ε σ → Prop)
    {R : Except ε PUnit → State I ε σ → Prop} (h0 : Inv xs s)
    (hstep : ∀ x xs s, Inv (x :: xs) s → Ensures Q env (f x) s fun r s' =>
      match r with
      | .ok _ => Inv xs s'
      | .error e => R (.error e) s')
    (hR : ∀ s, Inv [] s → R (.ok ⟨⟩) s) : Ensures Q env (xs.forM f) s R := by
  induction xs generalizing s with
  | nil => exact pure_iff.mpr (hR s h0)
  | cons x xs ih =>
    show Ensures Q env (f x >>= fun _ => xs.forM f) s R
    rw [bind_iff]
    refine mono (hstep x xs s h0) fun r s' hr => ?_
    cases r with
    | ok => exact ih hr
    | error => exact hr

/-- Calls `P` that keep what `T` says of the calls so far, and leave the part `f`
of the memory as it is. -/
theorem of_frame {τ : Type} {f : σ → τ} {P : I.Call → Prop} (ho : p.Only P) (hf : p.Frames f)
    (T : List (Event I ε) → Prop) (h0 : T s.trace)
    (hstep : ∀ es e, P e.call → T es → T (es ++ [e])) (hQ : ∀ es c, P c → T es → Q es c)
    (hR : ∀ r s', f s'.mem = f s.mem → T s'.trace → R r s') : Ensures Q env p s R := by
  have hall : ∀ es tr, T tr → (∀ e ∈ es, P e.call) → T (tr ++ es) := by
    intro es
    induction es with
    | nil => exact fun tr h _ => by rwa [List.append_nil]
    | cons e es ih =>
      intro tr h hes
      rw [List.append_cons]
      exact ih _ (hstep tr e (hes e List.mem_cons_self) h)
        fun e' he' => hes e' (List.mem_cons_of_mem _ he')
  have hcalls := ho.calls env s
  refine ⟨Prog.guards_iff.mpr fun es e es' hes => ?_, hR _ _ (hf env s) ?_⟩
  · rw [hes] at hcalls
    exact hQ _ _ (hcalls e (List.mem_append_right _ List.mem_cons_self))
      (hall es _ h0 fun e' he' => hcalls e' (List.mem_append_left _ he'))
  · rw [Prog.trace_eq]
    exact hall _ _ h0 hcalls

end Ensures

end Kelpflux.Framework
