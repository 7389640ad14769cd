import Kelpflux.Framework.Guards

/-!
# Calls that rest on what came before

What is known of the calls made so far (`K`), where further calls do not change
it (`Lasting`), and what a program's result tells of the calls that it has made
(`Prog.Learns`). A program is cautious where each of its calls is guarded, in
any environment, once `K` holds (`Prog.Cautious`). One rule for each way of
building a program.
-/

namespace Kelpflux.Framework

variable {I : Interface} {ε σ α β : Type}

/-- What further calls do not change. -/
def Lasting (K : List (Event I ε) → Prop) : Prop := ∀ t t', K t → K (t ++ t')

variable {ok : List (Event I ε) → I.Call → Prop} {t : List (Event I ε)}

theorem Lasting.true : Lasting fun _ : List (Event I ε) => True := fun _ _ h => h

theorem Lasting.mem (P : Event I ε → Prop) : Lasting fun t => ∃ e ∈ t, P e :=
  fun _ _ ⟨e, he, hP⟩ => ⟨e, List.mem_append_left _ he, hP⟩

theorem Lasting.and {K K' : List (Event I ε) → Prop} (h : Lasting K) (h' : Lasting K') :
    Lasting fun t => K t ∧ K' t := fun t t' hK => ⟨h t t' hK.1, h' t t' hK.2⟩

theorem Lasting.all {γ : Type} {P : γ → Prop} {K : γ → List (Event I ε) → Prop}
    (h : ∀ c, Lasting (K c)) : Lasting fun t => ∀ c, P c → K c t :=
  fun t t' hK c hc => h c t t' (hK c hc)

namespace Prog

/-- The reply to a call is the environment's, by the number of calls before it. -/
theorem reply_eq {p : Prog I ε σ α} {env : Env I ε} {s : State I ε σ} {es es' : List (Event I ε)}
    {e : Event I ε} (h : p.calls env s = es ++ e :: es') :
    e.reply = env (s.trace.length + es.length) e.call := by
  induction p generalizing s es with
  | done => simp at h
  | get k ih => exact ih _ h
  | put m k ih => exact ih (s := ⟨m, s.trace⟩) h
  | call c k ih =>
    rw [calls_call] at h
    cases es with
    | nil =>
      obtain ⟨rfl, -⟩ := List.cons.inj h
      rfl
    | cons e₀ es =>
      have hreply := ih _ (List.cons.inj h).2
      rw [List.length_append, List.length_singleton] at hreply
      rwa [List.length_cons, ← Nat.add_assoc, Nat.add_right_comm]

/-- From calls of which `K` holds, each call of the program is as `ok` says. -/
def Cautious (ok : List (Event I ε) → I.Call → Prop) (K : List (Event I ε) → Prop)
    (p : Prog I ε σ α) : Prop :=
  ∀ env s, K s.trace → p.Guards ok env s

/-- From calls of which `K` holds, `L` holds of the result and the calls made
when it is returned. -/
def Learns (K : List (Event I ε) → Prop) (p : Prog I ε σ α)
    (L : α → List (Event I ε) → Prop) : Prop :=
  ∀ env s a, K s.trace → (p.run env s).1 = .ok a → L a (p.run env s).2.trace

variable {K K' : List (Event I ε) → Prop} {p : Prog I ε σ α} {f : α → Prog I ε σ β}
  {L : α → List (Event I ε) → Prop}

namespace Learns

theorem pure {a : α} (h : ∀ t, K t → L a t) : (Pure.pure a : Prog I ε σ α).Learns K L :=
  fun _ s _ hs ha => Except.ok.inj ha ▸ h s.trace hs

theorem perform {c : I.Call} {L : I.Answer c → List (Event I ε) → Prop}
    (h : ∀ t a, K t → L a (t ++ [⟨c, .ok a⟩])) : (perform c : Prog I ε σ _).Learns K L :=
  fun env s a hs ha => by
    show L a (s.trace ++ [⟨c, env s.trace.length c⟩])
    have hreply : env s.trace.length c = .ok a := ha
    rw [hreply]
    exact h s.trace a hs

theorem ofExcept {r : Except ε α} (h : ∀ a t, r = .ok a → K t → L a t) :
    (ofExcept r : Prog I ε σ α).Learns K L := fun _ s a hs ha => h a s.trace ha hs

/-- What is known is still known after calls that do not change it. -/
theorem of_only {P : I.Call → Prop} (h : p.Only P)
    (hK : ∀ t e, P e.call → K t → K (t ++ [e])) : p.Learns K fun _ => K := fun env s _ hs _ => by
  rw [p.trace_eq env s]
  have hcalls := h.calls env s
  generalize p.calls env s = es at hcalls
  induction es using List.reverseRecOn with
  | nil => rwa [List.append_nil]
  | append_singleton es e ih =>
    obtain ⟨hes, he⟩ := List.forall_mem_append.mp hcalls
    rw [← List.append_assoc]
    exact hK _ e (he e (List.mem_singleton_self e)) (ih hes)

/-- What was known, and what a program can return. -/
theorem of_returns {P : α → Prop} (hK : Lasting K) (h : p.Returns P) :
    p.Learns K fun a t => P a ∧ K t := fun env s a hs ha => by
  refine ⟨h env s a ha, ?_⟩
  rw [p.trace_eq env s]
  exact hK _ _ hs

theorem mono {L' : α → List (Event I ε) → Prop} (h : p.Learns K L) (hL : ∀ a t, L a t → L' a t) :
    p.Learns K L' := fun env s a hs ha => hL a _ (h env s a hs ha)

theorem bind {L' : β → List (Event I ε) → Prop} (hp : p.Learns K L)
    (hf : ∀ a, (f a).Learns (L a) L') : (p >>= f).Learns K L' := fun env s b hs hb => by
  obtain ⟨a, ha, hfa⟩ := bind_ok hb
  have h := hf a env (p.run env s).2 b (hp env s a hs ha) hfa
  have hrun : ((p >>= f).run env s).2 = ((f a).run env (p.run env s).2).2 := by
    simp only [Bind.bind, run_andThen, ha]
  rw [hrun]
  exact h

/-- What was known is still known after a program of which nothing is. -/
theorem skip {L' : β → List (Event I ε) → Prop} (hK : Lasting K) (hf : ∀ a, (f a).Learns K L') :
    (p >>= f).Learns K L' :=
  bind (L := fun _ => K) (mono (of_returns hK (.any p)) fun _ _ h => h.2) hf

theorem ite {c : Prop} [Decidable c] {q : Prog I ε σ α} (hp : c → p.Learns K L)
    (hq : ¬ c → q.Learns K L) : (if c then p else q).Learns K L := by
  split
  · exact hp ‹_›
  · exact hq ‹_›

end Learns

theorem Returns.ofExcept (r : Except ε α) : (ofExcept r : Prog I ε σ α).Returns fun a => r = .ok a :=
  fun _ _ _ h => h

/-- What each turn of a loop keeps of what it returns. -/
theorem Returns.foldlM (Inv : α → Prop) {xs : List β} {g : α → β → Prog I ε σ α}
    (h : ∀ a, ∀ x ∈ xs, Inv a → (g a x).Returns Inv) :
    ∀ a, Inv a → (xs.foldlM g a).Returns Inv := by
  induction xs with
  | nil => exact fun a ha => Returns.pure ha
  | cons x xs ih =>
    exact fun a ha => Returns.bind (h a x List.mem_cons_self ha) fun b hb =>
      ih (fun a y hy => h a y (List.mem_cons_of_mem _ hy)) b hb

namespace Cautious

theorem mono (h : p.Cautious ok K') (hK : ∀ t, K t → K' t) : p.Cautious ok K :=
  fun env s hs => h env s (hK _ hs)

/-- Calls that are always allowed. -/
theorem of_only (h : p.Only fun c => ∀ pre, ok pre c) : p.Cautious ok K :=
  fun _ _ _ => h.guards fun es _ hc => hc es

theorem perform {c : I.Call} (h : ∀ t, K t → ok t c) : (perform c : Prog I ε σ _).Cautious ok K :=
  fun _ s hs => ⟨h s.trace hs, trivial⟩

theorem bind (hp : p.Cautious ok K) (hl : p.Learns K L) (hf : ∀ a, (f a).Cautious ok (L a)) :
    (p >>= f).Cautious ok K := fun env s hs => by
  refine guards_bind.mpr ⟨hp env s hs, ?_⟩
  unfold WP
  cases ha : (p.run env s).1 with
  | ok a => exact hf a env _ (hl env s a hs ha)
  | error e => exact trivial

/-- Whatever the first program returns. -/
theorem andThen {k : Except ε α → Prog I ε σ β} (hK : Lasting K) (hp : p.Cautious ok K)
    (hk : ∀ r, (k r).Cautious ok K) : (p.andThen k).Cautious ok K := fun env s hs => by
  refine guards_andThen.mpr ⟨hp env s hs, hk _ env _ ?_⟩
  rw [p.trace_eq env s]
  exact hK _ _ hs

theorem seq (hK : Lasting K) (hp : p.Cautious ok K) (hf : ∀ a, (f a).Cautious ok K) :
    (p >>= f).Cautious ok K :=
  andThen hK hp fun
    | .ok a => hf a
    | .error _ => fun _ _ _ => trivial

theorem tryCatch {h : ε → Prog I ε σ α} (hK : Lasting K) (hp : p.Cautious ok K)
    (hh : ∀ e, (h e).Cautious ok K) : (MonadExcept.tryCatch p h).Cautious ok K :=
  andThen hK hp fun
    | .ok _ => fun _ _ _ => trivial
    | .error e => hh e

theorem forM {xs : List β} {g : β → Prog I ε σ PUnit} (hK : Lasting K)
    (h : ∀ x ∈ xs, (g x).Cautious ok K) : (xs.forM g).Cautious ok K := by
  induction xs with
  | nil => exact fun _ _ _ => trivial
  | cons x xs ih =>
    exact seq hK (h x List.mem_cons_self) fun _ => ih fun y hy => h y (List.mem_cons_of_mem _ hy)

theorem ite {c : Prop} [Decidable c] {q : Prog I ε σ α} (hp : c → p.Cautious ok K)
    (hq : ¬ c → q.Cautious ok K) : (if c then p else q).Cautious ok K := by
  split
  · exact hp ‹_›
  · exact hq ‹_›

/-- Each call of a run from the start is as `ok` says of the calls before it. -/
theorem allCalls (h : p.Cautious ok fun _ => True) (env : Env I ε) (m : σ) :
    AllCalls ok (p.calls env ⟨m, []⟩) :=
  guards_iff.mp (h env ⟨m, []⟩ trivial)

end Cautious

end Prog

end Kelpflux.Framework
