import Mathlib.Data.List.Basic
import Mathlib.Tactic.Common

/-!
# Programs that call out

A program with private memory that talks to the outside only by calls
(`Prog`): an HTTP request, a read of the clock, a command for another process.
The environment answers each call or raises (`Env`); nothing is assumed of
it. A run (`Prog.run`) keeps the list of the calls made and their replies, so
that what a program does to the outside, also when it is cut short, is a
statement about that list.

`WP env p s Q`: run from `s` under `env`, `p` ends with a result and a state
satisfying `Q`. One rule for each way of building a program, and three for
whole programs: the calls made before stay (`Prog.trace_extends`), the
environment's choices matter only at the calls made (`Prog.run_congr`), and a
loop keeps an invariant (`WP.forM`). Three facts are read off a program alone:
the calls it can make (`Prog.Only`), the memory it leaves as it is
(`Prog.Frames`), and what it can return (`Prog.Returns`).
-/

namespace Kelpflux.Framework

/-- What may be called, and the type of each call's answer. -/
structure Interface where
  Call : Type
  Answer : Call → Type

/-- A call, with what came back: an answer or an exception. -/
structure Event (I : Interface) (ε : Type) where
  call : I.Call
  reply : Except ε (I.Answer call)

instance {I : Interface} {ε : Type} [DecidableEq I.Call] [∀ c, DecidableEq (I.Answer c)]
    [DecidableEq ε] : DecidableEq (Event I ε)
  | ⟨c, r⟩, ⟨c', r'⟩ =>
    if h : c = c' then decidable_of_iff (h ▸ r = r') (by subst h; simp)
    else isFalse fun he => h (congrArg Event.call he)

/-- Whether the call was answered, rather than raised. -/
def Event.ok {I : Interface} {ε : Type} (e : Event I ε) : Prop := ∃ a, e.reply = .ok a

/-- The reply to the `n`-th call of a run, if it is `c`. -/
abbrev Env (I : Interface) (ε : Type) := Nat → (c : I.Call) → Except ε (I.Answer c)

/-- A program with memory `σ` and result `α`, raising exceptions `ε`. -/
inductive Prog (I : Interface) (ε σ α : Type) where
  | done (r : Except ε α)
  | call (c : I.Call) (k : Except ε (I.Answer c) → Prog I ε σ α)
  | get (k : σ → Prog I ε σ α)
  | put (m : σ) (k : Prog I ε σ α)

/-- The memory, and the calls made so far, the oldest first. -/
structure State (I : Interface) (ε σ : Type) where
  mem : σ
  trace : List (Event I ε)

variable {I : Interface} {ε σ α β : Type}

namespace Prog

/-- `p`, then `f` on how it ended. -/
def andThen : Prog I ε σ α → (Except ε α → Prog I ε σ β) → Prog I ε σ β
  | done r, f => f r
  | call c k, f => call c fun r => (k r).andThen f
  | get k, f => get fun m => (k m).andThen f
  | put m k, f => put m (k.andThen f)

instance : Monad (Prog I ε σ) where
  pure a := done (.ok a)
  bind p f := p.andThen fun
    | .ok a => f a
    | .error e => done (.error e)

instance : MonadExceptOf ε (Prog I ε σ) where
  throw e := done (.error e)
  tryCatch p h := p.andThen fun
    | .ok a => done (.ok a)
    | .error e => h e

instance : MonadStateOf σ (Prog I ε σ) where
  get := get fun m => done (.ok m)
  set m := put m (done (.ok ⟨⟩))
  modifyGet f := get fun m => put (f m).2 (done (.ok (f m).1))

/-- A call, raising what it raises. -/
def perform (c : I.Call) : Prog I ε σ (I.Answer c) := call c done

/-- `if not c: raise e` -/
def ensure (c : Prop) [Decidable c] (e : ε) : Prog I ε σ Unit := if c then pure () else throw e

/-- A call whose exceptions are swallowed: `try: c() except Exception: pass`. -/
def attempt (c : I.Call) : Prog I ε σ Unit :=
  tryCatch (do let _ ← perform c) fun _ => pure ()

def run (env : Env I ε) : Prog I ε σ α → State I ε σ → Except ε α × State I ε σ
  | done r, s => (r, s)
  | call c k, s =>
    (k (env s.trace.length c)).run env
      ⟨s.mem, s.trace ++ [⟨c, env s.trace.length c⟩]⟩
  | get k, s => (k s.mem).run env s
  | put m k, s => k.run env ⟨m, s.trace⟩

theorem andThen_assoc {γ : Type} (p : Prog I ε σ α) (f : Except ε α → Prog I ε σ β)
    (g : Except ε β → Prog I ε σ γ) :
    (p.andThen f).andThen g = p.andThen fun r => (f r).andThen g := by
  induction p with
  | done r => rfl
  | call c k ih => exact congrArg (call c) (funext ih)
  | get k ih => exact congrArg get (funext ih)
  | put m k ih => exact congrArg (put m) ih

theorem bind_assoc {γ : Type} (p : Prog I ε σ α) (f : α → Prog I ε σ β) (g : β → Prog I ε σ γ) :
    p >>= f >>= g = p >>= fun a => f a >>= g := by
  simp only [bind, andThen_assoc]
  refine congrArg p.andThen (funext fun r => ?_)
  cases r <;> rfl

theorem run_andThen (env : Env I ε) (p : Prog I ε σ α) (f : Except ε α → Prog I ε σ β)
    (s : State I ε σ) :
    (p.andThen f).run env s = (f (p.run env s).1).run env (p.run env s).2 := by
  induction p generalizing s with
  | done r => rfl
  | call c k ih => exact ih _ _
  | get k ih => exact ih _ _
  | put m k ih => exact ih _

/-- The calls a run makes, after those made before it. -/
def calls (env : Env I ε) (p : Prog I ε σ α) (s : State I ε σ) : List (Event I ε) :=
  (p.run env s).2.trace.drop s.trace.length

theorem trace_extends (env : Env I ε) (p : Prog I ε σ α) (s : State I ε σ) :
    s.trace <+: (p.run env s).2.trace := by
  induction p generalizing s with
  | done r => exact List.prefix_refl _
  | call c k ih => exact (List.prefix_append _ _).trans (ih _ ⟨s.mem, s.trace ++ [_]⟩)
  | get k ih => exact ih _ _
  | put m k ih => exact ih ⟨m, s.trace⟩

theorem trace_eq (env : Env I ε) (p : Prog I ε σ α) (s : State I ε σ) :
    (p.run env s).2.trace = s.trace ++ p.calls env s := by
  obtain ⟨es, h⟩ := trace_extends env p s
  rw [calls, ← h, List.drop_left]

theorem calls_call (env : Env I ε) (c : I.Call) (k : Except ε (I.Answer c) → Prog I ε σ α)
    (s : State I ε σ) :
    (call c k).calls env s = ⟨c, env s.trace.length c⟩ ::
      (k (env s.trace.length c)).calls env
        ⟨s.mem, s.trace ++ [⟨c, env s.trace.length c⟩]⟩ := by
  have h := trace_eq env (call c k) s
  rw [run, trace_eq, List.append_assoc] at h
  exact (List.append_cancel_left h).symm

@[simp] theorem calls_done (env : Env I ε) (r : Except ε α) (s : State I ε σ) :
    (done r : Prog I ε σ α).calls env s = [] := by
  simp [calls, run]

theorem calls_andThen (env : Env I ε) (p : Prog I ε σ α) (f : Except ε α → Prog I ε σ β)
    (s : State I ε σ) :
    (p.andThen f).calls env s =
      p.calls env s ++ (f (p.run env s).1).calls env (p.run env s).2 := by
  have h := trace_eq env (p.andThen f) s
  rw [run_andThen, trace_eq env (f _), trace_eq env p, List.append_assoc] at h
  exact (List.append_cancel_left h).symm

/-- Every reply of a run is the environment's. -/
theorem calls_env {env : Env I ε} {p : Prog I ε σ α} {s : State I ε σ} :
    ∀ e ∈ p.calls env s, ∃ n, e.reply = env n e.call := by
  induction p generalizing s with
  | done => simp
  | call c k ih =>
    rw [calls_call]
    intro e he
    rcases List.mem_cons.mp he with rfl | he
    · exact ⟨_, rfl⟩
    · exact ih _ e he
  | get k ih => exact ih _ (s := s)
  | put m k ih => exact ih (s := ⟨m, s.trace⟩)

theorem mem_calls_bind {env : Env I ε} {p : Prog I ε σ α} {f : α → Prog I ε σ β}
    {s : State I ε σ} {e : Event I ε} :
    e ∈ (p >>= f).calls env s ↔ e ∈ p.calls env s ∨
      ∃ a, (p.run env s).1 = .ok a ∧ e ∈ (f a).calls env (p.run env s).2 := by
  simp only [bind, calls_andThen, List.mem_append]
  cases (p.run env s).1 <;> simp

theorem mem_calls_tryCatch {env : Env I ε} {p : Prog I ε σ α} {h : ε → Prog I ε σ α}
    {s : State I ε σ} {e : Event I ε} :
    e ∈ (MonadExcept.tryCatch p h).calls env s ↔ e ∈ p.calls env s ∨
      ∃ x, (p.run env s).1 = .error x ∧ e ∈ (h x).calls env (p.run env s).2 := by
  simp only [tryCatch, tryCatchThe, MonadExceptOf.tryCatch, calls_andThen, List.mem_append]
  cases (p.run env s).1 <;> simp

theorem calls_perform (env : Env I ε) (c : I.Call) (s : State I ε σ) :
    (perform c).calls env s = [⟨c, env s.trace.length c⟩] := by
  simp [calls, perform, run]

theorem calls_perform_eq {env : Env I ε} {c : I.Call} {s : State I ε σ}
    {r : Except ε (I.Answer c)} (h : ((perform c).run env s).1 = r) :
    (perform c).calls env s = [⟨c, r⟩] := by
  rw [calls_perform, ← h]
  rfl

theorem mem_calls_perform {env : Env I ε} {c : I.Call} {s : State I ε σ}
    {r : Except ε (I.Answer c)} (h : ((perform c).run env s).1 = r) :
    (⟨c, r⟩ : Event I ε) ∈ (perform c).calls env s := by
  rw [calls_perform_eq h]
  exact List.mem_singleton_self _

theorem calls_attempt (env : Env I ε) (c : I.Call) (s : State I ε σ) :
    (attempt c).calls env s = [⟨c, env s.trace.length c⟩] := by
  show (call c _).calls env s = _
  rw [calls_call]
  cases env s.trace.length c <;> exact congrArg _ (calls_done _ _ _)

/-- `P` of every call the program can make, whatever is replied and whatever
its memory holds. -/
def Only (P : I.Call → Prop) : Prog I ε σ α → Prop
  | done _ => True
  | call c k => P c ∧ ∀ r, (k r).Only P
  | get k => ∀ m, (k m).Only P
  | put _ k => k.Only P

/-- Environments that give the same replies to the calls of a run give the same
run. -/
theorem run_congr {env env' : Env I ε} (p : Prog I ε σ α) {s : State I ε σ}
    (h : ∀ n, s.trace.length ≤ n → n < (p.run env s).2.trace.length → env n = env' n) :
    p.run env s = p.run env' s := by
  induction p generalizing s with
  | done r => rfl
  | call c k ih =>
    have hlen := (trace_extends env (k (env s.trace.length c))
      ⟨s.mem, s.trace ++ [⟨c, env s.trace.length c⟩]⟩).length_le
    rw [List.length_append, List.length_singleton] at hlen
    have h0 : env s.trace.length = env' s.trace.length := h _ (Nat.le_refl _) hlen
    simp only [run, ← h0]
    refine ih _ fun n hn hlt => h n ?_ hlt
    rw [List.length_append, List.length_singleton] at hn
    omega
  | get k ih => exact ih _ h
  | put m k ih => exact ih h

namespace Only

variable {P P' : I.Call → Prop}

theorem mono (h : ∀ c, P c → P' c) {p : Prog I ε σ α} (hp : p.Only P) : p.Only P' := by
  induction p with
  | done => trivial
  | call c k ih => exact ⟨h c hp.1, fun r => ih r (hp.2 r)⟩
  | get k ih => exact fun m => ih m (hp m)
  | put m k ih => exact ih hp

theorem andThen {p : Prog I ε σ α} {f : Except ε α → Prog I ε σ β} (hp : p.Only P)
    (hf : ∀ r, (f r).Only P) : (p.andThen f).Only P := by
  induction p with
  | done r => exact hf r
  | call c k ih => exact ⟨hp.1, fun r => ih r (hp.2 r)⟩
  | get k ih => exact fun m => ih m (hp m)
  | put m k ih => exact ih hp

@[simp] theorem pure (a : α) : (Pure.pure a : Prog I ε σ α).Only P := trivial

@[simp] theorem throw (e : ε) : (MonadExcept.throw e : Prog I ε σ α).Only P := trivial

@[simp] theorem get : (MonadState.get : Prog I ε σ σ).Only P := fun _ => trivial

@[simp] theorem modify (f : σ → σ) : (modify f : Prog I ε σ PUnit).Only P :=
  fun _ => trivial

@[simp] theorem perform {c : I.Call} : (perform c : Prog I ε σ _).Only P ↔ P c :=
  ⟨fun h => h.1, fun h => ⟨h, fun _ => trivial⟩⟩

@[simp] theorem ensure (c : Prop) [Decidable c] (e : ε) :
    (ensure c e : Prog I ε σ Unit).Only P := by
  unfold Prog.ensure
  split <;> trivial

theorem bind {p : Prog I ε σ α} {f : α → Prog I ε σ β} (hp : p.Only P)
    (hf : ∀ a, (f a).Only P) : (p >>= f).Only P :=
  andThen hp fun
    | .ok a => hf a
    | .error _ => trivial

theorem tryCatch {p : Prog I ε σ α} {h : ε → Prog I ε σ α} (hp : p.Only P)
    (hh : ∀ e, (h e).Only P) : (MonadExcept.tryCatch p h).Only P :=
  andThen hp fun
    | .ok _ => trivial
    | .error e => hh e

@[simp] theorem attempt {c : I.Call} : (attempt c : Prog I ε σ _).Only P ↔ P c :=
  ⟨fun h => h.1, fun h => tryCatch (bind (perform.mpr h) fun _ => trivial) fun _ => trivial⟩

theorem forM {xs : List β} {f : β → Prog I ε σ PUnit} (h : ∀ x ∈ xs, (f x).Only P) :
    (xs.forM f).Only P := by
  induction xs with
  | nil => trivial
  | cons x xs ih =>
    exact bind (h x List.mem_cons_self) fun _ => ih fun y hy => h y (List.mem_cons_of_mem _ hy)

theorem foldlM {xs : List β} {f : α → β → Prog I ε σ α} (h : ∀ a, ∀ x ∈ xs, (f a x).Only P) :
    ∀ a, (xs.foldlM f a).Only P := by
  induction xs with
  | nil => exact fun a => trivial
  | cons x xs ih =>
    exact fun a => bind (h a x List.mem_cons_self) fun b =>
      ih (fun a y hy => h a y (List.mem_cons_of_mem _ hy)) b

theorem allM {xs : List β} {f : β → Prog I ε σ Bool} (h : ∀ x ∈ xs, (f x).Only P) :
    (xs.allM f).Only P := by
  induction xs with
  | nil => trivial
  | cons x xs ih =>
    refine bind (h x List.mem_cons_self) fun b => ?_
    cases b with
    | true => exact ih fun y hy => h y (List.mem_cons_of_mem _ hy)
    | false => trivial

theorem ite {c : Prop} [Decidable c] {p q : Prog I ε σ α} (hp : c → p.Only P)
    (hq : ¬ c → q.Only P) : (if c then p else q).Only P := by
  split
  · exact hp ‹_›
  · exact hq ‹_›

/-- Every call made is one the program can make. -/
theorem calls {p : Prog I ε σ α} (hp : p.Only P) (env : Env I ε) (s : State I ε σ) :
    ∀ e ∈ p.calls env s, P e.call := by
  induction p generalizing s with
  | done => simp
  | call c k ih =>
    intro e he
    rw [calls_call, List.mem_cons] at he
    rcases he with rfl | he
    · exact hp.1
    · exact ih _ (hp.2 _) _ e he
  | get k ih => exact ih _ (hp _) s
  | put m k ih => exact ih hp ⟨m, s.trace⟩

/-- A call that the first program cannot make is made by the second. -/
theorem mem_calls_bind {p : Prog I ε σ α} (hp : p.Only P) {f : α → Prog I ε σ β} {env : Env I ε}
    {s : State I ε σ} {e : Event I ε} (he : e ∈ (p >>= f).calls env s) (hP : ¬ P e.call) :
    ∃ a, (p.run env s).1 = .ok a ∧ e ∈ (f a).calls env (p.run env s).2 :=
  (Prog.mem_calls_bind.mp he).resolve_left fun h => hP (hp.calls env s e h)

end Only

/-- What follows a program's result is part of the whole. -/
theorem calls_bind_subset {p : Prog I ε σ α} {f : α → Prog I ε σ β} {env : Env I ε}
    {s : State I ε σ} {a : α} (ha : (p.run env s).1 = .ok a) :
    (f a).calls env (p.run env s).2 ⊆ (p >>= f).calls env s :=
  fun _ he => mem_calls_bind.mpr (.inr ⟨a, ha, he⟩)

theorem calls_bind {p : Prog I ε σ α} {f : α → Prog I ε σ β} {env : Env I ε} {s : State I ε σ}
    {a : α} (ha : (p.run env s).1 = .ok a) :
    (p >>= f).calls env s = p.calls env s ++ (f a).calls env (p.run env s).2 := by
  simp only [Bind.bind, calls_andThen, ha]

/-- A program that returns has got through its first part. -/
theorem bind_ok {p : Prog I ε σ α} {f : α → Prog I ε σ β} {env : Env I ε} {s : State I ε σ}
    {b : β} (h : ((p >>= f).run env s).1 = .ok b) :
    ∃ a, (p.run env s).1 = .ok a ∧ ((f a).run env (p.run env s).2).1 = .ok b := by
  simp only [Bind.bind, run_andThen] at h
  cases hr : (p.run env s).1 with
  | ok a =>
    rw [hr] at h
    exact ⟨a, rfl, h⟩
  | error e =>
    rw [hr] at h
    cases h

/-- A loop that returns has run its body for each element. -/
theorem forM_ok {xs : List β} {f : β → Prog I ε σ PUnit} {env : Env I ε} {s : State I ε σ}
    (h : ((xs.forM f).run env s).1 = .ok ⟨⟩) {x : β} (hx : x ∈ xs) :
    ∃ s', (f x).calls env s' ⊆ (xs.forM f).calls env s := by
  induction xs generalizing s with
  | nil => cases hx
  | cons y ys ih =>
    obtain ⟨_, hy, hys⟩ := bind_ok (p := f y) (f := fun _ => ys.forM f) h
    rcases List.mem_cons.mp hx with rfl | hx
    · exact ⟨s, fun e he => mem_calls_bind.mpr (.inl he)⟩
    · obtain ⟨s', hs'⟩ := ih hys hx
      exact ⟨s', fun e he => calls_bind_subset hy (hs' he)⟩

/-- `p` leaves the part `f` of its memory as it is. -/
def Frames {τ : Type} (f : σ → τ) (p : Prog I ε σ α) : Prop :=
  ∀ env s, f (p.run env s).2.mem = f s.mem

namespace Frames

variable {τ : Type} {f : σ → τ}

theorem pure (a : α) : (Pure.pure a : Prog I ε σ α).Frames f := fun _ _ => rfl

theorem throw (e : ε) : (MonadExcept.throw e : Prog I ε σ α).Frames f := fun _ _ => rfl

theorem get : (MonadState.get : Prog I ε σ σ).Frames f := fun _ _ => rfl

theorem modify {g : σ → σ} (h : ∀ m, f (g m) = f m) :
    (modify g : Prog I ε σ PUnit).Frames f := fun _ s => h s.mem

theorem perform (c : I.Call) : (perform c : Prog I ε σ _).Frames f := fun _ _ => rfl

theorem andThen {p : Prog I ε σ α} {k : Except ε α → Prog I ε σ β} (hp : p.Frames f)
    (hk : ∀ r, (k r).Frames f) : (p.andThen k).Frames f := fun env s => by
  rw [run_andThen, hk, hp]

theorem bind {p : Prog I ε σ α} {k : α → Prog I ε σ β} (hp : p.Frames f)
    (hk : ∀ a, (k a).Frames f) : (p >>= k).Frames f :=
  andThen hp fun
    | .ok a => hk a
    | .error _ => fun _ _ => rfl

theorem tryCatch {p : Prog I ε σ α} {h : ε → Prog I ε σ α} (hp : p.Frames f)
    (hh : ∀ e, (h e).Frames f) : (MonadExcept.tryCatch p h).Frames f :=
  andThen hp fun
    | .ok _ => fun _ _ => rfl
    | .error e => hh e

theorem attempt (c : I.Call) : (attempt c : Prog I ε σ _).Frames f :=
  tryCatch (bind (perform c) fun _ => pure _) fun _ => pure _

theorem forM {xs : List β} {g : β → Prog I ε σ PUnit} (h : ∀ x ∈ xs, (g x).Frames f) :
    (xs.forM g).Frames f := by
  induction xs with
  | nil => exact pure _
  | cons x xs ih =>
    exact bind (h x List.mem_cons_self) fun _ => ih fun y hy => h y (List.mem_cons_of_mem _ hy)

theorem foldlM {xs : List β} {g : α → β → Prog I ε σ α} (h : ∀ a, ∀ x ∈ xs, (g a x).Frames f) :
    ∀ a, (xs.foldlM g a).Frames f := by
  induction xs with
  | nil => exact fun a => pure _
  | cons x xs ih =>
    exact fun a => bind (h a x List.mem_cons_self) fun b =>
      ih (fun a y hy => h a y (List.mem_cons_of_mem _ hy)) b

theorem allM {xs : List β} {g : β → Prog I ε σ Bool} (h : ∀ x ∈ xs, (g x).Frames f) :
    (xs.allM g).Frames f := by
  induction xs with
  | nil => exact pure _
  | cons x xs ih =>
    refine bind (h x List.mem_cons_self) fun b => ?_
    cases b with
    | true => exact ih fun y hy => h y (List.mem_cons_of_mem _ hy)
    | false => exact pure _

theorem ite {c : Prop} [Decidable c] {p q : Prog I ε σ α} (hp : p.Frames f) (hq : q.Frames f) :
    (if c then p else q).Frames f := by
  split
  · exact hp
  · exact hq

end Frames

/-- Whatever is replied, `p` returns nothing but what meets `P`. -/
def Returns (P : α → Prop) (p : Prog I ε σ α) : Prop :=
  ∀ env s a, (p.run env s).1 = .ok a → P a

namespace Returns

variable {P : α → Prop} {p : Prog I ε σ α}

theorem any (p : Prog I ε σ α) : p.Returns fun _ => True := fun _ _ _ _ => trivial

theorem pure {a : α} (h : P a) : (Pure.pure a : Prog I ε σ α).Returns P :=
  fun _ _ _ hr => Except.ok.inj hr ▸ h

theorem ensure (c : Prop) [Decidable c] (e : ε) :
    (ensure c e : Prog I ε σ Unit).Returns fun _ => c := fun env s a h => by
  unfold Prog.ensure at h
  split at h
  · assumption
  · cases h

theorem bind {P' : β → Prop} {f : α → Prog I ε σ β} (hp : p.Returns P)
    (hf : ∀ a, P a → (f a).Returns P') : (p >>= f).Returns P' := fun env s b h => by
  obtain ⟨a, ha, hb⟩ := bind_ok h
  exact hf a (hp env s a ha) _ _ b hb

theorem ite {c : Prop} [Decidable c] {q : Prog I ε σ α} (hp : c → p.Returns P)
    (hq : ¬ c → q.Returns P) : (if c then p else q).Returns P := by
  split
  · exact hp ‹_›
  · exact hq ‹_›

end Returns

/-- Whatever is replied, `p` keeps a fact about its memory and the calls made so
far. -/
def Preserves (J : State I ε σ → Prop) (p : Prog I ε σ α) : Prop :=
  ∀ env s, J s → J (p.run env s).2

namespace Preserves

variable {J : State I ε σ → Prop}

theorem pure (a : α) : (Pure.pure a : Prog I ε σ α).Preserves J := fun _ _ hs => hs

theorem get : (MonadState.get : Prog I ε σ σ).Preserves J := fun _ _ hs => hs

theorem modify {g : σ → σ} (h : ∀ s, J s → J ⟨g s.mem, s.trace⟩) :
    (modify g : Prog I ε σ PUnit).Preserves J := fun _ s hs => h s hs

theorem perform {c : I.Call} (h : ∀ s r, J s → J ⟨s.mem, s.trace ++ [⟨c, r⟩]⟩) :
    (perform c : Prog I ε σ _).Preserves J := fun _ s hs => h s _ hs

theorem andThen {p : Prog I ε σ α} {k : Except ε α → Prog I ε σ β} (hp : p.Preserves J)
    (hk : ∀ r, (k r).Preserves J) : (p.andThen k).Preserves J := fun env s hs => by
  rw [run_andThen]
  exact hk _ _ _ (hp env s hs)

theorem bind {p : Prog I ε σ α} {k : α → Prog I ε σ β} (hp : p.Preserves J)
    (hk : ∀ a, (k a).Preserves J) : (p >>= k).Preserves J :=
  andThen hp fun
    | .ok a => hk a
    | .error _ => fun _ _ hs => hs

theorem tryCatch {p : Prog I ε σ α} {h : ε → Prog I ε σ α} (hp : p.Preserves J)
    (hh : ∀ e, (h e).Preserves J) : (MonadExcept.tryCatch p h).Preserves J :=
  andThen hp fun
    | .ok _ => fun _ _ hs => hs
    | .error e => hh e

theorem attempt {c : I.Call} (h : ∀ s r, J s → J ⟨s.mem, s.trace ++ [⟨c, r⟩]⟩) :
    (attempt c : Prog I ε σ _).Preserves J :=
  tryCatch (bind (perform h) fun _ => pure _) fun _ => pure _

theorem forM {xs : List β} {g : β → Prog I ε σ PUnit} (h : ∀ x ∈ xs, (g x).Preserves J) :
    (xs.forM g).Preserves J := by
  induction xs with
  | nil => exact pure _
  | cons x xs ih =>
    exact bind (h x List.mem_cons_self) fun _ => ih fun y hy => h y (List.mem_cons_of_mem _ hy)

theorem ite {c : Prop} [Decidable c] {p q : Prog I ε σ α} (hp : c → p.Preserves J)
    (hq : ¬ c → q.Preserves J) : (if c then p else q).Preserves J := by
  split
  · exact hp ‹_›
  · exact hq ‹_›

/-- Calls `P` that leave the part `f` of the memory as it is. -/
theorem of_frame {τ : Type} {f : σ → τ} {P : I.Call → Prop} {p : Prog I ε σ α} (ho : p.Only P)
    (hf : p.Frames f)
    (h : ∀ s s' es, J s → f s'.mem = f s.mem → s'.trace = s.trace ++ es → (∀ e ∈ es, P e.call) →
      J s') : p.Preserves J :=
  fun env s hs => h s _ (p.calls env s) hs (hf env s) (p.trace_eq env s) (ho.calls env s)

end Preserves

end Prog

/-- `p`, run from `s` under `env`, ends as `Q` says. -/
def WP (env : Env I ε) (p : Prog I ε σ α) (s : State I ε σ)
    (Q : Except ε α → State I ε σ → Prop) : Prop :=
  Q (p.run env s).1 (p.run env s).2

namespace WP

variable {env : Env I ε} {p : Prog I ε σ α} {s : State I ε σ}

theorem mono {Q Q' : Except ε α → State I ε σ → Prop} (h : WP env p s Q)
    (hQ : ∀ r s', Q r s' → Q' r s') : WP env p s Q' := hQ _ _ h

theorem of_forall {Q : Except ε α → State I ε σ → Prop} (h : ∀ r s', Q r s') : WP env p s Q := h _ _

theorem and {Q Q' : Except ε α → State I ε σ → Prop} (h : WP env p s Q) (h' : WP env p s Q') :
    WP env p s fun r s' => Q r s' ∧ Q' r s' := ⟨h, h'⟩

@[simp] theorem pure_iff {a : α} {Q : Except ε α → State I ε σ → Prop} :
    WP env (pure a) s Q ↔ Q (.ok a) s := Iff.rfl

@[simp] theorem throw_iff {e : ε} {Q : Except ε α → State I ε σ → Prop} :
    WP env (throw e) s Q ↔ Q (.error e) s := Iff.rfl

@[simp] theorem get_iff {Q : Except ε σ → State I ε σ → Prop} :
    WP env (MonadState.get : Prog I ε σ σ) s Q ↔ Q (.ok s.mem) s := Iff.rfl

@[simp] theorem modify_iff {f : σ → σ} {Q : Except ε PUnit → State I ε σ → Prop} :
    WP env (modify f : Prog I ε σ PUnit) s Q ↔ Q (.ok ⟨⟩) ⟨f s.mem, s.trace⟩ := Iff.rfl

@[simp] theorem perform_iff {c : I.Call} {Q : Except ε (I.Answer c) → State I ε σ → Prop} :
    WP env (Prog.perform c) s Q ↔
      Q (env s.trace.length c) ⟨s.mem, s.trace ++ [⟨c, env s.trace.length c⟩]⟩ := Iff.rfl

theorem bind_iff {f : α → Prog I ε σ β} {Q : Except ε β → State I ε σ → Prop} :
    WP env (p >>= f) s Q ↔ WP env p s fun r s' =>
      match r with
      | .ok a => WP env (f a) s' Q
      | .error e => Q (.error e) s' := by
  show Q _ _ ↔ _
  simp only [bind, Prog.run_andThen, WP]
  cases (p.run env s).1 <;> exact Iff.rfl

theorem tryCatch_iff {h : ε → Prog I ε σ α} {Q : Except ε α → State I ε σ → Prop} :
    WP env (tryCatch p h) s Q ↔ WP env p s fun r s' =>
      match r with
      | .ok a => Q (.ok a) s'
      | .error e => WP env (h e) s' Q := by
  show Q _ _ ↔ _
  simp only [tryCatch, tryCatchThe, MonadExceptOf.tryCatch, Prog.run_andThen, WP]
  cases (p.run env s).1 <;> exact Iff.rfl

/-- A swallowed call is made, whatever comes back. -/
@[simp] theorem attempt_iff {c : I.Call} {Q : Except ε Unit → State I ε σ → Prop} :
    WP env (Prog.attempt c) s Q ↔
      Q (.ok ()) ⟨s.mem, s.trace ++ [⟨c, env s.trace.length c⟩]⟩ := by
  simp only [Prog.attempt, tryCatch_iff, bind_iff, perform_iff]
  cases env s.trace.length c <;> exact Iff.rfl

theorem ensure_iff {c : Prop} [Decidable c] {e : ε} {Q : Except ε Unit → State I ε σ → Prop} :
    WP env (Prog.ensure c e) s Q ↔ (c → Q (.ok ()) s) ∧ (¬ c → Q (.error e) s) := by
  unfold Prog.ensure
  split
  · rename_i h
    exact ⟨fun hq => ⟨fun _ => hq, fun hn => absurd h hn⟩, fun hq => hq.1 h⟩
  · rename_i h
    exact ⟨fun hq => ⟨fun hc => absurd hc h, fun _ => hq⟩, fun hq => hq.2 h⟩

/-- A program that makes only calls `P` and leaves `f` of the memory as it is. -/
theorem of_frame {τ : Type} {f : σ → τ} {P : I.Call → Prop} {Q : Except ε α → State I ε σ → Prop}
    (ho : p.Only P) (hf : p.Frames f)
    (h : ∀ r s' es, f s'.mem = f s.mem → s'.trace = s.trace ++ es → (∀ e ∈ es, P e.call) →
      Q r s') : WP env p s Q :=
  h _ _ (p.calls env s) (hf env s) (p.trace_eq env s) (ho.calls env s)

theorem foldlM {xs : List β} {f : α → β → Prog I ε σ α} {a : α}
    (Inv : List β → α → State I ε σ → Prop) {Q : Except ε α → State I ε σ → Prop}
    (h0 : Inv xs a s)
    (hstep : ∀ x xs a s, Inv (x :: xs) a s → WP env (f a x) s fun r s' =>
      match r with
      | .ok b => Inv xs b s'
      | .error e => Q (.error e) s')
    (hQ : ∀ a s, Inv [] a s → Q (.ok a) s) : WP env (xs.foldlM f a) s Q := by
  induction xs generalizing a s with
  | nil => exact hQ a s h0
  | cons x xs ih =>
    rw [List.foldlM_cons, bind_iff]
    refine mono (hstep x xs a s h0) fun r s' hr => ?_
    cases r with
    | ok => exact ih hr
    | error => exact hr

/-- A loop that asks of each element in turn, and stops at the first that says
no. -/
theorem allM {xs : List β} {f : β → Prog I ε σ Bool} (Inv : List β → State I ε σ → Prop)
    {Q : Except ε Bool → State I ε σ → Prop} (h0 : Inv xs s)
    (hstep : ∀ x xs s, Inv (x :: xs) s → WP env (f x) s fun r s' =>
      match r with
      | .ok true => Inv xs s'
      | r => Q r s')
    (hQ : ∀ s, Inv [] s → Q (.ok true) s) : WP env (xs.allM f) s Q := by
  induction xs generalizing s with
  | nil => exact hQ s h0
  | cons x xs ih =>
    show WP env (f x >>= fun b => match b with
      | true => xs.allM f
      | false => pure false) s Q
    rw [bind_iff]
    refine mono (hstep x xs s h0) fun r s' hr => ?_
    rcases r with e | (_ | _)
    · exact hr
    · exact hr
    · exact ih hr

/-- A loop: what holds before an element's turn, of the elements left, holds
after it, unless the body raises. -/
theorem forM {xs : List β} {f : β → Prog I ε σ PUnit} (Inv : List β → State I ε σ → Prop)
    {Q : Except ε PUnit → State I ε σ → Prop} (h0 : Inv xs s)
    (hstep : ∀ x xs s, Inv (x :: xs) s → WP env (f x) s fun r s' =>
      match r with
      | .ok _ => Inv xs s'
      | .error e => Q (.error e) s')
    (hQ : ∀ s, Inv [] s → Q (.ok ⟨⟩) s) : WP env (xs.forM f) s Q := by
  induction xs generalizing s with
  | nil => exact hQ s h0
  | cons x xs ih =>
    show WP env (f x >>= fun _ => xs.forM f) s Q
    rw [bind_iff]
    refine mono (hstep x xs s h0) fun r s' hr => ?_
    cases r with
    | ok => exact ih hr
    | error => exact hr

end WP

end Kelpflux.Framework
