import Kelpflux.Framework.Loop

/-!
# What a program emits, at most

Some calls of a program stand for outputs (`emitted`). `Prog.Emits f p L`:
whatever is replied, the outputs of a run of `p` are some of `L`, in `L`'s
order. One rule for each way of building a program.
-/

namespace Kelpflux.Framework

variable {I : Interface} {ε σ α β γ δ : Type}

/-- The outputs among the calls of a run. -/
def emitted (f : I.Call → Option γ) (es : List (Event I ε)) : List γ :=
  es.filterMap fun e => f e.call

@[simp] theorem emitted_append (f : I.Call → Option γ) (es es' : List (Event I ε)) :
    emitted f (es ++ es') = emitted f es ++ emitted f es' :=
  List.filterMap_append

theorem mem_emitted {f : I.Call → Option γ} {es : List (Event I ε)} {x : γ} :
    x ∈ emitted f es ↔ ∃ e ∈ es, f e.call = some x :=
  List.mem_filterMap

namespace Prog

variable {f : I.Call → Option γ}

def Emits (f : I.Call → Option γ) (p : Prog I ε σ α) (L : List γ) : Prop :=
  ∀ env s, (emitted f (p.calls env s)).Sublist L

namespace Emits

variable {p : Prog I ε σ α} {L L' : List γ}

theorem mono (h : p.Emits f L) (hL : L.Sublist L') : p.Emits f L' :=
  fun env s => (h env s).trans hL

theorem pure (a : α) : (Pure.pure a : Prog I ε σ α).Emits f L := fun env s => by
  rw [show (Pure.pure a : Prog I ε σ α).calls env s = [] from calls_done env _ s]
  exact List.nil_sublist L

theorem perform (c : I.Call) : (perform c : Prog I ε σ _).Emits f (f c).toList := fun env s => by
  rw [calls_perform]
  cases hc : f c <;> simp [emitted, hc]

/-- Programs whose calls stand for no output. -/
theorem of_only (h : p.Only fun c => f c = none) : p.Emits f L := fun env s => by
  have hnil : emitted f (p.calls env s) = [] :=
    List.filterMap_eq_nil_iff.mpr fun e he => h.calls env s e he
  rw [hnil]
  exact List.nil_sublist L

theorem andThen {k : Except ε α → Prog I ε σ β} (hp : p.Emits f L) (hk : ∀ r, (k r).Emits f L') :
    (p.andThen k).Emits f (L ++ L') := fun env s => by
  rw [calls_andThen, emitted_append]
  exact (hp env s).append (hk _ env _)

theorem bind {k : α → Prog I ε σ β} (hp : p.Emits f L) (hk : ∀ a, (k a).Emits f L') :
    (p >>= k).Emits f (L ++ L') :=
  andThen hp fun
    | .ok a => hk a
    | .error e => of_only (p := done (.error e)) trivial

theorem ite {c : Prop} [Decidable c] {q : Prog I ε σ α} (hp : p.Emits f L) (hq : q.Emits f L) :
    (if c then p else q).Emits f L := by
  split
  · exact hp
  · exact hq

/-- A loop of which each element's turn emits at most the element's own. -/
theorem forM {g : δ → Prog I ε σ PUnit} {out : δ → List γ} (h : ∀ x, (g x).Emits f (out x)) :
    ∀ xs : List δ, (xs.forM g).Emits f (xs.flatMap out)
  | [] => pure _
  | x :: xs => bind (h x) fun _ => forM h xs

end Emits

end Prog

end Kelpflux.Framework
