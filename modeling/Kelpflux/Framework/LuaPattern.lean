import Kelpflux.Framework.Python

/-!
# Lua's patterns

`string.match` with one capture, as the matcher of Lua's library finds it: a
repeated class takes as much as it can and gives back one character at a time
(`expand`), and the first place of the text that matches is taken. A matcher
calls what comes after it with the rest of the text. A repetition that nothing
can follow inside its own class gives nothing back (`expand_eq`).
-/

namespace Kelpflux.Framework.Lua

open Framework.Python (search)

/-- How often a class matches: once, `*`, `+` and `?`. -/
inductive Rep where
  | one
  | star
  | plus
  | opt
deriving DecidableEq

/-- A single character class, and how often it matches. -/
structure Item where
  cls : Char → Bool
  rep : Rep := .one

/-- `%s` -/
def isSpace (c : Char) : Bool := c = ' ' || (9 ≤ c.toNat && c.toNat ≤ 13)

/-- A class of one character. -/
def one (c : Char) : Item where
  cls := (· = c)

/-- A text without magic characters. -/
def lit (s : String) : List Item := s.toList.map one

/-- `tonumber`, of digits. -/
def digitsValue (ds : List Char) : Nat :=
  ds.foldl (fun n d => 10 * n + (d.toNat - '0'.toNat)) 0

section Match

variable {β : Type}

/-- `max_expand`: the longest run of a class after which `k` matches. -/
def expand (cls : Char → Bool) (k : List Char → Option β) : List Char → Option β
  | [] => k []
  | c :: cs => if cls c then (expand cls k cs).or (k (c :: cs)) else k (c :: cs)

/-- A class, and `k` after it. -/
def single (cls : Char → Bool) (k : List Char → Option β) : List Char → Option β
  | [] => none
  | c :: cs => if cls c then k cs else none

/-- `do_match` of one item, and `k` after it. -/
def Item.run (i : Item) (k : List Char → Option β) (cs : List Char) : Option β :=
  match i.rep with
  | .one => single i.cls k cs
  | .star => expand i.cls k cs
  | .plus => single i.cls (expand i.cls k) cs
  | .opt => (single i.cls k cs).or (k cs)

/-- `do_match` of a pattern without captures, and `k` after it. -/
def run (p : List Item) (k : List Char → Option β) : List Char → Option β := p.foldr Item.run k

end Match

/-- A pattern with one capture: `pre(cap)post`. -/
structure Pattern where
  pre : List Item
  cap : List Item
  post : List Item := []

/-- What the capture holds where the pattern matches at the start of a text. -/
def Pattern.captureAt (p : Pattern) : List Char → Option (List Char) :=
  run p.pre fun start => run p.cap (fun stop =>
    run p.post (fun _ => some (start.take (start.length - stop.length))) stop) start

/-- `string.match(s, p)` -/
def Pattern.capture (p : Pattern) (s : List Char) : Option (List Char) := search p.captureAt s

/-- Whether `string.match(s, p)` finds the pattern `p`, which has no captures. -/
def isMatch (p : List Item) (s : List Char) : Bool := (search (run p some) s).isSome

/-! ## Rules -/

section Rules

variable {β : Type} {cls : Char → Bool} {k : List Char → Option β} {cs : List Char}

@[simp] theorem run_nil : run [] k = k := rfl

@[simp] theorem run_cons {i : Item} {p : List Item} : run (i :: p) k = i.run (run p k) := rfl

theorem run_append {p q : List Item} : run (p ++ q) k = run p (run q k) :=
  List.foldr_append

/-- A repetition takes all it can, if what follows it cannot start inside. -/
theorem expand_eq (h : ∀ c cs, cls c = true → k (c :: cs) = none) :
    expand cls k cs = k (cs.dropWhile cls) := by
  induction cs with
  | nil => rfl
  | cons c cs ih =>
    rw [expand, List.dropWhile_cons]
    split
    · rename_i hc
      rw [ih, h c cs hc, Option.or_none]
    · rfl

/-- A repetition takes all it can, if what follows it matches there. -/
theorem expand_eq_some {b : β} (h : k (cs.dropWhile cls) = some b) : expand cls k cs = some b := by
  induction cs with
  | nil => exact h
  | cons c cs ih =>
    rw [expand]
    rw [List.dropWhile_cons] at h
    split
    · rename_i hc
      rw [if_pos hc] at h
      rw [ih h, Option.some_or]
    · rename_i hc
      rwa [if_neg hc] at h

theorem run_lit {s : String} :
    run (lit s) k cs = if s.toList <+: cs then k (cs.drop s.length) else none := by
  unfold lit
  rw [← String.length_toList]
  generalize s.toList = l
  induction l generalizing cs with
  | nil => simp
  | cons a l ih =>
    rw [List.map_cons, run_cons]
    show single _ _ cs = _
    cases cs with
    | nil => simp [single]
    | cons c cs =>
      rw [single]
      by_cases hc : c = a
      · subst hc
        have hself : (one c).cls c = true := decide_eq_true rfl
        rw [if_pos hself, ih]
        simp only [List.cons_prefix_cons, true_and, List.length_cons, List.drop_succ_cons]
      · rw [if_neg (by simpa [one] using hc), if_neg fun h => hc (List.cons_prefix_cons.mp h).1.symm]

@[simp] theorem run_one {c : Char} : (one c).run k (c :: cs) = k cs :=
  if_pos (decide_eq_true rfl)

@[simp] theorem run_lit_append {s : String} : run (lit s) k (s.toList ++ cs) = k cs := by
  rw [run_lit, if_pos (List.prefix_append _ _), ← String.length_toList, List.drop_left]

/-- A repetition that does not start takes nothing. -/
theorem expand_cons_of_not {c : Char} (hc : cls c = false) : expand cls k (c :: cs) = k (c :: cs) := by
  rw [expand, hc, if_neg Bool.false_ne_true]

/-! What a match says about the text. -/

theorem of_run_one {c : Char} (h : (one c).run k cs ≠ none) : ∃ cs', cs = c :: cs' ∧ k cs' ≠ none := by
  cases cs with
  | nil => exact absurd rfl h
  | cons d cs =>
    change (if decide (d = c) = true then k cs else none) ≠ none at h
    split at h
    · rename_i hd
      exact ⟨cs, by rw [of_decide_eq_true hd], h⟩
    · exact absurd rfl h

theorem of_run_lit {s : String} (h : run (lit s) k cs ≠ none) :
    ∃ cs', cs = s.toList ++ cs' ∧ k cs' ≠ none := by
  rw [run_lit] at h
  split at h
  · rename_i hp
    obtain ⟨cs', rfl⟩ := hp
    rw [← String.length_toList, List.drop_left] at h
    exact ⟨cs', rfl, h⟩
  · exact absurd rfl h

theorem of_expand (h : expand cls k cs ≠ none) :
    ∃ sp cs', cs = sp ++ cs' ∧ (∀ c ∈ sp, cls c = true) ∧ k cs' ≠ none := by
  induction cs with
  | nil => exact ⟨[], [], rfl, nofun, h⟩
  | cons c cs ih =>
    rw [expand] at h
    split at h
    · rename_i hc
      by_cases hrest : expand cls k cs = none
      · rw [hrest, Option.none_or] at h
        exact ⟨[], _, rfl, nofun, h⟩
      · obtain ⟨sp, cs', rfl, hsp, hk⟩ := ih hrest
        exact ⟨c :: sp, cs', rfl, List.forall_mem_cons.mpr ⟨hc, hsp⟩, hk⟩
    · exact ⟨[], _, rfl, nofun, h⟩

/-- A class that is repeated from once on takes all it can, if what follows it
cannot start inside, or always matches. -/
theorem plus_eq (h : (∀ c cs, cls c = true → k (c :: cs) = none) ∨ ∀ cs, (k cs).isSome = true) :
    single cls (expand cls k) cs =
      if cs.takeWhile cls = [] then none else k (cs.dropWhile cls) := by
  cases cs with
  | nil => rfl
  | cons c cs =>
    rw [single, List.takeWhile_cons, List.dropWhile_cons]
    split
    · rw [if_neg (List.cons_ne_nil _ _)]
      rcases h with h | h
      · exact expand_eq h
      · obtain ⟨b, hb⟩ := Option.isSome_iff_exists.mp (h (cs.dropWhile cls))
        rw [hb, expand_eq_some hb]
    · rfl

end Rules

theorem take_dropWhile (cls : Char → Bool) (cs : List Char) :
    cs.take (cs.length - (cs.dropWhile cls).length) = cs.takeWhile cls := by
  have hlen := congrArg List.length (@List.takeWhile_append_dropWhile _ cls cs)
  rw [List.length_append] at hlen
  rw [show cs.length - (cs.dropWhile cls).length = (cs.takeWhile cls).length by omega]
  exact (List.prefix_iff_eq_take.mp (List.takeWhile_prefix cls)).symm

/-- A pattern that captures a class repeated from once on. -/
theorem captureAt_plus {pre post : List Item} {cls : Char → Bool} {cs : List Char}
    (h : (∀ c cs (x : List Char), cls c = true → run post (fun _ => some x) (c :: cs) = none) ∨
      ∀ cs (x : List Char), (run post (fun _ => some x) cs).isSome = true) :
    (Pattern.mk pre [{ cls, rep := .plus }] post).captureAt cs =
      run pre (fun start => if start.takeWhile cls = [] then none
        else run post (fun _ => some (start.takeWhile cls)) (start.dropWhile cls)) cs := by
  unfold Pattern.captureAt
  congr 1
  funext start
  show single cls (expand cls _) start = _
  rw [plus_eq]
  · show (if start.takeWhile cls = [] then none
      else run post (fun _ => some (start.take (start.length - (start.dropWhile cls).length)))
        (start.dropWhile cls)) = _
    rw [take_dropWhile]
  · rcases h with h | h
    · exact .inl fun c cs hc => h c cs _ hc
    · exact .inr fun cs => h cs _

section Search

open Framework.Python

variable {α : Type} {p : List Char → Option α} {cs : List Char}

theorem map_search {β : Type} (f : α → β) :
    (search p cs).map f = search (fun cs => (p cs).map f) cs := by
  induction cs with
  | nil => rfl
  | cons c cs ih =>
    rw [search, search, ← ih]
    cases p (c :: cs) <;> rfl

/-- What is found is found somewhere. -/
theorem of_search (h : search p cs ≠ none) : ∃ s, s <:+ cs ∧ p s ≠ none := by
  induction cs with
  | nil => exact ⟨[], List.suffix_rfl, h⟩
  | cons c cs ih =>
    by_cases hp : p (c :: cs) = none
    · rw [search, hp, Option.none_or] at h
      obtain ⟨s, hs, hsome⟩ := ih h
      exact ⟨s, hs.trans (List.suffix_cons c cs), hsome⟩
    · exact ⟨c :: cs, List.suffix_rfl, hp⟩

end Search

end Kelpflux.Framework.Lua
