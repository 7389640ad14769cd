import Mathlib.Data.List.Basic

/-!
# The words of a shell command

How a POSIX shell breaks a command into words: at blanks, but for those that a
backslash, apostrophes or quotes keep. Where a character has another meaning (an
operator, an expansion, a pattern or a comment), the reading stops (`step`), and
what is read so far stands. A text in apostrophes, with each of its own replaced by
`'\''`, is read as it is: `readsAs_singleQuoted`.
-/

namespace Kelpflux.Framework.Shell

def apostrophe : Char := '\x27'

def quote : Char := '\x22'

def backtick : Char := '\x60'

inductive Mode where
  | plain
  | escape
  | single
  | double
  | doubleEscape
deriving DecidableEq

/-- The words read, and the word that is being read, if one has started. -/
structure State where
  words : List (List Char)
  word : Option (List Char)
  mode : Mode
deriving DecidableEq

/-- The start of a command, or of a word after others. -/
def State.between (words : List (List Char)) : State := ⟨words, none, .plain⟩

/-- A character more of the word. -/
def State.push (s : State) (c : Char) (mode : Mode) : State :=
  ⟨s.words, some (s.word.getD [] ++ [c]), mode⟩

/-- A change of quoting, inside the word that it starts or goes on. -/
def State.enter (s : State) (mode : Mode) : State := ⟨s.words, some (s.word.getD []), mode⟩

/-- The end of the word, if one has started. -/
def State.finish (s : State) : State := .between (s.words ++ s.word.toList)

def isBlank (c : Char) : Bool := c = ' ' || c = '\t'

/-- The characters that mean something to the shell where nothing quotes them. -/
def specials : List Char := backtick :: "\n|&;<>()$*?[#~=%".toList

def isSpecial (c : Char) : Bool := specials.contains c

/-- One character of a command, if it does not mean more than a word's text. -/
def step (s : State) (c : Char) : Option State :=
  match s.mode with
  | .plain =>
    if isBlank c then some s.finish
    else if c = '\\' then some { s with mode := .escape }
    else if c = apostrophe then some (s.enter .single)
    else if c = quote then some (s.enter .double)
    else if isSpecial c then none
    else some (s.push c .plain)
  | .escape => if c = '\n' then some { s with mode := .plain } else some (s.push c .plain)
  | .single => if c = apostrophe then some (s.enter .plain) else some (s.push c .single)
  | .double =>
    if c = quote then some (s.enter .plain)
    else if c = '\\' then some { s with mode := .doubleEscape }
    else if c = '$' ∨ c = backtick then none
    else some (s.push c .double)
  | .doubleEscape =>
    if c = '\n' then some { s with mode := .double }
    else if c = '$' ∨ c = backtick ∨ c = quote ∨ c = '\\' then some (s.push c .double)
    else some ((s.push '\\' .double).push c .double)

/-- The state after a text. -/
def run (s : State) (cs : List Char) : Option State := cs.foldlM step s

@[simp] theorem run_nil (s : State) : run s [] = some s := rfl

theorem run_cons (s : State) (c : Char) (cs : List Char) :
    run s (c :: cs) = (step s c).bind fun s' => run s' cs := List.foldlM_cons

theorem run_append {s : State} {xs ys : List Char} :
    run s (xs ++ ys) = (run s xs).bind fun s' => run s' ys := List.foldlM_append

/-- A text is read as a part of a word, and as the text `w` there. -/
def ReadsAs (text w : List Char) : Prop :=
  ∀ s : State, s.mode = .plain → run s text = some ⟨s.words, some (s.word.getD [] ++ w), .plain⟩

/-! ## Quoting -/

/-- `c` is read as itself where nothing quotes it. -/
def isPlain (c : Char) : Bool :=
  !isBlank c && c ≠ '\\' && c ≠ apostrophe && c ≠ quote && !isSpecial c

theorem step_plain {s : State} (hmode : s.mode = .plain) {c : Char} (hc : isPlain c = true) :
    step s c = some (s.push c .plain) := by
  simp only [isPlain, Bool.and_eq_true, Bool.not_eq_true', decide_eq_true_eq] at hc
  obtain ⟨⟨⟨⟨hblank, hback⟩, hapos⟩, hquote⟩, hspecial⟩ := hc
  unfold step
  simp only [hmode, hblank, hback, hapos, hquote, hspecial, Bool.false_eq_true, if_false]

/-- A text of a word's characters only. -/
theorem readsAs_plain {cs : List Char} (hne : cs ≠ []) (hcs : ∀ c ∈ cs, isPlain c = true) :
    ReadsAs cs cs := by
  intro s hmode
  induction cs generalizing s with
  | nil => exact absurd rfl hne
  | cons c cs ih =>
    obtain ⟨hc, hcs⟩ := List.forall_mem_cons.mp hcs
    rw [run_cons, step_plain hmode hc, Option.bind_some]
    cases cs with
    | nil => rfl
    | cons c' cs =>
      rw [ih (List.cons_ne_nil _ _) hcs _ rfl]
      show some (State.mk _ (some ((s.word.getD [] ++ [c]) ++ c' :: cs)) _) = _
      rw [List.append_assoc]
      rfl

/-- A text in apostrophes, each of its own replaced. -/
def singleQuoted (text : List Char) : List Char :=
  apostrophe :: (text.flatMap (fun c => if c = apostrophe then "'\\''".toList else [c]) ++ [apostrophe])

theorem step_single {words : List (List Char)} {w : List Char} {c : Char} (hc : c ≠ apostrophe) :
    step ⟨words, some w, .single⟩ c = some ⟨words, some (w ++ [c]), .single⟩ :=
  if_neg hc

/-- Inside apostrophes, the text is read up to the closing one. -/
theorem run_single (text : List Char) (words : List (List Char)) (w : List Char) :
    run ⟨words, some w, .single⟩
      (text.flatMap fun c => if c = apostrophe then "'\\''".toList else [c]) =
      some ⟨words, some (w ++ text), .single⟩ := by
  induction text generalizing w with
  | nil => rw [List.append_nil]; rfl
  | cons c text ih =>
    have hstep : run ⟨words, some w, .single⟩ (if c = apostrophe then "'\\''".toList else [c]) =
        some ⟨words, some (w ++ [c]), .single⟩ := by
      by_cases hc : c = apostrophe
      · subst hc
        rw [if_pos rfl]
        rfl
      · rw [if_neg hc, run_cons, step_single hc]
        rfl
    rw [List.flatMap_cons, run_append, hstep, Option.bind_some, ih, List.append_assoc]
    rfl

theorem readsAs_singleQuoted (text : List Char) : ReadsAs (singleQuoted text) text := by
  intro s hmode
  have hopen : step s apostrophe = some ⟨s.words, some (s.word.getD []), .single⟩ := by
    unfold step
    rw [hmode]
    rfl
  rw [singleQuoted, run_cons, hopen, Option.bind_some, run_append, run_single]
  rfl

example : run (.between []) (singleQuoted "a'; $(b) \\".toList ++ [' ']) =
    some (.between ["a'; $(b) \\".toList]) := by decide

/-- A character that means nothing between quotes. -/
def isLiteral (c : Char) : Bool := c ≠ '$' && c ≠ backtick && c ≠ '\n'

/-- A text between quotes, with a backslash before each quote and backslash. -/
def doubleQuoted (text : List Char) : List Char :=
  quote :: (text.flatMap (fun c => if c = quote ∨ c = '\\' then ['\\', c] else [c]) ++ [quote])

theorem readsAs_doubleQuoted {text : List Char} (htext : ∀ c ∈ text, isLiteral c = true) :
    ReadsAs (doubleQuoted text) text := by
  have hinside : ∀ (words : List (List Char)) (w : List Char),
      run ⟨words, some w, .double⟩
        (text.flatMap fun c => if c = quote ∨ c = '\\' then ['\\', c] else [c]) =
        some ⟨words, some (w ++ text), .double⟩ := by
    intro words w
    induction text generalizing w with
    | nil => rw [List.append_nil]; rfl
    | cons c text ih =>
      obtain ⟨hc, htext⟩ := List.forall_mem_cons.mp htext
      have hstep : run ⟨words, some w, .double⟩ (if c = quote ∨ c = '\\' then ['\\', c] else [c]) =
          some ⟨words, some (w ++ [c]), .double⟩ := by
        by_cases hquote : c = quote
        · subst hquote
          rfl
        · by_cases hback : c = '\\'
          · subst hback
            rfl
          · simp only [isLiteral, Bool.and_eq_true, decide_eq_true_eq] at hc
            rw [if_neg (not_or.mpr ⟨hquote, hback⟩), run_cons]
            unfold step
            simp only [hquote, hback, hc.1.1, hc.1.2, or_self, if_false]
            rfl
      rw [List.flatMap_cons, run_append, hstep, Option.bind_some, ih htext, List.append_assoc]
      rfl
  intro s hmode
  have hopen : step s quote = some ⟨s.words, some (s.word.getD []), .double⟩ := by
    unfold step
    rw [hmode]
    rfl
  rw [doubleQuoted, run_cons, hopen, Option.bind_some, run_append, hinside]
  rfl

/-! ## A command's arguments -/

/-- Texts, each with a blank after it. -/
def line (texts : List (List Char)) : List Char := texts.flatMap fun text => text ++ [' ']

/-- Texts between blanks are read as one word each. -/
theorem run_line {args : List (List Char × List Char)} (h : ∀ a ∈ args, ReadsAs a.1 a.2)
    (words : List (List Char)) :
    run (.between words) (line (args.map Prod.fst)) = some (.between (words ++ args.map Prod.snd)) := by
  induction args generalizing words with
  | nil => rw [List.map_nil, List.map_nil, List.append_nil]; rfl
  | cons a args ih =>
    obtain ⟨ha, hargs⟩ := List.forall_mem_cons.mp h
    have hword : run (.between words) (a.1 ++ [' ']) = some (.between (words ++ [a.2])) := by
      rw [run_append, ha _ rfl, Option.bind_some]
      rfl
    rw [List.map_cons, List.map_cons, line, List.flatMap_cons, run_append, hword, Option.bind_some]
    refine (ih hargs _).trans ?_
    rw [List.append_assoc]
    rfl

/-- A blank between two words. -/
theorem run_blank (words : List (List Char)) : run (.between words) [' '] = some (.between words) := by
  show some (State.between (words ++ [])) = _
  rw [List.append_nil]

end Kelpflux.Framework.Shell
