import Kelpflux.Framework.Double

/-!
# Lua's strings

`string.gsub` of one character, and `string.format`, as the library of Lua 5.1 has
them. What an argument gives is not read for a format again: `format` goes on after
the conversion.
-/

namespace Kelpflux.Framework.Lua

/-- A replacement for `string.gsub`, where `%` would be an escape. -/
structure Replacement where
  text : List Char
  no_percent : '%' ∉ text

/-- `string.gsub(s, c, repl)`, for a character that means itself in a pattern. -/
def gsub (s : List Char) (c : Char) (repl : Replacement) : List Char :=
  s.flatMap fun x => if x = c then repl.text else [x]

/-- An argument of `string.format`. -/
inductive Arg where
  | str (s : List Char)
  | int (n : Int)
  | num (x : ℚ)

/-- A character, as `%q` writes it. -/
def quotedChar (c : Char) : List Char :=
  if c = '\x22' ∨ c = '\\' ∨ c = '\n' then ['\\', c]
  else if c = '\r' then ['\\', 'r']
  else if c = '\x00' then "\\000".toList
  else [c]

/-- `%q` -/
def addQuoted (s : List Char) : List Char := '\x22' :: (s.flatMap quotedChar ++ ['\x22'])

/-- `%.nf`: the nearest decimal of `n` places, of two the even one. -/
def fixed (prec : ℕ) (x : ℚ) : List Char :=
  let k := (roundEven (|x| * 10 ^ prec)).toNat
  let frac := Nat.toDigits 10 (k % 10 ^ prec)
  (if x < 0 then ['-'] else []) ++ (Nat.toDigits 10 (k / 10 ^ prec) ++
    (if prec = 0 then [] else '.' :: (List.replicate (prec - frac.length) '0' ++ frac)))

/-- What an argument gives for a conversion, with the precision `prec`. -/
def convert (conv : Char) (prec : ℕ) : Arg → Option (List Char)
  | .str s => if conv = 's' then some s else if conv = 'q' then some (addQuoted s) else none
  | .int n => if conv = 'd' then some (toString n).toList else none
  | .num x => if conv = 'f' then some (fixed prec x) else none

/-- `string.format`, with one digit for a precision at most, and no flags or width. -/
def format : List Char → List Arg → Option (List Char)
  | '%' :: '.' :: d :: conv :: fmt, arg :: args => do
    let text ← convert conv (d.toNat - '0'.toNat) arg
    let rest ← format fmt args
    return text ++ rest
  | '%' :: conv :: fmt, arg :: args => do
    let text ← convert conv 6 arg
    let rest ← format fmt args
    return text ++ rest
  | c :: fmt, args => if c = '%' then none else (format fmt args).map (c :: ·)
  | [], _ => some []

/-! ## Rules -/

section Format

variable {fmt lit text : List Char} {arg : Arg} {args : List Arg}

theorem format_cons {c : Char} (hc : c ≠ '%') :
    format (c :: fmt) args = (format fmt args).map (c :: ·) := by
  rw [format.eq_3]
  · rw [if_neg hc]
  · intros
    exact absurd ‹c = '%'› hc
  · intros
    exact absurd ‹c = '%'› hc

/-- A text without conversions is copied. -/
theorem format_lit (h : '%' ∉ lit) :
    format (lit ++ fmt) args = (format fmt args).map (lit ++ ·) := by
  induction lit with
  | nil => cases h' : format fmt args <;> simp [h']
  | cons c lit ih =>
    rw [List.mem_cons, not_or] at h
    rw [List.cons_append, format_cons (Ne.symm h.1), ih h.2, Option.map_map]
    rfl

/-- A text, and a conversion of the next argument. -/
theorem format_conv {conv : Char} (hlit : '%' ∉ lit) (hconv : conv ≠ '.')
    (htext : convert conv 6 arg = some text) :
    format (lit ++ '%' :: conv :: fmt) (arg :: args) = (format fmt args).map (lit ++ text ++ ·) := by
  have hnext : format ('%' :: conv :: fmt) (arg :: args) = (format fmt args).map (text ++ ·) := by
    rw [format.eq_2]
    · rw [htext]
      cases format fmt args <;> rfl
    · exact fun _ _ _ h => absurd h hconv
  rw [format_lit hlit, hnext]
  cases format fmt args <;> simp

/-- The same, with a precision. -/
theorem format_prec {d conv : Char} (hlit : '%' ∉ lit)
    (htext : convert conv (d.toNat - '0'.toNat) arg = some text) :
    format (lit ++ '%' :: '.' :: d :: conv :: fmt) (arg :: args) =
      (format fmt args).map (lit ++ text ++ ·) := by
  have hnext : format ('%' :: '.' :: d :: conv :: fmt) (arg :: args) =
      (format fmt args).map (text ++ ·) := by
    rw [format.eq_1, htext]
    cases format fmt args <;> rfl
  rw [format_lit hlit, hnext]
  cases format fmt args <;> simp

end Format

end Kelpflux.Framework.Lua
