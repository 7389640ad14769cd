import Kelpflux.Framework.Dict
import Mathlib.Algebra.Order.Ring.Rat
import Mathlib.Data.List.Infix
import Mathlib.Data.List.Dedup
import Mathlib.Data.List.DropRight
import Mathlib.Data.List.Sort
import Mathlib.Data.Rat.Floor

/-!
# Values as Python reads them

What `json.loads` gives (`Json`), and the built-ins a program applies to it:
truth, `.get`, iteration, `str`, `int`, `float`, and `sorted` with a key.
Numbers are exact: the rounding of a float is left out, its infinities and NaN
are not (`PyFloat`). Text functions treat letters and digits outside ASCII as
plain characters. What they leave to the interpreter is a `Runtime`, of which
nothing is assumed.
-/

namespace Kelpflux.Framework.Python

/-- The exceptions that programs tell apart, with the texts they give them. -/
inductive Exc where
  | attributeError
  | typeError
  | valueError (msg : String)
  /-- A kind of `ValueError`. -/
  | jsonDecodeError
  | keyError
  | overflowError
  | runtimeError (msg : String)
  | timeoutError (msg : String)
  /-- Any other `Exception`. -/
  | other (msg : String)
deriving DecidableEq, Repr

/-- `except (TypeError, ValueError)` catches it. -/
def Exc.isTypeOrValueError : Exc → Bool
  | .typeError | .valueError _ | .jsonDecodeError => true
  | _ => false

section Except

variable {ε α β : Type} {x : Except ε α} {f : α → Except ε β}

theorem bind_eq_ok {b : β} : (x >>= f) = .ok b ↔ ∃ a, x = .ok a ∧ f a = .ok b := by
  cases x <;> simp [bind, Except.bind]

end Except

inductive PyFloat where
  | fin (q : ℚ)
  | inf
  | negInf
  | nan
deriving DecidableEq

namespace PyFloat

instance : Coe ℚ PyFloat := ⟨fin⟩

/-- `<`, which is false of a NaN. -/
def lt : PyFloat → PyFloat → Bool
  | .fin a, .fin b => a < b
  | .fin _, .inf | .negInf, .fin _ | .negInf, .inf => true
  | _, _ => false

/-- `==`, which is false of a NaN. -/
def eq (a b : PyFloat) : Bool := a ≠ .nan && a = b

def le (a b : PyFloat) : Bool := a.lt b || a.eq b

/-- `k * x`, for a positive `k`. -/
def scale (k : ℚ) : PyFloat → PyFloat
  | .fin q => .fin (k * q)
  | x => x

/-- `int(x)`: towards zero. -/
def toInt : PyFloat → Except Exc Int
  | .fin q => .ok (q.num.tdiv q.den)
  | .nan => .error (.valueError "cannot convert float NaN to integer")
  | .inf | .negInf => .error .overflowError

end PyFloat

/-- An object's keys are distinct. -/
inductive Json where
  | null
  | bool (b : Bool)
  | int (n : Int)
  | float (x : PyFloat)
  | str (s : String)
  | arr (xs : List Json)
  | obj (items : List (String × Json))

/-- What is left to the interpreter: `str` of a float, a list or an object, the
numbers that texts stand for, and the decoding of a JSON text. -/
structure Runtime where
  repr : Json → String
  int : String → Option Int
  float : String → Option PyFloat
  loads : String → Except Exc Json

section Text

def upper (s : String) : String := String.ofList (s.toList.map Char.toUpper)

def lower (s : String) : String := String.ofList (s.toList.map Char.toLower)

/-- `needle in s` -/
def contains (s needle : String) : Bool := decide (needle.toList <:+: s.toList)

def startsWith (s p : String) : Bool := p.toList.isPrefixOf s.toList

/-- The pieces of a text between characters that meet `p`, empty ones too. -/
def pieces (p : Char → Bool) : List Char → List (List Char)
  | [] => [[]]
  | c :: cs =>
    if p c then [] :: pieces p cs
    else match pieces p cs with
      | [] => [[c]]
      | x :: xs => (c :: x) :: xs

/-- `c.isspace()` -/
def isSpace (c : Char) : Bool :=
  let n := c.toNat
  (9 ≤ n && n ≤ 13) || (28 ≤ n && n ≤ 32) || n = 0x85 || n = 0xa0 || n = 0x1680 ||
    (0x2000 ≤ n && n ≤ 0x200a) || n = 0x2028 || n = 0x2029 || n = 0x202f || n = 0x205f || n = 0x3000

/-- `s.split(",")` -/
def splitComma (s : String) : List String := (pieces (· == ',') s.toList).map String.ofList

/-- `s.split()` -/
def words (s : String) : List String :=
  ((pieces isSpace s.toList).filter (· ≠ [])).map String.ofList

/-- `s.replace(old, new)` of one character by another. -/
def replaceChar (old new : Char) (s : String) : String :=
  String.ofList (s.toList.map fun c => if c = old then new else c)

/-- `s.replace(old, "")` of one character. -/
def removeChar (old : Char) (s : String) : String := String.ofList (s.toList.filter (· ≠ old))

/-- `",".join(xs)` -/
def joinComma (xs : List String) : String := ",".intercalate xs

/-- The number that a text's first digits write, if it starts with one. -/
def leadingDigits (cs : List Char) : Option Nat :=
  match cs.takeWhile Char.isDigit with
  | [] => none
  | ds => some (ds.foldl (fun n d => 10 * n + (d.toNat - '0'.toNat)) 0)

/-- What follows `p` at the start of a text, whatever the case of its letters. -/
def afterPrefix (p : String) (cs : List Char) : Option (List Char) :=
  if (cs.take p.length).map Char.toLower = p.toList.map Char.toLower
  then some (cs.drop p.length) else none

/-- `re.search`: what `p` reads at the first place where it reads something. -/
def search {α : Type} (p : List Char → Option α) : List Char → Option α
  | [] => p []
  | c :: cs => (p (c :: cs)).or (search p cs)

/-- What follows `p` at the start of a text. -/
def after (p : String) (cs : List Char) : Option (List Char) :=
  if p.toList <+: cs then some (cs.drop p.length) else none

/-- `s.strip()` -/
def strip (s : String) : String :=
  String.ofList ((s.toList.dropWhile isSpace).rdropWhile isSpace)

/-- Where `splitlines` ends a line. -/
def isLineBreak (c : Char) : Bool :=
  let n := c.toNat
  (10 ≤ n && n ≤ 13) || (28 ≤ n && n ≤ 30) || n = 0x85 || n = 0x2028 || n = 0x2029

/-- `s.splitlines()` -/
def splitlines : List Char → List (List Char)
  | [] => []
  | '\r' :: '\n' :: cs => [] :: splitlines cs
  | c :: cs =>
    if isLineBreak c then [] :: splitlines cs
    else match splitlines cs with
      | [] => [[c]]
      | line :: lines => (c :: line) :: lines

/-- `s.split(sep, n)` -/
def splitMax (sep : Char) : Nat → List Char → List (List Char)
  | _, [] => [[]]
  | 0, cs => [cs]
  | n + 1, c :: cs =>
    if c = sep then [] :: splitMax sep n cs
    else match splitMax sep (n + 1) cs with
      | [] => [[c]]
      | part :: parts => (c :: part) :: parts

/-- `s.strip(chars)` -/
def stripChars (chars : List Char) (s : String) : String :=
  String.ofList ((s.toList.dropWhile (· ∈ chars)).rdropWhile (· ∈ chars))

/-- `f"{q:.0f}"`: to the nearest integer, and to an even one from the middle. -/
def fixed0 (q : ℚ) : String :=
  let r := q - ⌊q⌋
  let n := if r < 1 / 2 ∨ (r = 1 / 2 ∧ ⌊q⌋ % 2 = 0) then ⌊q⌋ else ⌊q⌋ + 1
  if q < 0 ∧ n = 0 then "-0" else toString n

/-- `f"{x:.0f}"` -/
def PyFloat.fixed0 : PyFloat → String
  | .fin q => Python.fixed0 q
  | .inf => "inf"
  | .negInf => "-inf"
  | .nan => "nan"

end Text

namespace Json

/-- `bool(v)` -/
def truthy : Json → Bool
  | .null => false
  | .bool b => b
  | .int n => n ≠ 0
  | .float x => x ≠ .fin 0
  | .str s => s ≠ ""
  | .arr xs => xs.length ≠ 0
  | .obj items => items.length ≠ 0

/-- `v or w` -/
def or (v w : Json) : Json := if v.truthy then v else w

/-- `v.get(k)`, and `None` where it is absent. -/
def get (v : Json) (k : String) : Except Exc Json :=
  match v with
  | .obj items => .ok ((Dict.get? items k).getD .null)
  | _ => .error .attributeError

/-- `v.get(k, d)` -/
def getD (v : Json) (k : String) (d : Json) : Except Exc Json :=
  match v with
  | .obj items => .ok ((Dict.get? items k).getD d)
  | _ => .error .attributeError

/-- `k in v` -/
def has (v : Json) (k : String) : Except Exc Bool :=
  match v with
  | .obj items => .ok (k ∈ Dict.keys items)
  | .arr xs => .ok (xs.any fun x => match x with | .str s => s = k | _ => false)
  | .str s => .ok (contains s k)
  | _ => .error .typeError

/-- `",".join(v)` of a list `v`, and any other `v` as it is. -/
def joined : Json → Except Exc Json
  | .arr xs => do
    let texts ← xs.mapM fun x => match x with
      | .str s => Except.ok s
      | _ => .error Exc.typeError
    return .str (joinComma texts)
  | v => .ok v

/-- `for item in v` -/
def iter : Json → Except Exc (List Json)
  | .arr xs => .ok xs
  | .obj items => .ok (items.map fun kv => .str kv.1)
  | .str s => .ok (s.toList.map fun c => .str (String.singleton c))
  | _ => .error .typeError

/-- `str(v)` -/
def toStr (rt : Runtime) : Json → String
  | .null => "None"
  | .bool true => "True"
  | .bool false => "False"
  | .int n => toString n
  | .str s => s
  | v => rt.repr v

/-- `int(v)` -/
def toInt (rt : Runtime) : Json → Except Exc Int
  | .bool b => .ok b.toNat
  | .int n => .ok n
  | .float x => x.toInt
  | .str s => match rt.int s with
    | some n => .ok n
    | none => .error (.valueError "invalid literal for int()")
  | _ => .error .typeError

/-- `float(v)` -/
def toFloat (rt : Runtime) : Json → Except Exc PyFloat
  | .bool b => .ok (.fin b.toNat)
  | .int n => .ok (.fin n)
  | .float x => .ok x
  | .str s => match rt.float s with
    | some x => .ok x
    | none => .error (.valueError "could not convert string to float")
  | _ => .error .typeError

/-- Whether `int(v)` overflows. -/
def infinite : Json → Bool
  | .float .inf | .float .negInf => true
  | _ => false

theorem toInt_error {rt : Runtime} {v : Json} {e : Exc} (h : v.toInt rt = .error e) :
    e.isTypeOrValueError = !v.infinite := by
  cases v with
  | float x => cases x <;> cases h <;> rfl
  | str s =>
    rw [toInt] at h
    split at h
    · cases h
    · cases h
      rfl
  | _ => cases h <;> rfl

/-- `v == n` for an `int`. -/
def eqInt (v : Json) (n : Int) : Bool :=
  match v with
  | .bool b => (b.toNat : Int) = n
  | .int m => m = n
  | .float x => x = .fin n
  | _ => false

end Json

section Sorted

variable {α : Type}

/-- `sorted`, with keys that `lt` compares: stable. -/
def sortedLt (lt : α → α → Bool) (xs : List α) : List α := xs.insertionSort fun a b => ¬ lt b a

theorem sortedLt_perm (lt : α → α → Bool) (xs : List α) : (sortedLt lt xs).Perm xs :=
  List.perm_insertionSort _ xs

@[simp] theorem mem_sortedLt {lt : α → α → Bool} {xs : List α} {x : α} :
    x ∈ sortedLt lt xs ↔ x ∈ xs :=
  (sortedLt_perm lt xs).mem_iff

/-- Sorted by `lt`, a list is in any order that `lt` decides for, whatever `lt`
does with the elements that are level in it. -/
theorem sortedLt_pairwise {lt : α → α → Bool} {R : α → α → Prop}
    (htrans : ∀ a b c, R a b → R b c → R a c)
    (hlt : ∀ a b, lt a b = true → R a b) (hnot : ∀ a b, lt a b = false → R b a) (xs : List α) :
    (sortedLt lt xs).Pairwise R := by
  have hinsert : ∀ x (ys : List α), ys.Pairwise R →
      (ys.orderedInsert (fun a b => ¬ lt b a) x).Pairwise R := by
    intro x ys
    induction ys with
    | nil => exact fun _ => List.pairwise_singleton _ _
    | cons y ys ih =>
      intro hys
      obtain ⟨hy, hrest⟩ := List.pairwise_cons.mp hys
      rw [List.orderedInsert]
      split
      · rename_i hle
        have hxy : R x y := hnot y x (Bool.eq_false_of_not_eq_true hle)
        refine List.pairwise_cons.mpr ⟨fun z hz => ?_, hys⟩
        rcases List.mem_cons.mp hz with rfl | hz
        · exact hxy
        · exact htrans _ _ _ hxy (hy z hz)
      · rename_i hlt'
        refine List.pairwise_cons.mpr ⟨fun z hz => ?_, ih hrest⟩
        rcases List.mem_cons.mp ((List.perm_orderedInsert _ _ _).subset hz) with rfl | hz
        · exact hlt _ _ (not_not.mp hlt')
        · exact hy z hz
  induction xs with
  | nil => exact List.Pairwise.nil
  | cons x xs ih => exact hinsert x _ ih

/-- `sorted(xs, key=key)`: stable. With a NaN among the keys it is some
permutation, as in Python. -/
def sortedBy (key : α → PyFloat) (xs : List α) : List α :=
  xs.insertionSort fun a b => ¬ (key b).lt (key a)

theorem sortedBy_perm (key : α → PyFloat) (xs : List α) : (sortedBy key xs).Perm xs :=
  List.perm_insertionSort _ xs

@[simp] theorem mem_sortedBy {key : α → PyFloat} {xs : List α} {x : α} :
    x ∈ sortedBy key xs ↔ x ∈ xs :=
  (sortedBy_perm key xs).mem_iff

/-- An element is the first of those of a list for which `f` is largest. -/
inductive FirstMax {α : Type} (f : α → ℕ) : List α → α → Prop where
  | head {x : α} {xs : List α} (h : ∀ y ∈ xs, f y ≤ f x) : FirstMax f (x :: xs) x
  | tail {x y : α} {xs : List α} (hlt : f y < f x) (h : FirstMax f xs x) : FirstMax f (y :: xs) x

section FirstMax

variable {f : α → ℕ} {xs : List α} {x : α}

theorem FirstMax.mem (h : FirstMax f xs x) : x ∈ xs := by
  induction h with
  | head => exact List.mem_cons_self
  | tail _ _ ih => exact List.mem_cons_of_mem _ ih

theorem FirstMax.max (h : FirstMax f xs x) : ∀ y ∈ xs, f y ≤ f x := by
  induction h with
  | head hle => simpa using hle
  | tail hlt _ ih => simpa using ⟨Nat.le_of_lt hlt, ih⟩

end FirstMax

end Sorted

/-- How Python goes through a set of strings: in an order of its own. -/
structure SetOrder where
  /-- The set of a list's elements, in that order. -/
  list : List String → List String
  perm : ∀ xs, (list xs).Perm xs.dedup

theorem SetOrder.mem_list {order : SetOrder} {xs : List String} {x : String} :
    x ∈ order.list xs ↔ x ∈ xs :=
  (order.perm xs).mem_iff.trans List.mem_dedup

end Kelpflux.Framework.Python
