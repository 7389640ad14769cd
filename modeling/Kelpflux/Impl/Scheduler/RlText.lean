import Kelpflux.Framework.Double
import Kelpflux.Framework.JsonText
import Kelpflux.Framework.LuaPattern
import Kelpflux.Impl.Scheduler.RlHook

/-!
# The text of the policy server's answer (`chart/lua/rl_hook.lua`, `serve.py`)

The fields that `rl_call_decide` reads from the text of an answer, by patterns,
with numbers as doubles; and the text that the server writes of a
`DecideResponse`, with the fields in the order of the model.
-/

namespace Kelpflux.Impl.Scheduler.RlText

open Framework Framework.JsonText
open Framework.Lua (Item lit one)
open Serve RlHook

/-! ## Reading -/

/-- `%s*` -/
def spaces : Item where
  cls := Lua.isSpace
  rep := .star

/-- `"name"%s*:%s*` -/
def keyItems (name : String) : List Item :=
  one quote :: (lit name ++ one quote :: spaces :: one ':' :: [spaces])

/-- `%d+%.?%d*` -/
def digitItems : List Item :=
  [{ cls := Char.isDigit, rep := .plus }, { cls := (· = '.'), rep := .opt },
   { cls := Char.isDigit, rep := .star }]

/-- `(%-?%d+%.?%d*)`, after the key. -/
def numPattern (name : String) : Lua.Pattern where
  pre := keyItems name
  cap := { cls := (· = '-'), rep := .opt } :: digitItems

/-- The number that digits write, with others after a point. -/
def unsigned (cs : List Char) : ℚ :=
  let frac := (cs.dropWhile Char.isDigit).drop 1
  Lua.digitsValue (cs.takeWhile Char.isDigit) + Lua.digitsValue frac / 10 ^ frac.length

/-- `tonumber`, of what the pattern captures. -/
def toNumber (cs : List Char) : ℚ :=
  toDouble (if cs.head? = some '-' then -unsigned cs.tail else unsigned cs)

/-- `_num_field` -/
def numField (s : List Char) (name : String) : Option ℚ := ((numPattern name).capture s).map toNumber

/-- `_bool_field`; a pattern has no alternatives, so the first looks for the text
`true|false`. -/
def boolField (s : List Char) (name : String) : Bool :=
  match (Lua.Pattern.mk (keyItems name) (lit "true|false") []).capture s with
  | some v => v = "true".toList
  | none => Lua.isMatch (keyItems name ++ lit "true") s

/-- `_str_field` -/
def strField (s : List Char) (name : String) : Option (List Char) :=
  (Lua.Pattern.mk (keyItems name ++ [one quote]) [{ cls := (· ≠ quote), rep := .star }]
    [one quote]).capture s

/-- What `rl_call_decide` returns of an answer. -/
structure Reading where
  priorityBoost : Int
  rlSelected : Bool
  abstain : Bool
  value : ℚ
  entropy : ℚ
  rlSelectedJobId : Option (List Char)
  nodeJ : Option ℚ
  otelTraceparent : Option (List Char)

/-- `rl_call_decide`, of the text that `curl` prints. -/
def rlCallDecide (globals : Globals) (resp : List Char) : Option Reading :=
  if !globals.rlEnabled || resp = [] then none
  else (numField resp "priority_boost").map fun boost =>
    { priorityBoost := ⌊toDouble (boost + 1 / 2)⌋
      rlSelected := boolField resp "rl_selected"
      abstain := boolField resp "abstain"
      value := (numField resp "value").getD 0
      entropy := (numField resp "entropy").getD 0
      rlSelectedJobId := strField resp "rl_selected_job_id"
      nodeJ := numField resp "node_j"
      otelTraceparent := strField resp "otel_traceparent" }

/-! ## Writing -/

/-- How the encoder writes floats: without quotes. -/
structure FloatText (F : Type) where
  text : F → List Char
  no_quote : ∀ x, quote ∉ text x

theorem quote_notMem_digits (n : Nat) : quote ∉ Nat.toDigits 10 n :=
  fun h => absurd (Nat.isDigit_of_mem_toDigits (by decide) (by decide) h) (by decide)

/-- The text of an integer. -/
def intText : Int → List Char
  | .ofNat n => Nat.toDigits 10 n
  | .negSucc n => '-' :: Nat.toDigits 10 (n + 1)

theorem quote_notMem_intText (n : Int) : quote ∉ intText n := by
  cases n with
  | ofNat n => exact quote_notMem_digits n
  | negSucc n =>
    rw [intText, List.mem_cons, not_or]
    exact ⟨by decide, quote_notMem_digits _⟩

def intValue (n : Int) : Value := .plain (intText n) (quote_notMem_intText n)

theorem quote_notMem_null : quote ∉ "null".toList := by decide

def nullValue : Value := .plain "null".toList quote_notMem_null

theorem quote_notMem_bool (b : Bool) : quote ∉ (if b then "true" else "false").toList := by
  cases b <;> decide

def boolValue (b : Bool) : Value := .plain (if b then "true" else "false").toList (quote_notMem_bool b)

def strValue : Option String → Value
  | none => nullValue
  | some s => .str s

def natValue : Option Nat → Value
  | none => nullValue
  | some n => intValue n

def floatValue {F : Type} (fl : FloatText F) (x : F) : Value := .plain (fl.text x) (fl.no_quote x)

/-- The fields of `DecideResponse`. -/
inductive Field where
  | priorityBoost
  | rlSelected
  | abstain
  | abstainReason
  | rlSelectedJobId
  | nodeJ
  | gpuK
  | otelTraceparent
  | value
  | entropy
  | shadow
deriving DecidableEq

namespace Field

def name : Field → String
  | priorityBoost => "priority_boost"
  | rlSelected => "rl_selected"
  | abstain => "abstain"
  | abstainReason => "abstain_reason"
  | rlSelectedJobId => "rl_selected_job_id"
  | nodeJ => "node_j"
  | gpuK => "gpu_k"
  | otelTraceparent => "otel_traceparent"
  | value => "value"
  | entropy => "entropy"
  | shadow => "shadow"

theorem name_ne_nil (f : Field) : f.name.toList ≠ [] := by cases f <;> decide

theorem name_plain (f : Field) : f.name.toList.all keyChar = true := by cases f <;> rfl

def key (f : Field) : Key where
  name := f.name
  ne_nil := f.name_ne_nil
  plain := f.name_plain

def all : List Field :=
  [priorityBoost, rlSelected, abstain, abstainReason, rlSelectedJobId, nodeJ, gpuK, otelTraceparent,
   value, entropy, shadow]

/-- What an answer has in a field. -/
def json {F : Type} (fl : FloatText F) (r : DecideResponse F) : Field → Value
  | priorityBoost => intValue r.priorityBoost
  | rlSelected => boolValue r.rlSelected
  | abstain => boolValue r.abstain
  | abstainReason => strValue r.abstainReason
  | rlSelectedJobId => strValue r.rlSelectedJobId
  | nodeJ => natValue r.nodeJ
  | gpuK => natValue r.gpuK
  | otelTraceparent => strValue r.otelTraceparent
  | value => floatValue fl r.value
  | entropy => floatValue fl r.entropy
  | shadow => boolValue r.shadow

end Field

/-- The body of an answer. -/
def responseText {F : Type} (fl : FloatText F) (r : DecideResponse F) : List Char :=
  objectText (Field.all.map fun f => (f.key, f.json fl r))

end Kelpflux.Impl.Scheduler.RlText
