import Kelpflux.Impl.Scheduler.RlText

/-!
# The plugin's patterns against the server's answers

A field's pattern matches an answer at that field only, whatever the texts of the
others (`search_field`), and there reads its value: numbers of fewer than 53 bits
(`num_field_int`), null as nil, and Booleans (`bool_field_eq`). So the plugin
recovers the fields that it decides by: `rl_call_decide_reads`.
-/

namespace Kelpflux.Proof.Scheduler

open Framework Framework.JsonText Framework.Lua Impl.Scheduler.RlText Impl.Scheduler.Serve
  Impl.Scheduler.RlHook
open Framework.Python (search)

section Key

variable {β : Type} {k : List Char → Option β} {cs : List Char}

/-- A field's pattern matches only where its key stands. -/
theorem keyAt_of_run {name : String} (h : run (keyItems name) k cs ≠ none) :
    KeyAt name.toList cs := by
  simp only [keyItems, Lua.run_cons, Lua.run_append, Lua.run_nil] at h
  obtain ⟨_, rfl, h₁⟩ := of_run_one h
  obtain ⟨_, rfl, h₂⟩ := of_run_lit h₁
  obtain ⟨_, rfl, h₃⟩ := of_run_one h₂
  obtain ⟨sp, _, rfl, hsp, h₄⟩ := of_expand h₃
  obtain ⟨rest, rfl, -⟩ := of_run_one h₄
  refine ⟨sp, rest, rfl, fun c hc => ⟨?_, ?_⟩⟩
  · rintro rfl
    exact absurd (hsp _ hc) (by decide)
  · rintro rfl
    exact absurd (hsp _ hc) (by decide)

/-- At its key, what comes after a field's pattern is asked of the value. -/
theorem run_keyItems {name : String} {c : Char} (hc : Lua.isSpace c = false) :
    run (keyItems name) k (quote :: (name.toList ++ quote :: ':' :: c :: cs)) = k (c :: cs) := by
  simp only [keyItems, Lua.run_cons, Lua.run_append, Lua.run_nil, run_one, run_lit_append]
  show expand Lua.isSpace ((one ':').run (spaces.run k)) (':' :: c :: cs) = k (c :: cs)
  rw [expand_cons_of_not (by decide), run_one]
  exact expand_cons_of_not hc

end Key

variable {F : Type} (fl : FloatText F) (r : DecideResponse F)

theorem Field.name_injective {f g : Field} (h : f.name = g.name) : f = g := by
  cases f <;> cases g <;> first | rfl | exact absurd h (by decide)

/-- A search for a field's key reads that field. -/
theorem search_field {α : Type} {p : List Char → Option α} {f : Field}
    (hp : ∀ cs, p cs ≠ none → KeyAt f.name.toList cs) :
    ∃ t, Ends t ∧ search p (responseText fl r) = p (memberText (f.key, f.json fl r) ++ t) := by
  have hmem : f ∈ Field.all := by cases f <;> decide
  obtain ⟨pre, post, hsplit⟩ := List.append_of_mem hmem
  have hnodup : (pre ++ f :: post).Nodup := by
    rw [← hsplit]
    decide
  have hother : ∀ fs : List Field, f ∉ fs →
      ∀ m ∈ fs.map (fun g => (g.key, g.json fl r)), m.1.name ≠ f.key.name := by
    rintro fs hf m hm hname
    obtain ⟨g, hg, rfl⟩ := List.mem_map.mp hm
    exact hf (Field.name_injective hname ▸ hg)
  rw [List.nodup_append, List.nodup_cons] at hnodup
  refine ⟨_, ends_tailText (post.map fun g => (g.key, g.json fl r)), ?_⟩
  have hne : Field.all.map (fun g => (g.key, g.json fl r)) ≠ [] := List.cons_ne_nil _ _
  rw [responseText, search_object (k := f.key) hp hne, hsplit, List.map_append, List.map_cons]
  exact readMembers_split rfl (hother pre fun h => hnodup.2.2 f h f List.mem_cons_self rfl)
    (hother post hnodup.2.1.1)

/-- A search for a field's pattern reads it in what the field is written as. -/
theorem search_run {α : Type} {k : List Char → Option α} {f : Field} {c : Char} {v : List Char}
    (hv : (f.json fl r).text = c :: v) (hc : Lua.isSpace c = false) :
    ∃ t, Ends t ∧ search (run (keyItems f.name) k) (responseText fl r) = k (c :: v ++ t) := by
  obtain ⟨t, ht, hsearch⟩ := search_field fl r (f := f)
    (p := run (keyItems f.name) k) fun _ => keyAt_of_run
  refine ⟨t, ht, hsearch.trans ?_⟩
  have htext : memberText (f.key, f.json fl r) ++ t =
      quote :: (f.name.toList ++ quote :: ':' :: c :: (v ++ t)) := by
    rw [memberText, hv]
    simp [Field.key]
  rw [htext]
  exact run_keyItems hc

/-! ## Booleans -/

theorem bool_field_eq {f : Field} {b : Bool} (hf : f.json fl r = boolValue b) :
    boolField (responseText fl r) f.name = b := by
  have hlit : ∀ t, Ends t → ¬ "true|false".toList <+: (f.json fl r).text ++ t := by
    rintro t ⟨c, t', rfl, hc⟩ ⟨u, hu⟩
    rw [hf] at hu
    cases b with
    | true =>
      have hrest : '|' :: ("false".toList ++ u) = c :: t' :=
        List.append_cancel_left (show "true".toList ++ _ = "true".toList ++ _ from hu)
      obtain ⟨rfl, -⟩ := List.cons.inj hrest
      rcases hc with hc | hc <;> cases hc
    | false => cases hu
  unfold boolField
  obtain ⟨c, v, hv, hc⟩ : ∃ c v, (f.json fl r).text = c :: v ∧ Lua.isSpace c = false := by
    rw [hf]
    cases b
    · exact ⟨'f', _, rfl, by decide⟩
    · exact ⟨'t', _, rfl, by decide⟩
  have hnone : (Pattern.mk (keyItems f.name) (lit "true|false") []).capture (responseText fl r)
      = none := by
    obtain ⟨t, ht, hsearch⟩ := search_run fl r hv hc
    refine hsearch.trans ?_
    show run (lit _) _ _ = _
    rw [run_lit, if_neg]
    exact hv ▸ hlit t ht
  rw [hnone]
  dsimp only
  unfold isMatch
  rw [run_append]
  obtain ⟨t, ht, hsearch⟩ := search_run fl r (k := run (lit "true") some) hv hc
  rw [hsearch, ← hv, hf, run_lit]
  cases b with
  | true => rfl
  | false =>
    rw [if_neg]
    · rfl
    · rintro ⟨u, hu⟩
      cases hu

/-! ## Numbers -/

theorem digitsValue_toDigits (n : ℕ) : digitsValue (Nat.toDigits 10 n) = n :=
  Nat.ofDigitChars_ten_toDigits

theorem isDigit_toDigits {n : ℕ} {c : Char} (hc : c ∈ Nat.toDigits 10 n) : c.isDigit = true :=
  Nat.isDigit_of_mem_toDigits (by decide) (by decide) hc

/-- Digits that another character ends. -/
theorem span_digits {ds t : List Char} (hds : ∀ c ∈ ds, c.isDigit = true) (ht : Ends t) :
    (ds ++ t).takeWhile Char.isDigit = ds ∧ (ds ++ t).dropWhile Char.isDigit = t := by
  obtain ⟨c, t', rfl, hc⟩ := ht
  have hdigit : ¬ c.isDigit = true := by
    rcases hc with rfl | rfl <;> decide
  rw [List.takeWhile_append_of_pos hds, List.dropWhile_append_of_pos hds,
    List.takeWhile_cons_of_neg hdigit, List.dropWhile_cons_of_neg hdigit, List.append_nil]
  exact ⟨rfl, rfl⟩

section Number

variable {β : Type} {k : List Char → Option β} {ds t : List Char}

/-- `%d+%.?%d*`, at digits. -/
theorem run_digits (hk : ∀ cs, (k cs).isSome = true) (hne : ds ≠ [])
    (hds : ∀ c ∈ ds, c.isDigit = true) (ht : Ends t) : run digitItems k (ds ++ t) = k t := by
  let k₃ := expand Char.isDigit k
  let k₂ : List Char → Option β := fun cs => (single (· = '.') k₃ cs).or (k₃ cs)
  have hk₃ : ∀ cs, (k₃ cs).isSome = true := by
    intro cs
    obtain ⟨b, hb⟩ := Option.isSome_iff_exists.mp (hk (cs.dropWhile Char.isDigit))
    exact Option.isSome_iff_exists.mpr ⟨b, expand_eq_some hb⟩
  have hk₂ : ∀ cs, (k₂ cs).isSome = true := by
    intro cs
    show ((single (· = '.') k₃ cs).or (k₃ cs)).isSome = true
    rw [Option.isSome_or, hk₃, Bool.or_true]
  obtain ⟨htake, hdrop⟩ := span_digits hds ht
  show single Char.isDigit (expand Char.isDigit k₂) (ds ++ t) = k t
  rw [plus_eq (.inr hk₂), htake, hdrop, if_neg hne]
  obtain ⟨c, t', rfl, hc⟩ := ht
  have hpoint : decide (c = '.') = false := by
    rcases hc with rfl | rfl <;> rfl
  have hdigit : c.isDigit = false := by
    rcases hc with rfl | rfl <;> rfl
  show (single _ k₃ (c :: t')).or (k₃ (c :: t')) = _
  rw [single, hpoint, if_neg Bool.false_ne_true, Option.none_or]
  exact expand_cons_of_not hdigit

/-- `%-?%d+%.?%d*`, at an integer. -/
theorem run_int (hk : ∀ cs, (k cs).isSome = true) (n : ℤ) (ht : Ends t) :
    run (numPattern "").cap k (intText n ++ t) = k t := by
  show (single _ (run digitItems k) (intText n ++ t)).or (run digitItems k (intText n ++ t)) = _
  cases n with
  | ofNat n =>
    obtain ⟨d, ds, hd⟩ := List.exists_cons_of_ne_nil (@Nat.toDigits_ne_nil n 10)
    have hminus : decide (d = '-') = false := by
      refine decide_eq_false ?_
      rintro rfl
      exact absurd (isDigit_toDigits (hd ▸ List.mem_cons_self)) (by decide)
    have hsingle : single (· = '-') (run digitItems k) (intText (.ofNat n) ++ t) = none := by
      rw [intText, hd, List.cons_append, single, hminus, if_neg Bool.false_ne_true]
    rw [hsingle, Option.none_or]
    exact run_digits hk Nat.toDigits_ne_nil (fun _ => isDigit_toDigits) ht
  | negSucc n =>
    have hsingle : single (· = '-') (run digitItems k) (intText (.negSucc n) ++ t) = k t :=
      run_digits hk Nat.toDigits_ne_nil (fun _ => isDigit_toDigits) ht
    obtain ⟨b, hb⟩ := Option.isSome_iff_exists.mp (hk t)
    rw [hsingle, hb, Option.some_or]

end Number

theorem unsigned_toDigits (n : ℕ) : unsigned (Nat.toDigits 10 n) = n := by
  unfold unsigned
  have hall : ∀ c ∈ Nat.toDigits 10 n, c.isDigit = true := fun _ => isDigit_toDigits
  rw [List.takeWhile_eq_self_iff.mpr hall, List.dropWhile_eq_nil_iff.mpr hall,
    digitsValue_toDigits]
  simp [digitsValue]

theorem toNumber_intText (n : ℤ) : toNumber (intText n) = toDouble n := by
  unfold toNumber
  cases n with
  | ofNat n =>
    obtain ⟨d, ds, hd⟩ := List.exists_cons_of_ne_nil (@Nat.toDigits_ne_nil n 10)
    have hminus : (intText (.ofNat n)).head? ≠ some '-' := by
      rw [intText, hd, List.head?_cons]
      rintro h
      obtain rfl := Option.some.inj h
      exact absurd (isDigit_toDigits (hd ▸ List.mem_cons_self)) (by decide)
    rw [if_neg hminus, intText, unsigned_toDigits]
    rfl
  | negSucc n =>
    rw [intText, if_pos (List.head?_cons), List.tail_cons, unsigned_toDigits]
    push_cast [Int.negSucc_eq]
    rfl

theorem intText_head (n : ℤ) : ∃ c v, intText n = c :: v ∧ Lua.isSpace c = false := by
  cases n with
  | ofNat n =>
    obtain ⟨d, ds, hd⟩ := List.exists_cons_of_ne_nil (@Nat.toDigits_ne_nil n 10)
    refine ⟨d, ds, hd, ?_⟩
    have hdigit : d.isDigit = true := isDigit_toDigits (hd ▸ List.mem_cons_self)
    have hlow : '0'.toNat ≤ d.toNat := by
      unfold Char.isDigit at hdigit
      simp only [Bool.and_eq_true, decide_eq_true_eq] at hdigit
      exact UInt32.le_iff_toNat_le.mp hdigit.1
    have h48 : '0'.toNat = 48 := rfl
    unfold Lua.isSpace
    simp only [Bool.or_eq_false_iff, Bool.and_eq_false_iff, decide_eq_false_iff_not]
    refine ⟨?_, .inr (by omega)⟩
    rintro rfl
    exact absurd hdigit (by decide)
  | negSucc n => exact ⟨'-', _, rfl, by decide⟩

/-- A number field that holds an integer reads the double nearest to it. -/
theorem num_field_int {f : Field} {n : ℤ} (hf : f.json fl r = intValue n) :
    numField (responseText fl r) f.name = some (toDouble n) := by
  have htext : (f.json fl r).text = intText n := hf ▸ rfl
  obtain ⟨c, v, hv, hc⟩ := intText_head n
  unfold numField Pattern.capture
  obtain ⟨t, ht, hsearch⟩ := search_run fl r (htext.trans hv) hc
  rw [show search (numPattern f.name).captureAt (responseText fl r) = _ from hsearch, ← hv]
  rw [show run (numPattern f.name).cap _ (intText n ++ t) = _ from run_int (fun _ => rfl) n ht]
  show some (toNumber ((intText n ++ t).take ((intText n ++ t).length - t.length))) = _
  rw [List.length_append, Nat.add_sub_cancel, List.take_left, toNumber_intText]

/-- A number field that holds null reads nothing. -/
theorem num_field_null {f : Field} (hf : f.json fl r = nullValue) :
    numField (responseText fl r) f.name = none := by
  have hv : (f.json fl r).text = 'n' :: "ull".toList := hf ▸ rfl
  unfold numField Pattern.capture
  obtain ⟨t, ht, hsearch⟩ := search_run fl r hv (by decide)
  rw [show search (numPattern f.name).captureAt (responseText fl r) = _ from hsearch]
  rfl

theorem toDouble_intCast {n : ℤ} (h : |n| < 2 ^ 53) : toDouble n = n := by
  have := toDouble_exact (j := 0) h
  rwa [pow_zero, div_one] at this

/-- Of a boost of fewer than 53 bits, the half is added and taken off exactly. -/
theorem floor_boost {b : ℤ} (hlo : -2 ^ 52 ≤ b) (hhi : b < 2 ^ 52) :
    ⌊toDouble (toDouble b + 1 / 2)⌋ = b := by
  have habs : |b| < 2 ^ 53 := abs_lt.mpr ⟨by omega, by omega⟩
  have hhalf : (b : ℚ) + 1 / 2 = ((2 * b + 1 : ℤ) : ℚ) / 2 ^ 1 := by
    push_cast
    ring
  rw [toDouble_intCast habs, hhalf, toDouble_exact (abs_lt.mpr ⟨by omega, by omega⟩), ← hhalf,
    Int.floor_eq_iff]
  constructor
  · linarith
  · linarith

/-- Whatever the other fields hold, the plugin recovers an answer's Booleans; its
boost, from `-2 ^ 52` up to `2 ^ 52`; and its node, null as nil, below `2 ^ 53`. -/
theorem rl_call_decide_reads (globals : Globals) (henabled : globals.rlEnabled = true) :
    ∃ reading, Impl.Scheduler.RlText.rlCallDecide globals (responseText fl r) = some reading ∧
      reading.rlSelected = r.rlSelected ∧ reading.abstain = r.abstain ∧
      (-2 ^ 52 ≤ r.priorityBoost → r.priorityBoost < 2 ^ 52 →
        reading.priorityBoost = r.priorityBoost) ∧
      ((∀ j ∈ r.nodeJ, j < 2 ^ 53) → reading.nodeJ = r.nodeJ.map fun j => (j : ℚ)) := by
  unfold Impl.Scheduler.RlText.rlCallDecide
  have hne : responseText fl r ≠ [] := List.cons_ne_nil _ _
  have hboost : numField (responseText fl r) "priority_boost" = some (toDouble r.priorityBoost) :=
    num_field_int fl r (f := .priorityBoost) rfl
  simp only [henabled, Bool.not_true, Bool.false_or, hne, decide_false, Bool.false_eq_true,
    if_false, hboost, Option.map_some]
  refine ⟨_, rfl, bool_field_eq fl r (f := .rlSelected) rfl, bool_field_eq fl r (f := .abstain) rfl,
    fun hlo hhi => floor_boost hlo hhi, fun hnode => ?_⟩
  dsimp only
  cases hj : r.nodeJ with
  | none => exact num_field_null fl r (f := .nodeJ) (by simp [Impl.Scheduler.RlText.Field.json, hj, natValue])
  | some j =>
    have hlt : |(j : ℤ)| < 2 ^ 53 := by
      rw [abs_of_nonneg (Int.natCast_nonneg j)]
      exact_mod_cast hnode j hj
    refine (num_field_int fl r (f := .nodeJ) (n := j) ?_).trans ?_
    · simp [Impl.Scheduler.RlText.Field.json, hj, natValue]
    · rw [toDouble_intCast hlt]
      rfl

/-- An answer that boosts by one more than a double can hold. -/
def hugeBoost : DecideResponse Unit where
  priorityBoost := 2 ^ 53 + 1
  rlSelected := true
  abstain := false
  abstainReason := none
  rlSelectedJobId := some "7"
  nodeJ := some 0
  gpuK := some 0
  value := ()
  entropy := ()
  shadow := false

theorem quote_notMem_zero : quote ∉ "0.0".toList := by decide

def zeroText : FloatText Unit where
  text _ := "0.0".toList
  no_quote _ := quote_notMem_zero

def clientGlobals : Globals where
  rlEnabled := true
  rlPlacement := true
  rlNodeNames := some ["gpu-0"]

theorem rl_call_decide_reads_node :
    ∃ reading, Impl.Scheduler.RlText.rlCallDecide clientGlobals (responseText zeroText hugeBoost)
        = some reading ∧
      reading.rlSelected = true ∧ reading.abstain = false ∧ reading.nodeJ = some 0 := by
  obtain ⟨reading, hread, hselected, habstain, -, hnode⟩ :=
    rl_call_decide_reads zeroText hugeBoost clientGlobals rfl
  refine ⟨reading, hread, hselected, habstain, hnode fun j hj => ?_⟩
  obtain rfl := Option.some.inj hj
  decide

/-- The boost that the plugin reads there is one less. -/
theorem huge_boost_rounded :
    (Impl.Scheduler.RlText.rlCallDecide clientGlobals (responseText zeroText hugeBoost)).map
      (fun reading => reading.priorityBoost) = some (2 ^ 53) ∧ hugeBoost.priorityBoost ≠ 2 ^ 53 := by
  constructor
  · decide +kernel
  · decide

end Kelpflux.Proof.Scheduler
