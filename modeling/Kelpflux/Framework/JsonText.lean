import Kelpflux.Framework.Python

/-!
# The text of a JSON object

An object as an encoder writes it, without blanks: its members between commas,
of which each is a quoted key, a colon and a value. A quote in a string follows a
backslash (`getLast?_of_escape`), so a quoted key with a colon after it is found
only where the object has that key: `search_object`.
-/

namespace Kelpflux.Framework.JsonText

open Framework.Python (search)

def quote : Char := '\x22'

/-- A character of a string, escaped. -/
def escapeChar (c : Char) : List Char :=
  if c = quote then ['\\', quote]
  else if c = '\\' then ['\\', '\\']
  else if c = '\n' then ['\\', 'n']
  else if c = '\r' then ['\\', 'r']
  else if c = '\t' then ['\\', 't']
  else if c = '\x08' then ['\\', 'b']
  else if c = '\x0c' then ['\\', 'f']
  else if c.toNat < 32 then
    ['\\', 'u', '0', '0', Nat.digitChar (c.toNat / 16), Nat.digitChar (c.toNat % 16)]
  else [c]

def escape (s : List Char) : List Char := s.flatMap escapeChar

/-- A character that a key may have. -/
def keyChar (c : Char) : Bool := c ≠ quote && c ≠ '\\' && c ≠ ':' && c ≠ ',' && c ≠ '\x7d'

/-- A key that is written as it stands. -/
structure Key where
  name : String
  ne_nil : name.toList ≠ []
  plain : name.toList.all keyChar = true

/-- A value: a string, or a text without quotes. -/
inductive Value where
  | str (s : String)
  | plain (t : List Char) (h : quote ∉ t)

def Value.text : Value → List Char
  | .str s => quote :: (escape s.toList ++ [quote])
  | .plain t _ => t

/-- `"key":value` -/
def memberText (m : Key × Value) : List Char :=
  quote :: (m.1.name.toList ++ quote :: ':' :: m.2.text)

/-- The members after the first, and the closing brace. -/
def tailText : List (Key × Value) → List Char
  | [] => ['\x7d']
  | m :: ms => ',' :: (memberText m ++ tailText ms)

def objectText : List (Key × Value) → List Char
  | [] => ['\x7b', '\x7d']
  | m :: ms => '\x7b' :: (memberText m ++ tailText ms)

/-! ## Quotes -/

theorem Key.quote_notMem (k : Key) : quote ∉ k.name.toList :=
  fun h => absurd (List.all_eq_true.mp k.plain _ h) (by decide)

theorem quote_mem_escapeChar {c : Char} (h : quote ∈ escapeChar c) : c = quote := by
  unfold escapeChar at h
  split at h
  · assumption
  · rename_i hc
    have hdigit : ∀ n, quote ≠ Nat.digitChar n := fun n => (Nat.digitChar_ne quote (by decide)).symm
    split_ifs at h
    all_goals simp_all [quote]
    exact hc h.symm

/-- A quote in an escaped string follows a backslash. -/
theorem getLast?_of_escape {s a b : List Char} (h : escape s = a ++ quote :: b) :
    a.getLast? = some '\\' := by
  induction s generalizing a with
  | nil => exact absurd h (List.append_ne_nil_of_right_ne_nil _ (List.cons_ne_nil _ _)).symm
  | cons c s ih =>
    rw [escape, List.flatMap_cons, List.append_eq_append_iff] at h
    rcases h with ⟨a', rfl, h⟩ | ⟨b', hc, h⟩
    · rw [List.getLast?_append, ih h]
      rfl
    · cases b' with
      | nil =>
        have := ih (a := []) h.symm
        cases this
      | cons x b' =>
        obtain ⟨rfl, -⟩ := List.cons.inj h
        have hmem : quote ∈ escapeChar c := hc ▸ List.mem_append_right _ List.mem_cons_self
        obtain rfl := quote_mem_escapeChar hmem
        rw [escapeChar, if_pos rfl] at hc
        cases a with
        | nil => cases hc
        | cons x a =>
          obtain ⟨rfl, hc⟩ := List.cons.inj hc
          cases a with
          | nil => rfl
          | cons y a =>
            obtain ⟨-, hc⟩ := List.cons.inj hc
            cases a <;> cases hc

/-- Texts before their first quotes. -/
theorem append_quote_inj {a b x y : List Char} (ha : quote ∉ a) (hb : quote ∉ b)
    (h : a ++ quote :: x = b ++ quote :: y) : a = b ∧ x = y := by
  induction a generalizing b with
  | nil =>
    cases b with
    | nil => exact ⟨rfl, (List.cons.inj h).2⟩
    | cons c b =>
      obtain ⟨rfl, -⟩ := List.cons.inj h
      exact absurd List.mem_cons_self hb
  | cons c a ih =>
    cases b with
    | nil =>
      obtain ⟨rfl, -⟩ := List.cons.inj h
      exact absurd List.mem_cons_self ha
    | cons d b =>
      obtain ⟨rfl, htail⟩ := List.cons.inj h
      obtain ⟨rfl, hxy⟩ := ih (fun hm => ha (List.mem_cons_of_mem _ hm))
        (fun hm => hb (List.mem_cons_of_mem _ hm)) htail
      exact ⟨rfl, hxy⟩

/-- A suffix that starts with a quote starts no earlier than the first one. -/
theorem suffix_of_quote {a x s : List Char} (ha : quote ∉ a)
    (h : quote :: s <:+ a ++ quote :: x) : quote :: s <:+ quote :: x := by
  rcases List.suffix_or_suffix_of_suffix h (List.suffix_append a (quote :: x)) with hle | hle
  · exact hle
  · obtain ⟨pre, hpre⟩ := h
    obtain ⟨w, hw⟩ := hle
    rw [← hw, ← List.append_assoc] at hpre
    have ha' : pre ++ w = a := List.append_cancel_right hpre
    cases w with
    | nil => exact hw ▸ List.suffix_refl _
    | cons y w =>
      obtain ⟨rfl, -⟩ := List.cons.inj hw
      exact absurd (ha' ▸ List.mem_append_right _ List.mem_cons_self) ha

/-! ## Search -/

/-- A text that starts with a quoted key and a colon, maybe after blanks. -/
def KeyAt (name : List Char) (cs : List Char) : Prop :=
  ∃ sp rest, cs = quote :: (name ++ quote :: (sp ++ ':' :: rest)) ∧ ∀ c ∈ sp, c ≠ ',' ∧ c ≠ '\x7d'

/-- A text goes on after a member: with a comma or the closing brace. -/
def Ends (t : List Char) : Prop := ∃ c t', t = c :: t' ∧ (c = ',' ∨ c = '\x7d')

theorem ends_tailText (ms : List (Key × Value)) : Ends (tailText ms) := by
  cases ms with
  | nil => exact ⟨_, _, rfl, .inr rfl⟩
  | cons m ms => exact ⟨_, _, rfl, .inl rfl⟩

section Search

variable {α : Type} {p : List Char → Option α} {k : Key} {t : List Char}

/-- Where `p` reads nothing, a search goes on. -/
theorem search_append {xs : List Char} (h : ∀ s, s ≠ [] → s <:+ xs → p (s ++ t) = none) :
    search p (xs ++ t) = search p t := by
  induction xs with
  | nil => rfl
  | cons x xs ih =>
    rw [List.cons_append, search, ← List.cons_append, h _ (List.cons_ne_nil _ _) (List.suffix_refl _),
      Option.none_or]
    exact ih fun s hne hs => h s hne (hs.trans (List.suffix_cons _ _))

/-- No key starts at a quote in a string, nor at its end. -/
theorem not_keyAt_string {v s : List Char} (ht : Ends t) (hs : s <:+ escape v ++ [quote]) :
    ¬ KeyAt k.name.toList (quote :: (s ++ t)) := by
  rintro ⟨sp, rest, h, hsp⟩
  obtain ⟨c, t', rfl, hc⟩ := ht
  have h := (List.cons.inj h).2
  rcases List.suffix_concat_iff.mp hs with rfl | ⟨e, rfl, he⟩
  · obtain ⟨x, name, hname⟩ := List.exists_cons_of_ne_nil k.ne_nil
    have hx : keyChar x = true := List.all_eq_true.mp k.plain x (hname ▸ List.mem_cons_self)
    rw [hname] at h
    obtain ⟨rfl, -⟩ := List.cons.inj h
    rcases hc with rfl | rfl <;> cases hx
  rw [List.append_assoc, List.singleton_append] at h
  by_cases hquote : quote ∈ e
  · -- An escaped quote: a backslash would be the key's last character.
    obtain ⟨e₁, e₂, rfl, he₁⟩ := List.eq_append_cons_of_mem hquote
    rw [List.append_assoc, List.cons_append] at h
    obtain ⟨rfl, -⟩ := append_quote_inj he₁ k.quote_notMem h
    obtain ⟨u, hu⟩ := he
    rw [← List.append_assoc] at hu
    have hlast := getLast?_of_escape hu.symm
    rw [List.getLast?_append_of_ne_nil _ k.ne_nil] at hlast
    exact absurd (List.all_eq_true.mp k.plain _ (List.mem_of_getLast? hlast)) (by decide)
  · -- The quote that ends the string: a comma or a brace follows it.
    obtain ⟨-, h⟩ := append_quote_inj hquote k.quote_notMem h
    cases sp with
    | nil =>
      obtain ⟨rfl, -⟩ := List.cons.inj h
      rcases hc with hc | hc <;> cases hc
    | cons y sp =>
      obtain ⟨rfl, -⟩ := List.cons.inj h
      have := hsp c List.mem_cons_self
      rcases hc with rfl | rfl
      · exact this.1 rfl
      · exact this.2 rfl

/-- No key starts at the end of a key, nor in a value. -/
theorem not_keyAt_value {v : Value} (ht : Ends t) {s : List Char}
    (hs : s <:+ quote :: ':' :: v.text) (hne : s ≠ []) : ¬ KeyAt k.name.toList (s ++ t) := by
  intro hkey
  obtain ⟨sp, rest, h, -⟩ := id hkey
  obtain ⟨y, s, rfl⟩ := List.exists_cons_of_ne_nil hne
  obtain ⟨rfl, htail⟩ := List.cons.inj h
  rcases List.suffix_cons_iff.mp hs with hs | hs
  · obtain ⟨x, name, hname⟩ := List.exists_cons_of_ne_nil k.ne_nil
    have hx : keyChar x = true := List.all_eq_true.mp k.plain x (hname ▸ List.mem_cons_self)
    rw [(List.cons.inj hs).2, hname] at htail
    obtain ⟨rfl, -⟩ := List.cons.inj htail
    cases hx
  rcases List.suffix_cons_iff.mp hs with hs | hs
  · exact absurd (List.cons.inj hs).1 (by decide)
  cases v with
  | plain t hplain => exact hplain (hs.subset List.mem_cons_self)
  | str v =>
    rw [List.cons_append] at hkey
    have hstring : s <:+ escape v.toList ++ [quote] := by
      rcases List.suffix_cons_iff.mp hs with hs | hs
      · exact (List.cons.inj hs).2 ▸ List.suffix_refl _
      · exact (List.suffix_cons _ _).trans hs
    exact not_keyAt_string ht hstring hkey

/-- A search for a key goes past the members with other keys. -/
theorem search_member (hp : ∀ cs, p cs ≠ none → KeyAt k.name.toList cs) {m : Key × Value}
    (ht : Ends t) : search p (memberText m ++ t) =
      (if m.1.name = k.name then p (memberText m ++ t) else none).or (search p t) := by
  have hrest : search p (m.1.name.toList ++ quote :: ':' :: m.2.text ++ t) = search p t := by
    refine search_append fun s hne hs => ?_
    by_contra hsome
    have hkey := hp _ hsome
    obtain ⟨y, s, rfl⟩ := List.exists_cons_of_ne_nil hne
    have hy : y = quote := by
      obtain ⟨sp, rest, h, -⟩ := hkey
      exact (List.cons.inj h).1
    subst hy
    exact not_keyAt_value ht (suffix_of_quote m.1.quote_notMem hs) hne hkey
  rw [memberText, List.cons_append, search, ← List.cons_append, hrest]
  congr 1
  split
  · rfl
  · rename_i hother
    by_contra hsome
    obtain ⟨sp, rest, h, -⟩ := hp _ hsome
    have htail := (List.cons.inj h).2
    rw [List.append_eq, List.append_assoc] at htail
    exact hother (String.toList_inj.mp (append_quote_inj m.1.quote_notMem k.quote_notMem htail).1)

/-- What a search for a key reads in an object: what it reads at the first
member with that key where it reads something. -/
def readMembers (p : List Char → Option α) (k : Key) : List (Key × Value) → Option α
  | [] => none
  | m :: ms =>
    (if m.1.name = k.name then p (memberText m ++ tailText ms) else none).or (readMembers p k ms)

/-- A search for a key passes what is no quote. -/
theorem search_cons (hp : ∀ cs, p cs ≠ none → KeyAt k.name.toList cs) {c : Char} {cs : List Char}
    (hc : c ≠ quote) : search p (c :: cs) = search p cs := by
  have hnone : p (c :: cs) = none := by
    by_contra hsome
    obtain ⟨sp, rest, h, -⟩ := hp _ hsome
    exact hc (List.cons.inj h).1
  rw [search, hnone, Option.none_or]

theorem readMembers_eq_none {ms : List (Key × Value)} (h : ∀ m ∈ ms, m.1.name ≠ k.name) :
    readMembers p k ms = none := by
  induction ms with
  | nil => rfl
  | cons m ms ih =>
    rw [readMembers, if_neg (h m List.mem_cons_self), Option.none_or]
    exact ih fun m' hm => h m' (List.mem_cons_of_mem _ hm)

/-- The only member with a key. -/
theorem readMembers_split {pre post : List (Key × Value)} {m : Key × Value}
    (hm : m.1.name = k.name) (hpre : ∀ m' ∈ pre, m'.1.name ≠ k.name)
    (hpost : ∀ m' ∈ post, m'.1.name ≠ k.name) :
    readMembers p k (pre ++ m :: post) = p (memberText m ++ tailText post) := by
  induction pre with
  | nil => rw [List.nil_append, readMembers, if_pos hm, readMembers_eq_none hpost, Option.or_none]
  | cons m' pre ih =>
    rw [List.cons_append, readMembers, if_neg (hpre m' List.mem_cons_self), Option.none_or]
    exact ih fun x hx => hpre x (List.mem_cons_of_mem _ hx)

theorem search_tailText (hp : ∀ cs, p cs ≠ none → KeyAt k.name.toList cs)
    (ms : List (Key × Value)) : search p (tailText ms) = readMembers p k ms := by
  induction ms with
  | nil =>
    rw [tailText, search_cons hp (by decide)]
    by_contra hsome
    obtain ⟨sp, rest, h, -⟩ := hp _ hsome
    cases h
  | cons m ms ih =>
    rw [tailText, search_cons hp (by decide), search_member hp (ends_tailText ms), ih, readMembers]

/-- A search for a key reads an object's members only. -/
theorem search_object (hp : ∀ cs, p cs ≠ none → KeyAt k.name.toList cs)
    {ms : List (Key × Value)} (hne : ms ≠ []) : search p (objectText ms) = readMembers p k ms := by
  cases ms with
  | nil => exact absurd rfl hne
  | cons m ms =>
    rw [objectText, search_cons hp (by decide), search_member hp (ends_tailText ms),
      search_tailText hp, readMembers]

end Search

end Kelpflux.Framework.JsonText
