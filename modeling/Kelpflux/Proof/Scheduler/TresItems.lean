import Kelpflux.Framework.Word
import Kelpflux.Impl.Operator.Fragmentation
import Kelpflux.Impl.Scheduler.LiveDaemon
import Kelpflux.Impl.Scheduler.SnapshotAgent
import Kelpflux.Proof.Scheduler.SubmitScore

/-!
# Four readers of a TRES text

The operator and the submit plugin search a text for `mps` and a number, the
snapshot agent looks at the start of each item, and the live daemon at the last
number of an item that has `mps` anywhere. Each is told item by item
(`search_items`, `anchored_items`, `tresMps_eq`), and the four read the count
of the MPS item where these do: `mps_readers_iff`.
-/

namespace Kelpflux.Proof.Scheduler

open Framework Framework.Python Impl.Scheduler Impl.Sim.Score

/-! ## Items -/

inductive Lead where
  | bare
  | slash
  | colon
deriving DecidableEq

/-- `[gres/|gres:]name[:type](:|=)count` -/
structure TresItem where
  lead : Lead
  name : Word
  kind : Option Word
  equals : Bool
  count : Digits

namespace TresItem

variable (x : TresItem)

def value : ℕ := digitsNat x.count.chars

/-- The separator and the count. -/
def tail : List Char := (if x.equals then '=' else ':') :: x.count.chars

def body : List Char :=
  x.name.chars ++ x.kind.elim x.tail fun kind => ':' :: (kind.chars ++ x.tail)

def text : List Char :=
  match x.lead with
  | .bare => x.body
  | .slash => "gres".toList ++ '/' :: x.body
  | .colon => "gres".toList ++ ':' :: x.body

end TresItem

def itemsText : List TresItem → List Char
  | [] => []
  | [x] => x.text
  | x :: y :: ys => x.text ++ ',' :: itemsText (y :: ys)

/-- The items, with commas. -/
def tresText (items : List TresItem) : String := String.ofList (itemsText items)

/-- The count of the MPS item, or 0 of none. -/
def mpsCount (items : List TresItem) : ℕ :=
  ((items.find? fun x => x.name.chars = "mps".toList).map TresItem.value).getD 0

/-! ## What each reader makes of an item -/

namespace TresItem

variable (x : TresItem)

def endsMps (w : Word) : Prop := "mps".toList <:+ w.chars

instance : DecidablePred endsMps := fun w => inferInstanceAs (Decidable ("mps".toList <:+ w.chars))

/-- The number after a name or a type that ends in `mps`: the digits of the
type, or the count. -/
def found : Option ℕ :=
  (if endsMps x.name then x.kind.elim (some x.value) fun kind => leadingDigits kind.chars
    else none).or (if ∃ kind ∈ x.kind, endsMps kind then some x.value else none)

/-- The name is `mps`, in any case. -/
def isMps : Prop := x.name.chars.map Char.toLower = "mps".toList

instance : Decidable x.isMps := inferInstanceAs (Decidable (_ = _))

/-- `mps=N` -/
def bareEquals : Option ℕ :=
  if x.isMps ∧ x.lead = .bare ∧ x.kind.isNone ∧ x.equals then some x.value else none

/-- `mps:N`, `mps:type:N` and, of a type that starts with digits, `mps:type=N` -/
def bareColon : Option ℕ :=
  if x.isMps ∧ x.lead = .bare then
    x.kind.elim (if x.equals then none else some x.value) fun kind =>
      if x.equals then leadingDigits kind.chars else some x.value
  else none

/-- `gres/mps=N` -/
def slashEquals : Option ℕ :=
  if x.isMps ∧ x.lead = .slash ∧ x.kind.isNone ∧ x.equals then some x.value else none

/-- The name or the type has `mps`, in any case. -/
def mentions : Prop :=
  "mps".toList <:+: x.name.chars.map Char.toLower ∨
    ∃ kind ∈ x.kind, "mps".toList <:+: kind.chars.map Char.toLower

instance : Decidable x.mentions := inferInstanceAs (Decidable (_ ∨ _))

/-- The last number between colons: the count, or a name of digits. -/
def lastNumber : Option ℕ :=
  if x.equals then
    if x.kind.isSome ∧ x.lead ≠ .slash ∧ x.name.chars.all Char.isDigit then
      some (digitsNat x.name.chars)
    else none
  else some x.value

end TresItem

/-- Each reader stops at a number that is the count. -/
structure CountRead (items : List TresItem) : Prop where
  found : (items.findSome? TresItem.found).getD 0 = mpsCount items
  anchored : (((items.findSome? TresItem.bareEquals).or (items.findSome? TresItem.bareColon)).or
    (items.findSome? TresItem.slashEquals)).getD 0 = mpsCount items
  last : ((items.filter fun x => x.mentions).filterMap TresItem.lastNumber).getLast?.getD 0 =
    mpsCount items

/-! ## Separators -/

/-- No words go across it. -/
def Sep (c : Char) : Prop := isWordChar c = false

theorem Sep.comma : Sep ',' := rfl

theorem Sep.slash : Sep '/' := rfl

theorem Sep.colon : Sep ':' := rfl

theorem Sep.equals : Sep '=' := rfl

theorem Sep.tail (x : TresItem) : Sep (if x.equals then '=' else ':') := by
  cases x.equals <;> rfl

theorem mps_word : ∀ c ∈ "mps".toList, isWordChar c = true := List.all_eq_true.mp rfl

theorem gres_word : ∀ c ∈ "gres".toList, isWordChar c = true := List.all_eq_true.mp rfl

/-! ## The search -/

section Search

variable {w rest : List Char} {c : Char}

theorem readMps_eq (cs : List Char) : readMps cs =
    if "mps".toList <+: cs ∧ (cs[3]? = some ':' ∨ cs[3]? = some '=') then leadingDigits (cs.drop 4)
    else none := by
  unfold readMps after
  by_cases h : "mps".toList <+: cs
  · obtain ⟨rest, rfl⟩ := h
    cases rest with
    | nil => rfl
    | cons c rest =>
      show (if c = ':' ∨ c = '=' then leadingDigits rest else none) = _
      simp
  · rw [if_neg h, if_neg fun hand => h hand.1]

theorem readMps_word (hw : ∀ x ∈ w, isWordChar x = true) (hc : Sep c) : readMps (w ++ c :: rest) =
    if (c = ':' ∨ c = '=') ∧ w = "mps".toList then leadingDigits rest else none := by
  have hne : ∀ x, isWordChar x = true → x ≠ c := by
    rintro x hx rfl
    rw [hc] at hx
    cases hx
  have hm : 'm' ≠ c := hne 'm' rfl
  have hp : 'p' ≠ c := hne 'p' rfl
  have hs : 's' ≠ c := hne 's' rfl
  rw [readMps_eq]
  -- the fourth character follows a word of three, and no other
  rcases w with _ | ⟨a, _ | ⟨b, _ | ⟨d, _ | ⟨e, w⟩⟩⟩⟩
  · simp [hm]
  · simp [hp]
  · simp [hs]
  · simp only [List.cons_append, List.nil_append, List.drop_succ_cons, List.drop_zero]
    refine if_congr ?_ rfl rfl
    simp [eq_comm, and_comm]
  · have he := hw e (by simp)
    have hsep : e ≠ ':' ∧ e ≠ '=' := by
      constructor
      · rintro rfl
        cases he
      · rintro rfl
        cases he
    rw [if_neg, if_neg]
    · simp
    · simp [hsep]

theorem readMps_sep (hc : Sep c) (rest : List Char) : readMps (c :: rest) = none := by
  have hnil : readMps ([] ++ c :: rest) = _ :=
    readMps_word (fun _ hx => absurd hx List.not_mem_nil) hc
  rw [List.nil_append] at hnil
  rw [hnil, if_neg]
  rintro ⟨-, h⟩
  cases h

theorem search_sep (hc : Sep c) (rest : List Char) :
    search readMps (c :: rest) = search readMps rest := by
  rw [search, readMps_sep hc, Option.none_or]

theorem search_word (hw : ∀ x ∈ w, isWordChar x = true) (hc : Sep c) :
    search readMps (w ++ c :: rest) =
    (if (c = ':' ∨ c = '=') ∧ "mps".toList <:+ w then leadingDigits rest else none).or
      (search readMps rest) := by
  induction w with
  | nil =>
    rw [List.nil_append, search_sep hc, if_neg]
    · rfl
    · rintro ⟨-, h⟩
      exact absurd h (by decide)
  | cons a w ih =>
    rw [List.cons_append, search, ih fun x hx => hw x (List.mem_cons_of_mem _ hx),
      ← List.cons_append, readMps_word hw hc]
    by_cases hsep : c = ':' ∨ c = '='
    · simp only [hsep, true_and, List.suffix_cons_iff, eq_comm (a := a :: w)]
      by_cases hword : "mps".toList = a :: w
      · rw [if_pos hword, if_pos (Or.inl hword)]
        split
        · cases leadingDigits rest <;> rfl
        · rfl
      · simp only [hword, if_false, false_or, Option.none_or]
    · simp only [hsep, false_and, if_false, Option.none_or]

/-- There is nothing where no separator follows. -/
theorem search_plain (hw : ∀ x ∈ w, isWordChar x = true) : search readMps w = none := by
  induction w with
  | nil => rfl
  | cons a w ih =>
    have hhere : readMps (a :: w) = none := by
      rw [readMps_eq, if_neg]
      rintro ⟨-, hsep⟩
      have hword : ∀ c, (a :: w)[3]? = some c → isWordChar c = true :=
        fun c h => hw c (List.mem_of_getElem? h)
      rcases hsep with h | h
      · exact absurd (hword _ h) (by decide)
      · exact absurd (hword _ h) (by decide)
    rw [search, hhere, Option.none_or, ih fun x hx => hw x (List.mem_cons_of_mem _ hx)]

/-- What follows an item: nothing, or a comma. -/
def ItemEnd (more : List Char) : Prop := more = [] ∨ ∃ rest, more = ',' :: rest

variable {more : List Char}

theorem search_digits (d : Digits) (hmore : ItemEnd more) :
    search readMps (d.chars ++ more) = search readMps more := by
  rcases hmore with rfl | ⟨rest, rfl⟩
  · rw [List.append_nil, search_plain d.word]
    rfl
  · rw [search_word d.word Sep.comma, search_sep Sep.comma]
    rfl

theorem leadingDigits_count (d : Digits) (hmore : ItemEnd more) :
    leadingDigits (d.chars ++ more) = some (digitsNat d.chars) := by
  rcases hmore with rfl | ⟨rest, rfl⟩
  · rw [List.append_nil, leadingDigits_digits]
  · rw [leadingDigits_append (isDigit_of_not_word Sep.comma), leadingDigits_digits]

/-- The last word of an item, and its count. -/
theorem search_tail (x : TresItem) (word : Word) (hmore : ItemEnd more) :
    search readMps (word.chars ++ (x.tail ++ more)) =
      (if TresItem.endsMps word then some x.value else none).or (search readMps more) := by
  unfold TresItem.tail
  rw [List.cons_append, search_word word.word (Sep.tail x), leadingDigits_count _ hmore,
    search_digits _ hmore]
  have hsep : (if x.equals then '=' else ':') = ':' ∨ (if x.equals then '=' else ':') = '=' := by
    cases x.equals
    · exact Or.inl rfl
    · exact Or.inr rfl
  rw [if_congr (and_iff_right hsep) rfl rfl]
  rfl

theorem search_body (x : TresItem) (hmore : ItemEnd more) :
    search readMps (x.body ++ more) = x.found.or (search readMps more) := by
  unfold TresItem.body TresItem.found
  cases hkind : x.kind with
  | none =>
    simp only [Option.elim_none, List.append_assoc, search_tail x _ hmore]
    simp
  | some kind =>
    simp only [Option.elim_some, List.append_assoc, List.cons_append]
    rw [search_word x.name.word Sep.colon, search_tail x _ hmore, TresItem.tail, List.cons_append,
      leadingDigits_append (isDigit_of_not_word (Sep.tail x)), Option.or_assoc]
    have hname : ((':' = ':' ∨ ':' = '=') ∧ "mps".toList <:+ x.name.chars) ↔
        TresItem.endsMps x.name := and_iff_right (Or.inl rfl)
    rw [if_congr hname rfl rfl]
    simp

theorem search_text (x : TresItem) (hmore : ItemEnd more) :
    search readMps (x.text ++ more) = x.found.or (search readMps more) := by
  unfold TresItem.text
  cases x.lead with
  | bare => exact search_body x hmore
  | slash =>
    dsimp only
    rw [List.append_assoc, List.cons_append, search_word gres_word Sep.slash, search_body x hmore]
    simp
  | colon =>
    dsimp only
    rw [List.append_assoc, List.cons_append, search_word gres_word Sep.colon, search_body x hmore,
      if_neg (by decide), Option.none_or]

theorem search_items (items : List TresItem) :
    search readMps (itemsText items) = items.findSome? TresItem.found := by
  induction items with
  | nil => rfl
  | cons x items ih =>
    rw [List.findSome?_cons]
    cases items with
    | nil =>
      have hitem : search readMps (x.text ++ []) = _ := search_text x (Or.inl rfl)
      rw [List.append_nil] at hitem
      rw [itemsText, hitem]
      cases x.found <;> rfl
    | cons y ys =>
      rw [itemsText, search_text x (Or.inr ⟨_, rfl⟩), search_sep Sep.comma, ih]
      cases x.found <;> simp

end Search

/-! ## Items between commas -/

theorem tail_chars (x : TresItem) {c : Char} (h : c ∈ x.tail) :
    isWordChar c = true ∨ c ∈ ":=/".toList := by
  rcases List.mem_cons.mp h with rfl | h
  · right
    cases x.equals <;> decide
  · exact Or.inl (x.count.word c h)

theorem body_chars (x : TresItem) {c : Char} (h : c ∈ x.body) :
    isWordChar c = true ∨ c ∈ ":=/".toList := by
  unfold TresItem.body at h
  rcases List.mem_append.mp h with h | h
  · exact Or.inl (x.name.word c h)
  cases hkind : x.kind with
  | none =>
    rw [hkind] at h
    exact tail_chars x h
  | some kind =>
    rw [hkind] at h
    rcases List.mem_cons.mp h with rfl | h
    · right
      decide
    · rcases List.mem_append.mp h with h | h
      · exact Or.inl (kind.word c h)
      · exact tail_chars x h

theorem text_chars (x : TresItem) {c : Char} (h : c ∈ x.text) :
    isWordChar c = true ∨ c ∈ ":=/".toList := by
  have hlead : ∀ d ∈ ":=/".toList, c ∈ "gres".toList ++ d :: x.body →
      isWordChar c = true ∨ c ∈ ":=/".toList := by
    intro d hd h
    rcases List.mem_append.mp h with h | h
    · exact Or.inl (gres_word c h)
    · rcases List.mem_cons.mp h with rfl | h
      · exact Or.inr hd
      · exact body_chars x h
  unfold TresItem.text at h
  cases hl : x.lead with
  | bare =>
    rw [hl] at h
    exact body_chars x h
  | slash =>
    rw [hl] at h
    exact hlead '/' (by decide) h
  | colon =>
    rw [hl] at h
    exact hlead ':' (by decide) h

theorem text_comma (x : TresItem) : ∀ c ∈ x.text, (c == ',') = false := by
  intro c hc
  rw [beq_eq_false_iff_ne]
  rintro rfl
  exact (text_chars x hc).elim (by decide) (by decide)

theorem pieces_items {items : List TresItem} (hne : items ≠ []) :
    pieces (· == ',') (itemsText items) = items.map TresItem.text := by
  induction items with
  | nil => exact absurd rfl hne
  | cons x items ih =>
    cases items with
    | nil => exact pieces_of_none (text_comma x)
    | cons y ys =>
      rw [itemsText, pieces_append (text_comma x) rfl, ih (List.cons_ne_nil _ _)]
      rfl

theorem findSome_items {β : Type} {read : List Char → Option β} (hread : read [] = none)
    (items : List TresItem) :
    (pieces (· == ',') (itemsText items)).findSome? read =
      items.findSome? fun x => read x.text := by
  cases items with
  | nil =>
    rw [itemsText, pieces, List.findSome?_cons, hread]
    rfl
  | cons x items =>
    rw [pieces_items (List.cons_ne_nil _ _), List.findSome?_map]
    rfl

/-! ## The start of an item -/

section Anchored

variable {p : String} {s c : Char} {rest : List Char}

theorem after_name (hp : p.toList = "mps".toList ++ [s]) (hs : Sep s) (x : TresItem) (hc : Sep c) :
    afterPrefix p (x.name.chars ++ c :: rest) = if x.isMps ∧ c = s then some rest else none :=
  afterPrefix_word hp hs mps_word x.name.word hc

theorem after_gres (hp : p.toList = "mps".toList ++ [s]) (hs : Sep s) (hc : Sep c) :
    afterPrefix p ("gres".toList ++ c :: rest) = none := by
  rw [afterPrefix_word hp hs mps_word gres_word hc, if_neg]
  rintro ⟨h, -⟩
  exact absurd h (by decide)

theorem mps_equals : "mps=".toList = "mps".toList ++ ['='] := rfl

theorem mps_colon : "mps:".toList = "mps".toList ++ [':'] := rfl

/-- What follows an item's name. -/
theorem body_eq (x : TresItem) : ∃ c rest, Sep c ∧ x.body = x.name.chars ++ c :: rest ∧
    c :: rest = x.kind.elim x.tail fun kind => ':' :: (kind.chars ++ x.tail) := by
  unfold TresItem.body
  cases x.kind with
  | none => exact ⟨_, _, Sep.tail x, rfl, rfl⟩
  | some kind => exact ⟨_, _, Sep.colon, rfl, rfl⟩

theorem equals_iff (x : TresItem) : (if x.equals then '=' else ':') = '=' ↔ x.equals = true := by
  cases x.equals <;> decide

theorem colon_iff (x : TresItem) : (if x.equals then '=' else ':') = ':' ↔ x.equals = false := by
  cases x.equals <;> decide

theorem body_equals (x : TresItem) : afterPrefix "mps=" x.body >>= leadingDigits =
    if x.isMps ∧ x.kind.isNone ∧ x.equals then some x.value else none := by
  unfold TresItem.body
  cases hkind : x.kind with
  | none =>
    show afterPrefix "mps=" (x.name.chars ++ x.tail) >>= leadingDigits = _
    rw [TresItem.tail, after_name mps_equals Sep.equals x (Sep.tail x), if_congr
      (and_congr_right fun _ => equals_iff x) rfl rfl]
    by_cases h : x.isMps ∧ x.equals = true
    · rw [if_pos h, if_pos ⟨h.1, rfl, h.2⟩]
      exact leadingDigits_digits x.count
    · rw [if_neg h, if_neg fun hand => h ⟨hand.1, hand.2.2⟩]
      rfl
  | some kind =>
    show afterPrefix "mps=" (x.name.chars ++ ':' :: (kind.chars ++ x.tail)) >>= leadingDigits = _
    rw [after_name mps_equals Sep.equals x Sep.colon,
      if_neg fun hand => absurd hand.2 (by decide), if_neg]
    · rfl
    · rintro ⟨-, hnone, -⟩
      cases hnone

theorem text_equals (x : TresItem) :
    afterPrefix "mps=" x.text >>= leadingDigits = x.bareEquals := by
  unfold TresItem.text TresItem.bareEquals
  cases x.lead with
  | bare =>
    dsimp only
    rw [body_equals]
    simp
  | slash =>
    dsimp only
    rw [after_gres mps_equals Sep.equals Sep.slash]
    simp
  | colon =>
    dsimp only
    rw [after_gres mps_equals Sep.equals Sep.colon]
    simp

theorem text_slash (x : TresItem) :
    afterPrefix "gres/mps=" x.text >>= leadingDigits = x.slashEquals := by
  have hsplit : ("gres/mps=" : String) = "gres/" ++ "mps=" := rfl
  have hgres : ∀ {w rest : List Char} {c : Char}, (∀ y ∈ w, isWordChar y = true) → Sep c →
      afterPrefix "gres/" (w ++ c :: rest) =
        if w.map Char.toLower = "gres".toList.map Char.toLower ∧ c = '/' then some rest else none :=
    fun hw hc => afterPrefix_word rfl rfl gres_word hw hc
  rw [hsplit, afterPrefix_append]
  unfold TresItem.text TresItem.slashEquals
  cases x.lead with
  | bare =>
    obtain ⟨c, rest, hc, hbody, hrest⟩ := body_eq x
    dsimp only
    rw [hbody, hgres x.name.word hc, if_neg]
    · simp
    · rintro ⟨-, rfl⟩
      cases hkind : x.kind with
      | none =>
        rw [hkind] at hrest
        have hsep := (List.cons.inj hrest).1
        cases hequals : x.equals
        · rw [hequals] at hsep
          exact absurd hsep (by decide)
        · rw [hequals] at hsep
          exact absurd hsep (by decide)
      | some kind =>
        rw [hkind] at hrest
        exact absurd (List.cons.inj hrest).1 (by decide)
  | slash =>
    dsimp only
    rw [hgres gres_word Sep.slash, if_pos ⟨rfl, rfl⟩, Option.bind_some, body_equals]
    simp
  | colon =>
    dsimp only
    rw [hgres gres_word Sep.colon, if_neg fun hand => absurd hand.2 (by decide)]
    simp

/-- What the pattern with a type reads after the name and a colon. -/
def readTyped (rest : List Char) : Option ℕ :=
  let typed := match rest.span (· != ':') with
    | (_ :: _, _ :: digits) => leadingDigits digits
    | _ => none
  typed <|> leadingDigits rest

theorem readTyped_plain (h : ':' ∉ rest) : readTyped rest = leadingDigits rest := by
  unfold readTyped
  rw [span_none h]
  cases rest <;> rfl

theorem readTyped_kind (kind : Word) : readTyped (kind.chars ++ ':' :: rest) =
    (leadingDigits rest).or (leadingDigits kind.chars) := by
  have hkind : ':' ∉ kind.chars := fun h => absurd (kind.word ':' h) (by decide)
  obtain ⟨a, as, hchars⟩ := List.exists_cons_of_ne_nil kind.ne_nil
  unfold readTyped
  rw [span_ne hkind, leadingDigits_append rfl, hchars]
  dsimp only
  cases leadingDigits rest <;> rfl

theorem findSome_three {α β : Type} (f : α → Option β) (a b c : α) :
    [a, b, c].findSome? f = ((f a).or (f b)).or (f c) := by
  simp only [List.findSome?_cons, List.findSome?_nil]
  cases f a <;> cases f b <;> cases f c <;> rfl

theorem body_colon (x : TresItem) : (afterPrefix "mps:" x.body).bind readTyped =
    if x.isMps then x.kind.elim (if x.equals then none else some x.value) fun kind =>
      if x.equals then leadingDigits kind.chars else some x.value
    else none := by
  have hcount : ':' ∉ x.count.chars := fun h => absurd (x.count.digits ':' h) (by decide)
  unfold TresItem.body
  cases hkind : x.kind with
  | none =>
    show (afterPrefix "mps:" (x.name.chars ++ x.tail)).bind readTyped = _
    rw [TresItem.tail, after_name mps_colon Sep.colon x (Sep.tail x), if_congr
      (and_congr_right fun _ => colon_iff x) rfl rfl]
    by_cases hmps : x.isMps
    · cases hequals : x.equals
      · simp only [hmps, and_true, if_true, Option.bind_some]
        rw [readTyped_plain hcount]
        exact leadingDigits_digits x.count
      · simp [hmps]
    · simp [hmps]
  | some kind =>
    show (afterPrefix "mps:" (x.name.chars ++ ':' :: (kind.chars ++ x.tail))).bind readTyped = _
    rw [after_name mps_colon Sep.colon x Sep.colon]
    by_cases hmps : x.isMps
    · rw [if_pos ⟨hmps, rfl⟩, if_pos hmps, Option.bind_some]
      unfold TresItem.tail
      cases hequals : x.equals
      · show readTyped (kind.chars ++ ':' :: x.count.chars) = some x.value
        rw [readTyped_kind, leadingDigits_digits]
        rfl
      · show readTyped (kind.chars ++ '=' :: x.count.chars) = leadingDigits kind.chars
        rw [readTyped_plain, leadingDigits_append rfl]
        intro h
        rcases List.mem_append.mp h with h | h
        · exact absurd (kind.word ':' h) (by decide)
        · exact (List.mem_cons.mp h).elim (by decide) hcount
    · rw [if_neg fun hand => hmps hand.1, if_neg hmps]
      rfl

theorem text_colon (x : TresItem) : (afterPrefix "mps:" x.text).bind readTyped = x.bareColon := by
  unfold TresItem.text TresItem.bareColon
  cases x.lead with
  | bare =>
    dsimp only
    rw [body_colon]
    simp
  | slash =>
    dsimp only
    rw [after_gres mps_colon Sep.colon Sep.slash]
    simp
  | colon =>
    dsimp only
    rw [after_gres mps_colon Sep.colon Sep.colon]
    simp

/-- The snapshot agent's reading, item by item. -/
theorem anchored_items (items : List TresItem) : parseTresInt (tresText items) ["mps"] 0 =
    (((items.findSome? TresItem.bareEquals).or (items.findSome? TresItem.bareColon)).or
      (items.findSome? TresItem.slashEquals)).getD 0 := by
  have hequals : (pieces (· == ',') (itemsText items)).findSome?
      (fun item => afterPrefix ("mps" ++ "=") item >>= leadingDigits) =
        items.findSome? TresItem.bareEquals := by
    rw [findSome_items rfl]
    exact congrArg (items.findSome? ·) (funext text_equals)
  have hcolon : (pieces (· == ',') (itemsText items)).findSome?
      (fun item => (afterPrefix ("mps" ++ ":") item).bind readTyped) =
        items.findSome? TresItem.bareColon := by
    rw [findSome_items rfl]
    exact congrArg (items.findSome? ·) (funext text_colon)
  have hslash : (pieces (· == ',') (itemsText items)).findSome?
      (fun item => afterPrefix ("gres/" ++ "mps" ++ "=") item >>= leadingDigits) =
        items.findSome? TresItem.slashEquals := by
    rw [findSome_items rfl]
    exact congrArg (items.findSome? ·) (funext text_slash)
  have hfound : (tresPatterns "mps").findSome?
      (fun pattern => (pieces (· == ',') (itemsText items)).findSome? pattern) =
        ((items.findSome? TresItem.bareEquals).or (items.findSome? TresItem.bareColon)).or
          (items.findSome? TresItem.slashEquals) := by
    rw [← hequals, ← hcolon, ← hslash]
    exact findSome_three _ _ _ _
  unfold parseTresInt tresText
  dsimp only
  rw [String.toList_ofList, List.findSome?_cons, hfound]
  cases ((items.findSome? TresItem.bareEquals).or (items.findSome? TresItem.bareColon)).or
    (items.findSome? TresItem.slashEquals) with
  | none => rfl
  | some n => rfl

end Anchored

/-! ## The last number of an item -/

section Last

variable {w rest : List Char} {c : Char}

theorem infix_word (hc : Sep c) : "mps".toList <:+: (w ++ c :: rest).map Char.toLower ↔
    "mps".toList <:+: w.map Char.toLower ∨ "mps".toList <:+: rest.map Char.toLower := by
  have hmps : c ∉ "mps".toList := by
    intro h
    have hword := mps_word c h
    rw [hc] at hword
    cases hword
  rw [List.map_append, List.map_cons, toLower_of_not_word hc, infix_append_cons hmps]

theorem infix_tail (x : TresItem) : "mps".toList <:+: (w ++ x.tail).map Char.toLower ↔
    "mps".toList <:+: w.map Char.toLower := by
  unfold TresItem.tail
  rw [infix_word (Sep.tail x), or_iff_left]
  intro h
  have hm : 'm' ∈ x.count.chars.map Char.toLower := h.subset (by decide)
  obtain ⟨d, hd, hlower⟩ := List.mem_map.mp hm
  have hdigit := Char.isDigit_iff_toNat.mp (x.count.digits d hd)
  have hnat := toNat_toLower d
  rw [hlower] at hnat
  have h0 : '0'.toNat = 48 := rfl
  have h9 : '9'.toNat = 57 := rfl
  have hm : 'm'.toNat = 109 := rfl
  split at hnat <;> omega

theorem infix_body (x : TresItem) : "mps".toList <:+: x.body.map Char.toLower ↔ x.mentions := by
  unfold TresItem.body TresItem.mentions
  cases x.kind with
  | none =>
    rw [Option.elim_none, infix_tail]
    simp
  | some kind =>
    rw [Option.elim_some, infix_word Sep.colon, infix_tail]
    simp

theorem contains_text (x : TresItem) :
    contains (lower (String.ofList x.text)) "mps" = decide x.mentions := by
  have hgres : ¬ "mps".toList <:+: "gres".toList.map Char.toLower := by decide
  have htext : "mps".toList <:+: x.text.map Char.toLower ↔ x.mentions := by
    unfold TresItem.text
    cases x.lead with
    | bare => exact infix_body x
    | slash =>
      dsimp only
      rw [infix_word Sep.slash, infix_body, or_iff_right hgres]
    | colon =>
      dsimp only
      rw [infix_word Sep.colon, infix_body, or_iff_right hgres]
  have hlower : (lower (String.ofList x.text)).toList = x.text.map Char.toLower := by
    rw [lower, String.toList_ofList, String.toList_ofList]
  rw [contains, hlower]
  exact decide_eq_decide.mpr htext

/-- The number of the last piece that is one. -/
def lastNum (ps : List (List Char)) : Option ℕ :=
  ((ps.filter fun p => p ≠ [] && p.all Char.isDigit).map digitsNat).getLast?

theorem lastNum_concat (ps : List (List Char)) (q : List Char) : lastNum (ps ++ [q]) =
    if q ≠ [] ∧ q.all Char.isDigit then some (digitsNat q) else lastNum ps := by
  unfold lastNum
  rw [List.filter_append, List.map_append]
  by_cases h : q ≠ [] ∧ q.all Char.isDigit = true
  · rw [if_pos h, List.filter_cons_of_pos (by simpa using h), List.filter_nil, List.map_singleton,
      List.getLast?_concat]
  · rw [if_neg h, List.filter_cons_of_neg (by simpa using h), List.filter_nil, List.map_nil,
      List.append_nil]

/-- A piece with a sign in it is no number. -/
theorem lastNum_sign (ps : List (List Char)) (hc : c.isDigit = false) :
    lastNum (ps ++ [w ++ c :: rest]) = lastNum ps := by
  rw [lastNum_concat, if_neg]
  rintro ⟨-, hall⟩
  have hdigit := List.all_eq_true.mp hall c (by simp)
  rw [hc] at hdigit
  cases hdigit

/-- Words have no colons. -/
theorem word_colon (hw : ∀ y ∈ w, isWordChar y = true) : ∀ y ∈ w, (y == ':') = false := by
  intro y hy
  rw [beq_eq_false_iff_ne]
  rintro rfl
  exact absurd (hw _ hy) (by decide)

theorem lastNum_tail (x : TresItem) (front : List (List Char)) (hw : ∀ y ∈ w, (y == ':') = false) :
    lastNum (front ++ pieces (· == ':') (w ++ x.tail)) =
      if x.equals then lastNum front else some x.value := by
  have hcount : ∀ y ∈ x.count.chars, (y == ':') = false := word_colon x.count.word
  unfold TresItem.tail
  cases x.equals
  · show lastNum (front ++ pieces (· == ':') (w ++ ':' :: x.count.chars)) = some x.value
    rw [pieces_append hw rfl, pieces_of_none hcount, ← List.singleton_append, ← List.append_assoc,
      lastNum_concat, if_pos ⟨x.count.ne_nil, List.all_eq_true.mpr x.count.digits⟩]
    rfl
  · show lastNum (front ++ pieces (· == ':') (w ++ '=' :: x.count.chars)) = lastNum front
    rw [pieces_of_none, lastNum_sign _ rfl]
    intro y hy
    rcases List.mem_append.mp hy with hy | hy
    · exact hw y hy
    · rcases List.mem_cons.mp hy with rfl | hy
      · rfl
      · exact hcount y hy

/-- The pieces of an item, of which `front` are before its name. -/
theorem lastNum_body (x : TresItem) (front : List (List Char)) (hw : ∀ y ∈ w, (y == ':') = false) :
    lastNum (front ++ pieces (· == ':')
      (w ++ x.kind.elim x.tail fun kind => ':' :: (kind.chars ++ x.tail))) =
      if x.equals then lastNum (if x.kind.isSome then front ++ [w] else front)
      else some x.value := by
  cases x.kind with
  | none => exact lastNum_tail x front hw
  | some kind =>
    rw [Option.elim_some, pieces_append hw rfl, ← List.singleton_append, ← List.append_assoc,
      lastNum_tail x _ (word_colon kind.word)]
    rfl

theorem partNums_text (x : TresItem) :
    (LiveDaemon.partNums (String.ofList x.text)).getLast? = x.lastNumber := by
  have hname := word_colon x.name.word
  have hnil : lastNum [] = none := rfl
  have hgres : lastNum ["gres".toList] = none := rfl
  show lastNum (pieces (· == ':') (String.ofList x.text).toList) = _
  rw [String.toList_ofList]
  unfold TresItem.text TresItem.lastNumber TresItem.body
  cases x.lead with
  | bare =>
    have h := lastNum_body x [] hname
    rw [List.nil_append, List.nil_append] at h
    dsimp only
    rw [h]
    refine if_congr Iff.rfl ?_ rfl
    cases x.kind.isSome
    · simp [hnil]
    · rw [if_pos rfl, ← List.nil_append [x.name.chars], lastNum_concat, hnil]
      simp [x.name.ne_nil]
  | slash =>
    have hlead : ∀ y ∈ "gres".toList ++ '/' :: x.name.chars, (y == ':') = false := by
      intro y hy
      rcases List.mem_append.mp hy with hy | hy
      · exact word_colon gres_word y hy
      · rcases List.mem_cons.mp hy with rfl | hy
        · rfl
        · exact hname y hy
    have h := lastNum_body x [] hlead
    rw [List.nil_append, List.nil_append, List.append_assoc, List.cons_append] at h
    dsimp only
    rw [h]
    refine if_congr Iff.rfl ?_ rfl
    cases x.kind.isSome
    · simp [hnil]
    · rw [if_pos rfl, ← List.nil_append ["gres".toList ++ '/' :: x.name.chars], lastNum_sign _ rfl]
      simp [hnil]
  | colon =>
    have h := lastNum_body x ["gres".toList] hname
    rw [List.singleton_append, ← pieces_append (c := ':') (word_colon gres_word) rfl] at h
    dsimp only
    rw [h]
    refine if_congr Iff.rfl ?_ rfl
    cases x.kind.isSome
    · rw [if_neg Bool.false_ne_true, hgres, if_neg fun h => Bool.false_ne_true h.1]
    · rw [if_pos rfl, lastNum_concat, hgres]
      simp [x.name.ne_nil]

/-- A loop that keeps the last value there is. -/
theorem foldl_last {α : Type} (p : α → Bool) (f : α → Option ℕ) (xs : List α) (n : ℕ) :
    xs.foldl (fun n x => if p x then (f x).getD n else n) n =
      ((xs.filter p).filterMap f).getLast?.getD n := by
  induction xs generalizing n with
  | nil => rfl
  | cons x xs ih =>
    rw [List.foldl_cons, ih, List.filter_cons]
    by_cases hp : p x = true
    · rw [if_pos hp, if_pos hp]
      cases hf : f x with
      | none =>
        rw [List.filterMap_cons_none hf]
        rfl
      | some m =>
        rw [List.filterMap_cons_some hf, List.getLast?_cons]
        rfl
    · rw [if_neg hp, if_neg hp]

/-- The live daemon's reading, item by item. -/
theorem tresMps_eq (items : List TresItem) : LiveDaemon.tresMps (tresText items) =
    ((items.filter fun x => x.mentions).filterMap TresItem.lastNumber).getLast?.getD 0 := by
  cases items with
  | nil => rfl
  | cons x items =>
    unfold LiveDaemon.tresMps splitComma tresText
    rw [String.toList_ofList, pieces_items (List.cons_ne_nil _ _), List.map_map, List.foldl_map]
    simp only [Function.comp_apply, contains_text, partNums_text]
    exact foldl_last _ _ _ _

end Last

/-! ## The four readers -/

theorem fragmentation_eq (items : List TresItem) :
    Impl.Fragmentation.parseMpsReq (tresText items) =
      (items.findSome? TresItem.found).getD 0 := by
  rw [← search_items, ← String.toList_ofList (l := itemsText items)]
  rfl

theorem plugin_eq (items : List TresItem) : JobSubmit.parseMpsReq (some (tresText items)) =
    (items.findSome? TresItem.found).getD 0 := by
  rw [parseMpsReq_eq, ← search_items]
  unfold parseSubmitMpsReq tresText
  dsimp only
  rw [String.toList_ofList]
  split
  · rename_i hempty
    have hnil : itemsText items = [] := by
      rw [← String.toList_ofList (l := itemsText items), hempty]
      rfl
    rw [hnil]
    rfl
  · rfl

/-- All four readers get the count of the MPS item if and only if each stops at
a number that is that count. -/
theorem mps_readers_iff (items : List TresItem) :
    (Impl.Fragmentation.parseMpsReq (tresText items) = mpsCount items ∧
      parseTresInt (tresText items) ["mps"] 0 = mpsCount items ∧
      LiveDaemon.tresMps (tresText items) = mpsCount items ∧
      JobSubmit.parseMpsReq (some (tresText items)) = mpsCount items) ↔ CountRead items := by
  rw [fragmentation_eq, anchored_items, tresMps_eq, plugin_eq, Nat.cast_inj]
  constructor
  · rintro ⟨hfound, hanchored, hlast, -⟩
    exact ⟨hfound, hanchored, hlast⟩
  · intro h
    exact ⟨h.found, h.anchored, h.last, h.found⟩

/-- The one item that says `mps` anywhere is `mps:N`, or none is. -/
structure PlainMps (items : List TresItem) : Prop where
  only : (items.filter fun x => x.mentions).length ≤ 1
  plain : ∀ x ∈ items, x.mentions →
    x.lead = .bare ∧ x.name.chars = "mps".toList ∧ x.kind = none ∧ x.equals = false

/-- What is read of no item but those that say `mps`. -/
theorem findSome_mentions {f : TresItem → Option ℕ} (hf : ∀ x : TresItem, ¬ x.mentions → f x = none)
    (items : List TresItem) :
    items.findSome? f = (items.filter fun x => x.mentions).findSome? f := by
  induction items with
  | nil => rfl
  | cons x items ih =>
    rw [List.findSome?_cons, List.filter_cons, ih]
    by_cases hx : x.mentions
    · rw [if_pos (decide_eq_true hx), List.findSome?_cons]
    · rw [if_neg (by simpa using hx), hf x hx]

theorem mpsCount_eq (items : List TresItem) : mpsCount items =
    (items.findSome? fun x =>
      if x.name.chars = "mps".toList then some x.value else none).getD 0 := by
  unfold mpsCount
  congr 1
  induction items with
  | nil => rfl
  | cons x items ih =>
    rw [List.find?_cons, List.findSome?_cons, ← ih]
    by_cases hx : x.name.chars = "mps".toList
    · rw [if_pos hx, decide_eq_true hx]
      rfl
    · rw [if_neg hx, decide_eq_false hx]

theorem mentions_of_isMps {x : TresItem} (h : x.isMps) : x.mentions := by
  refine Or.inl ?_
  rw [show x.name.chars.map Char.toLower = "mps".toList from h]

theorem infix_of_endsMps {w : Word} (h : TresItem.endsMps w) :
    "mps".toList <:+: w.chars.map Char.toLower := (List.IsSuffix.map Char.toLower h).isInfix

/-- An item that does not say `mps` is passed over. -/
structure PassedOver (x : TresItem) : Prop where
  found : x.found = none
  bareEquals : x.bareEquals = none
  bareColon : x.bareColon = none
  slashEquals : x.slashEquals = none
  count : (if x.name.chars = "mps".toList then some x.value else none) = none

theorem passedOver {x : TresItem} (hx : ¬ x.mentions) : PassedOver x := by
  have hmps : ¬ x.isMps := fun hmps => hx (mentions_of_isMps hmps)
  have hname : ¬ TresItem.endsMps x.name := fun hends => hx (Or.inl (infix_of_endsMps hends))
  have hkind : ¬ ∃ kind ∈ x.kind, TresItem.endsMps kind := by
    rintro ⟨kind, hmem, hends⟩
    exact hx (Or.inr ⟨kind, hmem, infix_of_endsMps hends⟩)
  constructor
  · rw [TresItem.found, if_neg hname, if_neg hkind]
    rfl
  · exact if_neg fun hand => hmps hand.1
  · exact if_neg fun hand => hmps hand.1
  · exact if_neg fun hand => hmps hand.1
  · rw [if_neg]
    intro hchars
    refine hmps ?_
    rw [TresItem.isMps, hchars]
    rfl

theorem countRead_of_mentions (items : List TresItem) :
    CountRead items ↔ CountRead (items.filter fun x => x.mentions) := by
  have hcount : mpsCount items = mpsCount (items.filter fun x => x.mentions) := by
    rw [mpsCount_eq, mpsCount_eq, findSome_mentions fun x hx => (passedOver hx).count]
  have hfound := findSome_mentions (fun x hx => (passedOver hx).found) items
  have hequals := findSome_mentions (fun x hx => (passedOver hx).bareEquals) items
  have hcolon := findSome_mentions (fun x hx => (passedOver hx).bareColon) items
  have hslash := findSome_mentions (fun x hx => (passedOver hx).slashEquals) items
  have htwice : ((items.filter fun x => x.mentions).filter fun x => x.mentions) =
      items.filter fun x => x.mentions := by
    rw [List.filter_filter]
    simp
  constructor
  · rintro ⟨h1, h2, h3⟩
    rw [hcount, hfound] at h1
    rw [hcount, hequals, hcolon, hslash] at h2
    rw [hcount] at h3
    exact ⟨h1, h2, by rw [htwice]; exact h3⟩
  · rintro ⟨h1, h2, h3⟩
    rw [htwice] at h3
    exact ⟨by rw [hcount, hfound]; exact h1, by rw [hcount, hequals, hcolon, hslash]; exact h2,
      by rw [hcount]; exact h3⟩

/-- Such a text is read alike by all. -/
theorem countRead_of_plain {items : List TresItem} (h : PlainMps items) : CountRead items := by
  rw [countRead_of_mentions]
  rcases hitems : items.filter fun x => x.mentions with _ | ⟨x, _ | ⟨y, ys⟩⟩
  · rw [hitems]
    exact ⟨rfl, rfl, rfl⟩
  · obtain ⟨hmem, hmentions⟩ := List.mem_filter.mp (hitems ▸ List.mem_singleton_self x)
    obtain ⟨hlead, hname, hkind, hsep⟩ := h.plain x hmem (of_decide_eq_true hmentions)
    have hvalue : mpsCount [x] = x.value := by
      rw [mpsCount_eq, List.findSome?_cons, if_pos hname]
      rfl
    have his : x.isMps := by
      rw [TresItem.isMps, hname]
      rfl
    have hends : TresItem.endsMps x.name := by
      rw [TresItem.endsMps, hname]
    rw [hitems]
    constructor
    · rw [hvalue]
      simp [TresItem.found, hends, hkind]
    · rw [hvalue]
      simp [TresItem.bareEquals, TresItem.bareColon, TresItem.slashEquals, his, hlead, hkind, hsep]
    · rw [hvalue]
      simp [TresItem.lastNumber, hsep, of_decide_eq_true hmentions]
  · have hone := h.only
    rw [hitems] at hone
    simp at hone

/-- `gres/mps=25` -/
def slashItem : TresItem where
  lead := .slash
  name := ⟨"mps".toList, List.cons_ne_nil _ _, mps_word⟩
  kind := none
  equals := true
  count := ⟨"25".toList, List.cons_ne_nil _ _, List.all_eq_true.mp rfl⟩

/-- The live daemon finds no number between colons. -/
theorem slash_not_read :
    ¬ (Impl.Fragmentation.parseMpsReq (tresText [slashItem]) = mpsCount [slashItem] ∧
      parseTresInt (tresText [slashItem]) ["mps"] 0 = mpsCount [slashItem] ∧
      LiveDaemon.tresMps (tresText [slashItem]) = mpsCount [slashItem] ∧
      JobSubmit.parseMpsReq (some (tresText [slashItem])) = mpsCount [slashItem]) := by
  decide +kernel

end Kelpflux.Proof.Scheduler
