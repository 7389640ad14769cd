import Kelpflux.Framework.Text
import Kelpflux.Impl.Operator.Fragmentation
import Kelpflux.Impl.Operator.Slurm
import Kelpflux.Impl.Scheduler.Placement

/-!
# How the components read a node's state

A state is a list of tokens, or one text of them. Of a text, the fragmentation
detector reads the tokens that stand between commas or plus signs
(`detectorTokens`), the snapshot agent and the placement controller those
between commas or spaces (`agentTokens`), and the operator's busy-node test the
only one; and the detector holds more states for unavailable than the other two.
`states_agree_iff`: when all of them agree on a node.
-/

namespace Kelpflux.Proof.NodeState

open Framework Framework.Python
open Kelpflux.Impl Kelpflux.Impl.Scheduler

/-- What may stand between two tokens. -/
def IsSeparator (c : Char) : Prop := c = '+' ∨ c = ',' ∨ isSpace c = true

instance IsSeparator.decidable : DecidablePred IsSeparator := fun c =>
  inferInstanceAs (Decidable (c = '+' ∨ c = ',' ∨ isSpace c = true))

/-- A text without separators. -/
def Plain (s : String) : Prop := ∀ c ∈ s.toList, ¬ IsSeparator c

instance Plain.decidable (s : String) : Decidable (Plain s) :=
  List.decidableBAll (fun c => ¬ IsSeparator c) s.toList

abbrev StateToken := Token IsSeparator

def text (t : StateToken) : String := String.ofList t.chars

/-- A node's state, as slurmrestd may write it. -/
inductive StateField where
  | list (first : StateToken) (rest : List StateToken)
  | text (first : StateToken) (rest : List ({c // IsSeparator c} × StateToken))

namespace StateField

def toJson : StateField → Json
  | .list first rest => .arr ((first :: rest).map fun t => .str (NodeState.text t))
  | .text first rest => .str (String.ofList (joinTokens first rest))

/-- All of them. -/
def tokens : StateField → List StateToken
  | .list first rest => first :: rest
  | .text first rest => first :: rest.map Prod.snd

/-- The tokens between commas or plus signs. -/
def detectorTokens : StateField → List StateToken
  | .list first rest => first :: rest
  | .text first rest => lone (fun c => c == '+' || c == ',') first rest

/-- The tokens between commas or spaces. -/
def agentTokens : StateField → List StateToken
  | .list first rest => first :: rest
  | .text first rest => lone (fun c => c == ',' || isSpace c) first rest

/-- A text of more than one token. -/
def IsJoined : StateField → Prop
  | .text _ (_ :: _) => True
  | _ => False

/-- The detector and the agents both read an unavailable state or both read none,
and a text of more than one token has no busy one. -/
def Clear (st : StateField) : Prop :=
  ((∃ t ∈ st.detectorTokens, lower (NodeState.text t) ∈ Fragmentation.unavailableNodeStates) ↔
    ∃ t ∈ st.agentTokens, upper (NodeState.text t) ∈ ["DOWN", "DRAIN", "NOT_RESPONDING", "FAIL"]) ∧
  (st.IsJoined → ∀ t ∈ st.tokens,
    lower (NodeState.text t) ∉ Operator.SlurmRestClient.busyStates)

/-- What is read of a text are tokens of it. -/
theorem agentTokens_subset (st : StateField) : st.agentTokens ⊆ st.tokens := by
  cases st with
  | list first rest => exact fun _ ht => ht
  | text first rest => exact lone_subset _ first rest

theorem detectorTokens_subset (st : StateField) : st.detectorTokens ⊆ st.tokens := by
  cases st with
  | list first rest => exact fun _ ht => ht
  | text first rest => exact lone_subset _ first rest

/-- Of one token, and of a list, all are read. -/
theorem reads_tokens {st : StateField} (h : ¬ st.IsJoined) :
    st.agentTokens = st.tokens ∧ st.detectorTokens = st.tokens := by
  cases st with
  | list first rest => exact ⟨rfl, rfl⟩
  | text first rest =>
    cases rest with
    | nil => exact ⟨rfl, rfl⟩
    | cons e rest => exact absurd trivial h

end StateField

variable {rt : Runtime} {items : List (String × Json)} {st : StateField}

/-! ## Texts of tokens -/

theorem separator_case {c : Char} (h : IsSeparator c) : c.toLower = c ∧ c.toUpper = c := by
  have hletter : ¬ (65 ≤ c.toNat ∧ c.toNat ≤ 90) ∧ ¬ (97 ≤ c.toNat ∧ c.toNat ≤ 122) := by
    rcases h with rfl | rfl | h
    · decide
    · decide
    · simp only [isSpace, Bool.or_eq_true, Bool.and_eq_true, decide_eq_true_eq] at h
      omega
  rw [← Char.toNat_inj, ← Char.toNat_inj, toNat_toLower, toNat_toUpper, if_neg hletter.1,
    if_neg hletter.2]
  exact ⟨rfl, rfl⟩

theorem mem_joined {t t' : StateToken} {c : {c // IsSeparator c}}
    {rest : List ({c // IsSeparator c} × StateToken)} {f : Char → Char} :
    f c ∈ (joinTokens t ((c, t') :: rest)).map f :=
  List.mem_map_of_mem (List.mem_append_right _ List.mem_cons_self)

/-- What `replaceChar` makes of a character. -/
def replaced (old new c : Char) : Char := if c = old then new else c

theorem replaced_separator {old new c : Char} (hnew : IsSeparator new) (hc : IsSeparator c) :
    IsSeparator (replaced old new c) := by
  unfold replaced
  split
  · exact hnew
  · exact hc

/-- A test that what replaces `old` passes. -/
theorem replaced_test {old new : Char} {p : Char → Bool} (hnew : p new = true) (c : Char) :
    p (replaced old new c) = (c == old || p c) := by
  unfold replaced
  split
  · rename_i hc
    rw [hnew, hc, beq_self_eq_true, Bool.true_or]
  · rename_i hc
    rw [beq_false_of_ne hc, Bool.false_or]

theorem replaced_of_not {old new c : Char} (hold : IsSeparator old) (hc : ¬ IsSeparator c) :
    replaced old new c = c := by
  refine if_neg ?_
  rintro rfl
  exact hc hold

/-- A text of tokens ends with one. -/
theorem joined_ends (t : StateToken) (rest : List ({c // IsSeparator c} × StateToken)) :
    ∃ cs c, joinTokens t rest = cs ++ [c] ∧ ¬ IsSeparator c := by
  induction rest generalizing t with
  | nil =>
    refine ⟨t.chars.dropLast, t.chars.getLast t.ne_nil, ?_, t.not_sep _ (List.getLast_mem _)⟩
    exact (List.dropLast_concat_getLast t.ne_nil).symm
  | cons e rest ih =>
    obtain ⟨c, t'⟩ := e
    obtain ⟨cs, last, hcs, hlast⟩ := ih t'
    exact ⟨t.chars ++ c.1 :: cs, last, by simp [joinTokens, hcs], hlast⟩

/-- And starts with one, so that `strip` leaves it as it is. -/
theorem strip_joined {f : Char → Char} (hf : ∀ c, ¬ IsSeparator c → f c = c) (t : StateToken)
    (rest : List ({c // IsSeparator c} × StateToken)) :
    strip (String.ofList ((joinTokens t rest).map f)) = String.ofList ((joinTokens t rest).map f) := by
  have hws : ∀ {c : Char}, ¬ IsSeparator c → ¬ isSpace (f c) = true := by
    intro c hc h
    rw [hf c hc] at h
    exact hc (.inr (.inr h))
  obtain ⟨cs, last, hcs, hlast⟩ := joined_ends t rest
  obtain ⟨first, cs', hfirst⟩ :
      ∃ first cs', joinTokens t rest = first :: cs' ∧ ¬ IsSeparator first := by
    obtain ⟨first, chars, hchars⟩ := List.exists_cons_of_ne_nil t.ne_nil
    have hmem : first ∈ t.chars := hchars ▸ List.mem_cons_self
    cases rest with
    | nil => exact ⟨first, chars, hchars, t.not_sep first hmem⟩
    | cons e rest =>
      obtain ⟨c, t'⟩ := e
      exact ⟨first, chars ++ c.1 :: joinTokens t' rest, by simp [joinTokens, hchars],
        t.not_sep first hmem⟩
  unfold strip
  rw [String.toList_ofList, hfirst.1, List.map_cons, List.dropWhile_cons_of_neg (hws hfirst.2),
    ← List.map_cons, ← hfirst.1, hcs, List.map_append, List.map_singleton,
    List.rdropWhile_concat_neg _ _ _ (hws hlast)]

/-! ## What each of them reads -/

/-- No text in lower case that still joins tokens is without separators. -/
theorem lower_joined_ne (t t' : StateToken) {c : {c // IsSeparator c}}
    (rest : List ({c // IsSeparator c} × StateToken)) {f : Char → Char} (hc : IsSeparator (f c))
    {s : String} (hs : Plain s) :
    lower (String.ofList ((joinTokens t ((c, t') :: rest)).map f)) ≠ s := by
  rintro rfl
  refine hs (f c) ?_ hc
  unfold lower
  rw [String.toList_ofList, String.toList_ofList]
  exact List.mem_map.mpr ⟨f c, mem_joined, (separator_case hc).1⟩

theorem upper_joined_ne {t t' : StateToken} {c : {c // IsSeparator c}}
    {rest : List ({c // IsSeparator c} × StateToken)} {f : Char → Char} (hc : IsSeparator (f c))
    {s : String} (hs : Plain s) :
    upper (String.ofList ((joinTokens t ((c, t') :: rest)).map f)) ≠ s := by
  rintro rfl
  refine hs (f c) ?_ hc
  unfold upper
  rw [String.toList_ofList, String.toList_ofList]
  exact List.mem_map.mpr ⟨f c, mem_joined, (separator_case hc).2⟩

theorem unavailable_plain : ∀ s ∈ Fragmentation.unavailableNodeStates, Plain s := by
  decide

theorem nodeIsAvailable_eq (rt : Runtime) (hst : Dict.get? items "state" = some st.toJson) :
    ∃ available, Fragmentation.nodeIsAvailable rt (.obj items) = .ok available ∧
      (available = true ↔ ¬ ∃ t ∈ st.detectorTokens,
        lower (text t) ∈ Fragmentation.unavailableNodeStates) := by
  have hget : (Json.obj items).getD "state" (.str "") = .ok st.toJson := by
    rw [Json.getD, hst]
    rfl
  cases st with
  | list first rest =>
    refine ⟨!((first :: rest).map fun t => lower (text t)).any
      (· ∈ Fragmentation.unavailableNodeStates), ?_, ?_⟩
    · unfold Fragmentation.nodeIsAvailable
      rw [hget]
      simp [StateField.toJson, Json.toStr, bind, Except.bind, pure, Except.pure, Function.comp_def]
    · simp [StateField.detectorTokens]
  | text first rest =>
    refine ⟨!((((splitComma (replaceChar '+' ',' (String.ofList (joinTokens first rest)))).map
      strip).filter (· ≠ "")).map lower).any (· ∈ Fragmentation.unavailableNodeStates), ?_, ?_⟩
    · unfold Fragmentation.nodeIsAvailable
      rw [hget]
      rfl
    have hplus : IsSeparator '+' := .inl rfl
    have hcomma : IsSeparator ',' := .inr (.inl rfl)
    have hp : ∀ c, (replaced '+' ',' c == ',') = (c == '+' || c == ',') :=
      replaced_test (p := (· == ',')) rfl
    have hpiece := exists_piece first rest (p := (· == ',')) (f := replaced '+' ',')
      (Q := fun x => lower (strip (String.ofList x)) ∈ Fragmentation.unavailableNodeStates)
      (fun c hc => ?_) (fun c => replaced_of_not hplus) (fun t c t' rest hq => ?_)
    rotate_left
    · rw [hp, Bool.or_eq_true, beq_iff_eq, beq_iff_eq] at hc
      exact hc.elim .inl fun h => .inr (.inl h)
    · rw [strip_joined fun c => replaced_of_not hplus] at hq
      exact lower_joined_ne t t' rest (replaced_separator hcomma c.2) (unavailable_plain _ hq) rfl
    have hempty : lower "" ∉ Fragmentation.unavailableNodeStates := by decide
    have hstrip : ∀ t : StateToken, strip (String.ofList t.chars) = String.ofList t.chars := by
      intro t
      have := strip_joined (f := id) (fun c _ => rfl) t []
      rwa [List.map_id] at this
    simp only [hp, hstrip] at hpiece
    unfold StateField.detectorTokens text
    rw [← hpiece, Bool.not_eq_true', ← Bool.not_eq_true, List.any_eq_true]
    refine not_congr ?_
    simp only [splitComma, replaceChar, String.toList_ofList,
      List.mem_map, List.mem_filter, decide_eq_true_eq]
    constructor
    · rintro ⟨_, ⟨s, ⟨⟨_, ⟨x, hx, rfl⟩, rfl⟩, -⟩, rfl⟩, hmem⟩
      exact ⟨x, hx, hmem⟩
    · rintro ⟨x, hx, hmem⟩
      refine ⟨_, ⟨_, ⟨⟨_, ⟨x, hx, rfl⟩, rfl⟩, ?_⟩, rfl⟩, hmem⟩
      intro h
      rw [h] at hmem
      exact hempty hmem

theorem joined_ne_empty (t : StateToken) (rest : List ({c // IsSeparator c} × StateToken)) :
    String.ofList (joinTokens t rest) ≠ "" := by
  obtain ⟨cs, c, h, -⟩ := joined_ends t rest
  rw [h]
  simp

/-- The states that the agents read. -/
theorem nodeState_eq (rt : Runtime) (hst : Dict.get? items "state" = some st.toJson) :
    ∃ states, nodeState rt (.obj items) = .ok states ∧
      ∀ s : String, Plain s →
        (s ∈ states ↔ ∃ t ∈ st.agentTokens, upper (text t) = s) := by
  have hget : (Json.obj items).get "state" = .ok st.toJson := by
    rw [Json.get, hst]
    rfl
  have htruthy : st.toJson.truthy = true := by
    cases st with
    | list first rest => rfl
    | text first rest => exact decide_eq_true (joined_ne_empty first rest)
  have hstate : nodeState rt (.obj items) = .ok (stateTokens rt st.toJson) := by
    unfold nodeState Json.or
    rw [hget]
    show Except.ok (stateTokens rt (if st.toJson.truthy = true then _ else _)) = _
    rw [if_pos htruthy]
  refine ⟨_, hstate, fun s hs => ?_⟩
  cases st with
  | list first rest =>
    simp [StateField.toJson, StateField.agentTokens, stateTokens, Json.toStr, eq_comm (a := s)]
  | text first rest =>
    have hcomma : IsSeparator ',' := .inr (.inl rfl)
    have hspace : IsSeparator ' ' := .inr (.inr rfl)
    have hp : ∀ c, isSpace (replaced ',' ' ' c) = (c == ',' || isSpace c) := replaced_test rfl
    have hpiece := exists_piece first rest (p := isSpace) (f := replaced ',' ' ')
      (Q := fun x => x ≠ [] ∧ upper (String.ofList x) = s)
      (fun c hc => ?_) (fun c => replaced_of_not hcomma) (fun t c t' rest hq => ?_)
    rotate_left
    · rw [hp, Bool.or_eq_true, beq_iff_eq] at hc
      exact .inr hc
    · exact upper_joined_ne (replaced_separator hspace c.2) hs hq.2
    have hor : (Json.str (String.ofList (joinTokens first rest))).or (.str "") =
        .str (String.ofList (joinTokens first rest)) := if_pos htruthy
    have hwords : stateTokens rt (StateField.text first rest).toJson =
        (words (replaceChar ',' ' ' (String.ofList (joinTokens first rest)))).map upper := by
      simp only [stateTokens, StateField.toJson, hor, Json.toStr]
    simp only [hp] at hpiece
    rw [hwords]
    unfold StateField.agentTokens text
    simp only [words, replaceChar, String.toList_ofList, List.mem_map, List.mem_filter,
      decide_eq_true_eq]
    refine Iff.trans ?_ (hpiece.trans (exists_congr fun t => and_congr_right fun _ => ?_))
    · constructor
      · rintro ⟨_, ⟨x, ⟨hx, hne⟩, rfl⟩, h⟩
        exact ⟨x, hx, hne, h⟩
      · rintro ⟨x, hx, hne, h⟩
        exact ⟨_, ⟨x, ⟨hx, hne⟩, rfl⟩, h⟩
    · exact and_iff_right t.ne_nil

/-- The states that the operator's busy-node test reads. -/
theorem nodeStates_eq (hst : Dict.get? items "state" = some st.toJson) :
    ∃ states, Operator.SlurmRestClient.nodeStates (.obj items) = .ok states ∧
      ∀ s : String, Plain s →
        (s ∈ states ↔ ¬ st.IsJoined ∧ ∃ t ∈ st.tokens, lower (text t) = s) := by
  have hget : (Json.obj items).getD "state" (.str "") = .ok st.toJson := by
    rw [Json.getD, hst]
    rfl
  have hlower : ∀ ts : List StateToken,
      (ts.map fun t => Json.str (text t)).mapM Operator.SlurmRestClient.lowerText =
        .ok (ts.map fun t => lower (text t)) := by
    intro ts
    induction ts with
    | nil => rfl
    | cons t ts ih =>
      rw [List.map_cons, List.mapM_cons, ih]
      rfl
  cases st with
  | list first rest =>
    refine ⟨(first :: rest).map fun t => lower (text t), ?_, fun s hs => ?_⟩
    · unfold Operator.SlurmRestClient.nodeStates
      rw [hget]
      exact hlower (first :: rest)
    · simp [StateField.tokens, StateField.IsJoined, eq_comm (a := s)]
  | text first rest =>
    refine ⟨[lower (String.ofList (joinTokens first rest))], ?_, fun s hs => ?_⟩
    · unfold Operator.SlurmRestClient.nodeStates
      rw [hget]
      exact if_pos (decide_eq_true (joined_ne_empty first rest))
    · rw [List.mem_singleton]
      cases rest with
      | nil =>
        simp [StateField.tokens, StateField.IsJoined, joinTokens, text, eq_comm]
      | cons e rest =>
        obtain ⟨c, t'⟩ := e
        have hne := lower_joined_ne first t' rest (f := id) c.2 hs
        rw [List.map_id] at hne
        exact iff_of_false (fun h => hne h.symm) fun h => h.1 trivial

/-! ## GPU nodes -/

/-- The fields of a node as text, those that say something. -/
def tresTexts (rt : Runtime) (items : List (String × Json)) (keys : List String) : List String :=
  ((keys.map fun key => tresField rt ((Dict.get? items key).getD .null)).filter Json.truthy).map
    fun val => val.toStr rt

theorem nodeTresText_eq (keys : List String) :
    nodeTresText rt (.obj items) keys = .ok (joinComma (tresTexts rt items keys)) := by
  have hvals : ∀ keys : List String, keys.mapM (fun key => tresField rt <$> (Json.obj items).get key) =
      .ok (keys.map fun key => tresField rt ((Dict.get? items key).getD .null)) := by
    intro keys
    induction keys with
    | nil => rfl
    | cons key keys ih =>
      rw [List.mapM_cons, ih]
      rfl
  unfold nodeTresText
  rw [hvals]
  rfl

/-- What the placement controller makes of a node. -/
theorem parseNode_eq (mpsPerGpu : Int) {name : String} {states : List String}
    (hname : nodeName rt (.obj items) = .ok name) (hstates : nodeState rt (.obj items) = .ok states) :
    let text := lower (joinComma (tresTexts rt items ["tres", "cfg_tres", "gres", "gres_detail"]) ++
      "," ++ name)
    (contains text "gpu" = false ∧ contains text "mps" = false ∧
        parseNode rt mpsPerGpu (.obj items) = .ok none) ∨
      ((contains text "gpu" = true ∨ contains text "mps" = true) ∧
        ∃ n, parseNode rt mpsPerGpu (.obj items) = .ok (some n) ∧
          n.available = !states.any (· ∈ ["DOWN", "DRAIN", "NOT_RESPONDING", "FAIL"])) := by
  simp only [nodeName, nodeState, Json.get, bind, Except.bind, pure, Except.pure,
    Except.ok.injEq] at hname hstates
  simp only [parseNode, Json.get, nodeTresText_eq, bind, Except.bind, pure, Except.pure, hname,
    hstates]
  split
  · rename_i hgpu
    rw [Bool.not_eq_true', Bool.or_eq_false_iff] at hgpu
    exact .inl ⟨hgpu.1, hgpu.2, rfl⟩
  · rename_i hgpu
    rw [Bool.not_eq_true', Bool.not_eq_false, Bool.or_eq_true] at hgpu
    exact .inr ⟨hgpu, _, rfl, rfl⟩

/-- What the snapshot agent makes of a node. -/
theorem nodeView_eq (mpsPerGpu defaultGpusPerNode : Int) {name : String} {states : List String}
    (hname : nodeName rt (.obj items) = .ok name) (hstates : nodeState rt (.obj items) = .ok states) :
    let text := lower (joinComma (tresTexts rt items ["tres", "cfg_tres", "gres", "gres_detail",
      "features", "active_features", "available_features"]) ++ "," ++ name)
    ∃ view, nodeView rt mpsPerGpu defaultGpusPerNode (.obj items) = .ok view ∧
      ((contains text "gpu" = true ∨ contains text "mps" = true) →
        view.isSome = !states.any (· ∈ ["DOWN", "DRAIN", "NOT_RESPONDING", "FAIL"])) := by
  intro text
  simp only [nodeName, Json.get, bind, Except.bind, pure, Except.pure, Except.ok.injEq] at hname
  simp only [nodeView, hstates, nodeTresText_eq, nodeName, Json.get, bind, Except.bind, pure,
    Except.pure, hname]
  split
  · rename_i hstop
    exact ⟨_, rfl, fun _ => by rw [hstop]; rfl⟩
  · rename_i hstop
    split
    · rename_i hgpu
      rw [Bool.not_eq_true', Bool.or_eq_false_iff] at hgpu
      refine ⟨_, rfl, fun h => ?_⟩
      rw [hgpu.1, hgpu.2] at h
      simp at h
    · exact ⟨_, rfl, fun _ => by rw [Bool.eq_false_of_not_eq_true hstop]; rfl⟩

/-- A node that is a GPU node by some fields is one by more. -/
theorem gpu_of_fewer {keys keys' : List String} {name needle : String} (hkeys : keys ⊆ keys')
    (hc : ',' ∉ needle.toList)
    (h : contains (lower (joinComma (tresTexts rt items keys) ++ "," ++ name)) needle = true) :
    contains (lower (joinComma (tresTexts rt items keys') ++ "," ++ name)) needle = true := by
  rw [contains_joinComma hc] at h ⊢
  refine h.imp_left ?_
  rintro ⟨x, hx, hneedle⟩
  refine ⟨x, ?_, hneedle⟩
  exact List.map_subset _ (List.filter_subset _ (List.map_subset _ hkeys)) hx

/-- The busy states that are read of the state are those that it has. -/
def ReadsBusy (read : String → Prop) (st : StateField) : Prop :=
  ∀ s ∈ Operator.SlurmRestClient.busyStates, read s ↔ ∃ t ∈ st.tokens, lower (text t) = s

/-- All of them take the node for available, or none does, and the operator's test,
the agents and the detector read the busy states that the node has. -/
def Agree (rt : Runtime) (mpsPerGpu defaultGpusPerNode : Int) (node : Json) (st : StateField) :
    Prop :=
  ∃ available, Fragmentation.nodeIsAvailable rt node = .ok available ∧
    (∃ view, nodeView rt mpsPerGpu defaultGpusPerNode node = .ok view ∧ view.isSome = available) ∧
    (∃ n, parseNode rt mpsPerGpu node = .ok (some n) ∧ n.available = available) ∧
    (∃ busy, Operator.SlurmRestClient.nodeStates node = .ok busy ∧ ReadsBusy (· ∈ busy) st) ∧
    (∃ states, nodeState rt node = .ok states ∧ ReadsBusy (fun s => upper s ∈ states) st) ∧
    ReadsBusy (fun s => ∃ t ∈ st.detectorTokens, lower (text t) = s) st

/-- The agents' test for an unavailable node. -/
theorem stops_iff {states : List String}
    (hagent : ∀ s : String, Plain s →
      (s ∈ states ↔ ∃ t ∈ st.agentTokens, upper (text t) = s)) :
    states.any (· ∈ ["DOWN", "DRAIN", "NOT_RESPONDING", "FAIL"]) = true ↔
      ∃ t ∈ st.agentTokens, upper (text t) ∈ ["DOWN", "DRAIN", "NOT_RESPONDING", "FAIL"] := by
  have hsep : ∀ s ∈ ["DOWN", "DRAIN", "NOT_RESPONDING", "FAIL"], Plain s := by
    decide
  simp only [List.any_eq_true, decide_eq_true_eq]
  constructor
  · rintro ⟨s, hs, hstop⟩
    obtain ⟨t, ht, rfl⟩ := (hagent s (hsep s hstop)).mp hs
    exact ⟨t, ht, hstop⟩
  · rintro ⟨t, ht, hstop⟩
    exact ⟨_, (hagent _ (hsep _ hstop)).mpr ⟨t, ht, rfl⟩, hstop⟩

theorem busy_plain : ∀ s ∈ Operator.SlurmRestClient.busyStates,
    Plain s ∧ Plain (upper s) ∧ lower s = s := by
  decide

/-- Those that read some of the tokens, and all of one, read the busy states of a
node where a text of more than one token has none. -/
theorem readsBusy_of_subset {ts : List StateToken} (hsub : ts ⊆ st.tokens)
    (hall : ¬ st.IsJoined → ts = st.tokens)
    (h : st.IsJoined → ∀ t ∈ st.tokens, lower (text t) ∉ Operator.SlurmRestClient.busyStates) :
    ReadsBusy (fun s => ∃ t ∈ ts, lower (text t) = s) st := by
  intro s hs
  by_cases hjoined : st.IsJoined
  · refine iff_of_false ?_ ?_
    · rintro ⟨t, ht, rfl⟩
      exact h hjoined t (hsub ht) hs
    · rintro ⟨t, ht, rfl⟩
      exact h hjoined t ht hs
  · rw [hall hjoined]

/-- The operator's test reads the busy states of a node but in a text of more than
one token. -/
theorem busy_iff {busy : List String} (hclient : ∀ s : String, Plain s →
      (s ∈ busy ↔ ¬ st.IsJoined ∧ ∃ t ∈ st.tokens, lower (text t) = s)) :
    ReadsBusy (· ∈ busy) st ↔
      (st.IsJoined → ∀ t ∈ st.tokens, lower (text t) ∉ Operator.SlurmRestClient.busyStates) := by
  constructor
  · intro h hjoined t ht hbusy
    have hmem := (h _ hbusy).mpr ⟨t, ht, rfl⟩
    exact ((hclient _ (busy_plain _ hbusy).1).mp hmem).1 hjoined
  · intro h s hs
    refine (hclient s (busy_plain s hs).1).trans (and_iff_right_of_imp ?_)
    rintro ⟨t, ht, rfl⟩ hjoined
    exact h hjoined t ht hs

/-- On a GPU node, whatever its state is written as. -/
theorem states_agree_iff (mpsPerGpu defaultGpusPerNode : Int)
    (hst : Dict.get? items "state" = some st.toJson)
    (hgpu : parseNode rt mpsPerGpu (.obj items) ≠ .ok none) :
    Agree rt mpsPerGpu defaultGpusPerNode (.obj items) st ↔ st.Clear := by
  obtain ⟨available, havailable, hdetector⟩ := nodeIsAvailable_eq rt hst
  obtain ⟨states, hstates, hagent⟩ := nodeState_eq rt hst
  obtain ⟨busy, hbusy, hclient⟩ := nodeStates_eq hst
  obtain ⟨name, hname⟩ : ∃ name, nodeName rt (.obj items) = .ok name := ⟨_, rfl⟩
  obtain ⟨view, hview, hsome⟩ := nodeView_eq mpsPerGpu defaultGpusPerNode hname hstates
  rcases parseNode_eq mpsPerGpu hname hstates with ⟨-, -, hskip⟩ | ⟨htext, n, hn, hn'⟩
  · exact absurd hskip hgpu
  have hkeys : ["tres", "cfg_tres", "gres", "gres_detail"] ⊆ ["tres", "cfg_tres", "gres",
      "gres_detail", "features", "active_features", "available_features"] := by
    decide
  have hview' := hsome (htext.imp (gpu_of_fewer hkeys (by decide)) (gpu_of_fewer hkeys (by decide)))
  have hstop := stops_iff hagent
  have hsame : (available = !states.any (· ∈ ["DOWN", "DRAIN", "NOT_RESPONDING", "FAIL"])) ↔
      ((∃ t ∈ st.detectorTokens, lower (text t) ∈ Fragmentation.unavailableNodeStates) ↔
        ∃ t ∈ st.agentTokens, upper (text t) ∈ ["DOWN", "DRAIN", "NOT_RESPONDING", "FAIL"]) := by
    have hoff : (∃ t ∈ st.detectorTokens,
        lower (text t) ∈ Fragmentation.unavailableNodeStates) ↔ available = false := by
      rw [← Bool.not_eq_true, hdetector, not_not]
    rw [← hstop, hoff]
    generalize states.any _ = stop
    cases available <;> cases stop <;> decide
  constructor
  · rintro ⟨available', h, ⟨view', hv, hv'⟩, -, ⟨busy', hb, hreads⟩, -, -⟩
    obtain rfl := Except.ok.inj (h.symm.trans havailable)
    obtain rfl := Except.ok.inj (hv.symm.trans hview)
    obtain rfl := Except.ok.inj (hb.symm.trans hbusy)
    exact ⟨hsame.mp (hv'.symm.trans hview'), (busy_iff hclient).mp hreads⟩
  · rintro ⟨havail, hnone⟩
    have heq := hsame.mpr havail
    have hagents : ReadsBusy (fun s => upper s ∈ states) st := by
      intro s hs
      refine Iff.trans ?_ (readsBusy_of_subset st.agentTokens_subset
        (fun h => (StateField.reads_tokens h).1) hnone s hs)
      refine (hagent _ (busy_plain s hs).2.1).trans (exists_congr fun t => and_congr_right fun _ => ?_)
      rw [upper_eq_iff, (busy_plain s hs).2.2]
    exact ⟨available, havailable, ⟨view, hview, hview'.trans heq.symm⟩, ⟨n, hn, hn'.trans heq.symm⟩,
      ⟨busy, hbusy, (busy_iff hclient).mpr hnone⟩, ⟨states, hstates, hagents⟩,
      readsBusy_of_subset st.detectorTokens_subset (fun h => (StateField.reads_tokens h).2) hnone⟩

/-- A runtime that reads no number. -/
def plainRuntime : Runtime where
  repr _ := ""
  int _ := none
  float _ := none
  loads _ := .error .jsonDecodeError

/-- A node with one GPU, and the state that it is given. -/
def gpuNode (st : StateField) : List (String × Json) :=
  [("name", .str "worker-0"), ("gres", .str "gpu:rtx4070:1"), ("state", st.toJson)]

def idle : StateToken := ⟨"IDLE".toList, by decide, (by decide : Plain "IDLE")⟩

def maint : StateToken := ⟨"MAINT".toList, by decide, (by decide : Plain "MAINT")⟩

theorem gpuNode_name {st : StateField} :
    nodeName plainRuntime (.obj (gpuNode st)) = .ok "worker-0" := rfl

theorem gpuNode_contains (st : StateField) : contains (lower (joinComma (tresTexts plainRuntime
    (gpuNode st) ["tres", "cfg_tres", "gres", "gres_detail"]) ++ "," ++ "worker-0")) "gpu" = true := by
  have hfields : tresTexts plainRuntime (gpuNode st) ["tres", "cfg_tres", "gres", "gres_detail"] =
      ["gpu:rtx4070:1"] := rfl
  rw [hfields]
  decide

theorem gpuNode_ne_none (st : StateField) :
    parseNode plainRuntime 100 (.obj (gpuNode st)) ≠ .ok none := by
  have hst : Dict.get? (gpuNode st) "state" = some st.toJson := rfl
  obtain ⟨states, hstates, -⟩ := nodeState_eq plainRuntime hst
  rcases parseNode_eq 100 gpuNode_name hstates with h | ⟨-, n, hn, -⟩
  · exact absurd (h.1.symm.trans (gpuNode_contains st)) Bool.false_ne_true
  · rw [hn]
    exact fun h => by cases h

theorem states_agree_iff_idle :
    Agree plainRuntime 100 1 (.obj (gpuNode (.list idle []))) (.list idle []) := by
  have hst : Dict.get? (gpuNode (.list idle [])) "state" = some (StateField.list idle []).toJson := rfl
  exact (states_agree_iff 100 1 hst (gpuNode_ne_none _)).mpr ⟨by decide, False.elim⟩

/-- The state of a node in maintenance. -/
theorem maintenance_disagrees :
    ¬ Agree plainRuntime 100 1 (.obj (gpuNode (.list idle [maint]))) (.list idle [maint]) := by
  rintro ⟨available, h, -, ⟨n, hn, hsame⟩, -⟩
  have hst : Dict.get? (gpuNode (.list idle [maint])) "state" =
      some (StateField.list idle [maint]).toJson := rfl
  obtain ⟨available', h', hdetector⟩ := nodeIsAvailable_eq plainRuntime hst
  obtain rfl := Except.ok.inj (h.symm.trans h')
  have hoff : available = false := by
    rw [← Bool.not_eq_true, hdetector]
    decide
  obtain ⟨states, hstates, hagent⟩ := nodeState_eq plainRuntime hst
  have hgo : states.any (· ∈ ["DOWN", "DRAIN", "NOT_RESPONDING", "FAIL"]) = false := by
    rw [← Bool.not_eq_true, stops_iff hagent]
    decide
  rcases parseNode_eq 100 gpuNode_name hstates with h | ⟨-, n', hn', hon⟩
  · exact absurd (h.1.symm.trans (gpuNode_contains _)) Bool.false_ne_true
  · obtain rfl := Option.some.inj (Except.ok.inj (hn.symm.trans hn'))
    rw [hgo, hsame, hoff] at hon
    cases hon

end Kelpflux.Proof.NodeState
