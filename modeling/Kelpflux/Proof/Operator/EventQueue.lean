import Kelpflux.Framework.Run
import Kelpflux.Impl.Operator.EventQueue

/-!
# The event queue loses no wake-up

A pool is in `_pending` just while it has an entry on its way: one that a
producer is about to put, one in the queue, or one that the consumer has taken
and not returned yet (`Exclusive`). So a `put` that is dropped finds such an
entry, and only the return of its `get` takes it off the way; and the entry of
one that is not dropped stays in the queue, or with the consumer, until a `get`
returns it (`no_wakeup_lost`).
-/

namespace Kelpflux.Proof.Operator

open Framework Kelpflux.Impl.Operator PoolEventQueue

variable {ι : Type} [DecidableEq ι] {s : PoolEventQueue ι} {key : String}

/-- The pools with an entry in the queue. -/
def queuedKeys (s : PoolEventQueue ι) : List String := s.q.map QueueItem.poolKey

/-- The consumer has taken an entry of the pool, and not returned it yet. -/
def Taken (s : PoolEventQueue ι) (key : String) : Prop :=
  ∃ item, s.consumer = .holding item ∧ item.poolKey = key

/-- A producer is about to put an entry of the pool into the queue. -/
def Puts (s : PoolEventQueue ι) (key : String) (i : ι) : Prop :=
  ∃ source, s.producers i = .marked key source

/-- An entry of the pool is on its way. -/
def Outstanding (s : PoolEventQueue ι) (key : String) : Prop :=
  (∃ i, Puts s key i) ∨ key ∈ queuedKeys s ∨ Taken s key

/-- An entry is in the queue, or taken and not returned yet. -/
def Stored (s : PoolEventQueue ι) (item : QueueItem) : Prop :=
  item ∈ s.q ∨ s.consumer = .holding item

/-- A pool has at most one entry on its way, and is in `_pending` just then. -/
structure Exclusive (s : PoolEventQueue ι) : Prop where
  pending : ∀ key, key ∈ s.pending ↔ Outstanding s key
  queued : (queuedKeys s).Nodup
  puts : ∀ key i, Puts s key i → key ∉ queuedKeys s ∧ ¬ Taken s key ∧
    ∀ j, Puts s key j → j = i
  taken : ∀ key, Taken s key → key ∉ queuedKeys s

/-- The entries that the consumer's calls return in a run. -/
def returned : PoolEventQueue ι → List (QueueStep ι) → List QueueItem
  | _, [] => []
  | s, a :: acts =>
    match s.step a with
    | (s', some (.get (some item))) => item :: returned s' acts
    | (s', _) => returned s' acts

/-- What a step can do. -/
inductive Move (s : PoolEventQueue ι) : PoolEventQueue ι → Option (QueueReturn ι) → Prop where
  | stay : Move s s none
  | put {i : ι} {key source : String} (h : s.producers i = .idle) :
    Move s (s.setProducer i (.putting key source)) none
  | drop {i : ι} {key source : String} (h : s.producers i = .putting key source)
    (hkey : key ∈ s.pending) : Move s (s.setProducer i .idle) (some (.put i false))
  | mark {i : ι} {key source : String} (h : s.producers i = .putting key source)
    (hkey : key ∉ s.pending) : Move s { s.setProducer i (.marked key source) with
      pending := key :: s.pending } none
  | enqueue {i : ι} {item : QueueItem} (h : s.producers i = .marked item.poolKey item.source) :
    Move s { s.setProducer i .idle with q := s.q ++ [item] } (some (.put i true))
  | get (h : s.consumer = .idle) : Move s { s with consumer := .waiting } none
  | dequeue {item : QueueItem} {q : List QueueItem} (h : s.consumer = .waiting)
    (hq : s.q = item :: q) : Move s { s with q := q, consumer := .holding item } none
  | timeout (h : s.consumer = .waiting) (hq : s.q = []) :
    Move s { s with consumer := .idle } (some (.get none))
  | unmark {item : QueueItem} (h : s.consumer = .holding item) :
    Move s { s with pending := s.pending.filter fun key => key ≠ item.poolKey, consumer := .idle }
      (some (.get (some item)))

/-! ## One step -/

theorem step_move (s : PoolEventQueue ι) (a : QueueStep ι) :
    Move s (s.step a).1 (s.step a).2 := by
  cases a with
  | put i key source =>
    simp only [PoolEventQueue.step]
    split
    · exact .put ‹_›
    · exact .stay
  | mark i =>
    simp only [PoolEventQueue.step]
    split
    · split
      · exact .drop ‹_› ‹_›
      · exact .mark ‹_› ‹_›
    · exact .stay
  | enqueue i now =>
    simp only [PoolEventQueue.step]
    split
    · rename_i key source hi
      have hput : s.producers i = .marked (QueueItem.mk key source now).poolKey
          (QueueItem.mk key source now).source := hi
      exact .enqueue hput
    · exact .stay
  | get =>
    simp only [PoolEventQueue.step]
    split
    · exact .get ‹_›
    · exact .stay
  | dequeue =>
    simp only [PoolEventQueue.step]
    split
    · exact .dequeue ‹_› ‹_›
    · exact .stay
  | timeout =>
    simp only [PoolEventQueue.step]
    split
    · exact .timeout ‹_› ‹_›
    · exact .stay
  | unmark =>
    simp only [PoolEventQueue.step]
    split
    · exact .unmark ‹_›
    · exact .stay

theorem puts_setProducer {p : Producer} {i j : ι} :
    Puts (s.setProducer i p) key j ↔ if j = i then ∃ source, p = .marked key source
      else Puts s key j := by
  unfold Puts setProducer
  dsimp only
  by_cases hj : j = i
  · subst hj
    rw [if_pos rfl, Function.update_self]
  · rw [if_neg hj, Function.update_of_ne hj]

omit [DecidableEq ι] in
theorem exclusive_start : Exclusive ({} : PoolEventQueue ι) := by
  have hnone : ∀ key, ¬ Outstanding ({} : PoolEventQueue ι) key := by
    rintro key (⟨i, source, h⟩ | h | ⟨item, h, -⟩)
    · cases h
    · cases h
    · cases h
  refine ⟨fun key => iff_of_false List.not_mem_nil (hnone key), List.nodup_nil,
    fun key i h => absurd (.inl ⟨i, h⟩) (hnone key), fun key _ => List.not_mem_nil⟩

/-- A producer that is not about to put its entry goes on to another such point. -/
theorem Exclusive.setIdle (h : Exclusive s) {i : ι} {p : Producer}
    (hi : ∀ key, ¬ Puts s key i) (hp : ∀ key source, p ≠ .marked key source) :
    Exclusive (s.setProducer i p) := by
  have hmarked : ∀ key j, Puts (s.setProducer i p) key j ↔ Puts s key j := by
    intro key j
    rw [puts_setProducer]
    split
    · rename_i hj
      subst hj
      exact iff_of_false (fun ⟨source, hs⟩ => hp key source hs) (hi key)
    · exact Iff.rfl
  refine ⟨fun key => ?_, h.queued, fun key j hj => ?_, h.taken⟩
  · refine (h.pending key).trans (or_congr_left ?_)
    exact exists_congr fun j => (hmarked key j).symm
  · obtain ⟨hq, ht, honly⟩ := h.puts key j ((hmarked key j).mp hj)
    exact ⟨hq, ht, fun j' hj' => honly j' ((hmarked key j').mp hj')⟩

/-- The lock region of a `put` whose pool has no entry on its way. -/
theorem Exclusive.mark (h : Exclusive s) {i : ι} {source : String} (hkey : key ∉ s.pending)
    (hi : ∀ key, ¬ Puts s key i) :
    Exclusive { s.setProducer i (.marked key source) with pending := key :: s.pending } := by
  have hfree : ¬ Outstanding s key := fun hout => hkey ((h.pending key).mpr hout)
  have hputs : ∀ key' j, Puts ({ s.setProducer i (.marked key source) with
      pending := key :: s.pending } : PoolEventQueue ι) key' j ↔
        (j = i ∧ key' = key) ∨ Puts s key' j := by
    intro key' j
    refine puts_setProducer.trans ?_
    split
    · rename_i hj
      subst hj
      simp only [Producer.marked.injEq, exists_and_left, exists_eq', and_true, true_and]
      rw [or_iff_left (hi key'), eq_comm]
    · rename_i hj
      rw [or_iff_right (fun h => hj h.1)]
  constructor
  · intro key'
    rw [List.mem_cons, h.pending]
    unfold Outstanding
    simp only [hputs, exists_or, exists_eq_left, ← or_assoc]
    rfl
  · exact h.queued
  · intro key' j hj
    rcases (hputs key' j).mp hj with ⟨rfl, rfl⟩ | hold
    · refine ⟨fun hq => hfree (.inr (.inl hq)), fun ht => hfree (.inr (.inr ht)), fun j hj => ?_⟩
      rcases (hputs _ j).mp hj with ⟨rfl, -⟩ | hj
      · rfl
      · exact absurd (.inl ⟨j, hj⟩) hfree
    · obtain ⟨hq, ht, honly⟩ := h.puts key' j hold
      refine ⟨hq, ht, fun j' hj' => ?_⟩
      rcases (hputs key' j').mp hj' with ⟨rfl, rfl⟩ | hj'
      · exact absurd (.inl ⟨j, hold⟩) hfree
      · exact honly j' hj'
  · exact h.taken

/-- The entry goes from its producer to the queue. -/
theorem Exclusive.enqueue (h : Exclusive s) {i : ι} {item : QueueItem}
    (hi : Puts s item.poolKey i) :
    Exclusive { s.setProducer i .idle with q := s.q ++ [item] } := by
  obtain ⟨hfree, huntaken, honly⟩ := h.puts _ _ hi
  have hputs : ∀ key j, Puts ({ s.setProducer i .idle with q := s.q ++ [item] } :
      PoolEventQueue ι) key j ↔ j ≠ i ∧ Puts s key j := by
    intro key j
    refine puts_setProducer.trans ?_
    split
    · rename_i hj
      exact iff_of_false nofun fun h => h.1 hj
    · rename_i hj
      exact (and_iff_right hj).symm
  have hqueued : queuedKeys ({ s.setProducer i .idle with q := s.q ++ [item] } :
      PoolEventQueue ι) = queuedKeys s ++ [item.poolKey] := List.map_append
  have hother : ∀ key j, Puts s key j → j ≠ i → key ≠ item.poolKey := by
    rintro key j hj hne rfl
    exact hne (honly j hj)
  constructor
  · intro key
    refine (h.pending key).trans ?_
    unfold Outstanding
    rw [hqueued, List.mem_append, List.mem_singleton]
    constructor
    · rintro (⟨j, hj⟩ | hq | ht)
      · by_cases hji : j = i
        · subst hji
          obtain ⟨source, hs⟩ := hj
          obtain ⟨source', hs'⟩ := hi
          obtain ⟨rfl, -⟩ := Producer.marked.inj (hs.symm.trans hs')
          exact .inr (.inl (.inr rfl))
        · exact .inl ⟨j, (hputs key j).mpr ⟨hji, hj⟩⟩
      · exact .inr (.inl (.inl hq))
      · exact .inr (.inr ht)
    · rintro (⟨j, hj⟩ | (hq | rfl) | ht)
      · exact .inl ⟨j, ((hputs key j).mp hj).2⟩
      · exact .inr (.inl hq)
      · exact .inl ⟨i, hi⟩
      · exact .inr (.inr ht)
  · rw [hqueued]
    refine List.nodup_append.mpr ⟨h.queued, List.pairwise_singleton _ _, fun k hk k' hk' => ?_⟩
    rintro rfl
    exact hfree (List.mem_singleton.mp hk' ▸ hk)
  · intro key j hj
    obtain ⟨hne, hj⟩ := (hputs key j).mp hj
    obtain ⟨hq, ht, honly'⟩ := h.puts key j hj
    refine ⟨?_, ht, fun j' hj' => honly' j' ((hputs key j').mp hj').2⟩
    rw [hqueued, List.mem_append, List.mem_singleton]
    exact not_or.mpr ⟨hq, hother key j hj hne⟩
  · intro key ht
    rw [hqueued, List.mem_append, List.mem_singleton]
    refine not_or.mpr ⟨h.taken key ht, ?_⟩
    rintro rfl
    exact huntaken ht

omit [DecidableEq ι] in
/-- The entry goes from the queue to the consumer. -/
theorem Exclusive.dequeue (h : Exclusive s) {item : QueueItem} {q : List QueueItem}
    (hq : s.q = item :: q) (hfree : s.consumer = .waiting) :
    Exclusive { s with q := q, consumer := .holding item } := by
  have hqueued : queuedKeys s = item.poolKey :: q.map QueueItem.poolKey := by
    unfold queuedKeys
    rw [hq, List.map_cons]
  have hnodup := h.queued
  rw [hqueued, List.nodup_cons] at hnodup
  have htaken : ∀ key, Taken ({ s with q := q, consumer := .holding item } : PoolEventQueue ι) key
      ↔ key = item.poolKey := by
    intro key
    constructor
    · rintro ⟨item', hitem, rfl⟩
      obtain rfl := Consumer.holding.inj hitem
      rfl
    · rintro rfl
      exact ⟨item, rfl, rfl⟩
  have huntaken : ∀ key, ¬ Taken s key := by
    rintro key ⟨item', hitem, -⟩
    rw [hfree] at hitem
    cases hitem
  constructor
  · intro key
    refine (h.pending key).trans (or_congr_right ?_)
    rw [htaken, hqueued, List.mem_cons, or_iff_left (huntaken key), or_comm]
    rfl
  · exact hnodup.2
  · intro key j hj
    obtain ⟨hq', -, honly⟩ := h.puts key j hj
    rw [hqueued, List.mem_cons, not_or] at hq'
    exact ⟨hq'.2, fun ht => hq'.1 ((htaken key).mp ht), honly⟩
  · intro key ht
    rw [(htaken key).mp ht]
    exact hnodup.1

omit [DecidableEq ι] in
/-- The consumer's call returns the entry. -/
theorem Exclusive.unmark (h : Exclusive s) {item : QueueItem} (hitem : s.consumer = .holding item) :
    Exclusive { s with pending := s.pending.filter fun key => key ≠ item.poolKey
                       consumer := .idle } := by
  have htaken : ∀ key, Taken s key ↔ key = item.poolKey := by
    intro key
    constructor
    · rintro ⟨item', hitem', rfl⟩
      obtain rfl := Consumer.holding.inj (hitem'.symm.trans hitem)
      rfl
    · rintro rfl
      exact ⟨item, hitem, rfl⟩
  have huntaken : ∀ key, ¬ Taken ({ s with
      pending := s.pending.filter fun key => key ≠ item.poolKey
      consumer := .idle } : PoolEventQueue ι) key := by
    rintro key ⟨item', hitem', -⟩
    cases hitem'
  have hself : Taken s item.poolKey := (htaken _).mpr rfl
  constructor
  · intro key
    rw [List.mem_filter, h.pending, decide_eq_true_eq]
    unfold Outstanding
    rw [or_iff_left (huntaken key)]
    constructor
    · rintro ⟨hput | hq | ht, hne⟩
      · exact .inl hput
      · exact .inr hq
      · exact absurd ((htaken key).mp ht) hne
    · rintro (⟨i, hi⟩ | hq)
      · refine ⟨.inl ⟨i, hi⟩, ?_⟩
        rintro rfl
        exact (h.puts _ i hi).2.1 hself
      · refine ⟨.inr (.inl hq), ?_⟩
        rintro rfl
        exact h.taken _ hself hq
  · exact h.queued
  · intro key i hi
    obtain ⟨hq, -, honly⟩ := h.puts key i hi
    exact ⟨hq, huntaken key, honly⟩
  · exact fun key ht => absurd ht (huntaken key)

omit [DecidableEq ι] in
/-- The consumer calls `get`, or finds the queue empty. -/
theorem Exclusive.wait (h : Exclusive s) {c : Consumer} (hs : ∀ item, s.consumer ≠ .holding item)
    (hc : ∀ item, c ≠ .holding item) : Exclusive { s with consumer := c } := by
  have huntaken : ∀ key, ¬ Taken s key := fun key ⟨item, hitem, _⟩ => hs item hitem
  have huntaken' : ∀ key, ¬ Taken ({ s with consumer := c } : PoolEventQueue ι) key :=
    fun key ⟨item, hitem, _⟩ => hc item hitem
  refine ⟨fun key => (h.pending key).trans (or_congr_right (or_congr_right ?_)), h.queued,
    fun key i hi => ?_, fun key ht => absurd ht (huntaken' key)⟩
  · exact iff_of_false (huntaken key) (huntaken' key)
  · obtain ⟨hq, -, honly⟩ := h.puts key i hi
    exact ⟨hq, huntaken' key, honly⟩

omit [DecidableEq ι] in
theorem not_puts {i : ι} {p : Producer} (h : s.producers i = p)
    (hp : ∀ key source, p ≠ .marked key source) (key : String) : ¬ Puts s key i :=
  fun ⟨source, hs⟩ => hp key source (h.symm.trans hs)

omit [DecidableEq ι] in
theorem not_holding {c : Consumer} (h : s.consumer = c) (hc : ∀ item, c ≠ .holding item)
    (item : QueueItem) : s.consumer ≠ .holding item := fun hs => hc item (h.symm.trans hs)

theorem Exclusive.move (h : Exclusive s) {s' : PoolEventQueue ι} {r : Option (QueueReturn ι)}
    (hmove : Move s s' r) : Exclusive s' := by
  cases hmove with
  | stay => exact h
  | put hi => exact h.setIdle (not_puts hi fun _ _ => nofun) fun _ _ => nofun
  | drop hi => exact h.setIdle (not_puts hi fun _ _ => nofun) fun _ _ => nofun
  | mark hi hkey => exact h.mark hkey (not_puts hi fun _ _ => nofun)
  | enqueue hi => exact h.enqueue ⟨_, hi⟩
  | get hc => exact h.wait (not_holding hc fun _ => nofun) fun _ => nofun
  | dequeue hc hq => exact h.dequeue hq hc
  | timeout hc => exact h.wait (not_holding hc fun _ => nofun) fun _ => nofun
  | unmark hc => exact h.unmark hc

/-- An entry stays on its way until its `get` returns. -/
theorem Outstanding.move (h : Outstanding s key) {s' : PoolEventQueue ι}
    {r : Option (QueueReturn ι)} (hmove : Move s s' r) :
    Outstanding s' key ∨ ∃ item, r = some (.get (some item)) ∧ item.poolKey = key := by
  have hputs : ∀ {i : ι} {p : Producer}, (∀ key, ¬ Puts s key i) → ∀ {j}, Puts s key j →
      Puts (s.setProducer i p) key j := by
    intro i p hi j hj
    refine puts_setProducer.mpr ?_
    rw [if_neg]
    · exact hj
    · rintro rfl
      exact hi key hj
  cases hmove with
  | stay => exact .inl h
  | put hi => exact .inl (h.imp_left fun ⟨j, hj⟩ => ⟨j, hputs (not_puts hi fun _ _ => nofun) hj⟩)
  | drop hi => exact .inl (h.imp_left fun ⟨j, hj⟩ => ⟨j, hputs (not_puts hi fun _ _ => nofun) hj⟩)
  | mark hi hkey =>
    exact .inl (h.imp_left fun ⟨j, hj⟩ => ⟨j, hputs (not_puts hi fun _ _ => nofun) hj⟩)
  | @enqueue i item hi =>
    left
    have hqueued : queuedKeys ({ s.setProducer i .idle with q := s.q ++ [item] } :
      PoolEventQueue ι) = queuedKeys s ++ [item.poolKey] := List.map_append
    rcases h with ⟨j, hj⟩ | hq | ht
    · by_cases hji : j = i
      · subst hji
        obtain ⟨source, hs⟩ := hj
        obtain ⟨rfl, -⟩ := Producer.marked.inj (hs.symm.trans hi)
        refine .inr (.inl ?_)
        rw [hqueued]
        exact List.mem_append_right _ List.mem_cons_self
      · refine .inl ⟨j, puts_setProducer.mpr ?_⟩
        rwa [if_neg hji]
    · refine .inr (.inl ?_)
      rw [hqueued]
      exact List.mem_append_left _ hq
    · exact .inr (.inr ht)
  | get hc =>
    refine .inl (h.imp_right fun h => h.imp_right fun ⟨item, hitem, _⟩ => ?_)
    exact absurd hitem (not_holding hc (fun _ => nofun) item)
  | @dequeue item q hc hq =>
    left
    rcases h with hput | hmem | ⟨item', hitem, -⟩
    · exact .inl hput
    · unfold queuedKeys at hmem
      rw [hq, List.map_cons, List.mem_cons] at hmem
      rcases hmem with rfl | hmem
      · exact .inr (.inr ⟨item, rfl, rfl⟩)
      · exact .inr (.inl hmem)
    · exact absurd hitem (not_holding hc (fun _ => nofun) item')
  | timeout hc =>
    refine .inl (h.imp_right fun h => h.imp_right fun ⟨item, hitem, _⟩ => ?_)
    exact absurd hitem (not_holding hc (fun _ => nofun) item)
  | @unmark item hc =>
    rcases h with hput | hmem | ⟨item', hitem, rfl⟩
    · exact .inl (.inl hput)
    · exact .inl (.inr (.inl hmem))
    · obtain rfl := Consumer.holding.inj (hitem.symm.trans hc)
      exact .inr ⟨item', rfl, rfl⟩

/-- And it stays the entry that it is. -/
theorem Stored.move {item : QueueItem} (h : Stored s item) {s' : PoolEventQueue ι}
    {r : Option (QueueReturn ι)} (hmove : Move s s' r) :
    Stored s' item ∨ r = some (.get (some item)) := by
  cases hmove with
  | stay | put | drop | mark => exact .inl h
  | enqueue => exact .inl (h.imp_left fun hq => List.mem_append_left _ hq)
  | get hc => exact .inl (.inl (h.resolve_right (not_holding hc (fun _ => nofun) item)))
  | @dequeue first q hc hq =>
    have hmem := h.resolve_right (not_holding hc (fun _ => nofun) item)
    rw [hq, List.mem_cons] at hmem
    rcases hmem with rfl | hmem
    · exact .inl (.inr rfl)
    · exact .inl (.inl hmem)
  | timeout hc => exact .inl (.inl (h.resolve_right (not_holding hc (fun _ => nofun) item)))
  | unmark hc =>
    rcases h with hq | hitem
    · exact .inl (.inl hq)
    · obtain rfl := Consumer.holding.inj (hitem.symm.trans hc)
      exact .inr rfl

/-! ## Runs -/

/-- The queue after a run. -/
def after (s : PoolEventQueue ι) (acts : List (QueueStep ι)) : PoolEventQueue ι :=
  run (fun s a => (s.step a).1) s acts

theorem exclusive_after (h : Exclusive s) (acts : List (QueueStep ι)) : Exclusive (after s acts) := by
  induction acts generalizing s with
  | nil => exact h
  | cons a acts ih => exact ih (h.move (step_move s a))

theorem mem_returned_cons {a : QueueStep ι} {acts : List (QueueStep ι)} {item : QueueItem} :
    item ∈ returned s (a :: acts) ↔
      (s.step a).2 = some (.get (some item)) ∨ item ∈ returned (s.step a).1 acts := by
  rw [returned]
  split
  · rename_i s' item' hs
    rw [hs, List.mem_cons]
    simp only [Option.some.injEq, QueueReturn.get.injEq]
    rw [eq_comm]
  · rename_i s' r hne hs
    rw [hs]
    exact (or_iff_right fun hr => hne item hr).symm

/-- What is on its way at first and not in the end has been returned. -/
theorem returned_of_gone {acts : List (QueueStep ι)} (h : Outstanding s key)
    (hgone : ¬ Outstanding (after s acts) key) : ∃ item ∈ returned s acts, item.poolKey = key := by
  induction acts generalizing s with
  | nil => exact absurd h hgone
  | cons a acts ih =>
    rcases h.move (step_move s a) with h' | ⟨item, hr, hkey⟩
    · obtain ⟨item, hmem, hkey⟩ := ih h' hgone
      exact ⟨item, mem_returned_cons.mpr (.inr hmem), hkey⟩
    · exact ⟨item, mem_returned_cons.mpr (.inl hr), hkey⟩

/-- A stored entry is returned, or still stored. -/
theorem stored_or_returned {item : QueueItem} (h : Stored s item) (acts : List (QueueStep ι)) :
    Stored (after s acts) item ∨ item ∈ returned s acts := by
  induction acts generalizing s with
  | nil => exact .inl h
  | cons a acts ih =>
    rw [mem_returned_cons]
    rcases h.move (step_move s a) with h' | hr
    · exact (ih h').imp_right .inr
    · exact .inr (.inl hr)

/-- A waiting consumer gets to every entry of the queue. -/
theorem exists_returned {pre rest : List QueueItem} {item : QueueItem}
    (hc : s.consumer = .waiting) (hq : s.q = pre ++ item :: rest) :
    ∃ acts, item ∈ returned s acts := by
  induction pre generalizing s with
  | nil =>
    refine ⟨[.dequeue, .unmark], ?_⟩
    simp [returned, PoolEventQueue.step, hc, hq]
  | cons first pre ih =>
    set s' : PoolEventQueue ι := { s with
      q := pre ++ item :: rest
      pending := s.pending.filter fun key => key ≠ first.poolKey
      consumer := .waiting }
    obtain ⟨acts, hacts⟩ := ih (s := s') rfl rfl
    refine ⟨.dequeue :: .unmark :: .get :: acts, ?_⟩
    simp only [returned, PoolEventQueue.step, hc, hq, List.cons_append]
    exact List.mem_cons_of_mem _ hacts

/-- And any consumer to every stored one. -/
theorem Stored.exists_returned {item : QueueItem} (h : Stored s item) :
    ∃ acts, item ∈ returned s acts := by
  rcases h with hitem | hitem
  swap
  · refine ⟨[.unmark], mem_returned_cons.mpr (.inl ?_)⟩
    simp only [PoolEventQueue.step, hitem]
  obtain ⟨pre, rest, hq⟩ := List.append_of_mem hitem
  cases hc : s.consumer with
  | idle =>
    obtain ⟨acts, hacts⟩ := Operator.exists_returned (s := { s with consumer := .waiting }) rfl hq
    refine ⟨.get :: acts, mem_returned_cons.mpr (.inr ?_)⟩
    simpa only [PoolEventQueue.step, hc] using hacts
  | waiting => exact Operator.exists_returned hc hq
  | holding taken =>
    obtain ⟨acts, hacts⟩ := Operator.exists_returned (s := { s with
      pending := s.pending.filter fun key => key ≠ taken.poolKey, consumer := .waiting }) rfl hq
    refine ⟨.unmark :: .get :: acts, mem_returned_cons.mpr (.inr (mem_returned_cons.mpr (.inr ?_)))⟩
    simpa only [PoolEventQueue.step, hc] using hacts

/-- And to every entry on its way. -/
theorem Outstanding.exists_returned (h : Outstanding s key) :
    ∃ acts, ∃ item ∈ returned s acts, item.poolKey = key := by
  rcases h with ⟨i, source, hi⟩ | hq | ⟨item, hitem, rfl⟩
  · have hstored : Stored ({ s.setProducer i .idle with
        q := s.q ++ [⟨key, source, 0⟩] } : PoolEventQueue ι) ⟨key, source, 0⟩ :=
      .inl (List.mem_append_right _ List.mem_cons_self)
    obtain ⟨acts, hacts⟩ := hstored.exists_returned
    refine ⟨.enqueue i 0 :: acts, ⟨key, source, 0⟩, mem_returned_cons.mpr (.inr ?_), rfl⟩
    simpa only [PoolEventQueue.step, hi] using hacts
  · obtain ⟨item, hitem, rfl⟩ := List.mem_map.mp hq
    obtain ⟨acts, hacts⟩ := Stored.exists_returned (.inl hitem)
    exact ⟨acts, item, hacts, rfl⟩
  · obtain ⟨acts, hacts⟩ := Stored.exists_returned (.inr hitem)
    exact ⟨acts, item, hacts, rfl⟩

/-- In every interleaving a pool has at most one entry in the queue. A `put` that is
dropped finds one on its way, which may still be returned, and which has been
returned where it is on its way no more. The entry of a `put` that is not is in
the queue, may be returned, and is lost by no steps: they leave it stored, or
return it. -/
theorem no_wakeup_lost (acts : List (QueueStep ι)) :
    let s := after ({} : PoolEventQueue ι) acts
    (queuedKeys s).Nodup ∧
      (∀ a i, (s.step a).2 = some (.put i false) →
        ∃ key source, s.producers i = .putting key source ∧ Outstanding s key ∧
          (∃ acts', ∃ item ∈ returned s acts', item.poolKey = key) ∧
          ∀ acts', ¬ Outstanding (after s acts') key →
            ∃ item ∈ returned s acts', item.poolKey = key) ∧
      ∀ a i, (s.step a).2 = some (.put i true) →
        ∃ item, s.producers i = .marked item.poolKey item.source ∧ item ∈ (s.step a).1.q ∧
          (∃ acts', item ∈ returned (s.step a).1 acts') ∧
          ∀ acts', Stored (after (s.step a).1 acts') item ∨ item ∈ returned (s.step a).1 acts' := by
  intro s
  have h : Exclusive s := exclusive_after exclusive_start acts
  refine ⟨h.queued, fun a i hdrop => ?_, fun a i hput => ?_⟩
  · obtain ⟨key, source, hi, hkey⟩ : ∃ key source, s.producers i = .putting key source ∧
        key ∈ s.pending := by
      have hmove := step_move s a
      rw [hdrop] at hmove
      generalize (s.step a).1 = s' at hmove
      cases hmove with
      | drop hi hkey => exact ⟨_, _, hi, hkey⟩
    have hout : Outstanding s key := (h.pending key).mp hkey
    exact ⟨key, source, hi, hout, hout.exists_returned,
      fun acts' hgone => returned_of_gone hout hgone⟩
  · obtain ⟨item, hi, hitem⟩ : ∃ item : QueueItem,
        s.producers i = .marked item.poolKey item.source ∧ item ∈ (s.step a).1.q := by
      have hmove := step_move s a
      rw [hput] at hmove
      generalize (s.step a).1 = s' at hmove ⊢
      cases hmove with
      | enqueue hi => exact ⟨_, hi, List.mem_append_right _ List.mem_cons_self⟩
    have hstored : Stored (s.step a).1 item := .inl hitem
    exact ⟨item, hi, hitem, hstored.exists_returned, stored_or_returned hstored⟩

/-- Two producers put the same pool: the second is dropped, and the consumer gets
the entry of the first. -/
theorem no_wakeup_lost_twoPuts :
    let putting : List (QueueStep ℕ) := [.put 0 "gpu/gpu" "pod", .put 1 "gpu/gpu" "timer", .mark 0]
    let getting : List (QueueStep ℕ) := [.mark 1, .enqueue 0 5, .get, .dequeue, .unmark]
    (∃ source, (after {} putting).producers 1 = .putting "gpu/gpu" source ∧
      Outstanding (after {} putting) "gpu/gpu") ∧
      ((after {} putting).step (.mark 1)).2 = some (.put 1 false) ∧
      returned (after {} putting) getting = [⟨"gpu/gpu", "pod", 5⟩] := by
  intro putting getting
  refine ⟨?_, rfl, rfl⟩
  obtain ⟨key, source, hi, hout, -⟩ := (no_wakeup_lost putting).2.1 (.mark 1) 1 rfl
  obtain ⟨rfl, -⟩ := Producer.putting.inj (show Producer.putting "gpu/gpu" "timer" = _ from hi)
  exact ⟨source, hi, hout⟩

end Kelpflux.Proof.Operator
