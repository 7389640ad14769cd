import Kelpflux.Proof.Operator.EventQueue

/-!
# The main loop loses an event with its collection

The pools that the loop has taken from the queue and not passed to
`_process_pool` since (`Watch.owed`) are in the queue again or in the hands of
the current iteration (`NoneLost`), until the collection fails in an iteration
that took an event: `collect_failed_iff`.
-/

namespace Kelpflux.Proof.Operator

open Framework Kelpflux.Impl.Operator

variable {ι : Type} [DecidableEq ι] {cfgByKey : List String}

/-- The loop, and the pools it has taken from the queue and not processed since,
with states that it collected later. -/
structure Watch (ι : Type) where
  loop : MainLoop ι
  owed : List String

/-- The pool whose entry a step takes from the queue. -/
def dequeued (s s' : PoolEventQueue ι) : List String :=
  match s.consumer, s'.consumer with
  | .waiting, .holding item => [item.poolKey]
  | _, _ => []

def Watch.step (cfgByKey : List String) (w : Watch ι) (a : LoopStep ι) : Watch ι :=
  let (loop, processed) := w.loop.step cfgByKey a
  ⟨loop, dequeued w.loop.eventQueue loop.eventQueue ++
    w.owed.filter fun key => processed ≠ some key⟩

/-- The current iteration is to process the pool. -/
def InHand : Phase → String → Prop
  | .getting, _ => False
  | .collecting keys _, key | .processing keys, key => key ∈ keys

/-- No event is lost: each pool that is owed is in the queue again, or held by the
current iteration. -/
def NoneLost (w : Watch ι) : Prop :=
  ∀ key ∈ w.owed, key ∈ queuedKeys w.loop.eventQueue ∨ Taken w.loop.eventQueue key ∨
    InHand w.loop.phase key

/-- The collection fails in an iteration that took an event, and the event's pool
has not been put again. -/
def Drops (s : MainLoop ι) : LoopStep ι → Prop
  | .collectFailed => ∃ keys item, s.phase = .collecting keys (some item) ∧
      item.poolKey ∉ queuedKeys s.eventQueue
  | _ => False

/-- The pools that producers put are configured. -/
structure Configured (cfgByKey : List String) (s : PoolEventQueue ι) : Prop where
  putting : ∀ i key source, s.producers i = .putting key source → key ∈ cfgByKey
  marked : ∀ i key source, s.producers i = .marked key source → key ∈ cfgByKey
  queued : ∀ key ∈ queuedKeys s, key ∈ cfgByKey
  taken : ∀ key, Taken s key → key ∈ cfgByKey

/-- What the loop has at hand is configured, and an event that it has taken is owed. -/
structure Owing (cfgByKey : List String) (w : Watch ι) : Prop where
  configured : Configured cfgByKey w.loop.eventQueue
  inHand : ∀ key, InHand w.loop.phase key → key ∈ cfgByKey
  taken : ∀ key, Taken w.loop.eventQueue key → key ∈ w.owed
  busy : w.loop.phase ≠ .getting → w.loop.eventQueue.consumer = .idle
  event : ∀ keys item, w.loop.phase = .collecting keys (some item) →
    keys = [item.poolKey] ∧ item.poolKey ∈ w.owed
  timer : ∀ keys, w.loop.phase = .collecting keys none → w.owed = []

variable {w : Watch ι} {s : MainLoop ι} {a : QueueStep ι}

/-! ## A step of the queue -/

/-- Only where the loop is in its `get` does the consumer go on. -/
theorem allowed_getting (ha : s.allowed cfgByKey a)
    (hc : (s.eventQueue.step a).1.consumer ≠ s.eventQueue.consumer) : s.phase = .getting := by
  cases a with
  | put i key source =>
    refine absurd ?_ hc
    simp only [PoolEventQueue.step]
    split <;> rfl
  | mark i =>
    refine absurd ?_ hc
    simp only [PoolEventQueue.step]
    split
    · split <;> rfl
    · rfl
  | enqueue i now =>
    refine absurd ?_ hc
    simp only [PoolEventQueue.step]
    split <;> rfl
  | get => exact of_decide_eq_true ha
  | dequeue => exact of_decide_eq_true ha
  | timeout => exact of_decide_eq_true ha
  | unmark => exact of_decide_eq_true ha

omit [DecidableEq ι] in
/-- A producer goes on to a point that is not before the lock region. -/
theorem putting_update [DecidableEq ι] {q : PoolEventQueue ι} {i j : ι} {p : Producer}
    {key source : String} (hp : ∀ key source, p ≠ .putting key source)
    (h : (q.setProducer j p).producers i = .putting key source) :
    q.producers i = .putting key source := by
  unfold PoolEventQueue.setProducer at h
  dsimp only at h
  by_cases hij : i = j
  · subst hij
    rw [Function.update_self] at h
    exact absurd h (hp key source)
  · rwa [Function.update_of_ne hij] at h

/-- Only a configured pool is put. -/
theorem allowed_putting (ha : s.allowed cfgByKey a) {i : ι} {key source : String}
    (h : (s.eventQueue.step a).1.producers i = .putting key source) :
    s.eventQueue.producers i = .putting key source ∨ key ∈ cfgByKey := by
  cases a with
  | put j key' source' =>
    simp only [PoolEventQueue.step] at h
    split at h
    · by_cases hij : i = j
      · subst hij
        simp only [PoolEventQueue.setProducer, Function.update_self] at h
        obtain ⟨rfl, -⟩ := Producer.putting.inj h
        exact .inr (of_decide_eq_true ha)
      · left
        simpa only [PoolEventQueue.setProducer, Function.update_of_ne hij] using h
    · exact .inl h
  | mark j =>
    left
    simp only [PoolEventQueue.step] at h
    split at h
    · split at h
      · exact putting_update (fun _ _ h => by cases h) h
      · exact putting_update (fun _ _ h => by cases h) h
    · exact h
  | enqueue j now =>
    left
    simp only [PoolEventQueue.step] at h
    split at h
    · exact putting_update (fun _ _ h => by cases h) h
    · exact h
  | get =>
    simp only [PoolEventQueue.step] at h
    split at h <;> exact .inl h
  | dequeue =>
    simp only [PoolEventQueue.step] at h
    split at h <;> exact .inl h
  | timeout =>
    simp only [PoolEventQueue.step] at h
    split at h <;> exact .inl h
  | unmark =>
    simp only [PoolEventQueue.step] at h
    split at h <;> exact .inl h

theorem Configured.move {q q' : PoolEventQueue ι} {r : Option (QueueReturn ι)}
    (h : Configured cfgByKey q) (hmove : Move q q' r)
    (hput : ∀ i key source, q'.producers i = .putting key source →
      q.producers i = .putting key source ∨ key ∈ cfgByKey) : Configured cfgByKey q' := by
  have hputting : ∀ i key source, q'.producers i = .putting key source → key ∈ cfgByKey :=
    fun i key source hi => (hput i key source hi).elim (h.putting i key source) id
  have hupdate : ∀ {j : ι} {p : Producer}, (∀ key source, p = .marked key source → key ∈ cfgByKey) →
      ∀ i key source, (q.setProducer j p).producers i = .marked key source → key ∈ cfgByKey := by
    intro j p hp i key source hi
    have hi := puts_setProducer.mp ⟨source, hi⟩
    split at hi
    · obtain ⟨source, hs⟩ := hi
      exact hp key source hs
    · obtain ⟨source, hs⟩ := hi
      exact h.marked i key source hs
  cases hmove with
  | stay => exact h
  | put hi => exact ⟨hputting, hupdate fun _ _ h => (by cases h), h.queued, h.taken⟩
  | drop hi => exact ⟨hputting, hupdate fun _ _ h => (by cases h), h.queued, h.taken⟩
  | mark hi hkey =>
    refine ⟨hputting, hupdate fun key source hs => ?_, h.queued, h.taken⟩
    obtain ⟨rfl, -⟩ := Producer.marked.inj hs
    exact h.putting _ _ _ hi
  | enqueue hi =>
    refine ⟨hputting, hupdate fun _ _ h => (by cases h), fun key hkey => ?_, h.taken⟩
    obtain ⟨item, hitem, rfl⟩ := List.mem_map.mp hkey
    rcases List.mem_append.mp hitem with hitem | hitem
    · exact h.queued _ (List.mem_map_of_mem hitem)
    · rw [List.mem_singleton.mp hitem]
      exact h.marked _ _ _ hi
  | get hc =>
    exact ⟨hputting, h.marked, h.queued, fun key ⟨item, hitem, _⟩ => by cases hitem⟩
  | dequeue hc hq =>
    have hqueued : ∀ item ∈ q.q, item.poolKey ∈ cfgByKey :=
      fun item hitem => h.queued _ (List.mem_map_of_mem hitem)
    rw [hq] at hqueued
    refine ⟨hputting, h.marked, fun key hkey => ?_, fun key ⟨item, hitem, hkey⟩ => ?_⟩
    · obtain ⟨item, hitem, rfl⟩ := List.mem_map.mp hkey
      exact hqueued item (List.mem_cons_of_mem _ hitem)
    · obtain rfl := Consumer.holding.inj hitem
      exact hkey ▸ hqueued _ List.mem_cons_self
  | timeout hc hq =>
    exact ⟨hputting, h.marked, h.queued, fun key ⟨item, hitem, _⟩ => by cases hitem⟩
  | unmark hc =>
    exact ⟨hputting, h.marked, h.queued, fun key ⟨item, hitem, _⟩ => by cases hitem⟩

/-! ## A step of the loop -/

theorem filter_none (owed : List String) :
    owed.filter (fun key => (none : Option String) ≠ some key) = owed :=
  List.filter_eq_self.mpr fun _ _ => rfl

omit [DecidableEq ι] in
theorem dequeued_same {q q' : PoolEventQueue ι} (h : q'.consumer = q.consumer) :
    dequeued q q' = [] := by
  unfold dequeued
  rw [h]
  cases q.consumer with
  | idle => rfl
  | waiting => rfl
  | holding item => rfl

omit [DecidableEq ι] in
/-- A step of the queue that leaves the consumer where it is. -/
theorem Owing.frame (h : Owing cfgByKey w) (hl : NoneLost w) {q : PoolEventQueue ι}
    (hq : Configured cfgByKey q) (hc : q.consumer = w.loop.eventQueue.consumer)
    (hkeys : ∀ key ∈ queuedKeys w.loop.eventQueue, key ∈ queuedKeys q) {w' : Watch ι}
    (hw : w' = ⟨{ w.loop with eventQueue := q }, dequeued w.loop.eventQueue q ++
      w.owed.filter fun key => (none : Option String) ≠ some key⟩) :
    Owing cfgByKey w' ∧ NoneLost w' := by
  rw [dequeued_same hc, List.nil_append, filter_none] at hw
  subst hw
  have htaken : ∀ key, Taken q key ↔ Taken w.loop.eventQueue key := by
    intro key
    unfold Taken
    rw [hc]
  refine ⟨⟨hq, h.inHand, fun key ht => h.taken key ((htaken key).mp ht),
    fun hp => hc.trans (h.busy hp), h.event, h.timer⟩, fun key hkey => ?_⟩
  rcases hl key hkey with hq | ht | hp
  · exact .inl (hkeys key hq)
  · exact .inr (.inl ((htaken key).mpr ht))
  · exact .inr (.inr hp)

omit [DecidableEq ι] in
/-- Where the loop is in its `get`. -/
theorem Owing.getting {loop : MainLoop ι} {owed : List String} (hp : loop.phase = .getting)
    (hconf : Configured cfgByKey loop.eventQueue)
    (ht : ∀ key, Taken loop.eventQueue key → key ∈ owed) : Owing cfgByKey ⟨loop, owed⟩ := by
  refine ⟨hconf, fun key hkey => ?_, ht, fun hne => absurd hp hne, fun keys item he => ?_,
    fun keys he => ?_⟩
  · dsimp only at hkey
    rw [hp] at hkey
    exact hkey.elim
  · cases hp.symm.trans he
  · cases hp.symm.trans he

omit [DecidableEq ι] in
theorem NoneLost.getting (hl : NoneLost w) (hp : w.loop.phase = .getting) :
    ∀ key ∈ w.owed, key ∈ queuedKeys w.loop.eventQueue ∨ Taken w.loop.eventQueue key := by
  intro key hkey
  have h := hl key hkey
  rw [hp, ← or_assoc] at h
  exact h.resolve_right id

omit [DecidableEq ι] in
/-- The loop waits for an event. -/
theorem NoneLost.get (hl : NoneLost w) (hphase : w.loop.phase = .getting)
    (hc : w.loop.eventQueue.consumer = .idle)
    (hconf : Configured cfgByKey { w.loop.eventQueue with consumer := .waiting }) :
    let q := { w.loop.eventQueue with consumer := .waiting }
    Owing cfgByKey ⟨{ w.loop with eventQueue := q }, w.owed⟩ ∧
      NoneLost ⟨{ w.loop with eventQueue := q }, w.owed⟩ := by
  refine ⟨.getting hphase hconf fun key ⟨item, hitem, _⟩ => (by cases hitem), fun key hkey => ?_⟩
  rcases hl.getting hphase key hkey with hq | ⟨item, hitem, -⟩
  · exact .inl hq
  · cases hc.symm.trans hitem

omit [DecidableEq ι] in
/-- The loop takes an event. -/
theorem NoneLost.dequeue (hl : NoneLost w) (hphase : w.loop.phase = .getting) {item : QueueItem}
    {rest : List QueueItem} (hc : w.loop.eventQueue.consumer = .waiting)
    (hq : w.loop.eventQueue.q = item :: rest)
    (hconf : Configured cfgByKey { w.loop.eventQueue with q := rest, consumer := .holding item }) :
    let q := { w.loop.eventQueue with q := rest, consumer := .holding item }
    Owing cfgByKey ⟨{ w.loop with eventQueue := q }, item.poolKey :: w.owed⟩ ∧
      NoneLost ⟨{ w.loop with eventQueue := q }, item.poolKey :: w.owed⟩ := by
  intro q
  have hheld : Taken q item.poolKey := ⟨item, rfl, rfl⟩
  refine ⟨.getting hphase hconf fun key ⟨item', hitem, hkey⟩ => ?_, fun key hkey => ?_⟩
  · obtain rfl := Consumer.holding.inj hitem
    exact hkey ▸ List.mem_cons_self
  · have hqueued : key ∈ queuedKeys w.loop.eventQueue → key = item.poolKey ∨
        key ∈ rest.map QueueItem.poolKey := by
      unfold queuedKeys
      rw [hq, List.map_cons]
      exact List.mem_cons.mp
    rcases List.mem_cons.mp hkey with rfl | hkey
    · exact .inr (.inl hheld)
    · rcases hl.getting hphase key hkey with hq | ⟨item, hitem, -⟩
      · rcases hqueued hq with rfl | hrest
        · exact .inr (.inl hheld)
        · exact .inl hrest
      · cases hc.symm.trans hitem

omit [DecidableEq ι] in
/-- No event has come: with nothing queued, taken or at hand, nothing is owed. -/
theorem NoneLost.timeout (hl : NoneLost w) (hphase : w.loop.phase = .getting)
    (hc : w.loop.eventQueue.consumer = .waiting) (hq : w.loop.eventQueue.q = []) :
    w.owed = [] := by
  refine List.eq_nil_iff_forall_not_mem.mpr fun key hkey => ?_
  rcases hl.getting hphase key hkey with hkey | ⟨item, hitem, -⟩
  · unfold queuedKeys at hkey
    rw [hq] at hkey
    cases hkey
  · cases hc.symm.trans hitem

omit [DecidableEq ι] in
/-- And so it goes on with all pools. -/
theorem Owing.allPools {loop : MainLoop ι} (hconf : Configured cfgByKey loop.eventQueue)
    (hp : loop.phase = .collecting cfgByKey none) (hc : loop.eventQueue.consumer = .idle) :
    Owing cfgByKey ⟨loop, []⟩ ∧ NoneLost ⟨loop, []⟩ := by
  refine ⟨⟨hconf, fun key hkey => ?_, fun key ⟨item, hitem, _⟩ => ?_, fun _ => hc,
    fun keys item he => ?_, fun _ _ => rfl⟩, fun key hkey => by cases hkey⟩
  · dsimp only at hkey
    rw [hp] at hkey
    exact hkey
  · cases hc.symm.trans hitem
  · cases (Phase.collecting.inj (hp.symm.trans he)).2

omit [DecidableEq ι] in
/-- The loop goes on with the pool of the event that it holds. -/
theorem Owing.unmark (h : Owing cfgByKey w) (hl : NoneLost w) (hphase : w.loop.phase = .getting)
    {item : QueueItem} (hc : w.loop.eventQueue.consumer = .holding item) {pending : List String}
    (hconf : Configured cfgByKey { w.loop.eventQueue with pending := pending, consumer := .idle }) :
    let loop : MainLoop ι := { w.loop with
      eventQueue := { w.loop.eventQueue with pending := pending, consumer := .idle }
      phase := .collecting [item.poolKey] (some item) }
    Owing cfgByKey ⟨loop, w.owed⟩ ∧ NoneLost ⟨loop, w.owed⟩ := by
  have htaken : Taken w.loop.eventQueue item.poolKey := ⟨item, hc, rfl⟩
  refine ⟨⟨hconf, fun key hkey => ?_, fun key ⟨item', hitem, _⟩ => (by cases hitem),
    fun _ => rfl, fun keys item' he => ?_, fun keys he => ?_⟩, fun key hkey => ?_⟩
  · exact List.mem_singleton.mp hkey ▸ h.configured.taken _ htaken
  · obtain ⟨rfl, hitem⟩ := Phase.collecting.inj he
    obtain rfl := Option.some.inj hitem
    exact ⟨rfl, h.taken _ htaken⟩
  · obtain ⟨-, he⟩ := Phase.collecting.inj he
    cases he
  · rcases hl.getting hphase key hkey with hq | ⟨item', hitem, rfl⟩
    · exact .inl hq
    · obtain rfl := Consumer.holding.inj (hitem.symm.trans hc)
      exact .inr (.inr (List.mem_singleton.mpr rfl))

theorem Owing.queue (h : Owing cfgByKey w) (hl : NoneLost w) (a : QueueStep ι) :
    Owing cfgByKey (w.step cfgByKey (.queue a)) ∧ NoneLost (w.step cfgByKey (.queue a)) := by
  by_cases ha : w.loop.allowed cfgByKey a
  swap
  · refine h.frame hl h.configured rfl (fun _ => id) ?_
    simp only [Watch.step, MainLoop.step, if_neg ha]
  have hconf := h.configured.move (step_move w.loop.eventQueue a) fun i key source =>
    allowed_putting ha
  have hgetting := allowed_getting ha
  simp only [Watch.step, MainLoop.step, if_pos ha]
  have hmove := step_move w.loop.eventQueue a
  generalize w.loop.eventQueue.step a = qr at hmove hconf hgetting
  obtain ⟨q, r⟩ := qr
  -- the consumer goes on only in the loop's `get`
  cases hmove with
  | stay => exact h.frame hl hconf rfl (fun _ => id) rfl
  | put hi => exact h.frame hl hconf rfl (fun _ => id) rfl
  | drop hi => exact h.frame hl hconf rfl (fun _ => id) rfl
  | mark hi hkey => exact h.frame hl hconf rfl (fun _ => id) rfl
  | enqueue hi =>
    refine h.frame hl hconf rfl (fun key hkey => ?_) rfl
    unfold queuedKeys
    rw [List.map_append]
    exact List.mem_append_left _ hkey
  | get hc =>
    simp only [dequeued, hc, List.nil_append, filter_none]
    exact hl.get (hgetting fun h => by cases h.trans hc) hc hconf
  | dequeue hc hq =>
    simp only [dequeued, hc, List.singleton_append, filter_none]
    exact hl.dequeue (hgetting fun h => by cases h.trans hc) hc hq hconf
  | timeout hc hq =>
    simp only [dequeued, hc, List.nil_append, filter_none,
      hl.timeout (hgetting fun h => by cases h.trans hc) hc hq]
    exact Owing.allPools hconf rfl rfl
  | unmark hc =>
    simp only [dequeued, hc, List.nil_append, filter_none]
    exact h.unmark hl (hgetting fun h => by cases h.trans hc) hc hconf

omit [DecidableEq ι] in
/-- The iteration goes on past its collection, or ends. -/
theorem Owing.goOn (h : Owing cfgByKey w) (hp : w.loop.phase ≠ .getting) {phase : Phase}
    {consecutiveErrors : Nat} {owed : List String} (hin : ∀ key, InHand phase key → key ∈ cfgByKey)
    (hphase : ∀ keys event, phase ≠ .collecting keys event) :
    Owing cfgByKey ⟨{ w.loop with phase, consecutiveErrors }, owed⟩ := by
  have hidle := h.busy hp
  refine ⟨h.configured, hin, fun key ⟨item, hitem, _⟩ => ?_, fun _ => hidle,
    fun keys item he => absurd he (hphase keys _), fun keys he => absurd he (hphase keys _)⟩
  cases hidle.symm.trans hitem

/-- A step that the loop does not take where it is. -/
theorem Owing.idle (h : Owing cfgByKey w) (hl : NoneLost w) {a : LoopStep ι}
    (ha : w.loop.step cfgByKey a = (w.loop, none)) :
    Owing cfgByKey (w.step cfgByKey a) ∧ NoneLost (w.step cfgByKey a) := by
  refine h.frame hl h.configured rfl (fun _ => id) ?_
  simp only [Watch.step, ha]

omit [DecidableEq ι] in
/-- The pools that are owed outside the `get`. -/
theorem Owing.owed_busy (h : Owing cfgByKey w) (hl : NoneLost w) (hp : w.loop.phase ≠ .getting) :
    ∀ key ∈ w.owed, key ∈ queuedKeys w.loop.eventQueue ∨ InHand w.loop.phase key := by
  intro key hkey
  rcases hl key hkey with hq | ⟨item, hitem, -⟩ | hin
  · exact .inl hq
  · cases (h.busy hp).symm.trans hitem
  · exact .inr hin

theorem Owing.collected (h : Owing cfgByKey w) (hl : NoneLost w) :
    Owing cfgByKey (w.step cfgByKey .collected) ∧ NoneLost (w.step cfgByKey .collected) := by
  have hin := h.inHand
  cases hphase : w.loop.phase with
  | getting => exact h.idle hl (by simp only [MainLoop.step, hphase])
  | processing keys => exact h.idle hl (by simp only [MainLoop.step, hphase])
  | collecting keys event =>
    have hp : w.loop.phase ≠ .getting := by rw [hphase]; exact Phase.noConfusion
    have howed := h.owed_busy hl hp
    have hw : w.step cfgByKey .collected =
        ⟨{ w.loop with phase := .processing keys, consecutiveErrors := 0 }, w.owed⟩ := by
      simp only [Watch.step, MainLoop.step, hphase, dequeued_same, filter_none, List.nil_append]
    rw [hphase] at hin howed
    rw [hw]
    refine ⟨h.goOn hp hin fun _ _ => Phase.noConfusion, fun key hkey => ?_⟩
    exact (howed key hkey).imp_right .inr

/-- A collection that fails gives up the pool that it was for. -/
theorem Owing.collectFailed (h : Owing cfgByKey w) (hl : NoneLost w) :
    Owing cfgByKey (w.step cfgByKey .collectFailed) ∧
      (NoneLost (w.step cfgByKey .collectFailed) ↔ ¬ Drops w.loop .collectFailed) := by
  cases hphase : w.loop.phase with
  | getting =>
    have hsame := h.idle hl (a := .collectFailed) (by simp only [MainLoop.step, hphase])
    refine hsame.imp_right fun hl' => iff_of_true hl' ?_
    rintro ⟨keys, item, hc, -⟩
    cases hphase.symm.trans hc
  | processing keys =>
    have hsame := h.idle hl (a := .collectFailed) (by simp only [MainLoop.step, hphase])
    refine hsame.imp_right fun hl' => iff_of_true hl' ?_
    rintro ⟨keys, item, hc, -⟩
    cases hphase.symm.trans hc
  | collecting keys event =>
    have hp : w.loop.phase ≠ .getting := by rw [hphase]; exact Phase.noConfusion
    have hw : w.step cfgByKey .collectFailed = ⟨{ w.loop with
        phase := .getting, consecutiveErrors := w.loop.consecutiveErrors + 1 }, w.owed⟩ := by
      simp only [Watch.step, MainLoop.step, hphase, dequeued_same, filter_none, List.nil_append]
    rw [hw]
    refine ⟨h.goOn hp (fun _ => False.elim) fun _ _ => Phase.noConfusion, ?_⟩
    cases event with
    | none =>
      refine iff_of_true (fun key hkey => ?_) ?_
      · dsimp only at hkey
        rw [h.timer keys hphase] at hkey
        cases hkey
      · rintro ⟨keys', item, hc, -⟩
        obtain ⟨-, he⟩ := Phase.collecting.inj (hphase.symm.trans hc)
        cases he
    | some item =>
      obtain ⟨rfl, hitem⟩ := h.event keys item hphase
      constructor
      · rintro hl' ⟨keys', item', hc, hgone⟩
        obtain ⟨-, he⟩ := Phase.collecting.inj (hphase.symm.trans hc)
        obtain rfl := Option.some.inj he
        rcases hl' _ hitem with hq | ⟨item', hitem', -⟩ | hin
        · exact hgone hq
        · cases (h.busy hp).symm.trans hitem'
        · exact hin
      · intro hdrops key hkey
        rcases h.owed_busy hl hp key hkey with hq | hin'
        · exact .inl hq
        · rw [hphase] at hin'
          obtain rfl := List.mem_singleton.mp hin'
          exact .inl (by_contra fun hgone => hdrops ⟨_, _, hphase, hgone⟩)

/-- The next pool in hand is processed, or the iteration ends. -/
theorem Owing.process (h : Owing cfgByKey w) (hl : NoneLost w) :
    Owing cfgByKey (w.step cfgByKey .process) ∧ NoneLost (w.step cfgByKey .process) := by
  have hin := h.inHand
  cases hphase : w.loop.phase with
  | getting => exact h.idle hl (by simp only [MainLoop.step, hphase])
  | collecting keys event => exact h.idle hl (by simp only [MainLoop.step, hphase])
  | processing keys =>
    have hp : w.loop.phase ≠ .getting := by rw [hphase]; exact Phase.noConfusion
    have howed := h.owed_busy hl hp
    rw [hphase] at hin howed
    cases keys with
    | nil =>
      have hw : w.step cfgByKey .process = ⟨{ w.loop with phase := .getting }, w.owed⟩ := by
        simp only [Watch.step, MainLoop.step, hphase, dequeued_same, filter_none, List.nil_append]
      rw [hw]
      refine ⟨h.goOn hp (fun _ => False.elim) fun _ _ => Phase.noConfusion, fun key hkey => ?_⟩
      exact (howed key hkey).imp_right fun hin => absurd hin List.not_mem_nil
    | cons first keys =>
      have hw : w.step cfgByKey .process = ⟨{ w.loop with phase := .processing keys },
          w.owed.filter fun key => some first ≠ some key⟩ := by
        simp only [Watch.step, MainLoop.step, hphase, dequeued_same, List.nil_append,
          if_pos (hin first List.mem_cons_self)]
      rw [hw]
      refine ⟨h.goOn hp (fun key hkey => hin key (List.mem_cons_of_mem _ hkey))
        fun _ _ => Phase.noConfusion, fun key hkey => ?_⟩
      obtain ⟨hkey, hne⟩ := List.mem_filter.mp hkey
      refine (howed key hkey).imp_right fun hin => .inr ?_
      refine (List.mem_cons.mp hin).resolve_left ?_
      rintro rfl
      exact of_decide_eq_true hne rfl

/-- What a step keeps, and when it loses nothing. -/
theorem Owing.step (h : Owing cfgByKey w) (hl : NoneLost w) (a : LoopStep ι) :
    Owing cfgByKey (w.step cfgByKey a) ∧
      (NoneLost (w.step cfgByKey a) ↔ ¬ Drops w.loop a) := by
  cases a with
  | queue a => exact (h.queue hl a).imp_right fun hl' => iff_of_true hl' id
  | collected => exact (h.collected hl).imp_right fun hl' => iff_of_true hl' id
  | collectFailed => exact h.collectFailed hl
  | process => exact (h.process hl).imp_right fun hl' => iff_of_true hl' id

/-! ## Runs -/

/-- The loop as the process starts it. -/
def Watch.start : Watch ι := ⟨{}, []⟩

omit [DecidableEq ι] in
theorem owing_start : Owing cfgByKey (Watch.start : Watch ι) ∧ NoneLost (Watch.start : Watch ι) := by
  refine ⟨.getting rfl ⟨fun i _ _ h => ?_, fun i _ _ h => ?_, fun key h => ?_, fun key h => ?_⟩
    fun key h => ?_, fun key hkey => ?_⟩
  · cases h
  · cases h
  · cases h
  · obtain ⟨item, hitem, -⟩ := h
    cases hitem
  · obtain ⟨item, hitem, -⟩ := h
    cases hitem
  · cases hkey

/-- Where nothing is lost yet, a run loses nothing just if it drops no event. -/
theorem Owing.along (h : Owing cfgByKey w) (hl : NoneLost w) (acts : List (LoopStep ι)) :
    Along (Watch.step cfgByKey) (fun w a => NoneLost (w.step cfgByKey a)) w acts ↔
      Along (Watch.step cfgByKey) (fun w a => ¬ Drops w.loop a) w acts := by
  induction acts generalizing w with
  | nil => exact Iff.rfl
  | cons a acts ih =>
    obtain ⟨h', hl'⟩ := h.step hl a
    refine (and_congr_right fun hnone => ih h' hnone).trans (and_congr_left' hl')

/-- In every interleaving of the producers and the loop, no event that the loop
takes from the queue is lost, just if no collection fails in an iteration that
took an event whose pool is not in the queue again. -/
theorem collect_failed_iff (acts : List (LoopStep ι)) :
    Along (Watch.step cfgByKey) (fun w a => NoneLost (w.step cfgByKey a)) Watch.start acts ↔
      Along (Watch.step cfgByKey) (fun w a => ¬ Drops w.loop a) Watch.start acts := by
  obtain ⟨h, hl⟩ : Owing cfgByKey (Watch.start : Watch ι) ∧ NoneLost (Watch.start : Watch ι) :=
    owing_start
  exact h.along hl acts

/-- One producer, one pool: the startup event is taken, and the collection of its
iteration fails. -/
def firstCollectionFails : List (LoopStep Unit) :=
  [.queue (.put () "gpu" "startup"), .queue (.mark ()), .queue (.enqueue () 0), .queue .get,
    .queue .dequeue, .queue .unmark, .collectFailed]

theorem startup_event_lost : ¬ Along (Watch.step ["gpu"])
    (fun w a => NoneLost (w.step ["gpu"] a)) Watch.start firstCollectionFails := by
  rintro ⟨-, -, -, -, -, -, hlost, -⟩
  have howed : ∀ w : Watch Unit, w.owed = ["gpu"] → queuedKeys w.loop.eventQueue = [] →
      w.loop.eventQueue.consumer = .idle → w.loop.phase = .getting → ¬ NoneLost w := by
    intro w howed hq hc hp hl
    rcases hl.getting hp "gpu" (howed ▸ List.mem_cons_self) with h | ⟨item, hitem, -⟩
    · rw [hq] at h
      cases h
    · cases hc.symm.trans hitem
  refine howed _ ?_ ?_ ?_ ?_ hlost
  · decide
  · decide
  · decide
  · decide

end Kelpflux.Proof.Operator
