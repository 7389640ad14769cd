import Mathlib.Algebra.BigOperators.Group.List.Basic
import Mathlib.Algebra.BigOperators.Ring.List
import Mathlib.Algebra.Order.BigOperators.Group.List
import Mathlib.Data.List.Perm.Basic
import Mathlib.Tactic.Ring
import Kelpflux.Framework.Shaping
import Kelpflux.Impl.Scheduler.SimTrain

/-!
# What the n-step window commits

`expected` is the transitions that a replay of n-step returns wants of an
episode, one for each step. The loops commit those of the steps that have `n`
steps ahead of them, and one more of an episode shorter than `n`:

* `flushNstep_eq`: a flush commits the transition of the window's oldest step;
* `feed_commits`: what the steps of one environment commit, episode by episode;
* `collectAndTrainVec_commits`: the buffer of the vectorized loop holds what
  each environment's steps commit.
-/

namespace Kelpflux.Proof.Scheduler

open Framework Impl.Scheduler.SimTrain

variable {Obs Mask R : Type}

/-! ## The specification -/

/-- The transition that starts at `t`, where `rest` follows in its episode:
over `min n (1 + rest.length)` steps. -/
def nstep [Semiring R] (n : ℕ) (γ : R) (t : Transition Obs Mask R)
    (rest : List (Transition Obs Mask R)) : Added Obs Mask R :=
  let following := rest.take (n - 1)
  let last := following.getLastD t
  { obs := t.obs, act := t.act, rew := discounted γ ((t :: following).map (·.rew))
    nextObs := last.nextObs, done := last.done, mask := t.mask, nextMask := last.nextMask
    gamma := γ ^ (following.length + 1) }

/-- The transitions of an episode, one for each step. -/
def expected [Semiring R] (n : ℕ) (γ : R) :
    List (Transition Obs Mask R) → List (Added Obs Mask R)
  | [] => []
  | t :: rest => nstep n γ t rest :: expected n γ rest

/-- The episodes of a stream of one environment's steps, of which `cur` has
passed; `none` is where the environment is built anew. -/
def episodes (cur : List (Transition Obs Mask R)) :
    List (Option (Transition Obs Mask R)) → List (List (Transition Obs Mask R))
  | [] => [cur]
  | none :: es => cur :: episodes [] es
  | some t :: es =>
    if t.done then (cur ++ [t]) :: episodes [] es else episodes (cur ++ [t]) es

def Finished (ep : List (Transition Obs Mask R)) : Bool := ep.getLast?.any (·.done)

/-- What an episode should put into the buffer: the transition of each step of
a finished one, and of the steps of an unfinished one with `n` steps ahead. -/
def wanted [Semiring R] (n : ℕ) (γ : R) (ep : List (Transition Obs Mask R)) :
    List (Added Obs Mask R) :=
  if Finished ep then expected n γ ep
  else (expected n γ ep).take (ep.length + 1 - n)

/-- The buffer has what the episodes should put into it, nothing lost and
nothing twice. -/
def Complete [Semiring R] (n : ℕ) (γ : R) (eps : List (List (Transition Obs Mask R)))
    (buf : List (Added Obs Mask R)) : Prop :=
  buf.Perm (eps.flatMap (wanted n γ))

/-- What the loops commit of an episode. -/
def committed [Semiring R] (n : ℕ) (γ : R) (ep : List (Transition Obs Mask R)) :
    List (Added Obs Mask R) :=
  (expected n γ ep).take
    (if Finished ep then max 1 (ep.length + 1 - n) else ep.length + 1 - n)

section

variable [Semiring R] {n : ℕ} {γ : R}

theorem expected_length (ep : List (Transition Obs Mask R)) :
    (expected n γ ep).length = ep.length := by
  induction ep with
  | nil => rfl
  | cons t rest ih => simp [expected, ih]

theorem expected_drop (ep : List (Transition Obs Mask R)) (k : ℕ) :
    (expected n γ ep).drop k = expected n γ (ep.drop k) := by
  induction ep generalizing k with
  | nil => simp [expected]
  | cons t rest ih =>
    cases k with
    | zero => rfl
    | succ k => simp [expected, ih]

/-- The steps with `n` steps ahead of them do not depend on what follows. -/
theorem expected_append_take (hn : 1 ≤ n) (ep more : List (Transition Obs Mask R)) :
    (expected n γ (ep ++ more)).take (ep.length + 1 - n)
      = (expected n γ ep).take (ep.length + 1 - n) := by
  induction ep with
  | nil =>
    have hk : ([] : List (Transition Obs Mask R)).length + 1 - n = 0 := by
      simp only [List.length_nil]
      omega
    rw [hk]
    rfl
  | cons t rest ih =>
    by_cases hle : n ≤ rest.length + 1
    · have hk : (t :: rest).length + 1 - n = rest.length + 1 - n + 1 := by
        simp only [List.length_cons]
        omega
      have hfollow : (rest ++ more).take (n - 1) = rest.take (n - 1) :=
        List.take_append_of_le_length (by omega)
      rw [hk]
      simp only [List.cons_append, expected, List.take_succ_cons, ih, nstep, hfollow]
    · have hk : (t :: rest).length + 1 - n = 0 := by
        simp only [List.length_cons]
        omega
      rw [hk]
      rfl

/-! ## A flush -/

/-- The reward loop of `_flush_nstep`. -/
theorem rewards_foldl (ts : List (Transition Obs Mask R)) (a g : R) :
    ts.foldl (fun (p : R × R) t => (p.1 + p.2 * t.rew, p.2 * γ)) (a, g)
      = (a + g * discounted γ (ts.map (·.rew)), g * γ ^ ts.length) := by
  induction ts generalizing a g with
  | nil => simp [discounted]
  | cons t ts ih =>
    rw [List.foldl_cons, ih, List.map_cons, discounted_cons]
    simp only [List.length_cons, pow_succ', mul_add, add_assoc, mul_assoc]

omit [Semiring R] in
/-- In a window with no step done before its last, every step counts. -/
theorem horizon_eq {w : List (Transition Obs Mask R)}
    (hdone : ∀ t ∈ w.dropLast, t.done = false) : horizon w = w.length := by
  unfold horizon
  split
  · rename_i h hfind
    obtain ⟨hlt, hat, -⟩ := List.findIdx?_eq_some_iff_getElem.mp hfind
    by_contra hne'
    have hmem : w[h] ∈ w.dropLast := by
      rw [List.mem_iff_getElem]
      refine ⟨h, ?_, List.getElem_dropLast _⟩
      rw [List.length_dropLast]
      omega
    rw [hdone _ hmem] at hat
    exact absurd hat (by decide)
  · rfl

/-- A flush commits the transition of the oldest step. -/
theorem flushNstep_eq {w : List (Transition Obs Mask R)} (hlen : w.length ≤ n)
    (hdone : ∀ t ∈ w.dropLast, t.done = false) (buf : List (Added Obs Mask R)) :
    flushNstep w buf γ = buf ++ (expected n γ w).take 1 := by
  cases w with
  | nil => simp [flushNstep, expected]
  | cons t rest =>
    have hall : rest.take (n - 1) = rest := by
      apply List.take_of_length_le
      simp only [List.length_cons] at hlen
      omega
    have hlast : (t :: rest).getD (rest.length + 1 - 1) t = rest.getLastD t := by
      rw [Nat.add_sub_cancel, List.getD_eq_getElem?_getD, List.getLastD_eq_getLast?,
        List.getLast?_eq_getElem?]
      cases rest with
      | nil => rfl
      | cons u us => simp
    simp only [flushNstep, horizon_eq hdone, List.take_length,
      rewards_foldl, hlast, expected, nstep, hall, List.take_succ_cons, List.take_zero, zero_add,
      one_mul, List.length_cons]

/-! ## One environment's steps -/

/-- What the loop does with one event of an environment: a step, or a rebuild. -/
def feed (γ : R)
    (s : Deque (Transition Obs Mask R) n × List (Added Obs Mask R)) :
    Option (Transition Obs Mask R) → Deque (Transition Obs Mask R) n × List (Added Obs Mask R)
  | none => (.empty, s.2)
  | some t => record γ s.1 s.2 t

/-- A full window holds the last `n` steps: the flush adds the transition of
the one step that has just got `n` steps ahead of it. -/
theorem flush_last (cur : List (Transition Obs Mask R)) (hn : 1 ≤ n)
    (hle : n ≤ cur.length) (hdone : ∀ u ∈ cur.dropLast, u.done = false)
    (buf : List (Added Obs Mask R)) :
    flushNstep (cur.rtake n) (buf ++ (expected n γ cur).take (cur.length - n)) γ
      = buf ++ (expected n γ cur).take (cur.length + 1 - n) := by
  have hk : cur.length + 1 - n = cur.length - n + 1 := by omega
  have hlen : (cur.rtake n).length ≤ n := by
    rw [List.rtake, List.length_drop]
    omega
  rw [flushNstep_eq hlen, List.append_assoc, hk, List.take_add, List.rtake, expected_drop]
  intro u hu
  have hne : cur.drop (cur.length - n) ≠ [] := by
    intro h
    simp [List.rtake, h] at hu
  apply hdone
  rw [← List.take_append_drop (cur.length - n) cur, List.dropLast_append_of_ne_nil hne]
  exact List.mem_append_right _ hu

/-- What a step of an unfinished episode leaves in the window and the buffer. -/
theorem record_live {w : Deque (Transition Obs Mask R) n} {cur : List (Transition Obs Mask R)}
    {t : Transition Obs Mask R} (hn : 1 ≤ n) (hw : w.Holds cur)
    (hdone : ∀ u ∈ cur, u.done = false) (ht : t.done = false) (base : List (Added Obs Mask R)) :
    record γ w (base ++ (expected n γ cur).take (cur.length + 1 - n)) t
      = (w.append t, base ++ (expected n γ (cur ++ [t])).take (cur.length + 2 - n)) := by
  have happ := hw.append t
  have hlen := happ.length
  have hprefix := expected_append_take (γ := γ) hn cur [t]
  simp only [List.length_append, List.length_singleton] at hlen
  simp only [record, ht, Bool.false_eq_true, or_false, if_false, hlen]
  split
  · rename_i hfull
    have hcur : ∀ u ∈ (cur ++ [t]).dropLast, u.done = false := by
      simpa using hdone
    have hflush := flush_last (γ := γ) (cur ++ [t]) hn (by simp; omega) hcur base
    simp only [List.length_append, List.length_singleton] at hflush
    rw [happ, ← hprefix, hflush]
  · rename_i hshort
    have hzero : cur.length + 1 - n = 0 ∧ cur.length + 2 - n = 0 := by omega
    rw [hzero.1, hzero.2]
    rfl

/-- What the last step of an episode leaves in the buffer. -/
theorem record_done {w : Deque (Transition Obs Mask R) n} {cur : List (Transition Obs Mask R)}
    {t : Transition Obs Mask R} (hn : 1 ≤ n) (hw : w.Holds cur)
    (hdone : ∀ u ∈ cur, u.done = false) (ht : t.done = true) (base : List (Added Obs Mask R)) :
    record γ w (base ++ (expected n γ cur).take (cur.length + 1 - n)) t
      = (.empty, base ++ (expected n γ (cur ++ [t])).take (max 1 (cur.length + 2 - n))) := by
  have happ := hw.append t
  have hprefix := expected_append_take (γ := γ) hn cur [t]
  have hcur : ∀ u ∈ (cur ++ [t]).dropLast, u.done = false := by
    simpa using hdone
  simp only [record, ht, or_true, if_true]
  by_cases hfull : n ≤ cur.length + 1
  · have hmax : max 1 (cur.length + 2 - n) = cur.length + 2 - n := by omega
    have hflush := flush_last (γ := γ) (cur ++ [t]) hn (by simp; omega) hcur base
    simp only [List.length_append, List.length_singleton] at hflush
    rw [happ, ← hprefix, hflush, hmax]
  · have hmax : max 1 (cur.length + 2 - n) = 1 := by omega
    have hzero : cur.length + 1 - n = 0 := by omega
    have hall : (w.append t).items = cur ++ [t] := by
      rw [happ, List.rtake, List.length_append, List.length_singleton, hzero, List.drop_zero]
    rw [hall, flushNstep_eq (n := n) (by simp; omega) hcur, hmax, hzero, List.take_zero,
      List.append_nil]

omit [Semiring R] in
theorem finished_live {cur : List (Transition Obs Mask R)} (hdone : ∀ u ∈ cur, u.done = false) :
    Finished cur = false := by
  unfold Finished
  cases hlast : cur.getLast? with
  | none => rfl
  | some t => exact hdone t (List.mem_of_getLast? hlast)

/-- What the loop commits of a stream, `cur` of the episode under way and its
transitions having gone before. -/
theorem feed_from (hn : 1 ≤ n) (es : List (Option (Transition Obs Mask R)))
    {w : Deque (Transition Obs Mask R) n} {cur : List (Transition Obs Mask R)}
    (hw : w.Holds cur) (hdone : ∀ u ∈ cur, u.done = false) (base : List (Added Obs Mask R)) :
    (es.foldl (feed γ)
        (w, base ++ (expected n γ cur).take (cur.length + 1 - n))).2
      = base ++ (episodes cur es).flatMap (committed n γ) := by
  induction es generalizing w cur base with
  | nil => simp [episodes, committed, finished_live hdone]
  | cons e es ih =>
    rw [List.foldl_cons]
    cases e with
    | none =>
      have hrest := ih (Deque.empty_holds (n := n)) (by simp)
        (base ++ (expected n γ cur).take (cur.length + 1 - n))
      simp only [expected, List.take_nil, List.append_nil] at hrest
      simp only [feed, episodes, List.flatMap_cons, hrest, committed, finished_live hdone,
        Bool.false_eq_true, if_false, List.append_assoc]
    | some t =>
      simp only [feed, episodes]
      split
      · rename_i ht
        have hfin : Finished (cur ++ [t]) = true := by simp [Finished, ht]
        have hrest := ih (Deque.empty_holds (n := n)) (by simp)
          (base ++ (expected n γ (cur ++ [t])).take (max 1 (cur.length + 2 - n)))
        simp only [expected, List.take_nil, List.append_nil] at hrest
        rw [record_done hn hw hdone ht, hrest, List.flatMap_cons, ← List.append_assoc]
        simp [committed, hfin]
      · rename_i ht
        rw [Bool.not_eq_true] at ht
        have hlive : ∀ u ∈ cur ++ [t], u.done = false := by
          intro u hu
          rcases List.mem_append.mp hu with h | h
          · exact hdone u h
          · rw [List.mem_singleton.mp h, ht]
        have hrest := ih (hw.append t) hlive base
        simp only [List.length_append, List.length_singleton] at hrest
        rw [record_live hn hw hdone ht, hrest]

/-- What the loop commits of one environment's steps, episode by episode. -/
theorem feed_commits (hn : 1 ≤ n) (es : List (Option (Transition Obs Mask R))) :
    (es.foldl (feed γ) ((.empty : Deque (Transition Obs Mask R) n), [])).2
      = (episodes [] es).flatMap (committed n γ) := by
  have h := feed_from (γ := γ) hn es (Deque.empty_holds (n := n)) (by simp) []
  simpa [expected] using h

/-! ## The loops -/

/-- A step only appends to the buffer. -/
theorem record_append (w : Deque (Transition Obs Mask R) n) (buf : List (Added Obs Mask R))
    (t : Transition Obs Mask R) :
    record γ w buf t = ((record γ w [] t).1, buf ++ (record γ w [] t).2) := by
  have hflush : ∀ items, flushNstep items buf γ = buf ++ flushNstep items [] γ := by
    intro items
    cases items <;> simp [flushNstep]
  simp only [record, hflush (w.append t).items]
  split <;> simp

theorem feed_append (es : List (Option (Transition Obs Mask R)))
    (w : Deque (Transition Obs Mask R) n) (buf : List (Added Obs Mask R)) :
    (es.foldl (feed γ) (w, buf)).2 = buf ++ (es.foldl (feed γ) (w, [])).2 := by
  induction es generalizing w buf with
  | nil => simp
  | cons e es ih =>
    cases e with
    | none => simpa only [List.foldl_cons, feed] using ih .empty buf
    | some t =>
      have hrest := ih (record γ w [] t).1 (record γ w [] t).2
      have hall := ih (record γ w [] t).1 (buf ++ (record γ w [] t).2)
      simp only [List.foldl_cons, feed, record_append w buf t, hall, List.append_assoc]
      rw [← hrest]

end

section Single

variable [Field R] (sqrt : R → R) (normalizeReward : Bool) (γ : R) {n : ℕ}

/-- The steps of the single-environment loop. -/
def singleSteps (s : Trainer Obs Mask R n) :
    List (Reply Obs Mask R) → List (Option (Transition Obs Mask R))
  | [] => []
  | r :: rs => some (s.transition sqrt normalizeReward r)
      :: singleSteps (simTrainStep sqrt normalizeReward γ s r) rs

theorem simTrain_feed (s : Trainer Obs Mask R n) (rs : List (Reply Obs Mask R)) :
    (rs.foldl (simTrainStep sqrt normalizeReward γ) s).buf
      = ((singleSteps sqrt normalizeReward γ s rs).foldl (feed γ) (s.nstepBuf, s.buf)).2 := by
  induction rs generalizing s with
  | nil => rfl
  | cons r rs ih =>
    rw [List.foldl_cons, ih, singleSteps, List.foldl_cons]
    rfl

end Single

section Vec

variable [Semiring R] (γ : R) {n k : ℕ}

/-- The steps of environment `i` in the vectorized loop, and its rebuilds. -/
def vecSteps (i : Fin k) (s : VecTrainer Obs Mask R n k) :
    List (Round Obs Mask R k) → List (Option (Transition Obs Mask R))
  | [] => []
  | r :: rs =>
    (if r.rebuilt.isSome then [none] else []) ++ some ((s.rebuild r).transition r i)
      :: vecSteps i (collectStep γ s r) rs

variable {γ}

/-- The environments' windows do not meet: a pass over them is a step of each. -/
theorem recordAll_eq (s : VecTrainer Obs Mask R n k) (r : Round Obs Mask R k)
    {is : List (Fin k)} (hnodup : is.Nodup) :
    recordAll γ s r is
      = (fun i => if i ∈ is then (record γ (s.nstepBufs i) [] (s.transition r i)).1
          else s.nstepBufs i,
        s.buf ++ is.flatMap fun i => (record γ (s.nstepBufs i) [] (s.transition r i)).2) := by
  induction is using List.reverseRecOn with
  | nil => simp [recordAll]
  | append_singleton is i ih =>
    obtain ⟨hnodup, -, hdisjoint⟩ := List.nodup_append.mp hnodup
    have hfresh : i ∉ is := fun h => hdisjoint i h i (List.mem_singleton_self i) rfl
    have hbefore := ih hnodup
    unfold recordAll at hbefore ⊢
    rw [List.foldl_append, hbefore, List.foldl_cons, List.foldl_nil]
    dsimp only
    rw [if_neg hfresh, record_append]
    ext1
    · funext j
      by_cases hj : j = i
      · subst hj
        simp
      · simp [hj]
    · simp

/-- A round of the loop, for one environment: a rebuild clears the window. -/
theorem vecSteps_feed (i : Fin k) (s : VecTrainer Obs Mask R n k) (r : Round Obs Mask R k)
    (es : List (Option (Transition Obs Mask R))) :
    let t := (s.rebuild r).transition r i
    let w := (s.rebuild r).nstepBufs i
    (((if r.rebuilt.isSome then [none] else []) ++ some t :: es).foldl (feed γ)
        (s.nstepBufs i, [])).2
      = (record γ w [] t).2 ++ (es.foldl (feed γ) ((record γ w [] t).1, [])).2 := by
  cases hr : r.rebuilt with
  | none =>
    have hs : s.rebuild r = s := by simp [VecTrainer.rebuild, hr]
    rw [hs]
    exact feed_append es _ _
  | some fresh =>
    have hw : (s.rebuild r).nstepBufs i = .empty := by simp [VecTrainer.rebuild, hr]
    rw [hw]
    exact feed_append es _ _

theorem collectStep_eq (s : VecTrainer Obs Mask R n k) (r : Round Obs Mask R k) :
    (collectStep γ s r).buf
        = s.buf ++ (List.finRange k).flatMap (fun i =>
          (record γ ((s.rebuild r).nstepBufs i) [] ((s.rebuild r).transition r i)).2)
      ∧ ∀ i, (collectStep γ s r).nstepBufs i
        = (record γ ((s.rebuild r).nstepBufs i) [] ((s.rebuild r).transition r i)).1 := by
  have hall := recordAll_eq (γ := γ) (s.rebuild r) r (List.nodup_finRange k)
  have hbuf : (s.rebuild r).buf = s.buf := by
    unfold VecTrainer.rebuild
    split <;> rfl
  simp only [collectStep, hall, hbuf, List.mem_finRange, if_true, true_and, implies_true]

/-- The buffer holds what each environment's steps commit. -/
theorem vec_feed (s : VecTrainer Obs Mask R n k) (rs : List (Round Obs Mask R k)) :
    (rs.foldl (collectStep γ) s).buf.Perm
      (s.buf ++ (List.finRange k).flatMap fun i =>
        ((vecSteps γ i s rs).foldl (feed γ) (s.nstepBufs i, [])).2) := by
  induction rs generalizing s with
  | nil =>
    have hnil : ((List.finRange k).flatMap fun _ => ([] : List (Added Obs Mask R))) = [] :=
      List.flatMap_eq_nil_iff.mpr fun _ _ => rfl
    simp only [vecSteps, List.foldl_nil, hnil, List.append_nil, List.Perm.refl]
  | cons r rs ih =>
    obtain ⟨hbuf, hbufs⟩ := collectStep_eq (γ := γ) s r
    have hrest := ih (collectStep γ s r)
    simp only [List.foldl_cons, vecSteps, vecSteps_feed]
    refine hrest.trans ?_
    simp only [hbuf, hbufs, List.append_assoc]
    exact (List.flatMap_append_perm _ _ _).append_left s.buf

theorem collectAndTrainVec_commits (hn : 1 ≤ n) (obs : Fin k → Obs) (masks : Fin k → Mask)
    (rounds : List (Round Obs Mask R k)) :
    (collectAndTrainVec (n := n) γ obs masks rounds).buf.Perm
      (((List.finRange k).flatMap fun i =>
        episodes [] (vecSteps (n := n) γ i (.start obs masks) rounds)).flatMap
          (committed n γ)) := by
  have h := vec_feed (γ := γ) (n := n) (.start obs masks) rounds
  simp only [VecTrainer.start, List.nil_append, feed_commits hn] at h
  rw [List.flatMap_assoc]
  exact h

end Vec

/-! ## What is complete -/

section

variable [Semiring R] {n : ℕ} {γ : R}

theorem committed_length_le (ep : List (Transition Obs Mask R)) :
    (committed n γ ep).length ≤ (wanted n γ ep).length := by
  unfold committed wanted
  split
  · rw [List.length_take]
    exact Nat.min_le_right _ _
  · exact le_refl _

theorem committed_length_eq (hn : 1 ≤ n) {ep : List (Transition Obs Mask R)}
    (hfin : Finished ep = true)
    (heq : (committed n γ ep).length = (wanted n γ ep).length) :
    n = 1 ∨ ep.length = 1 := by
  simp only [committed, wanted, hfin, if_true, List.length_take, expected_length] at heq
  have hne : ep.length ≠ 0 := by
    intro h
    rw [List.length_eq_zero_iff] at h
    simp [h, Finished] at hfin
  omega

theorem committed_eq {ep : List (Transition Obs Mask R)}
    (h : n = 1 ∨ (Finished ep = true → ep.length = 1)) :
    committed n γ ep = wanted n γ ep := by
  unfold committed wanted
  split
  · rename_i hfin
    apply List.take_of_length_le
    rw [expected_length]
    rcases h with h | h
    · omega
    · rw [h hfin]
      exact Nat.le_max_left 1 _
  · rfl

/-- Where every episode commits at most what it should and the totals agree,
each commits as much as it should. -/
theorem lengths_eq {eps : List (List (Transition Obs Mask R))}
    (h : (eps.flatMap (wanted n γ)).length ≤ (eps.flatMap (committed n γ)).length) :
    ∀ ep ∈ eps, (committed n γ ep).length = (wanted n γ ep).length := by
  have hle : ∀ eps : List (List (Transition Obs Mask R)),
      (eps.flatMap (committed n γ)).length ≤ (eps.flatMap (wanted n γ)).length := by
    intro eps
    rw [List.length_flatMap, List.length_flatMap]
    exact List.sum_le_sum fun ep _ => committed_length_le ep
  induction eps with
  | nil => simp
  | cons ep eps ih =>
    have hhead := committed_length_le (n := n) (γ := γ) ep
    have htail := hle eps
    simp only [List.flatMap_cons, List.length_append] at h
    intro ep' hmem
    rcases List.mem_cons.mp hmem with rfl | hmem
    · omega
    · exact ih (by omega) ep' hmem

/-- What the loops commit is complete just where no finished episode has a tail. -/
theorem complete_iff (hn : 1 ≤ n) {eps : List (List (Transition Obs Mask R))}
    {buf : List (Added Obs Mask R)} (hbuf : buf.Perm (eps.flatMap (committed n γ))) :
    Complete n γ eps buf ↔
      n = 1 ∨ ∀ ep ∈ eps, Finished ep = true → ep.length = 1 := by
  constructor
  · intro hcomplete
    have hlen := lengths_eq ((hcomplete.symm.trans hbuf).length_eq.le)
    by_cases hone : n = 1
    · exact Or.inl hone
    · right
      intro ep hmem hfin
      exact (committed_length_eq hn hfin (hlen ep hmem)).resolve_left hone
  · intro h
    have hsame : eps.flatMap (committed n γ) = eps.flatMap (wanted n γ) := by
      apply List.flatMap_congr
      intro ep hmem
      exact committed_eq (h.imp_right fun h => h ep hmem)
    rw [hsame] at hbuf
    exact hbuf

end

/-- The buffers of both loops are complete just where the window is one step
wide or every finished episode is one step long: a finished episode's last
`n - 1` steps are cleared with the window. -/
theorem nstep_complete_iff [Field R] (sqrt : R → R) (normalizeReward : Bool) (γ : R) (n : ℕ)
    (hn : 1 ≤ n) :
    (∀ (obs : Obs) (replies : List (Reply Obs Mask R)),
      let eps := episodes []
        (singleSteps (n := n) sqrt normalizeReward γ (.start obs) replies)
      Complete n γ eps (simTrain (n := n) sqrt normalizeReward γ obs replies).buf
        ↔ n = 1 ∨ ∀ ep ∈ eps, Finished ep = true → ep.length = 1)
    ∧ ∀ (k : ℕ) (obs : Fin k → Obs) (masks : Fin k → Mask) (rounds : List (Round Obs Mask R k)),
      let eps := (List.finRange k).flatMap fun i =>
        episodes [] (vecSteps (n := n) γ i (.start obs masks) rounds)
      Complete n γ eps (collectAndTrainVec (n := n) γ obs masks rounds).buf
        ↔ n = 1 ∨ ∀ ep ∈ eps, Finished ep = true → ep.length = 1 := by
  constructor
  · intro obs replies
    apply complete_iff hn
    have hfeed := simTrain_feed sqrt normalizeReward γ (n := n)
      (.start obs : Trainer Obs Mask R n) replies
    rw [simTrain, hfeed]
    exact List.Perm.of_eq (feed_commits hn _)
  · intro k obs masks rounds
    exact complete_iff hn (collectAndTrainVec_commits hn obs masks rounds)

/-! ## An episode shorter than the window -/

/-- Two steps of reward 1, the second the last of its episode. -/
def twoSteps : List (Reply ℕ Unit ℚ) :=
  [⟨(), 0, 1, 1, false, false, (), 0⟩, ⟨(), 0, 2, 1, true, false, (), 0⟩]

theorem nstep_complete_single :
    Complete 1 (1 / 2) (episodes [] (singleSteps (n := 1) id false (1 / 2) (.start 0) twoSteps))
      (simTrain (n := 1) id false (1 / 2) 0 twoSteps).buf :=
  ((nstep_complete_iff id false (1 / 2) 1 (le_refl 1)).1 0 twoSteps).mpr (Or.inl rfl)

/-- With a window of ten steps the second step never reaches the buffer. -/
theorem tail_lost :
    ¬ Complete 10 (1 / 2)
        (episodes [] (singleSteps (n := 10) id false (1 / 2) (.start 0) twoSteps))
        (simTrain (n := 10) id false (1 / 2) 0 twoSteps).buf := by
  intro h
  exact absurd h.length_eq (by decide +kernel)

end Kelpflux.Proof.Scheduler
