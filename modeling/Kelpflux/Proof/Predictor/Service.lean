import Kelpflux.Framework.Word
import Kelpflux.Impl.Predictor.Service
import Mathlib.Tactic.Linarith

/-!
# The runtime predictor's models

A training that is saved takes the number after that of the model file before it,
or the first one where that was lost or cannot be read (`nextVersion_cases`), so
that the file always has a number or is lost (`OnFile`, `next_onFile`). A training
of which nothing fails but before the file is touched (`Orderly`) moves the file
before it away and is what the process serves (`next_orderly`). So over a stretch
of such ones, whatever failed before it, the versions are counted on, the last one
is served and the one before it is kept (`versions_in_order`), and a model's
answer is within a day (`predict_within`).
-/

namespace Kelpflux.Proof.Predictor

open Framework Framework.Python Impl.Predictor

variable {M K : Type} {rt : Runtime} {settings : Settings} {files : Files M K} {disk : Disk}
  {k : ℕ}

/-! ## Versions -/

theorem isDigit_of_mem_toString {n : ℕ} {c : Char} (hc : c ∈ (toString n).toList) :
    c.isDigit = true := by
  rw [Nat.toString_eq_repr, Nat.toList_repr] at hc
  exact Nat.isDigit_of_mem_toDigits (by decide) (by decide) hc

-- The `v` that is cut at is the stem's: a number has none.
theorem versionOf_pieces (k : ℕ) :
    (pieces (· == 'v') (versionOf k).toList).getLastD [] = (toString k).toList := by
  have hchars : (versionOf k).toList = ['l', 'g', 'b', 'm', '-'] ++ 'v' :: (toString k).toList := by
    show ("lgbm-v" ++ toString (k : ℤ)).toList = _
    rw [String.toList_append]
    rfl
  have hstem : ∀ c ∈ ['l', 'g', 'b', 'm', '-'], (c == 'v') = false := by
    simp only [List.forall_mem_cons, List.not_mem_nil, false_imp_iff, implies_true, and_true]
    exact ⟨rfl, rfl, rfl, rfl, rfl⟩
  have hdigits : ∀ c ∈ (toString k).toList, (c == 'v') = false := by
    intro c hc
    have hdigit := isDigit_of_mem_toString hc
    rw [beq_eq_false_iff_ne]
    rintro rfl
    cases hdigit
  rw [hchars, pieces_append hstem rfl, pieces_of_none hdigits]
  rfl

/-- The file of a path has version `k`. With `k = 0` there is none, or one that was
cut short. -/
def Numbered (files : Files M K) (path : String) (k : ℕ) : Prop :=
  match files.get? path with
  | some (.whole model) => 1 ≤ k ∧ model.modelVersion = versionOf k
  | _ => k = 0

theorem Numbered.cases {path : String} (h : Numbered files path k) :
    (∃ model, files.get? path = some (.whole model) ∧ model.modelVersion = versionOf k) ∨
      k = 0 ∧ ∀ model, files.get? path ≠ some (.whole model) := by
  unfold Numbered at h
  cases hfile : files.get? path with
  | none =>
    rw [hfile] at h
    exact .inr ⟨h, fun _ => nofun⟩
  | some file =>
    rw [hfile] at h
    cases file with
    | whole model => exact .inl ⟨model, rfl, h.2⟩
    | cut => exact .inr ⟨h, fun _ => nofun⟩

/-- A version is followed by the next one, as far as it can be read. -/
theorem nextVersion_cases (hint : ∀ n : ℕ, rt.int (toString n) = some (n : ℤ)) {path : String}
    (h : Numbered files path k) :
    nextVersion rt disk files path = versionOf ((if disk.readable then k else 0) + 1 : ℕ) := by
  unfold nextVersion
  rcases h.cases with ⟨model, hfile, hversion⟩ | ⟨rfl, hlost⟩
  · rw [hfile]
    dsimp only
    split
    · rw [hversion, versionOf_pieces, String.ofList_toList, hint]
      rfl
    · rfl
  · rw [ite_self]
    split
    · rename_i prev hfile
      exact absurd hfile (hlost prev)
    · rfl

/-! ## Files -/

theorem backup_ne (path : String) : path ++ ".bak" ≠ path := by
  intro h
  have hlength := congrArg String.length h
  rw [String.length_append] at hlength
  exact absurd hlength (by simp)

/-- A move takes the file away or leaves it, and leaves it where it raises. -/
theorem moveAway_get (disk : Disk) (files : Files M K) (path : String) (rotate : Bool) :
    (moveAway disk files path rotate).2.get? path = files.get? path ∨
      (moveAway disk files path rotate).1 = .ok () ∧
        (moveAway disk files path rotate).2.get? path = none := by
  have hset : ∀ (files : Files M K) (file : ModelFile M K),
      (files.set (path ++ ".bak") file).get? path = files.get? path := fun files file => by
    rw [Dict.get?_set, if_neg (backup_ne path).symm]
  unfold moveAway
  split
  swap
  · exact .inl rfl
  split
  swap
  · exact .inl rfl
  split
  · refine .inr ⟨rfl, ?_⟩
    rw [hset, Dict.get?_eq_none, Dict.keys_erase]
    simp
  · rename_i remains _
    cases remains with
    | before => exact .inl rfl
    | cut => exact .inl (hset _ _)
    | copy => exact .inl (hset _ _)

/-- Whatever fails, the file stays as it is, is lost, or is the new one. -/
theorem save_numbered {path : String} {bundle : Bundle M K} {n : ℕ} (h : Numbered files path k)
    (hbundle : bundle.modelVersion = versionOf (n + 1 : ℕ)) (rotate : Bool) :
    ∃ k', Numbered (save disk files path rotate bundle).2 path k' := by
  have hmove := moveAway_get disk files path rotate
  unfold save
  split
  · exact ⟨k, h⟩
  split
  · rename_i heq
    rw [heq] at hmove
    refine ⟨k, ?_⟩
    unfold Numbered at h ⊢
    rwa [hmove.resolve_right fun hok => nomatch hok.1]
  · rename_i heq
    rw [heq] at hmove
    unfold writeBundle
    split
    · rcases hmove with hsame | ⟨-, hgone⟩
      · refine ⟨k, ?_⟩
        unfold Numbered at h ⊢
        rwa [hsame]
      · refine ⟨0, ?_⟩
        unfold Numbered
        rw [hgone]
    · refine ⟨0, ?_⟩
      unfold Numbered
      rw [Dict.get?_set, if_pos rfl]
    · refine ⟨n + 1, ?_⟩
      unfold Numbered
      rw [Dict.get?_set, if_pos rfl]
      exact ⟨Nat.le_add_left 1 n, hbundle⟩

/-- A model that is saved is on file. -/
theorem save_get {path : String} {bundle : Bundle M K} {rotate : Bool} :
    (save disk files path rotate bundle).1 = .ok () →
      (save disk files path rotate bundle).2.get? path = some (.whole bundle) := by
  unfold save
  cases disk.makedirs with
  | some e => rintro ⟨⟩
  | none =>
    dsimp only
    obtain ⟨e | ⟨⟩, files'⟩ := moveAway disk files path rotate
    · rintro ⟨⟩
    dsimp only
    unfold writeBundle
    split
    · rintro ⟨⟩
    · rintro ⟨⟩
    · exact fun _ => by rw [Dict.get?_set, if_pos rfl]

/-- A file that is replaced in order is kept. -/
theorem save_kept {path : String} {bundle : Bundle M K} {old : ModelFile M K}
    (hold : files.get? path = some old) (hmove : disk.move = none) :
    (save disk files path true bundle).1 = .ok () →
      (save disk files path true bundle).2.get? (path ++ ".bak") = some old := by
  unfold save
  cases disk.makedirs with
  | some e => rintro ⟨⟩
  | none =>
    unfold moveAway
    rw [hold, hmove]
    dsimp only
    rw [if_pos rfl]
    dsimp only
    unfold writeBundle
    split
    · rintro ⟨⟩
    · rintro ⟨⟩
    · exact fun _ => by rw [Dict.get?_set, if_neg (backup_ne path), Dict.get?_set, if_pos rfl]

/-- Where nothing fails from the move on, a model that is not saved leaves the files
as they are. -/
theorem save_orderly {path : String} {bundle : Bundle M K} {rotate : Bool} {e : Exc}
    (hmove : disk.move = none) (hopened : disk.opened = none) (hdump : disk.dump = none) :
    (save disk files path rotate bundle).1 = .error e →
      (save disk files path rotate bundle).2 = files := by
  unfold save
  cases disk.makedirs with
  | some e => exact fun _ => rfl
  | none =>
    have hmoved : (moveAway disk files path rotate).1 = .ok () := by
      unfold moveAway
      rw [hmove]
      split
      · split
        · rfl
        · rfl
      · rfl
    dsimp only
    generalize moveAway disk files path rotate = moved at hmoved
    obtain ⟨e | ⟨⟩, files'⟩ := moved
    · cases hmoved
    dsimp only
    unfold writeBundle
    rw [hopened, hdump]
    rintro ⟨⟩

/-! ## Trainings -/

section Serve

variable [Field K] {log1p : ℚ → K} {expm1 : ℚ → ℚ} {lgb : Booster M K} {s : Process M K}

theorem trainBundle_ok {path : String} {req : RetrainRequest} {model : Bundle M K} {nTest : ℕ}
    (h : trainBundle rt log1p lgb files path req = .ok (model, nTest)) :
    model.modelVersion = nextVersion rt req.disk files path ∧ 50 ≤ model.nTrain := by
  unfold trainBundle at h
  obtain ⟨jobs, -, h⟩ := bind_eq_ok.mp h
  split at h
  · cases h
  split at h
  · cases h
  obtain ⟨df, -, h⟩ := bind_eq_ok.mp h
  dsimp only at h
  split at h
  · cases h
  rename_i hfew
  obtain ⟨booster, -, h⟩ := bind_eq_ok.mp h
  obtain ⟨userStats, -, h⟩ := bind_eq_ok.mp h
  cases h
  refine ⟨rfl, ?_⟩
  dsimp only
  by_contra hlt
  exact hfew (by simp only [Bool.or_eq_true, decide_eq_true_eq]; omega)

/-- The version that an entry of a log answers a training with. -/
def trained : Request × Except Exc Answer → Option String
  | (_, .ok (.retrain _ _ version)) => some version
  | _ => none

/-- Trainings replace the model of the settings, and move it away. -/
def Replaces (settings : Settings) (x : Request) : Prop :=
  ∀ req, x = .retrain req → req.out settings = settings.modelPath ∧ req.rotate = true

/-- Of a training nothing fails from the move of the file on. -/
def Orderly (x : Request) : Prop :=
  ∀ req, x = .retrain req → req.disk = { makedirs := req.disk.makedirs }

/-- The model file has version `k`, or is lost with `k = 0`. -/
def OnFile (settings : Settings) (s : Process M K) (k : ℕ) : Prop :=
  Numbered s.files settings.modelPath k

/-- The last of `k` models is served and on file, and the one before it is kept. -/
structure Serves (settings : Settings) (k : ℕ) (s : Process M K) : Prop where
  served : ∃ model, s.holder = some model ∧
    s.files.get? settings.modelPath = some (.whole model) ∧ model.modelVersion = versionOf k ∧
    50 ≤ model.nTrain
  kept : 2 ≤ k → ∃ prev, s.files.get? (settings.modelPath ++ ".bak") = some (.whole prev) ∧
    prev.modelVersion = versionOf (k - 1 : ℕ)

theorem train_cases (rt : Runtime) (log1p : ℚ → K) (lgb : Booster M K) (files : Files M K)
    (path : String) (req : RetrainRequest) :
    (∃ e, train rt log1p lgb files path req = (.error e, files)) ∨
      ∃ bundle nTest, trainBundle rt log1p lgb files path req = .ok (bundle, nTest) ∧
        ((∃ e, train rt log1p lgb files path req =
            (.error e, (save req.disk files path req.rotate bundle).2) ∧
            (save req.disk files path req.rotate bundle).1 = .error e) ∨
          (save req.disk files path req.rotate bundle).1 = .ok () ∧
            train rt log1p lgb files path req =
              (.ok (bundle, nTest), (save req.disk files path req.rotate bundle).2)) := by
  unfold train
  cases trainBundle rt log1p lgb files path req with
  | error e => exact .inl ⟨e, rfl⟩
  | ok result =>
    obtain ⟨bundle, nTest⟩ := result
    refine .inr ⟨bundle, nTest, rfl, ?_⟩
    dsimp only
    obtain ⟨e | ⟨⟩, files'⟩ := save req.disk files path req.rotate bundle
    · exact .inl ⟨e, rfl, rfl⟩
    · exact .inr ⟨rfl, rfl⟩

/-- A training fails and leaves the files as they are, or as a model was saved to
them, or is answered with the model, which is then on file and held. -/
theorem retrain_cases (settings : Settings) (rt : Runtime) (log1p : ℚ → K) (lgb : Booster M K)
    (s : Process M K) (req : RetrainRequest) :
    (∃ e, s.retrain settings rt log1p lgb req = (.error e, s)) ∨
      ∃ bundle nTest, trainBundle rt log1p lgb s.files (req.out settings) req =
          .ok (bundle, nTest) ∧
        let saved := save req.disk s.files (req.out settings) req.rotate bundle
        ((∃ e, s.retrain settings rt log1p lgb req = (.error e, ⟨s.holder, saved.2⟩) ∧
            (saved.1 = .error e ∨ req.disk.load = some e)) ∨
          saved.1 = .ok () ∧ s.retrain settings rt log1p lgb req =
            (.ok (.retrain bundle.nTrain nTest bundle.modelVersion), ⟨some bundle, saved.2⟩)) := by
  unfold Process.retrain
  rcases train_cases rt log1p lgb s.files (req.out settings) req with
    ⟨e, htrain⟩ | ⟨bundle, nTest, hbundle, ⟨e, htrain, hsaved⟩ | ⟨hsaved, htrain⟩⟩
  · rw [htrain]
    exact .inl ⟨e, rfl⟩
  · rw [htrain]
    exact .inr ⟨bundle, nTest, hbundle, .inl ⟨e, rfl, .inl hsaved⟩⟩
  · rw [htrain]
    refine .inr ⟨bundle, nTest, hbundle, ?_⟩
    dsimp only
    unfold Process.load
    dsimp only
    rw [save_get hsaved]
    dsimp only
    cases hload : req.disk.load with
    | some e => exact .inl ⟨e, rfl, .inr rfl⟩
    | none => exact .inr ⟨hsaved, rfl⟩

/-- What the process serves is the model of the last training that it answered. -/
theorem serve_modelVersion (s : Process M K) (x : Request) :
    let S := Process.serve settings rt log1p expm1 lgb
    (S.next s x).modelVersion = (trained (x, (S s x).1)).getD s.modelVersion := by
  intro S
  cases x with
  | predict req => rfl
  | retrain req =>
    show (s.retrain settings rt log1p lgb req).2.modelVersion =
      (trained (.retrain req, (s.retrain settings rt log1p lgb req).1)).getD s.modelVersion
    rcases retrain_cases settings rt log1p lgb s req with
      ⟨e, h⟩ | ⟨bundle, nTest, -, ⟨e, h, -⟩ | ⟨-, h⟩⟩
    · rw [h]
      rfl
    · rw [h]
      rfl
    · rw [h]
      rfl

/-- Whatever fails, the model file has a number or is lost. -/
theorem next_onFile (hint : ∀ n : ℕ, rt.int (toString n) = some (n : ℤ)) {x : Request}
    (hx : Replaces settings x) (h : OnFile settings s k) :
    ∃ k', OnFile settings ((Process.serve settings rt log1p expm1 lgb).next s x) k' := by
  cases x with
  | predict req => exact ⟨k, h⟩
  | retrain req =>
    obtain ⟨hout, -⟩ := hx req rfl
    show ∃ k', OnFile settings (s.retrain settings rt log1p lgb req).2 k'
    have hsave : ∀ bundle nTest, trainBundle rt log1p lgb s.files (req.out settings) req =
        .ok (bundle, nTest) → ∃ k', Numbered
          (save req.disk s.files (req.out settings) req.rotate bundle).2 settings.modelPath k' := by
      intro bundle nTest hbundle
      rw [hout] at hbundle ⊢
      exact save_numbered h ((trainBundle_ok hbundle).1.trans (nextVersion_cases hint h)) _
    rcases retrain_cases settings rt log1p lgb s req with
      ⟨e, h'⟩ | ⟨bundle, nTest, hbundle, ⟨e, h', -⟩ | ⟨-, h'⟩⟩
    · rw [h']
      exact ⟨k, h⟩
    · rw [h']
      exact hsave bundle nTest hbundle
    · rw [h']
      exact hsave bundle nTest hbundle

/-- An orderly training that is not answered changes nothing, and one that is
serves the version after that of the file. -/
theorem next_orderly (hint : ∀ n : ℕ, rt.int (toString n) = some (n : ℤ)) {x : Request}
    (hx : Replaces settings x) (horderly : Orderly x) (h : OnFile settings s k) :
    let S := Process.serve settings rt log1p expm1 lgb
    trained (x, (S s x).1) = none ∧ S.next s x = s ∨
      trained (x, (S s x).1) = some (versionOf (k + 1 : ℕ)) ∧
        Serves settings (k + 1) (S.next s x) := by
  intro S
  cases x with
  | predict req => exact .inl ⟨rfl, rfl⟩
  | retrain req =>
    obtain ⟨hout, hrotate⟩ := hx req rfl
    have hdisk := horderly req rfl
    show trained (.retrain req, (s.retrain settings rt log1p lgb req).1) = none ∧
        (s.retrain settings rt log1p lgb req).2 = s ∨
      trained (.retrain req, (s.retrain settings rt log1p lgb req).1) = _ ∧
        Serves settings (k + 1) (s.retrain settings rt log1p lgb req).2
    rcases retrain_cases settings rt log1p lgb s req with
      ⟨e, h'⟩ | ⟨bundle, nTest, hbundle, ⟨e, h', hfails⟩ | ⟨hsaved, h'⟩⟩
    · rw [h']
      exact .inl ⟨rfl, rfl⟩
    · rw [h']
      refine .inl ⟨rfl, ?_⟩
      rcases hfails with hfails | hload
      · show Process.mk s.holder (save _ _ _ _ _).2 = s
        rw [save_orderly (by rw [hdisk]) (by rw [hdisk]) (by rw [hdisk]) hfails]
      · rw [hdisk] at hload
        cases hload
    · rw [h']
      obtain ⟨hversion, hsize⟩ := trainBundle_ok hbundle
      rw [hout] at hversion hsaved ⊢
      rw [nextVersion_cases hint h, hdisk] at hversion
      refine .inr ⟨congrArg some hversion, ⟨bundle, rfl, save_get hsaved, hversion, hsize⟩, ?_⟩
      intro hk
      unfold OnFile Numbered at h
      split at h
      · rename_i last hlast
        rw [hrotate] at hsaved ⊢
        exact ⟨last, save_kept hlast (by rw [hdisk]) hsaved, h.2⟩
      · omega

omit [Field K] in
theorem start_onFile (h : Numbered files settings.modelPath k)
    (hstart : Process.start settings files = .ok s) : OnFile settings s k := by
  unfold Process.start Process.load at hstart
  dsimp only at hstart
  split at hstart
  · cases hstart
  rename_i heq
  split at heq
  · cases heq
    cases hstart
    exact h
  · cases heq
  · cases heq
    cases hstart
    exact h

omit [Field K] in
theorem Serves.onFile (h : Serves settings k s) (hpos : 1 ≤ k) : OnFile settings s k := by
  obtain ⟨model, -, hfile, hversion, -⟩ := h.served
  unfold OnFile Numbered
  rw [hfile]
  exact ⟨hpos, hversion⟩

variable (log1p expm1 lgb) in
/-- Whatever fails, a run leaves a file that has a number or is lost. -/
theorem run_onFile (hint : ∀ n : ℕ, rt.int (toString n) = some (n : ℤ)) (xs : List Request)
    (hxs : ∀ x ∈ xs, Replaces settings x) (h : OnFile settings s k) :
    ∃ k', OnFile settings (run (Process.serve settings rt log1p expm1 lgb).next s xs) k' := by
  induction xs generalizing s k with
  | nil => exact ⟨k, h⟩
  | cons x xs ih =>
    obtain ⟨hx, hxs⟩ := List.forall_mem_cons.mp hxs
    obtain ⟨k', hnext⟩ := next_onFile hint hx h
    exact ih hxs hnext

variable (log1p expm1 lgb) in
/-- Over a run of orderly trainings the versions are counted on. -/
theorem log_orderly (hint : ∀ n : ℕ, rt.int (toString n) = some (n : ℤ)) (xs : List Request)
    (hxs : ∀ x ∈ xs, Replaces settings x) (horderly : ∀ x ∈ xs, Orderly x)
    (h : OnFile settings s k) :
    let S := Process.serve settings rt log1p expm1 lgb
    ∃ m, (S.log s xs).filterMap trained = (List.range' (k + 1) m).map (fun i : ℕ => versionOf i) ∧
      OnFile settings (run S.next s xs) (k + m) ∧
      (1 ≤ m ∨ Serves settings k s → Serves settings (k + m) (run S.next s xs)) := by
  intro S
  induction xs generalizing s k with
  | nil => exact ⟨0, rfl, h, fun hserves => hserves.resolve_left (by decide)⟩
  | cons x xs ih =>
    obtain ⟨hx, hxs⟩ := List.forall_mem_cons.mp hxs
    obtain ⟨hfirst, horderly⟩ := List.forall_mem_cons.mp horderly
    rw [run_cons, Service.log_cons]
    rcases next_orderly hint hx hfirst h with ⟨hnone, hsame⟩ | ⟨hsome, hserves⟩
    · rw [List.filterMap_cons_none hnone, show S.next s x = s from hsame]
      exact ih hxs horderly h
    · obtain ⟨m, hlog, hfile, hlast⟩ := ih hxs horderly (hserves.onFile (Nat.le_add_left 1 k))
      have hcount : k + (m + 1) = k + 1 + m := by omega
      refine ⟨m + 1, ?_, hcount ▸ hfile, fun _ => ?_⟩
      · rw [List.filterMap_cons_some hsome, List.range'_succ, List.map_cons]
        exact congrArg _ hlog
      · rw [hcount]
        exact hlast (.inr hserves)

/-- A model's answer is within a day. -/
theorem predict_within (hexp : ∀ x, 0 ≤ x → 0 ≤ expm1 x) (model : Bundle M K)
    (req : PredictRequest) :
    0 ≤ (modelAnswer expm1 lgb model req).predSeconds ∧
      (modelAnswer expm1 lgb model req).predSeconds ≤ 24 * 3600 :=
  ⟨le_min (hexp _ (le_max_left 0 _)) (by norm_num), min_le_right _ _⟩

variable (settings expm1 lgb) in
theorem predict_cases (s : Process M K) (req : PredictRequest) :
    (∃ model, s.holder = some model ∧
        s.predict settings expm1 lgb req = modelAnswer expm1 lgb model req) ∨
      s.predict settings expm1 lgb req = bootstrapAnswer settings req ∧
        ∀ model, s.holder = some model → model.nTrain < settings.minTrainSamples := by
  unfold Process.predict Process.isReady
  cases s.holder with
  | none => exact .inr ⟨rfl, nofun⟩
  | some model =>
    dsimp only
    split
    · exact .inl ⟨model, rfl, rfl⟩
    · rename_i hfew
      refine .inr ⟨rfl, fun model' h => ?_⟩
      obtain rfl := Option.some.inj h
      simpa using hfew

/-- From a start with a model file of some number or none, whatever failed `before`:
over any requests of which nothing fails from the move of the file on, the trainings
that succeed are answered with the versions after that of the file, in order; if
there was one, the last one is served and on file, and the one before it is kept. A
prediction after the run is by the model of the last training that was answered,
within a day, or the user's limit up to the floor while no model has enough samples. -/
theorem versions_in_order (settings : Settings) (rt : Runtime) (log1p : ℚ → K) (expm1 : ℚ → ℚ)
    (lgb : Booster M K) (files : Files M K) (s₀ : Process M K) (k₀ : ℕ)
    (hfile : Numbered files settings.modelPath k₀) (hstart : Process.start settings files = .ok s₀)
    (hint : ∀ n : ℕ, rt.int (toString n) = some (n : ℤ)) (hexp : ∀ x, 0 ≤ x → 0 ≤ expm1 x)
    (before xs : List Request) (hreplaces : ∀ x ∈ before ++ xs, Replaces settings x)
    (horderly : ∀ x ∈ xs, Orderly x) (req : PredictRequest) :
    let S := Process.serve settings rt log1p expm1 lgb
    let s₁ := run S.next s₀ before
    let s := run S.next s₁ xs
    let r := s.predict settings expm1 lgb req
    ∃ k m, OnFile settings s₁ k ∧
      (S.log s₁ xs).filterMap trained = (List.range' (k + 1) m).map (fun i : ℕ => versionOf i) ∧
      OnFile settings s (k + m) ∧ (1 ≤ m → Serves settings (k + m) s) ∧
      (r.bootstrap = true → r.modelVersion = "bootstrap" ∧
        r.predSeconds ≤ settings.bootstrapFloorSeconds ∧
        ∀ model, s.holder = some model → model.nTrain < settings.minTrainSamples) ∧
      (r.bootstrap = false → 0 ≤ r.predSeconds ∧ r.predSeconds ≤ 24 * 3600 ∧ r.modelVersion =
        (Service.lastWrite trained (S.log s₀ (before ++ xs))).getD s₀.modelVersion) := by
  intro S s₁ s r
  obtain ⟨hbefore, hxs⟩ := List.forall_mem_append.mp hreplaces
  obtain ⟨k, hk⟩ := run_onFile log1p expm1 lgb hint before hbefore (start_onFile hfile hstart)
  obtain ⟨m, hlog, honFile, hserves⟩ := log_orderly log1p expm1 lgb hint xs hxs horderly hk
  have hlast := Service.lastWritten (S := S) Process.modelVersion trained serve_modelVersion s₀
    (before ++ xs)
  have happend : run S.next s₀ (before ++ xs) = s := List.foldl_append
  rw [happend] at hlast
  refine ⟨k, m, hk, hlog, honFile, fun hm => hserves (.inl hm), ?_, ?_⟩
  · intro hbootstrap
    rcases predict_cases settings expm1 lgb s req with ⟨model, -, hr⟩ | ⟨hr, hfew⟩
    · rw [show r = _ from hr] at hbootstrap
      cases hbootstrap
    · rw [show r = _ from hr]
      exact ⟨rfl, min_le_right _ _, hfew⟩
  · intro hbootstrap
    rcases predict_cases settings expm1 lgb s req with ⟨model, hmodel, hr⟩ | ⟨hr, -⟩
    · rw [show r = _ from hr]
      obtain ⟨hlow, hhigh⟩ := predict_within hexp model req
      have hversion : s.modelVersion = model.modelVersion := by
        unfold Process.modelVersion
        rw [hmodel]
      exact ⟨hlow, hhigh, hversion.symm.trans hlast⟩
    · rw [show r = _ from hr] at hbootstrap
      cases hbootstrap

end Serve

/-- A runtime that reads the digits of a number. -/
def digitRuntime : Runtime where
  repr _ := ""
  int s := if s.toList.all Char.isDigit then some (Nat.ofDigitChars 10 s.toList 0 : ℕ) else none
  float _ := none
  loads _ := .error .jsonDecodeError

theorem digitRuntime_int (n : ℕ) : digitRuntime.int (toString n) = some (n : ℤ) := by
  have hdigits : (toString n).toList.all Char.isDigit = true :=
    List.all_eq_true.mpr fun _ => isDigit_of_mem_toString
  show (if _ then _ else _) = _
  rw [if_pos hdigits, Nat.toString_eq_repr, Nat.toList_repr, Nat.ofDigitChars_ten_toDigits]

/-- A library that fits nothing. -/
def zeroBooster : Booster Unit ℚ := ⟨fun _ _ => .ok (), fun _ _ => 0⟩

def oneMinute : JobDict where
  gpuCount := some 1
  submitTs := some (.fin 0)
  runtime := some 60

/-- A training on a hundred jobs. -/
def hundredJobs (disk : Disk) : Request :=
  .retrain { trace := .ok (List.replicate 100 oneMinute), tracePath := "trace.json", disk := disk }

/-- The disk is full once the file was opened. -/
def fullDisk : Disk where
  dump := some (.other "OSError")

/-- A training without a trace, and one whose directory cannot be made. -/
def failedTrainings : List Request :=
  [.retrain { trace := .error (.other "FileNotFoundError"), tracePath := "none.json" },
    hundredJobs { makedirs := some (.other "PermissionError") }]

theorem versions_in_order_fullDisk :
    let before := [hundredJobs {}, hundredJobs fullDisk]
    let xs := .predict {} :: hundredJobs {} :: failedTrainings ++ [hundredJobs {}]
    let S := Process.serve {} digitRuntime (id : ℚ → ℚ) id zeroBooster
    let s₀ : Process Unit ℚ := ⟨none, []⟩
    let s₁ := run S.next s₀ before
    let s := run S.next s₁ xs
    let r := s.predict {} id zeroBooster {}
    (Numbered s₀.files "/models/predictor.pkl" 0 ∧ Process.start {} s₀.files = .ok s₀ ∧
      (∀ n : ℕ, digitRuntime.int (toString n) = some (n : ℤ)) ∧ (∀ x : ℚ, 0 ≤ x → 0 ≤ id x) ∧
      (∀ x ∈ before ++ xs, Replaces {} x) ∧ ∀ x ∈ xs, Orderly x) ∧
    ∃ k m, OnFile {} s₁ k ∧
      (S.log s₁ xs).filterMap trained = (List.range' (k + 1) m).map (fun i : ℕ => versionOf i) ∧
      OnFile {} s (k + m) ∧ (1 ≤ m → Serves {} (k + m) s) ∧
      (r.bootstrap = true → r.modelVersion = "bootstrap" ∧ r.predSeconds ≤ 4 * 3600 ∧
        ∀ model, s.holder = some model → model.nTrain < (100 : ℤ)) ∧
      (r.bootstrap = false → 0 ≤ r.predSeconds ∧ r.predSeconds ≤ 24 * 3600 ∧ r.modelVersion =
        (Service.lastWrite trained (S.log s₀ (before ++ xs))).getD s₀.modelVersion) := by
  intro before xs S s₀ s₁ s r
  have hreplaces : ∀ x ∈ before ++ xs, Replaces {} x := by
    simp only [before, xs, failedTrainings, hundredJobs, List.cons_append, List.nil_append,
      List.forall_mem_cons, List.not_mem_nil, false_imp_iff, implies_true, and_true]
    refine ⟨?_, ?_, ?_, ?_, ?_, ?_, ?_⟩ <;> rintro req ⟨⟩ <;> exact ⟨rfl, rfl⟩
  have horderly : ∀ x ∈ xs, Orderly x := by
    simp only [xs, failedTrainings, hundredJobs, List.cons_append, List.nil_append,
      List.forall_mem_cons, List.not_mem_nil, false_imp_iff, implies_true, and_true]
    refine ⟨?_, ?_, ?_, ?_, ?_⟩ <;> rintro req ⟨⟩ <;> rfl
  exact ⟨⟨rfl, rfl, digitRuntime_int, fun x h => h, hreplaces, horderly⟩,
    versions_in_order {} digitRuntime id id zeroBooster [] s₀ 0 rfl rfl digitRuntime_int
      (fun x h => h) before xs hreplaces horderly {}⟩

end Kelpflux.Proof.Predictor
