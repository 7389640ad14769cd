import Kelpflux.Framework.Shell
import Kelpflux.Impl.Scheduler.Curl

/-!
# What the shell reads of the plugin's requests

Whatever a job description holds, the shell reads the body of a request as the one
argument after `-d`, and then goes on with the URL, between two words
(`PassesBody`): `body_one_argument`.
-/

namespace Kelpflux.Proof.Scheduler

open Framework Framework.Shell Impl.Scheduler.Curl
open Framework.Lua (addQuoted fixed format format_conv format_lit format_prec quotedChar)

/-- What the plugin quotes, the shell reads back. -/
theorem readsAs_shellQuote (s : List Char) : ReadsAs (shellQuote s) s := readsAs_singleQuoted s

/-! ## Constant texts -/

/-- The digits, the sign and the point of a decimal. -/
theorem mem_fixed {prec : ℕ} {x : ℚ} {c : Char} (hc : c ∈ fixed prec x) :
    c.isDigit = true ∨ c = '-' ∨ c = '.' := by
  have hdigits : ∀ n, c ∈ Nat.toDigits 10 n → c.isDigit = true :=
    fun n h => Nat.isDigit_of_mem_toDigits (by decide) (by decide) h
  unfold fixed at hc
  simp only [List.mem_append] at hc
  rcases hc with hsign | hwhole | hfrac
  · split at hsign
    · exact .inr (.inl (List.mem_singleton.mp hsign))
    · cases hsign
  · exact .inl (hdigits _ hwhole)
  · split at hfrac
    · cases hfrac
    · rcases List.mem_cons.mp hfrac with rfl | hfrac
      · exact .inr (.inr rfl)
      · rcases List.mem_append.mp hfrac with hpad | hfrac
        · rw [List.eq_of_mem_replicate hpad]
          exact .inl rfl
        · exact .inl (hdigits _ hfrac)

theorem isPlain_of_isDigit {c : Char} (hc : c.isDigit = true) : isPlain c = true := by
  have hne : ∀ x : Char, x.isDigit = false → c ≠ x := by
    rintro x hx rfl
    exact absurd hc (by rw [hx]; exact Bool.false_ne_true)
  have hspecial : isSpecial c = false := by
    refine Bool.eq_false_iff.mpr fun h => ?_
    have hdigits : (specials.all fun x => !x.isDigit) = true := rfl
    have := List.all_eq_true.mp hdigits c (List.contains_iff_mem.mp h)
    rw [hc] at this
    exact Bool.false_ne_true this
  have hblank : isBlank c = false := by
    simp [isBlank, hne ' ' (by decide), hne '\t' (by decide)]
  simp [isPlain, hblank, hspecial, hne '\\' (by decide), hne Shell.apostrophe (by decide),
    hne quote (by decide)]

theorem fixed_ne_nil (prec : ℕ) (x : ℚ) : fixed prec x ≠ [] := by
  unfold fixed
  simp [Nat.toDigits_ne_nil]

/-- A decimal is read as it stands. -/
theorem readsAs_fixed (prec : ℕ) (x : ℚ) : ReadsAs (fixed prec x) (fixed prec x) := by
  refine readsAs_plain (fixed_ne_nil prec x) fun c hc => ?_
  rcases mem_fixed hc with hdigit | rfl | rfl
  · exact isPlain_of_isDigit hdigit
  · decide
  · decide

/-- A word of letters and dashes is read as it stands. -/
theorem readsAs_word {w : String} (hw : (w.toList ≠ [] && w.toList.all isPlain) = true) :
    ReadsAs w.toList w.toList := by
  simp only [Bool.and_eq_true, decide_eq_true_eq] at hw
  exact readsAs_plain hw.1 (List.all_eq_true.mp hw.2)

/-! ## The command lines -/

/-- What follows the body in a command line. -/
def afterBody (url : List Char) : List Char := addQuoted url ++ " 2>/dev/null".toList

/-- A character that `%q` writes as the shell reads it back. -/
def urlChar (c : Char) : Bool :=
  c ≠ '$' && c ≠ backtick && c ≠ '\n' && c ≠ '\r' && c ≠ '\x00'

/-- The shell reads the body as one argument, after `args` and `-d`, and is between two
words where the URL comes. The URL is the last argument, if the shell reads it as it is
written; the errors go where the command line says. -/
structure PassesBody (cmd : List Char) (args : List (List Char)) (body url : List Char) : Prop where
  argument : ∃ pre, cmd = pre ++ afterBody url ∧
    Shell.run (.between []) pre = some (.between (args ++ ["-d".toList, body]))
  whole : (∀ c ∈ url, urlChar c = true) → ∃ pre, cmd = pre ++ ">/dev/null".toList ∧
    Shell.run (.between []) pre = some ⟨args ++ ["-d".toList, body, url], some "2".toList, .plain⟩

theorem addQuoted_eq {url : List Char} (hurl : ∀ c ∈ url, urlChar c = true) :
    addQuoted url = doubleQuoted url := by
  unfold addQuoted doubleQuoted
  congr 2
  refine List.flatMap_congr fun c hc => ?_
  have hchar := hurl c hc
  simp only [urlChar, Bool.and_eq_true, decide_eq_true_eq] at hchar
  obtain ⟨⟨⟨⟨-, -⟩, hnewline⟩, hreturn⟩, hnul⟩ := hchar
  unfold quotedChar
  simp only [hnewline, hreturn, hnul, or_false, if_false]
  rfl

/-- A command line that has `-d`, the body and the URL after what is read as `args`. -/
theorem passesBody_of_run {pre body url : List Char} {args : List (List Char)}
    (hpre : Shell.run (.between []) pre = some (.between args)) :
    PassesBody (pre ++ (line ["-d".toList, shellQuote body] ++ afterBody url)) args body url := by
  have hbody : Shell.run (.between []) (pre ++ line ["-d".toList, shellQuote body]) =
      some (.between (args ++ ["-d".toList, body])) := by
    have hlast : ∀ a ∈ [("-d".toList, "-d".toList), (shellQuote body, body)], ReadsAs a.1 a.2 := by
      simp only [List.forall_mem_cons]
      exact ⟨readsAs_word rfl, readsAs_shellQuote body, nofun⟩
    rw [Shell.run_append, hpre, Option.bind_some]
    exact Shell.run_line hlast args
  constructor
  · exact ⟨_, (List.append_assoc _ _ _).symm, hbody⟩
  · intro hurl
    have hlit : ∀ c ∈ url, isLiteral c = true := by
      intro c hc
      have hchar := hurl c hc
      simp only [urlChar, Bool.and_eq_true] at hchar
      unfold isLiteral
      rw [hchar.1.1.1.1, hchar.1.1.1.2, hchar.1.1.2]
      rfl
    refine ⟨pre ++ line ["-d".toList, shellQuote body] ++ (addQuoted url ++ " 2".toList), ?_, ?_⟩
    · unfold afterBody
      rw [show " 2>/dev/null".toList = " 2".toList ++ ">/dev/null".toList from rfl]
      simp only [List.append_assoc]
    · rw [Shell.run_append, hbody, Option.bind_some, addQuoted_eq hurl, Shell.run_append,
        readsAs_doubleQuoted hlit _ rfl, Option.bind_some]
      show some (State.mk ((args ++ ["-d".toList, body]) ++ [[] ++ url]) _ _) = _
      rw [List.append_assoc]
      rfl

/-- The words of both command lines up to the headers, as they are written and as they
are read. -/
def curlWords (timeoutS : ℚ) : List (List Char × List Char) :=
  [("curl".toList, "curl".toList), ("-fsS".toList, "-fsS".toList),
   ("--max-time".toList, "--max-time".toList), (fixed 3 timeoutS, fixed 3 timeoutS),
   ("-X".toList, "-X".toList), ("POST".toList, "POST".toList), ("-H".toList, "-H".toList),
   (singleQuoted "Content-Type: application/json".toList, "Content-Type: application/json".toList)]

/-- The header with the token, if there is one. -/
def tokenWords (rl : RlConfig) : List (List Char × List Char) :=
  if token rl ≠ [] then
    [("-H".toList, "-H".toList),
     (shellQuote ("Authorization: Bearer ".toList ++ token rl),
      "Authorization: Bearer ".toList ++ token rl)]
  else []

theorem readsAs_curlWords (timeoutS : ℚ) : ∀ a ∈ curlWords timeoutS, ReadsAs a.1 a.2 := by
  unfold curlWords
  simp only [List.forall_mem_cons]
  exact ⟨readsAs_word rfl, readsAs_word rfl, readsAs_word rfl, readsAs_fixed 3 timeoutS,
    readsAs_word rfl, readsAs_word rfl, readsAs_word rfl, readsAs_singleQuoted _, nofun⟩

theorem readsAs_tokenWords (rl : RlConfig) : ∀ a ∈ tokenWords rl, ReadsAs a.1 a.2 := by
  unfold tokenWords
  split
  · simp only [List.forall_mem_cons]
    exact ⟨readsAs_word rfl, readsAs_shellQuote _, nofun⟩
  · exact nofun

/-! What the formats give. -/

theorem predictBody_some (pred : PredConfig) (jobDesc : JobDesc) :
    ∃ body, buildPredictBody pred jobDesc = some body := by
  have hfmt : "\x7b\"user\":\"%s\",\"partition\":\"%s\",\"gpu_count\":%d,\"mps_req\":%d,".toList ++
      "\"gpu_type\":\"%s\",\"user_time_limit_seconds\":%d\x7d".toList =
      "\x7b\"user\":\"".toList ++ '%' :: 's' :: ("\",\"partition\":\"".toList ++ '%' :: 's' ::
        ("\",\"gpu_count\":".toList ++ '%' :: 'd' :: (",\"mps_req\":".toList ++ '%' :: 'd' ::
          (",\"gpu_type\":\"".toList ++ '%' :: 's' ::
            ("\",\"user_time_limit_seconds\":".toList ++ '%' :: 'd' :: (['\x7d'] ++ [])))))) := by
    decide +kernel
  unfold buildPredictBody
  dsimp only
  rw [hfmt, format_conv (by decide) (by decide) rfl, format_conv (by decide) (by decide) rfl,
    format_conv (by decide) (by decide) rfl, format_conv (by decide) (by decide) rfl,
    format_conv (by decide) (by decide) rfl, format_conv (by decide) (by decide) rfl,
    format_lit (by decide)]
  exact ⟨_, rfl⟩

theorem decideBody_some (jobDesc : JobDesc) (mpsReq gpuCount : Option ℤ) (runtimeS : Option ℚ)
    (now : ℤ) : ∃ body, buildBody jobDesc mpsReq gpuCount runtimeS now = some body := by
  have hfmt : "\x7b\"job_id\":\"%s\",\"mps_req\":%d,\"gpu_count\":%d,\"gpu_type\":\"%s\",".toList ++
      "\"runtime\":%.1f,\"submit_ts\":%d\x7d".toList =
      "\x7b\"job_id\":\"".toList ++ '%' :: 's' :: ("\",\"mps_req\":".toList ++ '%' :: 'd' ::
        (",\"gpu_count\":".toList ++ '%' :: 'd' :: (",\"gpu_type\":\"".toList ++ '%' :: 's' ::
          ("\",\"runtime\":".toList ++ '%' :: '.' :: '1' :: 'f' ::
            (",\"submit_ts\":".toList ++ '%' :: 'd' :: (['\x7d'] ++ [])))))) := by
    decide +kernel
  unfold buildBody
  dsimp only
  rw [hfmt, format_conv (by decide) (by decide) rfl, format_conv (by decide) (by decide) rfl,
    format_conv (by decide) (by decide) rfl, format_conv (by decide) (by decide) rfl,
    format_prec (by decide) rfl, format_conv (by decide) (by decide) rfl, format_lit (by decide)]
  exact ⟨_, rfl⟩

theorem predictorCommand_eq {pred : PredConfig} {jobDesc : JobDesc} {body : List Char}
    (hbody : buildPredictBody pred jobDesc = some body) :
    predictorCommand pred jobDesc = some (line ((curlWords pred.timeoutS).map Prod.fst) ++
      (line ["-d".toList, shellQuote body] ++ afterBody pred.url)) := by
  have hfmt : "curl -fsS --max-time %.3f -X POST -H 'Content-Type: application/json' -d %s %q ".toList ++
      "2>/dev/null".toList =
      line ["curl".toList, "-fsS".toList, "--max-time".toList] ++ '%' :: '.' :: '3' :: 'f' ::
        (' ' :: line ["-X".toList, "POST".toList, "-H".toList,
            singleQuoted "Content-Type: application/json".toList, "-d".toList] ++
          '%' :: 's' :: ([' '] ++ '%' :: 'q' :: (" 2>/dev/null".toList ++ []))) := by
    decide +kernel
  unfold predictorCommand
  rw [hbody, Option.bind_eq_bind, Option.bind_some]
  dsimp only
  rw [hfmt, format_prec (by decide) rfl, format_conv (by decide) (by decide) rfl,
    format_conv (by decide) (by decide) rfl, format_lit (by decide)]
  simp [format, line, curlWords, afterBody]

theorem decideCommand_eq {rl : RlConfig} {jobDesc : JobDesc} {mpsReq gpuCount : Option ℤ}
    {runtimeS : Option ℚ} {now : ℤ} {body : List Char}
    (hbody : buildBody jobDesc mpsReq gpuCount runtimeS now = some body) :
    decideCommand rl jobDesc mpsReq gpuCount runtimeS now =
      some (line ((curlWords (rl.timeoutS.getD (toDouble (3 / 20)))).map Prod.fst) ++
        (' ' :: line ((tokenWords rl).map Prod.fst) ++
          (line ["-d".toList, shellQuote body] ++ afterBody (rl.url.getD [])))) := by
  have hfmt : "curl -fsS --max-time %.3f -X POST -H 'Content-Type: application/json' ".toList ++
      "%s -d %s %q 2>/dev/null".toList =
      line ["curl".toList, "-fsS".toList, "--max-time".toList] ++ '%' :: '.' :: '3' :: 'f' ::
        (' ' :: line ["-X".toList, "POST".toList, "-H".toList,
            singleQuoted "Content-Type: application/json".toList] ++
          '%' :: 's' :: (" -d ".toList ++ '%' :: 's' :: ([' '] ++
            '%' :: 'q' :: (" 2>/dev/null".toList ++ [])))) := by
    decide +kernel
  have hheader : authHeader rl ++ [' '] = ' ' :: line ((tokenWords rl).map Prod.fst) := by
    unfold authHeader tokenWords
    split
    · simp [line]
    · rfl
  unfold decideCommand
  rw [hbody, Option.bind_eq_bind, Option.bind_some]
  dsimp only
  rw [hfmt, format_prec (by decide) rfl, format_conv (by decide) (by decide) rfl,
    format_conv (by decide) (by decide) rfl, format_conv (by decide) (by decide) rfl,
    format_lit (by decide), ← hheader]
  simp [format, line, curlWords, afterBody]

/-- Of whatever a job description holds, the shell reads the body of either request as
one argument. -/
theorem body_one_argument (pred : PredConfig) (rl : RlConfig) (jobDesc : JobDesc)
    (mpsReq gpuCount : Option ℤ) (runtimeS : Option ℚ) (now : ℤ) :
    (∃ body cmd, buildPredictBody pred jobDesc = some body ∧
      predictorCommand pred jobDesc = some cmd ∧
      PassesBody cmd ((curlWords pred.timeoutS).map Prod.snd) body pred.url) ∧
    (∃ body cmd, buildBody jobDesc mpsReq gpuCount runtimeS now = some body ∧
      decideCommand rl jobDesc mpsReq gpuCount runtimeS now = some cmd ∧
      PassesBody cmd ((curlWords (rl.timeoutS.getD (toDouble (3 / 20))) ++ tokenWords rl).map Prod.snd)
        body (rl.url.getD [])) := by
  constructor
  · obtain ⟨body, hbody⟩ := predictBody_some pred jobDesc
    exact ⟨body, _, hbody, predictorCommand_eq hbody,
      passesBody_of_run (Shell.run_line (readsAs_curlWords _) [])⟩
  · obtain ⟨body, hbody⟩ := decideBody_some jobDesc mpsReq gpuCount runtimeS now
    refine ⟨body, _, hbody, decideCommand_eq hbody, ?_⟩
    rw [← List.append_assoc, List.map_append]
    refine passesBody_of_run ?_
    rw [Shell.run_append, Shell.run_line (readsAs_curlWords _), Option.bind_some, List.nil_append,
      ← List.singleton_append, Shell.run_append, Shell.run_blank, Option.bind_some]
    exact Shell.run_line (readsAs_tokenWords rl) _

end Kelpflux.Proof.Scheduler
