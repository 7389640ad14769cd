import Kelpflux.Impl.Scheduler.Placement

/-!
# Rules for the clients' calls
-/

namespace Kelpflux.Proof.Scheduler

open Framework Framework.Python Impl.Scheduler

section WP

variable {σ : Type} {env : ClientEnv} {s : ClientState σ}

@[simp] theorem wp_time {Q : Except Exc ℚ → ClientState σ → Prop} :
    WP env time s Q ↔ Q (env s.trace.length Call.time)
      ⟨s.mem, s.trace ++ [⟨Call.time, env s.trace.length Call.time⟩]⟩ := Iff.rfl

@[simp] theorem wp_monotonic {Q : Except Exc ℚ → ClientState σ → Prop} :
    WP env monotonic s Q ↔ Q (env s.trace.length Call.monotonic)
      ⟨s.mem, s.trace ++ [⟨Call.monotonic, env s.trace.length Call.monotonic⟩]⟩ := Iff.rfl

@[simp] theorem wp_getJobs {Q : Except Exc Json → ClientState σ → Prop} :
    WP env getJobs s Q ↔ Q (env s.trace.length Call.getJobs)
      ⟨s.mem, s.trace ++ [⟨Call.getJobs, env s.trace.length Call.getJobs⟩]⟩ := Iff.rfl

@[simp] theorem wp_updateJob {jobId : String} {body : JobUpdate}
    {Q : Except Exc Json → ClientState σ → Prop} :
    WP env (updateJob jobId body) s Q ↔ Q (env s.trace.length (Call.updateJob jobId body))
      ⟨s.mem, s.trace ++ [⟨Call.updateJob jobId body,
        env s.trace.length (Call.updateJob jobId body)⟩]⟩ := Iff.rfl

@[simp] theorem wp_postAct {payload : ActPayload} {Q : Except Exc Json → ClientState σ → Prop} :
    WP env (postAct payload) s Q ↔ Q (env s.trace.length (Call.act payload))
      ⟨s.mem, s.trace ++ [⟨Call.act payload, env s.trace.length (Call.act payload)⟩]⟩ := Iff.rfl

end WP

/-- The clocks can be read. -/
def ClocksAnswer (env : ClientEnv) : Prop :=
  ∀ n, (∃ t : ℚ, env n Call.monotonic = .ok t) ∧ ∃ t : ℚ, env n Call.time = .ok t

/-- An interpreter that knows the empty object and plain integers. -/
def plainRuntime : Runtime where
  repr _ := ""
  int s := s.toInt?
  float s := s.toInt?.map fun n => .fin n
  loads s := if s = "\x7b\x7d" then .ok (.obj []) else .error .jsonDecodeError

/-- The clocks stand at 0, and every request has its reply. -/
def replyEnv (reply : Nat → Call → Except Exc Json) : ClientEnv := fun n c =>
  match c with
  | .time => .ok (0 : ℚ)
  | .monotonic => .ok (0 : ℚ)
  | .getJobs => reply n .getJobs
  | .getNodes => reply n .getNodes
  | .updateJob jobId body => reply n (.updateJob jobId body)
  | .act payload => reply n (.act payload)
  | .healthz => reply n .healthz

theorem replyEnv_clocks (reply : Nat → Call → Except Exc Json) : ClocksAnswer (replyEnv reply) :=
  fun _ => ⟨⟨0, rfl⟩, 0, rfl⟩

end Kelpflux.Proof.Scheduler
