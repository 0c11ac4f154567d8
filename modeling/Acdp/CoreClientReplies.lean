import Acdp.CoreClient

/-!
# What a call of the client returns

A call returns the reply of the first attempt that gets one through: the
transport answers, and the interceptors let the answer through, perhaps
replaced by another response.  A reply that the interceptors block is never
what the call returns.
-/

namespace Acdp
namespace Core

open Json

namespace McpClient
namespace Call

variable (call : Call)

/-- The transport answers the attempt with `reply`, and the interceptors let
it through. -/
structure Released (attempt : ℕ) (reply : JsonRpcResponse)
    (incoming : InterceptionResult) : Prop where
  answered : ∃ outgoing,
    interceptOutgoing call.metadata (call.attempts attempt) call.request =
        .ok outgoing ∧
      outgoing.block = false ∧
      (call.attempts attempt).transport (finalRequest outgoing call.request)
        call.timeout = .ok reply
  intercepted : interceptIncoming call.metadata (call.attempts attempt) reply =
    .ok incoming
  unblocked : incoming.block = false

/-- What a call with so many retries returns: `reply` is the first one that
is let through, by the interceptors as `incoming`. -/
def Returns (retries : ℕ) (reply : JsonRpcResponse)
    (incoming : InterceptionResult) : Prop :=
  ∃ attempt, attempt ≤ retries ∧
    (∀ earlier, earlier < attempt → call.Continues earlier) ∧
    call.Released attempt reply incoming

variable {call}

theorem sent_eq_ok_iff {attempt : ℕ} {response : JsonRpcResponse} :
    (call.sent attempt).result = .ok response ↔
      ∃ reply incoming, call.Released attempt reply incoming ∧
        finalResponse incoming reply = response := by
  obtain ⟨outgoing, houtgoing⟩ : ∃ outgoing,
      interceptOutgoing call.metadata (call.attempts attempt) call.request =
        .ok outgoing :=
    (call.attempts attempt).outgoing.processMessage_isOk _ _ _ _ _
  constructor
  · intro hresult
    simp only [sent, sendSingleRequest, houtgoing] at hresult
    by_cases hblock : outgoing.block = true
    · simp [hblock] at hresult
    · rw [if_neg hblock] at hresult
      cases htransport : (call.attempts attempt).transport
          (finalRequest outgoing call.request) call.timeout with
      | error e => simp [htransport] at hresult
      | ok reply =>
          simp only [htransport, receive] at hresult
          cases hincoming : interceptIncoming call.metadata
              (call.attempts attempt) reply with
          | error e => simp [hincoming] at hresult
          | ok incoming =>
              simp only [hincoming] at hresult
              by_cases hwithheld : incoming.block = true
              · simp [hwithheld] at hresult
              · rw [if_neg hwithheld, Except.ok.injEq] at hresult
                exact ⟨reply, incoming,
                  ⟨⟨outgoing, houtgoing, Bool.eq_false_iff.mpr hblock,
                    htransport⟩, hincoming, Bool.eq_false_iff.mpr hwithheld⟩,
                  hresult⟩
  · rintro ⟨reply, incoming, hreleased, hresponse⟩
    obtain ⟨passed, hpassed, hblock, htransport⟩ := hreleased.answered
    simp [sent, sendSingleRequest, receive, hpassed, hblock, htransport,
      hreleased.intercepted, hreleased.unblocked, hresponse]

theorem not_failed_of_ok {attempt : ℕ} {response : JsonRpcResponse}
    (hresult : (call.sent attempt).result = .ok response) :
    ¬ call.Failed attempt := by
  intro hfailed
  obtain ⟨e, herror⟩ := (call.attemptSpec attempt).failed.mp hfailed
  rw [hresult] at herror
  cases herror

theorem failed_of_error {attempt : ℕ} {e : McpError}
    (hresult : (call.sent attempt).result = .error e) :
    call.Failed attempt :=
  (call.attemptSpec attempt).failed.mpr ⟨e, hresult⟩

theorem retry_eq_ok_iff {remaining attempt : ℕ} {stats : ClientStats}
    {response : JsonRpcResponse} :
    (call.retry remaining attempt stats).result = some (.ok response) ↔
      ∃ later, later ≤ remaining ∧
        (∀ earlier, earlier < later → call.Continues (attempt + earlier)) ∧
        (call.sent (attempt + later)).result = .ok response := by
  induction remaining generalizing attempt stats with
  | zero =>
      rw [retry]
      cases hresult : (call.sent attempt).result with
      | ok found =>
          simp only [Option.some.injEq, Except.ok.injEq, Nat.le_zero]
          constructor
          · intro hfound
            refine ⟨0, rfl, fun earlier hlt => absurd hlt (Nat.not_lt_zero _), ?_⟩
            rw [Nat.add_zero, hresult, hfound]
          · rintro ⟨later, hlater, _, hfound⟩
            rw [hlater, Nat.add_zero, hresult, Except.ok.injEq] at hfound
            exact hfound
      | error e =>
          simp only [Option.some.injEq, reduceCtorEq, Nat.le_zero, false_iff]
          rintro ⟨later, hlater, _, hfound⟩
          rw [hlater, Nat.add_zero, hresult] at hfound
          cases hfound
  | succ remaining ih =>
      rw [retry]
      cases hresult : (call.sent attempt).result with
      | ok found =>
          simp only [Option.some.injEq, Except.ok.injEq]
          constructor
          · intro hfound
            refine ⟨0, Nat.zero_le _,
              fun earlier hlt => absurd hlt (Nat.not_lt_zero _), ?_⟩
            rw [Nat.add_zero, hresult, hfound]
          · rintro ⟨later, _, hcontinues, hfound⟩
            cases later with
            | zero =>
                rw [Nat.add_zero, hresult, Except.ok.injEq] at hfound
                exact hfound
            | succ later =>
                have hfirst := hcontinues 0 (Nat.succ_pos later)
                exact absurd hfirst.1 (not_failed_of_ok hresult)
      | error e =>
          cases hdelay : call.retryDelay attempt with
          | none =>
              simp only [reduceCtorEq, false_iff]
              rintro ⟨later, _, hcontinues, hfound⟩
              cases later with
              | zero =>
                  rw [Nat.add_zero, hresult] at hfound
                  cases hfound
              | succ later =>
                  have hfirst := (hcontinues 0 (Nat.succ_pos later)).2
                  rw [Nat.add_zero, hdelay] at hfirst
                  cases hfirst
          | some delay =>
              simp only
              rw [ih]
              have hcontinues : call.Continues attempt :=
                ⟨failed_of_error hresult, by rw [hdelay]; rfl⟩
              constructor
              · rintro ⟨later, hle, hbefore, hfound⟩
                refine ⟨later + 1, Nat.succ_le_succ hle, ?_, ?_⟩
                · intro earlier hlt
                  cases earlier with
                  | zero => exact hcontinues
                  | succ earlier =>
                      have hmade := hbefore earlier (Nat.lt_of_succ_lt_succ hlt)
                      rwa [Nat.add_right_comm] at hmade
                · rwa [Nat.add_right_comm] at hfound
              · rintro ⟨later, hle, hbefore, hfound⟩
                cases later with
                | zero =>
                    rw [Nat.add_zero, hresult] at hfound
                    cases hfound
                | succ later =>
                    refine ⟨later, Nat.le_of_succ_le_succ hle, ?_, ?_⟩
                    · intro earlier hlt
                      have hmade := hbefore (earlier + 1)
                        (Nat.succ_lt_succ hlt)
                      rwa [← Nat.add_assoc, Nat.add_right_comm] at hmade
                    · rwa [← Nat.add_assoc, Nat.add_right_comm] at hfound

theorem retry_returns_iff {retries : ℕ} (stats : ClientStats)
    {response : JsonRpcResponse} :
    (call.retry retries 0 stats).result = some (.ok response) ↔
      ∃ reply incoming, call.Returns retries reply incoming ∧
        finalResponse incoming reply = response := by
  rw [retry_eq_ok_iff]
  simp only [Nat.zero_add]
  constructor
  · rintro ⟨attempt, hle, hbefore, hfound⟩
    obtain ⟨reply, incoming, hreleased, hresponse⟩ := sent_eq_ok_iff.mp hfound
    exact ⟨reply, incoming, ⟨attempt, hle, hbefore, hreleased⟩, hresponse⟩
  · rintro ⟨reply, incoming, ⟨attempt, hle, hbefore, hreleased⟩, hresponse⟩
    exact ⟨attempt, hle, hbefore,
      sent_eq_ok_iff.mpr ⟨reply, incoming, hreleased, hresponse⟩⟩

end Call

theorem sendRequest_eq_ok_iff {overflowChecks : Bool} {client : McpClient}
    {attempts : ℕ → Attempt} {method : String} {params : OrderedValue}
    {response : JsonRpcResponse} :
    (client.sendRequest overflowChecks attempts method (.ok params)).1.result =
        some (.ok response) ↔
      client.state = .ready ∧ ∃ reply incoming,
        (client.callFor overflowChecks attempts method params).Returns
            client.config.maxRetries.toNat reply incoming ∧
          finalResponse incoming reply = response := by
  unfold sendRequest
  by_cases hready : client.state = .ready
  · rw [if_pos hready, ← Call.retry_returns_iff client.stats]
    simp only [hready, true_and]
    rfl
  · rw [if_neg hready]
    simp [hready]

end McpClient
end Core
end Acdp
