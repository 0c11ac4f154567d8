import Acdp.CoreClientReplies

/-!
# Which interceptors a message runs

An interceptor runs on a message exactly when it accepts the context that the
loop shows it, and the loop gets to it.  The passes that one call of the
client makes are those that its events record.
-/

namespace Acdp
namespace Core

open Auth (DateTime)

namespace InterceptorManager

/-- The answers of the interceptors that the loop gets to. -/
def Pass.selections : List MessageInterceptor → Pass → List Bool
  | [], _ => []
  | interceptor :: rest, self =>
      if interceptor.shouldIntercept self.context then
        let self := self.withCurrentContext
        match interceptor.intercept self.context with
        | .ok result =>
            if result.block then [true]
            else true :: selections rest (self.absorb result)
        | .error _ => true :: selections rest self
      else false :: selections rest self

theorem Pass.isSome_runs (interceptors : List MessageInterceptor)
    (self : Pass) :
    (self.run interceptors).runs.map Option.isSome =
      selections interceptors self := by
  induction interceptors generalizing self with
  | nil => rfl
  | cons interceptor rest ih =>
      rw [run, selections]
      by_cases hselected : interceptor.shouldIntercept self.context = true
      · simp only [if_pos hselected]
        cases interceptor.intercept self.withCurrentContext.context with
        | error e =>
            rw [Passage.runs_record, List.map_cons, ih]
            rfl
        | ok result =>
            by_cases hblock : result.block = true
            · simp only [if_pos hblock]
              rfl
            · simp only [if_neg hblock]
              rw [Passage.runs_record, List.map_cons, ih]
              rfl
      · simp only [if_neg hselected]
        rw [Passage.runs_record, List.map_cons, ih]
        rfl

end InterceptorManager

/-- A call of `process_message_with_metadata`. -/
structure InterceptorCall where
  manager : InterceptorManager
  message : JsonRpcMessage
  direction : MessageDirection
  metadata : InterceptionMetadata
  now : DateTime
  elapsedMillis : ℕ

namespace InterceptorCall

def processed (call : InterceptorCall) : InterceptorManager.Processed :=
  call.manager.processMessageWithMetadata call.message call.direction
    call.metadata call.now call.elapsedMillis

/-- Whether the interceptor at the index was run. -/
def ran (call : InterceptorCall) (index : ℕ) : Bool :=
  (call.processed.runs.map Option.isSome)[index]?.getD false

/-- Whether the interceptor at the index accepts the context it is shown. -/
def accepts (call : InterceptorCall) (index : ℕ) : Bool :=
  (InterceptorManager.Pass.selections call.manager.interceptors
    (.start (InterceptorManager.contextOf call.message call.direction
      call.metadata call.now) call.message))[index]?.getD false

theorem ran_eq_accepts (call : InterceptorCall) (index : ℕ) :
    call.ran index = call.accepts index := by
  have hruns : call.processed.runs.map Option.isSome =
      InterceptorManager.Pass.selections call.manager.interceptors
        (.start (InterceptorManager.contextOf call.message call.direction
          call.metadata call.now) call.message) := by
    rw [← InterceptorManager.Pass.isSome_runs]
    unfold processed InterceptorManager.processMessageWithMetadata
    dsimp only
    split
    · rfl
    · rfl
  rw [ran, accepts, hruns]

/-- How often the interceptor at the index was run on messages of a
direction. -/
def invocations (calls : List InterceptorCall) (direction : MessageDirection)
    (index : ℕ) : ℕ :=
  calls.countP (fun call => call.direction = direction && call.ran index)

def ExactlyOnce (calls : List InterceptorCall) (registered : ℕ) : Prop :=
  ∀ index, index < registered →
    invocations calls .outgoing index = 1 ∧
      invocations calls .incoming index = 1

end InterceptorCall

/-! ## The passes of a call of the client -/

namespace McpClient

def outgoingPass (metadata : InterceptionMetadata) (attempt : Attempt)
    (request : JsonRpcRequest) : InterceptorCall :=
  ⟨attempt.outgoing, .request request, .outgoing, metadata,
    attempt.outgoingAt, attempt.outgoingMillis⟩

def incomingPass (metadata : InterceptionMetadata) (attempt : Attempt)
    (response : JsonRpcResponse) : InterceptorCall :=
  ⟨attempt.incoming, .response response, .incoming, metadata,
    attempt.incomingAt, attempt.incomingMillis⟩

def singlePasses (metadata : InterceptionMetadata) (attempt : Attempt)
    (request : JsonRpcRequest) (timeout : Auth.Duration) :
    List InterceptorCall :=
  outgoingPass metadata attempt request ::
    match interceptOutgoing metadata attempt request with
    | .error _ => []
    | .ok interception =>
        if interception.block then []
        else
          match attempt.transport (finalRequest interception request)
              timeout with
          | .error _ => []
          | .ok response => [incomingPass metadata attempt response]

/-- What an event records of a pass. -/
def interception : Event →
    Option (JsonRpcMessage × MessageDirection × McpResult InterceptionResult)
  | .intercepted message direction result => some (message, direction, result)
  | _ => none

def record (call : InterceptorCall) :
    JsonRpcMessage × MessageDirection × McpResult InterceptionResult :=
  (call.message, call.direction, call.processed.result)

theorem record_outgoingPass (metadata : InterceptionMetadata)
    (attempt : Attempt) (request : JsonRpcRequest) :
    record (outgoingPass metadata attempt request) =
      (.request request, .outgoing,
        interceptOutgoing metadata attempt request) := rfl

theorem record_incomingPass (metadata : InterceptionMetadata)
    (attempt : Attempt) (response : JsonRpcResponse) :
    record (incomingPass metadata attempt response) =
      (.response response, .incoming,
        interceptIncoming metadata attempt response) := rfl

theorem receive_events (metadata : InterceptionMetadata) (attempt : Attempt)
    (response : JsonRpcResponse) :
    (receive metadata attempt response).events =
      [.intercepted (.response response) .incoming
        (interceptIncoming metadata attempt response)] := by
  unfold receive
  cases interceptIncoming metadata attempt response with
  | error e => rfl
  | ok result => cases hblock : result.block <;> simp [hblock]

theorem sendSingleRequest_passes (metadata : InterceptionMetadata)
    (attempt : Attempt) (request : JsonRpcRequest) (timeout : Auth.Duration) :
    (sendSingleRequest metadata attempt request timeout).events.filterMap
        interception =
      (singlePasses metadata attempt request timeout).map record := by
  unfold sendSingleRequest singlePasses
  rw [List.map_cons, record_outgoingPass]
  cases interceptOutgoing metadata attempt request with
  | error e => rfl
  | ok outgoing =>
      by_cases hblock : outgoing.block = true
      · simp only [if_pos hblock]
        rfl
      · simp only [if_neg hblock]
        cases attempt.transport (finalRequest outgoing request) timeout with
        | error e => rfl
        | ok response =>
            simp only [receive_events]
            rw [List.map_singleton, record_incomingPass]
            rfl

namespace Call

def passes (call : Call) : ℕ → ℕ → List InterceptorCall
  | remaining, attempt =>
      singlePasses call.metadata (call.attempts attempt) call.request
          call.timeout ++
        match (call.sent attempt).result with
        | .ok _ => []
        | .error _ =>
            match remaining with
            | 0 => []
            | remaining + 1 =>
                match call.retryDelay attempt with
                | none => []
                | some _ => call.passes remaining (attempt + 1)

/-- The passes of a call are those that its events record. -/
theorem retry_passes (call : Call) (remaining attempt : ℕ)
    (stats : ClientStats) :
    (call.retry remaining attempt stats).events.filterMap interception =
      (call.passes remaining attempt).map record := by
  induction remaining generalizing attempt stats with
  | zero =>
      have hsent : (call.sent attempt).events.filterMap interception = _ :=
        sendSingleRequest_passes call.metadata (call.attempts attempt)
          call.request call.timeout
      rw [retry, passes, List.map_append, ← hsent]
      cases (call.sent attempt).result with
      | ok response => simp
      | error e => simp
  | succ remaining ih =>
      have hsent : (call.sent attempt).events.filterMap interception = _ :=
        sendSingleRequest_passes call.metadata (call.attempts attempt)
          call.request call.timeout
      rw [retry, passes, List.map_append, ← hsent]
      cases (call.sent attempt).result with
      | ok response => simp
      | error e =>
          cases call.retryDelay attempt with
          | none => simp
          | some delay =>
              simp only [List.filterMap_append, List.append_cancel_left_eq]
              exact ih _ _

/-- A call that gets its answer at once makes two passes. -/
theorem passes_of_released {call : Call} {reply : JsonRpcResponse}
    {incoming : InterceptionResult} (hreleased : call.Released 0 reply incoming)
    (retries : ℕ) :
    call.passes retries 0 =
      [outgoingPass call.metadata (call.attempts 0) call.request,
        incomingPass call.metadata (call.attempts 0) reply] := by
  obtain ⟨outgoing, houtgoing, hblock, htransport⟩ := hreleased.answered
  have hresult : (call.sent 0).result = .ok (finalResponse incoming reply) :=
    sent_eq_ok_iff.mpr ⟨reply, incoming, hreleased, rfl⟩
  have hpasses : singlePasses call.metadata (call.attempts 0) call.request
      call.timeout =
        [outgoingPass call.metadata (call.attempts 0) call.request,
          incomingPass call.metadata (call.attempts 0) reply] := by
    simp [singlePasses, houtgoing, hblock, htransport]
  cases retries with
  | zero =>
      rw [passes, hresult, hpasses]
      rfl
  | succ retries =>
      rw [passes, hresult, hpasses]
      rfl

end Call
end McpClient
end Core
end Acdp
