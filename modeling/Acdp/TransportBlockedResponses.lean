import Acdp.TransportHttpServers

/-!
# Responses that the interceptors block

A result that blocks a response usually carries a placeholder of another kind.
Three of the paths back to a client give an error for such a result; the
server with a pass of its own does not look at whether the result blocks, and
takes the placeholder for a message that it may not send in place of the
response.
-/

namespace Acdp
namespace Transport

open Acdp.Core Json

namespace StdioHandler

/-- What the monitor is shown of a completion. -/
def shown (completion : TuiQueryCompletion) : String × Option String :=
  (completion.response, completion.error)

def shownOf (floats : FloatText) (response : JsonRpcResponse) :
    String × Option String :=
  shown (.fromResponse floats response 0)

/-- A response that is blocked is not written, and no query is completed with
what it says. -/
def WithholdsBlocked (json : SerdeJson) (self : StdioHandler)
    (content : String) (clock : Clock) : Prop :=
  ∀ response result, json.message (Text.trim content) =
      .ok (.response response) →
    (self.interceptMessage .incoming (.response response) clock).result =
      .ok result →
    result.block = true →
      (∃ e, (processIncoming json self content clock).result = .error e) ∧
        ∃ added, (processIncoming json self content clock).handler.completions =
            self.completions ++ added ∧
          ∀ entry ∈ added, shown entry.2 ≠ shownOf json.floats response

/-- The message of the result that blocks the response does not complete a
query with what the response says. -/
def BlockedUnseen (json : SerdeJson) (self : StdioHandler) (content : String)
    (clock : Clock) : Prop :=
  ∀ response result, json.message (Text.trim content) =
      .ok (.response response) →
    (self.interceptMessage .incoming (.response response) clock).result =
      .ok result →
    result.block = true →
      ∀ back pending, result.message = .response back →
        self.pendingQueries.lookup back.id.display = some pending →
          shownOf json.floats back ≠ shownOf json.floats response

theorem processIncoming_blocked {json : SerdeJson} {self : StdioHandler}
    {content : String} {clock : Clock} {message : JsonRpcMessage}
    {result : InterceptionResult}
    (hread : json.message (Text.trim content) = .ok message)
    (hresult : (self.interceptMessage .incoming message clock).result =
      .ok result)
    (hblock : result.block = true) :
    (processIncoming json self content clock).result =
        .error ("Message blocked: " ++ result.reasoning.getD "") ∧
      (processIncoming json self content clock).handler.completions =
        self.completions ++ captured json.floats clock self result.message := by
  constructor
  · simp [processIncoming, processLine, hread, hresult, deliver, hblock]
  · obtain ⟨manager, tools, hhandler⟩ :=
      processIncoming_handler json self content clock
    have hheard : self.heard json content clock = some result.message := by
      simp [heard, hread, hresult, Except.toOption]
    rw [hhandler]
    simp [hheard]

theorem forall_mem_captured_iff {floats : FloatText} {clock : Clock}
    {self : StdioHandler} {message : JsonRpcMessage}
    {seen : String × Option String} :
    (∀ entry ∈ captured floats clock self message, shown entry.2 ≠ seen) ↔
      ∀ back pending, message = .response back →
        self.pendingQueries.lookup back.id.display = some pending →
          shownOf floats back ≠ seen := by
  cases message with
  | request request => simp [captured]
  | notification notification => simp [captured]
  | response response =>
      cases hlookup : self.pendingQueries.lookup response.id.display with
      | none =>
          simp only [captured, hlookup]
          constructor
          · intro _ back pending hback hfound
            cases hback
            rw [hlookup] at hfound
            cases hfound
          · intro _ entry hentry
            cases hentry
      | some pending =>
          simp only [captured, hlookup, List.mem_singleton, forall_eq,
            JsonRpcMessage.response.injEq]
          constructor
          · intro hunseen back other hback _
            rw [← hback]
            exact hunseen
          · intro hunseen
            exact hunseen response pending rfl hlookup

theorem withholdsBlocked_iff (json : SerdeJson) (self : StdioHandler)
    (content : String) (clock : Clock) :
    self.WithholdsBlocked json content clock ↔
      self.BlockedUnseen json content clock := by
  unfold WithholdsBlocked BlockedUnseen
  refine forall_congr' fun response => forall_congr' fun result =>
    forall_congr' fun hread => forall_congr' fun hresult =>
      forall_congr' fun hblock => ?_
  obtain ⟨herror, hcompletions⟩ :=
    processIncoming_blocked hread hresult hblock
  rw [← forall_mem_captured_iff, hcompletions]
  constructor
  · rintro ⟨_, added, hadded, hunseen⟩
    rwa [List.append_cancel_left hadded]
  · intro hunseen
    exact ⟨⟨_, herror⟩, _, rfl, hunseen⟩

end StdioHandler

/-- The attempt ends in an error where the response to it is blocked. -/
def ClientWithholdsBlocked (metadata : InterceptionMetadata)
    (attempt : Attempt) (request : JsonRpcRequest) (timeout : Auth.Duration) :
    Prop :=
  ∀ outgoing reply incoming,
    McpClient.interceptOutgoing metadata attempt request = .ok outgoing →
    outgoing.block = false →
    attempt.transport (McpClient.finalRequest outgoing request) timeout =
      .ok reply →
    McpClient.interceptIncoming metadata attempt reply = .ok incoming →
    incoming.block = true →
      ∃ e, (McpClient.sendSingleRequest metadata attempt request
        timeout).result = .error e

theorem client_withholdsBlocked (metadata : InterceptionMetadata)
    (attempt : Attempt) (request : JsonRpcRequest) (timeout : Auth.Duration) :
    ClientWithholdsBlocked metadata attempt request timeout := by
  intro outgoing reply incoming houtgoing hpassed htransport hincoming hblock
  refine ⟨.protocol (.responseBlocked
    (incoming.reasoning.getD "Response blocked by interceptor")), ?_⟩
  simp [McpClient.sendSingleRequest, McpClient.receive, houtgoing, hpassed,
    htransport, hincoming, hblock]

def SameContent (left right : JsonRpcResponse) : Prop :=
  left.result = right.result ∧ left.error = right.error

namespace HttpExchange

/-- What the server delivers is a note of its own, or the reply to an attempt
whose response was not blocked. -/
def SseWithholdsBlocked (self : HttpExchange) (message : JsonRpcMessage) :
    Prop :=
  ∀ sessionId body,
    self.handleSsePost (some message) = .response sessionId body →
      body = sentResponse ∨ ∃ req attempt reply incoming,
        McpClient.interceptIncoming (self.upstreamCall req).metadata
            (self.attempts attempt) reply = .ok incoming ∧
          incoming.block = false ∧
          McpClient.finalResponse incoming reply = body

theorem sse_withholdsBlocked (self : HttpExchange)
    (message : JsonRpcMessage) : self.SseWithholdsBlocked message := by
  intro sessionId body hanswer
  obtain ⟨_, result, _, _, hreplied⟩ := handleSsePost_eq_response_iff.mp hanswer
  cases hmessage : result.message with
  | request req =>
      rw [hmessage] at hreplied
      obtain ⟨_, reply, incoming, ⟨attempt, _, _, hreleased⟩, hbody⟩ := hreplied
      exact Or.inr ⟨req, attempt, reply, incoming, hreleased.intercepted,
        hreleased.unblocked, hbody⟩
  | notification notif =>
      rw [hmessage] at hreplied
      exact Or.inl hreplied.2.symm
  | response resp =>
      rw [hmessage] at hreplied
      exact hreplied.elim

/-- What comes back for the message is not delivered where the server's own
pass blocks it. -/
def StreamWithholdsBlocked (self : HttpExchange) (message : JsonRpcMessage) :
    Prop :=
  ∀ result response interception,
    self.outgoing.intercept message .outgoing self.sessionId = .ok result →
    result.block = false →
    self.Replied result.message response →
    self.incoming.intercept (.response response) .incoming self.sessionId =
      .ok interception →
    interception.block = true →
      ∀ sessionId body,
        self.handleMcpRequest (some message) = .response sessionId body →
          ¬ SameContent body response

/-- The result that blocks the response carries another response to be sent
in its place. -/
def BlockedReplaced (self : HttpExchange) (message : JsonRpcMessage) : Prop :=
  ∀ result response interception,
    self.outgoing.intercept message .outgoing self.sessionId = .ok result →
    result.block = false →
    self.Replied result.message response →
    self.incoming.intercept (.response response) .incoming self.sessionId =
      .ok interception →
    interception.block = true →
      ∃ other, interception.message = .response other ∧
        ¬ SameContent other response

theorem not_sameContent_finalResponse_iff {interception : InterceptionResult}
    {response : JsonRpcResponse} :
    ¬ SameContent (McpClient.finalResponse interception response) response ↔
      ∃ other, interception.message = .response other ∧
        ¬ SameContent other response := by
  unfold McpClient.finalResponse
  cases interception.message with
  | response other => simp
  | request req => simp [SameContent]
  | notification notif => simp [SameContent]

theorem stream_withholdsBlocked_iff (self : HttpExchange)
    (message : JsonRpcMessage) :
    self.StreamWithholdsBlocked message ↔ self.BlockedReplaced message := by
  unfold StreamWithholdsBlocked BlockedReplaced
  refine forall_congr' fun result => forall_congr' fun response =>
    forall_congr' fun interception => forall_congr' fun hresult =>
      forall_congr' fun hpassed => forall_congr' fun hreplied =>
        forall_congr' fun hinterception => forall_congr' fun _ => ?_
  rw [← not_sameContent_finalResponse_iff]
  have hanswer : self.handleMcpRequest (some message) =
      .response self.sessionId
        (McpClient.finalResponse interception response) :=
    handleMcpRequest_eq_response_iff.mpr ⟨rfl, result, hresult,
      Or.inr ⟨hpassed, response, interception, hreplied, hinterception, rfl⟩⟩
  simp only [hanswer, HttpAnswer.response.injEq]
  constructor
  · intro hwithheld
    exact hwithheld _ _ ⟨rfl, rfl⟩
  · rintro hwithheld sessionId body ⟨_, hbody⟩
    rwa [← hbody]

end HttpExchange

/-- Which of the four paths hold a blocked response back: the client and the
server without a pass of its own always do, the stdio handler does where the
blocking result completes no query with the response, and the server with a
pass of its own only where the blocking result brings another response. -/
theorem withholdsBlocked_paths_iff (json : SerdeJson) (handler : StdioHandler)
    (content : String) (clock : Clock) (metadata : InterceptionMetadata)
    (attempt : Attempt) (request : JsonRpcRequest) (timeout : Auth.Duration)
    (exchange : HttpExchange) (message : JsonRpcMessage) :
    (handler.WithholdsBlocked json content clock ↔
      handler.BlockedUnseen json content clock) ∧
    ClientWithholdsBlocked metadata attempt request timeout ∧
    exchange.SseWithholdsBlocked message ∧
    (exchange.StreamWithholdsBlocked message ↔
      exchange.BlockedReplaced message) :=
  ⟨handler.withholdsBlocked_iff json content clock,
    client_withholdsBlocked metadata attempt request timeout,
    exchange.sse_withholdsBlocked message,
    exchange.stream_withholdsBlocked_iff message⟩

/-! ## A response that is blocked and delivered -/

namespace HttpExchange

/-- The server's passes carry the session of the client, those of the
upstream client do not. -/
def sessionCensor : MessageInterceptor where
  name := "censor"
  shouldIntercept context :=
    decide (context.direction = .incoming) && context.sessionId.isSome
  intercept _ := .ok (.blocked "withheld")

def censoring : InterceptorManager := ⟨[sessionCensor], {}⟩

def censoredMoment : Moment := ⟨censoring, Auth.smallInstant, 0⟩

def censoredReply : JsonRpcResponse := .success (.string "req_0") ⟨.null, .null⟩

def censored : HttpExchange where
  sessionHeader := some "session"
  freshSession := nilUuid
  outgoing := censoredMoment
  incoming := censoredMoment
  overflowChecks := true
  client := McpClient.retryingClient
  attempts _ :=
    { outgoing := censoring
      outgoingAt := Auth.smallInstant
      outgoingMillis := 0
      transport := fun _ _ => .ok censoredReply
      incoming := censoring
      incomingAt := Auth.smallInstant
      incomingMillis := 0 }
  notified _ := .ok ()

def pingRequest : JsonRpcRequest := .withoutParams (.number 1) "ping"

theorem censored_replied : censored.Replied (.request pingRequest)
    censoredReply := by
  have hreleased : (censored.upstreamCall pingRequest).Released 0
      censoredReply (.passThrough (.response censoredReply)) :=
    { answered := ⟨_, rfl, rfl, rfl⟩
      intercepted := rfl
      unblocked := rfl }
  refine ⟨rfl, censoredReply, _, ⟨0, Nat.zero_le _, ?_, hreleased⟩, rfl⟩
  intro earlier hearlier
  exact absurd hearlier (Nat.not_lt_zero earlier)

/-- The response that the server's own pass blocks is the body that is
delivered. -/
theorem censored_not_withholdsBlocked :
    ¬ censored.StreamWithholdsBlocked (.request pingRequest) := by
  intro hwithholds
  have hanswer : censored.handleMcpRequest (some (.request pingRequest)) =
      .response "session" censoredReply :=
    handleMcpRequest_eq_response_iff.mpr ⟨rfl, _, rfl,
      Or.inr ⟨rfl, censoredReply, _, censored_replied, rfl, rfl⟩⟩
  exact hwithholds _ censoredReply (.blocked "withheld") rfl rfl
    censored_replied rfl rfl _ _ hanswer ⟨rfl, rfl⟩

end HttpExchange
end Transport
end Acdp
