import Acdp.CoreClientReplies
import Acdp.TransportStdioHandler

/-!
# The HTTP servers

Two servers take messages from clients over HTTP, pass them through the
interceptors and send them on with a client of their own, which passes them
through the interceptors once more and numbers its requests itself.  One
server passes the response through the interceptors again, the other does
not.
-/

namespace Acdp
namespace Transport

open Acdp.Core Json
open Auth (DateTime Uuid)
open StdioHandler (emptyParams)

/-- A pass through the interceptors: the manager as it is then, and the times
that it reads. -/
structure Moment where
  manager : InterceptorManager
  now : DateTime
  elapsedMillis : ℕ

def Moment.process (self : Moment) (message : JsonRpcMessage)
    (direction : MessageDirection) (sessionId : String) :
    InterceptorManager.Processed :=
  self.manager.processMessageWithMetadata message direction
    { sessionId := some sessionId } self.now self.elapsedMillis

def Moment.intercept (self : Moment) (message : JsonRpcMessage)
    (direction : MessageDirection) (sessionId : String) :
    McpResult InterceptionResult :=
  (self.process message direction sessionId).result

theorem Moment.intercept_isOk (self : Moment) (message : JsonRpcMessage)
    (direction : MessageDirection) (sessionId : String) :
    ∃ result, self.intercept message direction sessionId = .ok result :=
  self.manager.processMessage_isOk message direction _ _ _

inductive StatusCode where
  | badRequest
  | forbidden
  | internalServerError
  | badGateway
  deriving DecidableEq, Repr

/-- A response of status 200 with its session header and a JSON-RPC response
as its body, an error status, or a connection that is dropped because the
handler panicked. -/
inductive HttpAnswer where
  | response (sessionId : String) (body : JsonRpcResponse)
  | status (code : StatusCode)
  | dropped

/-- What one call of a handler meets: the session header, the identifier that
is made up where there is none, the interceptors, and the upstream client with
what its attempts meet. -/
structure HttpExchange where
  sessionHeader : Option String
  freshSession : Uuid
  outgoing : Moment
  incoming : Moment
  overflowChecks : Bool
  client : McpClient
  attempts : ℕ → Attempt
  notified : JsonRpcNotification → McpResult Unit

/-- `json!({"status": "sent"})`. -/
def sentStatus : OrderedValue :=
  ⟨.object [("status", .str "sent")], by
    refine .object (List.pairwise_singleton _ _) ?_
    intro member hmember
    rw [List.mem_singleton.mp hmember]
    exact .str "sent"⟩

/-- What a notification is answered with. -/
def sentResponse : JsonRpcResponse := ⟨"2.0", .null, some sentStatus, none⟩

def reasoningData (reasoning : Option String) : Option OrderedValue :=
  reasoning.map (fun text => ⟨.str text, .str text⟩)

def blockedResponse (message : JsonRpcMessage) (result : InterceptionResult) :
    JsonRpcResponse where
  jsonrpc := "2.0"
  id :=
    match message with
    | .request req => req.id
    | .notification _ => .null
    | .response _ => .null
  result := none
  error := some
    { code := -32000
      message := "Request blocked by interceptor"
      data := reasoningData result.reasoning }

namespace HttpExchange

def sessionId (self : HttpExchange) : String :=
  self.sessionHeader.getD (uuidText self.freshSession)

def sendNotification (self : HttpExchange) (notif : JsonRpcNotification) :
    McpResult Unit :=
  if self.client.state = .ready then
    self.notified ⟨"2.0", notif.method, some (notif.params.getD emptyParams)⟩
  else .error (.protocol (.notInitialized "Client not ready for notifications"))

/-- The message goes upstream; what is answered at once where that fails. -/
def forward (self : HttpExchange) :
    JsonRpcMessage → Except HttpAnswer JsonRpcResponse
  | .request req =>
      match (self.client.sendRequest self.overflowChecks self.attempts
          req.method (.ok (req.params.getD emptyParams))).1.result with
      | some (.ok response) => .ok response
      | some (.error _) => .error (.status .badGateway)
      | none => .error .dropped
  | .notification notif =>
      match self.sendNotification notif with
      | .ok () => .ok sentResponse
      | .error _ => .error (.status .badGateway)
  | .response _ => .error (.status .badRequest)

/-- There is no message where the body cannot be read as one. -/
def handleMcpRequest (self : HttpExchange) :
    Option JsonRpcMessage → HttpAnswer
  | none => .status .badRequest
  | some message =>
      match self.outgoing.intercept message .outgoing self.sessionId with
      | .error _ => .status .internalServerError
      | .ok result =>
          if result.block then
            .response self.sessionId (blockedResponse message result)
          else
            match self.forward result.message with
            | .error answer => answer
            | .ok response =>
                match self.incoming.intercept (.response response) .incoming
                    self.sessionId with
                | .error _ => .status .internalServerError
                | .ok interception =>
                    .response self.sessionId
                      (McpClient.finalResponse interception response)

def handleSsePost (self : HttpExchange) : Option JsonRpcMessage → HttpAnswer
  | none => .status .badRequest
  | some message =>
      match self.outgoing.intercept message .outgoing self.sessionId with
      | .error _ => .status .internalServerError
      | .ok result =>
          if result.block then .status .forbidden
          else
            match self.forward result.message with
            | .error answer => answer
            | .ok response => .response self.sessionId response

/-! ## What comes back from upstream -/

/-- The call that the upstream client makes of a request. -/
def upstreamCall (self : HttpExchange) (req : JsonRpcRequest) :
    McpClient.Call :=
  self.client.callFor self.overflowChecks self.attempts req.method
    (req.params.getD emptyParams)

def retries (self : HttpExchange) : ℕ := self.client.config.maxRetries.toNat

/-- What the server gets for a message: the reply to a request, as the
client's interceptors leave it, or a note that a notification was sent. -/
def Replied (self : HttpExchange) :
    JsonRpcMessage → JsonRpcResponse → Prop
  | .request req, response =>
      self.client.state = .ready ∧ ∃ reply incoming,
        (self.upstreamCall req).Returns self.retries reply incoming ∧
          McpClient.finalResponse incoming reply = response
  | .notification notif, response =>
      self.sendNotification notif = .ok () ∧ sentResponse = response
  | .response _, _ => False

theorem forward_eq_ok_iff {self : HttpExchange} {message : JsonRpcMessage}
    {response : JsonRpcResponse} :
    self.forward message = .ok response ↔ self.Replied message response := by
  cases message with
  | request req =>
      have hreturns : (self.client.sendRequest self.overflowChecks self.attempts
          req.method (.ok (req.params.getD emptyParams))).1.result =
            some (.ok response) ↔ self.Replied (.request req) response :=
        McpClient.sendRequest_eq_ok_iff
      rw [← hreturns]
      simp only [forward]
      cases (self.client.sendRequest self.overflowChecks self.attempts
          req.method (.ok (req.params.getD emptyParams))).1.result with
      | none => simp
      | some result =>
          cases result with
          | error e => simp
          | ok reply => simp
  | notification notif =>
      rw [Replied, forward]
      cases hnotified : self.sendNotification notif with
      | error e => simp
      | ok sent => simp
  | response resp => simp [forward, Replied]

theorem forward_error_ne_response {self : HttpExchange}
    {message : JsonRpcMessage} {answer : HttpAnswer}
    (hforward : self.forward message = .error answer) (sessionId : String)
    (body : JsonRpcResponse) : answer ≠ .response sessionId body := by
  cases message with
  | request req =>
      simp only [forward] at hforward
      cases hresult : (self.client.sendRequest self.overflowChecks
          self.attempts req.method
          (.ok (req.params.getD emptyParams))).1.result with
      | none =>
          simp only [hresult, Except.error.injEq] at hforward
          simp [← hforward]
      | some result =>
          cases result with
          | error e =>
              simp only [hresult, Except.error.injEq] at hforward
              simp [← hforward]
          | ok reply => simp [hresult] at hforward
  | notification notif =>
      simp only [forward] at hforward
      cases hnotified : self.sendNotification notif with
      | error e =>
          simp only [hnotified, Except.error.injEq] at hforward
          simp [← hforward]
      | ok sent => simp [hnotified] at hforward
  | response resp =>
      simp only [forward, Except.error.injEq] at hforward
      simp [← hforward]

/-- Where an answer with a body comes from. -/
theorem handleMcpRequest_eq_response_iff {self : HttpExchange}
    {message : JsonRpcMessage} {sessionId : String} {body : JsonRpcResponse} :
    self.handleMcpRequest (some message) = .response sessionId body ↔
      self.sessionId = sessionId ∧ ∃ result,
        self.outgoing.intercept message .outgoing self.sessionId =
            .ok result ∧
          ((result.block = true ∧ blockedResponse message result = body) ∨
            (result.block = false ∧ ∃ response interception,
              self.Replied result.message response ∧
                self.incoming.intercept (.response response) .incoming
                    self.sessionId = .ok interception ∧
                McpClient.finalResponse interception response = body)) := by
  obtain ⟨result, hresult⟩ :=
    self.outgoing.intercept_isOk message .outgoing self.sessionId
  simp only [handleMcpRequest, hresult, Except.ok.injEq, exists_eq_left']
  cases hblock : result.block with
  | true => simp
  | false =>
      simp only [Bool.false_eq_true, if_false, false_and, false_or, true_and,
        ← forward_eq_ok_iff]
      cases hforward : self.forward result.message with
      | error answer =>
          simp [forward_error_ne_response hforward sessionId body]
      | ok response =>
          obtain ⟨interception, hinterception⟩ :=
            self.incoming.intercept_isOk (.response response) .incoming
              self.sessionId
          simp [hinterception]

theorem handleSsePost_eq_response_iff {self : HttpExchange}
    {message : JsonRpcMessage} {sessionId : String} {body : JsonRpcResponse} :
    self.handleSsePost (some message) = .response sessionId body ↔
      self.sessionId = sessionId ∧ ∃ result,
        self.outgoing.intercept message .outgoing self.sessionId =
            .ok result ∧
          result.block = false ∧ self.Replied result.message body := by
  obtain ⟨result, hresult⟩ :=
    self.outgoing.intercept_isOk message .outgoing self.sessionId
  simp only [handleSsePost, hresult, Except.ok.injEq, exists_eq_left']
  cases hblock : result.block with
  | true => simp
  | false =>
      simp only [Bool.false_eq_true, if_false, true_and, ← forward_eq_ok_iff]
      cases hforward : self.forward result.message with
      | error answer =>
          simp [forward_error_ne_response hforward sessionId body]
      | ok response => simp

end HttpExchange

end Transport
end Acdp
