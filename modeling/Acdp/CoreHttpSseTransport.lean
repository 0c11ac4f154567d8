import Acdp.AuthCapabilities
import Acdp.CoreError
import Acdp.CoreMessages
import Acdp.MessageLedger
import Acdp.StepMachine
import Acdp.TextOperations
import Acdp.TextPrefix

/-!
# The HTTP transport with server-sent events

A request is posted in one of two protocol versions, and its response comes in
the body, on a stream the reply opens, or on a stream that is already there.
The first half follows one call, given what the server does during it; the
second half follows the queue between the streams and the callers over many
calls.
-/

namespace Acdp
namespace Core

open Auth (Duration)

inductive McpProtocolVersion where
  | streamableHttp
  | httpSse
  | autoDetect
  deriving DecidableEq, Repr

/-- How a wait on a receiver ends when the awaited response does not come. -/
inductive WaitEnd where
  | timedOut
  | closed
  | deadline
  deriving DecidableEq, Repr

structure Inbound where
  messages : List JsonRpcMessage
  ending : WaitEnd

structure HttpReply where
  status : UInt16
  contentType : Option String
  sessionHeader : Option String
  body : Except String String
  events : List String
  ending : WaitEnd

/-- Whether the timer of a call runs out, and at which of its waits. -/
inductive CallTimer where
  | inTime
  | beforeReply
  | afterReply
  deriving DecidableEq, Repr

/-- What a call meets: the reply, and the messages of the session monitor and
of the receiver that is in place. -/
structure HttpExchange where
  reply : Except String HttpReply
  monitor : Option (List JsonRpcMessage)
  receiver : Option Inbound
  timer : CallTimer

structure HttpSseTransport where
  connected : Bool
  protocolVersion : McpProtocolVersion
  basePath : String
  sessionId : Option String
  validateSessionIds : Bool

namespace HttpSseTransport

def transportType : String := "streamable-http"

/-! ## Waiting for a response -/

/-- The test of the waiting loop: by the text of the identifier. -/
def awaited (requestId : String) : JsonRpcMessage → Option JsonRpcResponse
  | .response response =>
      if response.id.display = requestId then some response else none
  | _ => none

/-- The session monitor is asked first, the receiver after it. -/
def waitForSseResponse (requestId : String)
    (monitor : Option (List JsonRpcMessage)) (receiver : Option Inbound) :
    McpResult JsonRpcResponse :=
  match (monitor.getD []).findSome? (awaited requestId) with
  | some response => .ok response
  | none =>
      match receiver with
      | none =>
          .error (.transport (.timeoutError transportType
            ("Timeout waiting for response to request ID: " ++ requestId)))
      | some inbound =>
          match inbound.messages.findSome? (awaited requestId) with
          | some response => .ok response
          | none =>
              match inbound.ending with
              | .timedOut =>
                  .error (.transport (.timeoutError transportType
                    ("SSE response timeout for request ID: " ++ requestId)))
              | .closed =>
                  .error (.transport (.disconnectedError transportType
                    "SSE stream closed while waiting for response"))
              | .deadline =>
                  .error (.transport (.timeoutError transportType
                    ("Timeout waiting for response to request ID: " ++
                      requestId)))

/-- The message in the data of an event, session announcements left out. -/
def sseMessage (json : SerdeJson) (data : String) : Option JsonRpcMessage :=
  if Text.startsWith data "/sse?sessionId=" ||
      Text.startsWith data "/mcp?sessionId=" then none
  else (json.message data).toOption

def handleSseResponse (json : SerdeJson) (reply : HttpReply) : Inbound :=
  ⟨reply.events.filterMap (sseMessage json), reply.ending⟩

/-! ## Sending a request -/

/-- Header values are visible ASCII, where alphanumeric means letter or
digit. -/
def validateSessionId (self : HttpSseTransport) (sessionId : String) :
    McpResult Unit :=
  if !self.validateSessionIds then .ok ()
  else if sessionId.toList.length < 16 then
    .error (.transport (.invalidConfig transportType
      "Session ID too short - security risk"))
  else if !sessionId.toList.all (fun char =>
      char.isAlphanum || char == '-') then
    .error (.transport (.invalidConfig transportType
      "Session ID contains invalid characters"))
  else .ok ()

def detectProtocolVersion (self : HttpSseTransport) : McpProtocolVersion :=
  if self.protocolVersion ≠ .autoDetect then self.protocolVersion
  else if self.basePath = "/sse" then .httpSse
  else .streamableHttp

/-- The body of a JSON reply. -/
def readBody (json : SerdeJson) (protocol : String) (reply : HttpReply) :
    McpResult JsonRpcResponse :=
  match reply.body with
  | .error e =>
      .error (.transport (.serializationError transportType
        ("Failed to get " ++ protocol ++ " response text: " ++ e)))
  | .ok text =>
      match json.response text with
      | .error e =>
          .error (.transport (.serializationError transportType
            ("Failed to parse " ++ protocol ++ " JSON response: " ++ e)))
      | .ok response => .ok response

/-- The wait that follows an accepted request; other messages have none. -/
def awaitAnswer (message : JsonRpcMessage) (exchange : HttpExchange)
    (receiver : Option Inbound) : McpResult (Option JsonRpcResponse) :=
  match message with
  | .request req =>
      (waitForSseResponse req.id.display exchange.monitor receiver).map some
  | _ => .ok none

def sendStreamableHttpRequest (json : SerdeJson) (self : HttpSseTransport)
    (message : JsonRpcMessage) (exchange : HttpExchange) :
    HttpSseTransport × McpResult (Option JsonRpcResponse) :=
  match exchange.reply with
  | .error e =>
      (self, .error (.transport (.networkError transportType
        ("Modern HTTP request failed: " ++ e))))
  | .ok reply =>
      match reply.sessionHeader.elim (.ok ()) self.validateSessionId with
      | .error e => (self, .error e)
      | .ok () =>
          let self := { self with
            sessionId := reply.sessionHeader.or self.sessionId }
          let contentType := reply.contentType.getD "application/json"
          if Text.contains contentType "application/json" then
            (self, (readBody json "Modern" reply).map some)
          else if Text.contains contentType "text/event-stream" then
            (self, awaitAnswer message exchange
              (some (handleSseResponse json reply)))
          else
            (self, .error (.transport (.networkError transportType
              ("Unexpected Modern content type: " ++ contentType))))

def sendLegacySseRequest (json : SerdeJson) (self : HttpSseTransport)
    (message : JsonRpcMessage) (exchange : HttpExchange) :
    HttpSseTransport × McpResult (Option JsonRpcResponse) :=
  match exchange.reply with
  | .error e =>
      (self, .error (.transport (.networkError transportType
        ("Legacy HTTP+SSE request failed: " ++ e))))
  | .ok reply =>
      let contentType := reply.contentType.getD ""
      if reply.status = 202 then
        (self, awaitAnswer message exchange exchange.receiver)
      else if Text.contains contentType "application/json" then
        (self, (readBody json "Legacy" reply).map some)
      else if Text.contains contentType "text/event-stream" then
        (self, awaitAnswer message exchange
          (some (handleSseResponse json reply)))
      else
        (self, .error (.transport (.networkError transportType
          ("Unexpected Legacy response - Status: " ++
            toString reply.status.toNat ++ ", Content-Type: " ++
            contentType))))

def sendMcpRequest (json : SerdeJson) (self : HttpSseTransport)
    (message : JsonRpcMessage) (exchange : HttpExchange) :
    HttpSseTransport × McpResult (Option JsonRpcResponse) :=
  let version := self.detectProtocolVersion
  let self := { self with protocolVersion := version }
  match version with
  | .streamableHttp => sendStreamableHttpRequest json self message exchange
  | .httpSse => sendLegacySseRequest json self message exchange
  | .autoDetect => sendStreamableHttpRequest json self message exchange

def timedOut (timeout : Option Duration) : McpError :=
  .transport (.timeoutError transportType
    ("Request timed out after " ++
      Text.spanText (timeout.getD (Duration.fromSecs 30)).secs.toNat
        (timeout.getD (Duration.fromSecs 30)).nanos))

/-- A call that runs out of time keeps what it has stored by then. -/
def sendRequest (json : SerdeJson) (self : HttpSseTransport)
    (request : JsonRpcRequest) (timeout : Option Duration)
    (exchange : HttpExchange) : HttpSseTransport × McpResult JsonRpcResponse :=
  if !self.connected then
    (self, .error (.transport (.notConnected transportType
      "Transport not connected")))
  else
    let (after, sent) := sendMcpRequest json self (.request request) exchange
    match exchange.timer with
    | .beforeReply =>
        ({ self with protocolVersion := self.detectProtocolVersion },
          .error (timedOut timeout))
    | .afterReply => (after, .error (timedOut timeout))
    | .inTime =>
        match sent with
        | .error e => (after, .error e)
        | .ok (some response) => (after, .ok response)
        | .ok none =>
            (after, waitForSseResponse request.id.display exchange.monitor
              exchange.receiver)

/-! ## The identifier of the session -/

/-- The header of a reply takes the place of the identifier only where it has
passed the check. -/
def SessionFrom (before after : HttpSseTransport) : Prop :=
  after.validateSessionIds = before.validateSessionIds ∧
    (after.sessionId = before.sessionId ∨
      ∃ id, after.sessionId = some id ∧ before.validateSessionId id = .ok ())

theorem sendStreamableHttpRequest_sessionFrom (json : SerdeJson)
    (self : HttpSseTransport) (message : JsonRpcMessage)
    (exchange : HttpExchange) :
    SessionFrom self
      (sendStreamableHttpRequest json self message exchange).1 := by
  unfold sendStreamableHttpRequest
  cases exchange.reply with
  | error e => exact ⟨rfl, Or.inl rfl⟩
  | ok reply =>
      cases hheader : reply.sessionHeader with
      | none =>
          simp only [hheader, Option.elim_none, Option.none_or]
          split_ifs <;> exact ⟨rfl, Or.inl rfl⟩
      | some id =>
          cases hvalid : self.validateSessionId id with
          | error e =>
              simp only [hheader, Option.elim_some, hvalid]
              exact ⟨rfl, Or.inl rfl⟩
          | ok valid =>
              simp only [hheader, Option.elim_some, hvalid, Option.some_or]
              split_ifs <;> exact ⟨rfl, Or.inr ⟨id, rfl, hvalid⟩⟩

theorem sendLegacySseRequest_fst (json : SerdeJson)
    (self : HttpSseTransport) (message : JsonRpcMessage)
    (exchange : HttpExchange) :
    (sendLegacySseRequest json self message exchange).1 = self := by
  unfold sendLegacySseRequest
  cases exchange.reply with
  | error e => rfl
  | ok reply => dsimp only; split_ifs <;> rfl

theorem sendMcpRequest_sessionFrom (json : SerdeJson)
    (self : HttpSseTransport) (message : JsonRpcMessage)
    (exchange : HttpExchange) :
    SessionFrom self (sendMcpRequest json self message exchange).1 := by
  unfold sendMcpRequest
  cases self.detectProtocolVersion with
  | streamableHttp =>
      exact sendStreamableHttpRequest_sessionFrom json _ message exchange
  | httpSse =>
      simp only [sendLegacySseRequest_fst]
      exact ⟨rfl, Or.inl rfl⟩
  | autoDetect =>
      exact sendStreamableHttpRequest_sessionFrom json _ message exchange

theorem sendRequest_sessionFrom (json : SerdeJson) (self : HttpSseTransport)
    (request : JsonRpcRequest) (timeout : Option Duration)
    (exchange : HttpExchange) :
    SessionFrom self (self.sendRequest json request timeout exchange).1 := by
  have hsent := sendMcpRequest_sessionFrom json self (.request request) exchange
  unfold sendRequest
  by_cases hconnected : self.connected = true
  · simp only [hconnected, Bool.not_true, Bool.false_eq_true, if_false]
    generalize sendMcpRequest json self (.request request) exchange = sent
      at hsent
    obtain ⟨after, result⟩ := sent
    cases exchange.timer with
    | beforeReply => exact ⟨rfl, Or.inl rfl⟩
    | afterReply => exact hsent
    | inTime =>
        cases result with
        | error e => exact hsent
        | ok response =>
            cases response with
            | none => exact hsent
            | some response => exact hsent
  · simp only [hconnected, Bool.not_false, if_true]
    exact ⟨rfl, Or.inl rfl⟩

end HttpSseTransport

end Core
end Acdp
