import Acdp.CoreHttpSseTransport

/-!
# The HTTP streaming transport

Every request is posted to one endpoint and answered in the body of its
reply, as one document or on the data lines of an event stream.  The
response is put together from the members of the document, whatever
identifier it carries.
-/

namespace Acdp
namespace Core

open Auth (Duration)
open Json (OrderedValue)

structure HttpPost where
  url : String
  authorization : Option String
  sessionId : Option String
  body : String

/-- The parts of a reply that the transport reads. -/
structure HttpStreamReply where
  status : UInt16
  sessionHeader : Option String
  body : Except String String

structure HttpStreamTransport where
  baseUrl : String
  authHeader : Option String
  sessionId : Option String
  connected : Bool

namespace HttpStreamTransport

def transportType : String := "http-stream"

def getMcpUrl (self : HttpStreamTransport) : String :=
  if self.baseUrl.toList.getLast? = some '/' then self.baseUrl ++ "mcp"
  else self.baseUrl ++ "/mcp"

/-! ## Reading a reply -/

def extractRequestId (document : OrderedValue) : RequestId :=
  ((document.get "id").bind (fun id =>
    match id.val with
    | .str text => some (.string text)
    | .number number => number.asI64.map .number
    | .null => some .null
    | _ => none)).getD .null

def parseJsonResponse (json : SerdeJson) (document : OrderedValue) :
    McpResult JsonRpcResponse :=
  match document.get "result" with
  | some result =>
      .ok
        { jsonrpc := "2.0"
          id := extractRequestId document
          result := some result
          error := none }
  | none =>
      match document.get "error" with
      | some error =>
          .error (.transport (.httpError 400 ("Server returned error: " ++
            (OrderedValue.serialize json.floats error).print)))
      | none =>
          .error (.transport (.serializationError transportType
            "Invalid JSON-RPC response format"))

/-- The document on a data line, if it has an identifier. -/
def sseDocument (json : SerdeJson) (line : String) : Option OrderedValue :=
  match Text.stripPrefix "data: " line with
  | none => none
  | some text =>
      match json.value text with
      | .error _ => none
      | .ok document =>
          if (document.get "id").isSome then some document else none

def parseSseResponse (json : SerdeJson) (responseText : String) :
    McpResult JsonRpcResponse :=
  match (Text.lines responseText).findSome? (sseDocument json) with
  | some document => parseJsonResponse json document
  | none =>
      .error (.transport (.serializationError transportType
        "No valid JSON-RPC response found in SSE data"))

def parseResponse (json : SerdeJson) (responseText : String) :
    McpResult JsonRpcResponse :=
  match json.value responseText with
  | .ok document => parseJsonResponse json document
  | .error _ =>
      if Text.contains responseText "data: " then
        parseSseResponse json responseText
      else
        .error (.transport (.serializationError transportType
          ("Could not parse response as JSON or SSE: " ++ responseText)))

/-! ## Sending a request -/

def isSuccess (status : UInt16) : Bool := 200 ≤ status && status < 300

def post (json : SerdeJson) (self : HttpStreamTransport)
    (message : JsonRpcMessage) (sessionId : Option String) : HttpPost where
  url := self.getMcpUrl
  authorization := self.authHeader
  sessionId := sessionId
  body := (message.serialize json.floats).print

def sendMcpRequest (json : SerdeJson) (self : HttpStreamTransport)
    (message : JsonRpcMessage)
    (server : HttpPost → Except String HttpStreamReply) :
    McpResult JsonRpcResponse :=
  match server (self.post json message self.sessionId) with
  | .error e =>
      .error (.transport (.networkError transportType
        ("HTTP request failed: " ++ e)))
  | .ok reply =>
      if !isSuccess reply.status then
        .error (.transport (.httpError reply.status
          (reply.body.toOption.getD "")))
      else
        match reply.body with
        | .error e =>
            .error (.transport (.networkError transportType
              ("Failed to read response body: " ++ e)))
        | .ok text => parseResponse json text

/-- The first request carries no session; its reply names one. -/
def sendInitializeRequest (json : SerdeJson) (self : HttpStreamTransport)
    (request : JsonRpcRequest)
    (server : HttpPost → Except String HttpStreamReply) :
    HttpStreamTransport × McpResult JsonRpcResponse :=
  match server (self.post json (.request request) none) with
  | .error e =>
      (self, .error (.transport (.networkError transportType
        ("Initialization request failed: " ++ e))))
  | .ok reply =>
      if !isSuccess reply.status then
        (self, .error (.transport (.httpError reply.status
          ("Initialization failed: " ++ reply.body.toOption.getD ""))))
      else
        let self := { self with
          sessionId := reply.sessionHeader.or self.sessionId }
        match reply.body with
        | .error e =>
            (self, .error (.transport (.networkError transportType
              ("Failed to read init response: " ++ e))))
        | .ok text => (self, parseResponse json text)

def timedOut (timeout : Option Duration) : McpError :=
  .transport (.timeoutError transportType
    ("Request timed out after " ++
      Text.spanText (timeout.getD (Duration.fromSecs 30)).secs.toNat
        (timeout.getD (Duration.fromSecs 30)).nanos))

def sendRequest (json : SerdeJson) (self : HttpStreamTransport)
    (request : JsonRpcRequest) (timeout : Option Duration)
    (server : HttpPost → Except String HttpStreamReply) (timer : CallTimer) :
    HttpStreamTransport × McpResult JsonRpcResponse :=
  if !self.connected then
    (self, .error (.transport (.notConnected transportType
      "Transport not connected")))
  else
    let (after, sent) :=
      if request.method = "initialize" then
        sendInitializeRequest json self request server
      else (self, sendMcpRequest json self (.request request) server)
    match timer with
    | .beforeReply => (self, .error (timedOut timeout))
    | .afterReply => (after, .error (timedOut timeout))
    | .inTime => (after, sent)

end HttpStreamTransport

end Core
end Acdp
