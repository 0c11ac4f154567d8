import Acdp.CoreInterceptor
import Acdp.JsonText
import Acdp.TextOperations
import Mathlib.Data.List.AList

/-!
# The stdio handler

The handler stands between the user and a child process.  Every line goes
through the interceptors, if it can be read as one message; any other line is
passed on as it is.  The monitor may add requests of its own, whose responses
are picked out of the stream of the child by the text of their identifiers.
-/

namespace Acdp
namespace Transport

open Acdp.Core Json
open Auth (DateTime Uuid)

/-! ## Completions of monitor queries -/

structure TuiQueryCompletion where
  response : String
  error : Option String
  ttftMs : Option Float
  tokensPerSec : Option Float
  totalTokens : Option ℕ
  interceptorDelayMs : Option Float

namespace TuiQueryCompletion

def failed (message : String) : TuiQueryCompletion where
  response := ""
  error := some message
  ttftMs := none
  tokensPerSec := none
  totalTokens := none
  interceptorDelayMs := none

def asArray : Value → Option (List Value)
  | .array elements => some elements
  | _ => none

def asStr : Value → Option String
  | .str text => some text
  | _ => none

def textMember (value : Value) (name : String) : Option String :=
  (value.get name).bind asStr

/-- The text of the first item that has one other than white space. -/
def firstText (items : List Value) : Option String :=
  items.findSome? fun item =>
    ((textMember item "text").map Text.trim).filter (fun text => text ≠ "")

def toolNames (tools : List Value) : List String :=
  tools.filterMap (fun tool => textMember tool "name")

def extractTextFromValue (value : Value) : Option String :=
  let tools := ((value.get "tools").bind asArray).bind fun tools =>
    if toolNames tools = [] then none
    else some ("Available tools: " ++ ", ".intercalate (toolNames tools))
  let content := ((value.get "content").bind asArray).bind firstText
  tools.or (content.or
    (((textMember value "text").map Text.trim).filter (fun text => text ≠ "")))

def extractText (floats : FloatText) (response : JsonRpcResponse) : String :=
  match response.result with
  | some result =>
      (extractTextFromValue result.val).getD (print (result.serialize floats))
  | none => ""

def tokenCount (text : String) : ℕ :=
  (text.toList.splitOnP Text.isWhiteSpace).countP (fun word => !word.isEmpty)

def secondsOf (nanos : ℕ) : Float :=
  Float.ofNat (nanos / 1000000000) +
    Float.ofNat (nanos % 1000000000) / 1000000000.0

def fromResponse (floats : FloatText) (response : JsonRpcResponse)
    (elapsed : ℕ) : TuiQueryCompletion :=
  let text := extractText floats response
  let count := tokenCount text
  let elapsedSecs := secondsOf elapsed
  { response := text
    error := response.error.map fun err =>
      err.message ++ " (code " ++ toString err.code.toInt ++ ")"
    ttftMs := some (elapsedSecs * 1000.0)
    tokensPerSec :=
      if 0 < count ∧ 0.0 < elapsedSecs then
        some (Float.ofNat count / elapsedSecs)
      else none
    totalTokens := if 0 < count then some count else none
    interceptorDelayMs := none }

end TuiQueryCompletion

/-! ## The handler -/

/-- The hyphenated text of a correlation identifier. -/
def uuidText (id : Uuid) : String :=
  let group (start length : ℕ) :=
    hexEncode ((id.val.drop start).take length)
  group 0 4 ++ "-" ++ group 4 2 ++ "-" ++ group 6 2 ++ "-" ++ group 8 2 ++
    "-" ++ group 10 6

def nilUuid : Uuid := ⟨List.replicate 16 (UInt8.ofNat 0), rfl⟩

/-- One end of a oneshot channel; the other end waits for the completion. -/
structure Responder where
  channel : ℕ
  deriving DecidableEq, Repr

structure QueryReceiver where
  channel : ℕ
  deriving DecidableEq, Repr

structure TuiQueryJob where
  correlationId : Uuid
  query : String
  mcpMethod : Option String
  mcpParams : Option OrderedValue
  responder : Responder

structure PendingQuery where
  responder : Responder
  startedAt : ℕ
  interceptorDelayMs : Option Float

structure ProxyStats where
  totalRequests : UInt64 := 0
  successfulRequests : UInt64 := 0
  failedRequests : UInt64 := 0
  bytesTransferred : UInt64 := 0

/-- `completions` lists what has been sent through the responders. -/
structure StdioHandler where
  stats : ProxyStats
  interceptorManager : InterceptorManager
  sessionId : Option String
  pendingQueries : AList (fun _ : String => PendingQuery)
  queryRx : Option QueryReceiver
  availableTools : Option (List String)
  completions : List (Responder × TuiQueryCompletion)

/-- The times read while one message is handled. -/
structure Clock where
  now : DateTime
  elapsedMillis : ℕ
  instant : ℕ

namespace StdioHandler

def withInterceptors (stats : ProxyStats)
    (interceptorManager : InterceptorManager) (sessionId : Option String)
    (queryRx : Option QueryReceiver) : StdioHandler where
  stats := stats
  interceptorManager := interceptorManager
  sessionId := sessionId
  pendingQueries := ∅
  queryRx := queryRx
  availableTools := none
  completions := []

def interceptionMetadata (self : StdioHandler) : InterceptionMetadata :=
  { sessionId := self.sessionId }

/-! ## Lines through the interceptors -/

/-- What becomes of a line: the message offered to the interceptors, the
message they let through, and the text to be written. -/
structure Filtered where
  handler : StdioHandler
  offered : Option JsonRpcMessage
  passed : Option JsonRpcMessage
  result : Except String (String × Bool)

/-- The handler after the interceptors: the message they give back is looked
at before it is known whether they block it. -/
def deliver (observe : StdioHandler → JsonRpcMessage → StdioHandler)
    (json : SerdeJson) (self : StdioHandler) (content : String)
    (message : JsonRpcMessage) : McpResult InterceptionResult → Filtered
  | .ok result =>
      let handler := observe self result.message
      if result.block then
        ⟨handler, some message, none,
          .error ("Message blocked: " ++ result.reasoning.getD "")⟩
      else
        ⟨handler, some message, some result.message,
          .ok (print (result.message.serialize json.floats) ++ "\n",
            result.modified)⟩
  | .error _ => ⟨self, some message, none, .ok (content, false)⟩

theorem deliver_handler
    (observe : StdioHandler → JsonRpcMessage → StdioHandler)
    (json : SerdeJson) (self : StdioHandler) (content : String)
    (message : JsonRpcMessage) (result : InterceptionResult) :
    (deliver observe json self content message (.ok result)).handler =
      observe self result.message := by
  cases hblock : result.block <;> simp [deliver, hblock]

def interceptMessage (self : StdioHandler) (direction : MessageDirection)
    (message : JsonRpcMessage) (clock : Clock) : InterceptorManager.Processed :=
  self.interceptorManager.processMessageWithMetadata message direction
    self.interceptionMetadata clock.now clock.elapsedMillis

def processLine (direction : MessageDirection)
    (observe : StdioHandler → JsonRpcMessage → StdioHandler)
    (json : SerdeJson) (self : StdioHandler) (content : String)
    (clock : Clock) : Filtered :=
  match json.message (Text.trim content) with
  | .error _ => ⟨self, none, none, .ok (content, false)⟩
  | .ok message =>
      let processed := self.interceptMessage direction message clock
      deliver observe json { self with interceptorManager := processed.manager }
        content message processed.result

/-- A line is passed on unseen, or its message goes through the
interceptors. -/
theorem processLine_cases (direction : MessageDirection)
    (observe : StdioHandler → JsonRpcMessage → StdioHandler)
    (json : SerdeJson) (self : StdioHandler) (content : String)
    (clock : Clock) :
    (∃ e, json.message (Text.trim content) = .error e ∧
      processLine direction observe json self content clock =
        ⟨self, none, none, .ok (content, false)⟩) ∨
    ∃ message result, json.message (Text.trim content) = .ok message ∧
      (self.interceptMessage direction message clock).result = .ok result ∧
      processLine direction observe json self content clock =
        deliver observe json
          { self with
            interceptorManager :=
              (self.interceptMessage direction message clock).manager }
          content message (.ok result) := by
  unfold processLine
  cases hread : json.message (Text.trim content) with
  | error e => exact Or.inl ⟨e, rfl, rfl⟩
  | ok message =>
      obtain ⟨result, hresult⟩ :=
        self.interceptorManager.processMessage_isOk message direction
          self.interceptionMetadata clock.now clock.elapsedMillis
      have hintercepted :
          (self.interceptMessage direction message clock).result = .ok result :=
        hresult
      exact Or.inr ⟨message, result, rfl, hintercepted, by
        simp only [hintercepted]⟩

def processOutgoing : SerdeJson → StdioHandler → String → Clock → Filtered :=
  processLine .outgoing (fun handler _ => handler)

/-- The whole response is expected, but the caller gives its `result`. -/
def updateToolsCache (self : StdioHandler) (response : Value) :
    StdioHandler :=
  match ((response.get "result").bind (fun result => result.get "tools")).bind
      TuiQueryCompletion.asArray with
  | some tools =>
      if TuiQueryCompletion.toolNames tools = [] then self
      else
        { self with
          availableTools := some (TuiQueryCompletion.toolNames tools) }
  | none => self

def noteTools (self : StdioHandler) (response : JsonRpcResponse) :
    StdioHandler :=
  match response.result with
  | some result =>
      if (result.val.get "tools").isSome then self.updateToolsCache result.val
      else self
  | none => self

def complete (self : StdioHandler) (responder : Responder)
    (completion : TuiQueryCompletion) : StdioHandler :=
  { self with completions := self.completions ++ [(responder, completion)] }

def captureQueryResponse (floats : FloatText) (clock : Clock)
    (self : StdioHandler) : JsonRpcMessage → StdioHandler
  | .response response =>
      let self := self.noteTools response
      match self.pendingQueries.lookup response.id.display with
      | some pending =>
          { self with
            pendingQueries :=
              self.pendingQueries.erase response.id.display }.complete
            pending.responder
            { TuiQueryCompletion.fromResponse floats response
                (clock.instant - pending.startedAt) with
              interceptorDelayMs := pending.interceptorDelayMs }
      | none => self
  | _ => self

def processIncoming (json : SerdeJson) (self : StdioHandler)
    (content : String) (clock : Clock) : Filtered :=
  processLine .incoming (captureQueryResponse json.floats clock) json self
    content clock

/-! ## Queries of the monitor -/

def getAvailableToolName (self : StdioHandler) : Option String :=
  self.availableTools.bind List.head?

theorem normal_object_nil : (Value.object []).Normal :=
  .object List.Pairwise.nil (fun _ hmember => absurd hmember List.not_mem_nil)

def emptyParams : OrderedValue := ⟨.object [], normal_object_nil⟩

/-- `json!({"name": tool_name, "arguments": {"input": job.query}})`, with the
members in the order of the map. -/
def callParams (toolName query : String) : OrderedValue :=
  ⟨.object [("arguments", .object [("input", .str query)]),
      ("name", .str toolName)], by
    have hnames : "arguments" < "name" := by decide
    refine .object (by simpa [Sorted] using hnames) ?_
    intro member hmember
    simp only [List.mem_cons, List.not_mem_nil, or_false] at hmember
    rcases hmember with rfl | rfl
    · refine .object (List.pairwise_singleton _ _) ?_
      intro member hmember
      rw [List.mem_singleton.mp hmember]
      exact .str query
    · exact .str toolName⟩

/-- The words looked for are lower-case ASCII, so only ASCII letters matter
to the folding of case. -/
def asksForTools (query : String) : Bool :=
  Text.contains query.toLower "tools" && Text.contains query.toLower "available"

def queryRequest (self : StdioHandler) (job : TuiQueryJob) :
    String × OrderedValue :=
  match job.mcpMethod with
  | some mcpMethod => (mcpMethod, job.mcpParams.getD emptyParams)
  | none =>
      if asksForTools job.query then ("tools/list", emptyParams)
      else
        match self.getAvailableToolName with
        | some toolName => ("tools/call", callParams toolName job.query)
        | none => ("tools/list", emptyParams)

/-- The members of the payload stand in the order of the map. -/
def queryPayload (floats : FloatText) (requestId method : String)
    (params : OrderedValue) : Json :=
  .obj [("id", .str requestId), ("jsonrpc", .str "2.0"),
    ("method", .str method), ("params", params.serialize floats)]

inductive Written where
  | ok
  | failed (error : String)
  | flushFailed (error : String)
  deriving DecidableEq, Repr

/-- What becomes of a query: the text that may have reached the child, and the
message the interceptors let through. -/
structure Queried where
  handler : StdioHandler
  text : Option String
  passed : Option JsonRpcMessage

def countRequest (self : StdioHandler) (content : String) : StdioHandler :=
  { self with
    stats :=
      { self.stats with
        totalRequests := self.stats.totalRequests + 1
        bytesTransferred :=
          self.stats.bytesTransferred + UInt64.ofNat content.utf8ByteSize } }

def countResponse (self : StdioHandler) (content : String) : StdioHandler :=
  { self with
    stats :=
      { self.stats with
        successfulRequests := self.stats.successfulRequests + 1
        bytesTransferred :=
          self.stats.bytesTransferred + UInt64.ofNat content.utf8ByteSize } }

def countFailure (self : StdioHandler) : StdioHandler :=
  { self with
    stats :=
      { self.stats with failedRequests := self.stats.failedRequests + 1 } }

def processTuiQuery (json : SerdeJson) (self : StdioHandler)
    (job : TuiQueryJob) (written : Written) (clock : Clock)
    (interceptorDelayMs : Float) : Queried :=
  let requestId := uuidText job.correlationId
  let (method, params) := self.queryRequest job
  let raw := print (queryPayload json.floats requestId method params) ++ "\n"
  let filtered := processOutgoing json self raw clock
  match filtered.result with
  | .error e =>
      ⟨filtered.handler.complete job.responder
        (.failed ("Query rejected: " ++ e)), none, none⟩
  | .ok (processedInput, _) =>
      match written with
      | .failed e =>
          ⟨filtered.handler.complete job.responder
            (.failed ("Failed to send query: " ++ e)), none, none⟩
      | .flushFailed e =>
          ⟨filtered.handler.complete job.responder
            (.failed ("Failed to flush query: " ++ e)), some processedInput,
            filtered.passed⟩
      | .ok =>
          ⟨{ filtered.handler with
              pendingQueries := filtered.handler.pendingQueries.insert requestId
                ⟨job.responder, clock.instant, some interceptorDelayMs⟩
              }.countRequest processedInput, some processedInput,
            filtered.passed⟩

/-! ## What a response completes -/

theorem noteTools_eq (self : StdioHandler) (response : JsonRpcResponse) :
    ∃ tools, self.noteTools response = { self with availableTools := tools } := by
  unfold noteTools
  cases response.result with
  | none => exact ⟨self.availableTools, rfl⟩
  | some result =>
      by_cases htools : (result.val.get "tools").isSome = true
      · simp only [htools, if_true]
        unfold updateToolsCache
        split
        · split_ifs
          · exact ⟨self.availableTools, rfl⟩
          · exact ⟨_, rfl⟩
        · exact ⟨self.availableTools, rfl⟩
      · simp only [htools]
        exact ⟨self.availableTools, rfl⟩

/-- What the message completes, if it is the response to a query. -/
def captured (floats : FloatText) (clock : Clock) (self : StdioHandler) :
    JsonRpcMessage → List (Responder × TuiQueryCompletion)
  | .response response =>
      match self.pendingQueries.lookup response.id.display with
      | some pending =>
          [(pending.responder,
            { TuiQueryCompletion.fromResponse floats response
                (clock.instant - pending.startedAt) with
              interceptorDelayMs := pending.interceptorDelayMs })]
      | none => []
  | _ => []

/-- The query that the message answers is removed with its completion. -/
theorem captureQueryResponse_eq (floats : FloatText) (clock : Clock)
    (self : StdioHandler) (message : JsonRpcMessage) :
    ∃ tools, captureQueryResponse floats clock self message =
      { self with
        availableTools := tools
        pendingQueries :=
          match message with
          | .response response =>
              self.pendingQueries.erase response.id.display
          | _ => self.pendingQueries
        completions := self.completions ++
          captured floats clock self message } := by
  cases message with
  | request request =>
      exact ⟨self.availableTools, by simp [captureQueryResponse, captured]⟩
  | notification notification =>
      exact ⟨self.availableTools, by simp [captureQueryResponse, captured]⟩
  | response response =>
      obtain ⟨tools, htools⟩ := self.noteTools_eq response
      refine ⟨tools, ?_⟩
      simp only [captureQueryResponse, captured, htools]
      cases hlookup : self.pendingQueries.lookup response.id.display with
      | some pending => simp [complete]
      | none =>
          have habsent : self.pendingQueries.erase response.id.display =
              self.pendingQueries :=
            AList.ext (List.kerase_of_notMem_keys
              (AList.lookup_eq_none.mp hlookup))
          simp [habsent]

/-- The message that the interceptors give back for a line of the child. -/
def heard (json : SerdeJson) (self : StdioHandler) (content : String)
    (clock : Clock) : Option JsonRpcMessage :=
  match json.message (Text.trim content) with
  | .error _ => none
  | .ok message =>
      (self.interceptMessage .incoming message clock).result.toOption.map
        InterceptionResult.message

theorem captured_withManager (floats : FloatText) (clock : Clock)
    (self : StdioHandler) (manager : InterceptorManager)
    (message : JsonRpcMessage) :
    captured floats clock { self with interceptorManager := manager } message =
      captured floats clock self message := by
  cases message <;> rfl

theorem processOutgoing_handler (json : SerdeJson) (self : StdioHandler)
    (content : String) (clock : Clock) :
    ∃ manager, (processOutgoing json self content clock).handler =
      { self with interceptorManager := manager } := by
  unfold processOutgoing
  rcases processLine_cases .outgoing (fun handler _ => handler) json self
      content clock with ⟨e, _, hline⟩ | ⟨message, result, _, _, hline⟩
  · exact ⟨self.interceptorManager, by rw [hline]⟩
  · rw [hline, deliver]
    cases result.block with
    | true => exact ⟨_, rfl⟩
    | false => exact ⟨_, rfl⟩

/-- What a line of the child leaves of the handler. -/
theorem processIncoming_handler (json : SerdeJson) (self : StdioHandler)
    (content : String) (clock : Clock) :
    ∃ manager tools, (processIncoming json self content clock).handler =
      { self with
        interceptorManager := manager
        availableTools := tools
        pendingQueries :=
          match self.heard json content clock with
          | some (.response back) =>
              self.pendingQueries.erase back.id.display
          | _ => self.pendingQueries
        completions := self.completions ++
          ((self.heard json content clock).map
            (captured json.floats clock self)).getD [] } := by
  unfold processIncoming heard
  rcases processLine_cases .incoming (captureQueryResponse json.floats clock)
      json self content clock with ⟨e, hread, hline⟩ |
        ⟨message, result, hread, hresult, hline⟩
  · exact ⟨self.interceptorManager, self.availableTools, by
      rw [hline, hread]
      simp⟩
  · obtain ⟨tools, hcapture⟩ := captureQueryResponse_eq json.floats clock
      { self with
        interceptorManager :=
          (self.interceptMessage .incoming message clock).manager }
      result.message
    rw [captured_withManager] at hcapture
    refine ⟨(self.interceptMessage .incoming message clock).manager, tools, ?_⟩
    rw [hline, deliver_handler, hcapture, hread]
    simp only [hresult, Except.toOption, Option.map_some, Option.getD_some]
    cases result.message <;> rfl

end StdioHandler
end Transport
end Acdp
