import Acdp.TransportHttpServers

/-!
# The HTTP handler

The handler has no client of its own but the monitor.  It turns a query into
a request, passes the request through the interceptors, and takes from what
they give back the method and the name of a tool; the rest of the parameters
is made from the query.  Where it knows no tool it asks for the list of tools
first.
-/

namespace Acdp
namespace Transport

open Acdp.Core Json
open Auth (Uuid)
open StdioHandler (emptyParams callParams asksForTools)

/-- What one query meets: the pass through the handler's interceptors and its
time, and for each call that the query makes what its attempts meet and the
time it takes.  `debugText` is the debug text of a reason. -/
structure QueryExchange where
  floats : FloatText
  overflowChecks : Bool
  ownPass : Moment
  interceptorDelayMs : Float
  attempts : ℕ → ℕ → Attempt
  elapsed : ℕ → ℕ
  debugText : Option String → String

/-- The handler with the client that its loop owns and the calls it has made
of it. -/
structure HttpHandler where
  sessionId : Uuid
  availableTools : Option (List String)
  client : McpClient
  calls : List McpClient.Call

namespace HttpHandler

/-- There is no result where the client panics. -/
def sendRequest (exchange : QueryExchange) (self : HttpHandler)
    (method : String) (params : OrderedValue) :
    HttpHandler × Option (McpResult JsonRpcResponse) :=
  let attempts := exchange.attempts self.calls.length
  let sent := self.client.sendRequest exchange.overflowChecks attempts method
    (.ok params)
  ({ self with
      client := sent.2
      calls := self.calls ++ [self.client.callFor exchange.overflowChecks
        attempts method params] }, sent.1.result)

def toolsOf (response : JsonRpcResponse) : List String :=
  match response.result with
  | some result =>
      match (result.val.get "tools").bind TuiQueryCompletion.asArray with
      | some tools => TuiQueryCompletion.toolNames tools
      | none => []
  | none => []

/-- The first tool of a list that is not empty. -/
def cachedTool (self : HttpHandler) : Option String :=
  self.availableTools.bind List.head?

/-- A list that cannot be fetched counts as no tool; only a panic leaves no
answer. -/
def getAvailableTool (exchange : QueryExchange) (self : HttpHandler) :
    HttpHandler × Option (Option String) :=
  match self.cachedTool with
  | some tool => (self, some (some tool))
  | none =>
      match self.sendRequest exchange "tools/list" emptyParams with
      | (self, none) => (self, none)
      | (self, some (.error _)) => (self, some none)
      | (self, some (.ok response)) =>
          let tools := toolsOf response
          ({ self with
              availableTools := if tools = [] then none else some tools },
            some tools.head?)

inductive Choice where
  | request (method : String) (params : OrderedValue)
  | refused (message : String)
  | panicked

def chooseRequest (exchange : QueryExchange) (self : HttpHandler)
    (job : TuiQueryJob) : HttpHandler × Choice :=
  match job.mcpMethod with
  | some mcpMethod =>
      (self, .request mcpMethod (job.mcpParams.getD emptyParams))
  | none =>
      if asksForTools job.query then (self, .request "tools/list" emptyParams)
      else
        match self.getAvailableTool exchange with
        | (self, some (some toolName)) =>
            (self, .request "tools/call" (callParams toolName job.query))
        | (self, some none) =>
            (self, .refused
              "No tools available from MCP server. Try 'tools/list' to see available tools.")
        | (self, none) => (self, .panicked)

inductive Extraction where
  | final (method : String) (params : OrderedValue)
  | lastResort
  | panicked

def namedTool (request : JsonRpcRequest) : Option String :=
  request.params.bind
    (fun params => TuiQueryCompletion.textMember params.val "name")

/-- What is sent for the message that the interceptors give back. -/
def extractRequest (exchange : QueryExchange) (self : HttpHandler)
    (job : TuiQueryJob) : JsonRpcMessage → HttpHandler × Extraction
  | .request modified =>
      if modified.method = "tools/list" then
        (self, .final modified.method emptyParams)
      else
        match namedTool modified with
        | some toolName =>
            (self, .final modified.method (callParams toolName job.query))
        | none =>
            match self.getAvailableTool exchange with
            | (self, some (some toolName)) =>
                (self, .final modified.method (callParams toolName job.query))
            | (self, some none) => (self, .lastResort)
            | (self, none) => (self, .panicked)
  | _ =>
      match self.getAvailableTool exchange with
      | (self, some (some toolName)) =>
          (self, .final "tools/call" (callParams toolName job.query))
      | (self, some none) => (self, .final "tools/list" emptyParams)
      | (self, none) => (self, .panicked)

/-- What becomes of a query: the call whose answer completes it, if it gets
that far, and its completion, unless the responder is dropped. -/
structure Answered where
  handler : HttpHandler
  final : Option McpClient.Call
  completion : Option TuiQueryCompletion

def answer (exchange : QueryExchange) (self : HttpHandler) (method : String)
    (params : OrderedValue) (errorText : McpError → String) : Answered :=
  match self.sendRequest exchange method params with
  | (next, result) =>
      { handler := next
        final := next.calls.getLast?
        completion :=
          match result with
          | none => none
          | some (.error e) => some (.failed (errorText e))
          | some (.ok response) => some
              { TuiQueryCompletion.fromResponse exchange.floats response
                  (exchange.elapsed self.calls.length) with
                interceptorDelayMs := some exchange.interceptorDelayMs } }

def unanswered (self : HttpHandler) (completion : Option TuiQueryCompletion) :
    Answered :=
  ⟨self, none, completion⟩

def sendExtracted (exchange : QueryExchange) :
    HttpHandler × Extraction → Answered
  | (self, .panicked) => self.unanswered none
  | (self, .lastResort) =>
      self.answer exchange "tools/list" emptyParams
        (fun e => "Failed to get available tools: " ++ e.display)
  | (self, .final method params) =>
      self.answer exchange method params McpError.display

/-- The client is as it is when the wait for it to be ready ends. -/
def processTuiQuery (exchange : QueryExchange) (self : HttpHandler)
    (job : TuiQueryJob) : Answered :=
  if self.client.state = .ready then
    match self.chooseRequest exchange job with
    | (self, .panicked) => self.unanswered none
    | (self, .refused message) => self.unanswered (some (.failed message))
    | (self, .request method params) =>
        match exchange.ownPass.intercept
            (.request (.new (.string (uuidText job.correlationId)) method
              params))
            .outgoing (uuidText self.sessionId) with
        | .error _ => self.unanswered none
        | .ok result =>
            if result.block then
              self.unanswered (some (.failed
                ("Query blocked by interceptor: " ++
                  exchange.debugText result.reasoning)))
            else
              sendExtracted exchange
                (self.extractRequest exchange job result.message)
  else
    self.unanswered
      (some (.failed "MCP client not ready (initialization timeout)"))

end HttpHandler
end Transport
end Acdp
