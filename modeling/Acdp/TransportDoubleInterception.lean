import Acdp.CoreInterceptorPasses
import Acdp.CoreMessageCodec
import Acdp.TransportHttpHandler

/-!
# Interceptors that run twice

A server or handler and its upstream client are given the same interceptors,
and each passes a request through them.  An interceptor therefore runs once
on a request only if it declines one of the two passes; a response goes
through two passes in one of the servers and through one elsewhere.
-/

namespace Acdp
namespace Transport

open Acdp.Core Json
open StdioHandler (emptyParams)

def Moment.pass (self : Moment) (message : JsonRpcMessage)
    (direction : MessageDirection) (sessionId : String) : InterceptorCall :=
  ⟨self.manager, message, direction, { sessionId := some sessionId },
    self.now, self.elapsedMillis⟩

def Registers (names : List String) (manager : InterceptorManager) : Prop :=
  manager.interceptors.map MessageInterceptor.name = names

namespace HttpExchange

/-! ## The passes of a message -/

def forwardPasses (self : HttpExchange) : JsonRpcMessage → List InterceptorCall
  | .request req =>
      if self.client.state = .ready then
        (self.upstreamCall req).passes self.retries 0
      else []
  | _ => []

def outgoingPasses (self : HttpExchange) (message : JsonRpcMessage) :
    List InterceptorCall :=
  self.outgoing.pass message .outgoing self.sessionId ::
    match self.outgoing.intercept message .outgoing self.sessionId with
    | .error _ => []
    | .ok result =>
        if result.block then [] else self.forwardPasses result.message

def handleSsePasses (self : HttpExchange) (message : JsonRpcMessage) :
    List InterceptorCall :=
  self.outgoingPasses message

def incomingPasses (self : HttpExchange) (message : JsonRpcMessage) :
    List InterceptorCall :=
  match self.outgoing.intercept message .outgoing self.sessionId with
  | .error _ => []
  | .ok result =>
      if result.block then []
      else
        match self.forward result.message with
        | .error _ => []
        | .ok response =>
            [self.incoming.pass (.response response) .incoming self.sessionId]

def handleMcpPasses (self : HttpExchange) (message : JsonRpcMessage) :
    List InterceptorCall :=
  self.outgoingPasses message ++ self.incomingPasses message

/-- A request that is sent upstream and answered at the first attempt. -/
structure Forwarded (exchange : HttpExchange) (request : JsonRpcRequest) where
  result : InterceptionResult
  req : JsonRpcRequest
  reply : JsonRpcResponse
  incoming : InterceptionResult
  intercepted : exchange.outgoing.intercept (.request request) .outgoing
    exchange.sessionId = .ok result
  unblocked : result.block = false
  message : result.message = .request req
  ready : exchange.client.state = .ready
  released : (exchange.upstreamCall req).Released 0 reply incoming

namespace Forwarded

variable {exchange : HttpExchange} {request : JsonRpcRequest}

def serverOutgoing (_ : Forwarded exchange request) : InterceptorCall :=
  exchange.outgoing.pass (.request request) .outgoing exchange.sessionId

def clientOutgoing (forwarded : Forwarded exchange request) : InterceptorCall :=
  McpClient.outgoingPass (exchange.upstreamCall forwarded.req).metadata
    (exchange.attempts 0) (exchange.upstreamCall forwarded.req).request

def clientIncoming (forwarded : Forwarded exchange request) : InterceptorCall :=
  McpClient.incomingPass (exchange.upstreamCall forwarded.req).metadata
    (exchange.attempts 0) forwarded.reply

def response (forwarded : Forwarded exchange request) : JsonRpcResponse :=
  McpClient.finalResponse forwarded.incoming forwarded.reply

def serverIncoming (forwarded : Forwarded exchange request) : InterceptorCall :=
  exchange.incoming.pass (.response forwarded.response) .incoming exchange.sessionId

variable (forwarded : Forwarded exchange request)

theorem handleSsePasses_eq : exchange.handleSsePasses (.request request) =
    [forwarded.serverOutgoing, forwarded.clientOutgoing,
      forwarded.clientIncoming] := by
  simp only [handleSsePasses, outgoingPasses, forwarded.intercepted,
    forwarded.unblocked, Bool.false_eq_true, if_false, forwarded.message,
    forwardPasses, forwarded.ready, if_true,
    McpClient.Call.passes_of_released forwarded.released]
  rfl

theorem forward_eq : exchange.forward forwarded.result.message =
    .ok forwarded.response := by
  rw [forward_eq_ok_iff, forwarded.message]
  refine ⟨forwarded.ready, forwarded.reply, forwarded.incoming,
    ⟨0, Nat.zero_le _, ?_, forwarded.released⟩, rfl⟩
  intro earlier hearlier
  exact absurd hearlier (Nat.not_lt_zero earlier)

theorem handleMcpPasses_eq : exchange.handleMcpPasses (.request request) =
    [forwarded.serverOutgoing, forwarded.clientOutgoing,
      forwarded.clientIncoming, forwarded.serverIncoming] := by
  have hincoming : exchange.incomingPasses (.request request) =
      [forwarded.serverIncoming] := by
    simp only [incomingPasses, forwarded.intercepted, forwarded.unblocked,
      Bool.false_eq_true, if_false, forwarded.forward_eq]
    rfl
  have houtgoing : exchange.outgoingPasses (.request request) = _ :=
    forwarded.handleSsePasses_eq
  rw [handleMcpPasses, houtgoing, hincoming]
  rfl

end Forwarded

/-- An exchange as it is wired at the start: one manager is shared, so every
pass has the interceptors of the same names. -/
structure Wired extends HttpExchange where
  registered : List String
  outgoingRegistered : Registers registered outgoing.manager
  incomingRegistered : Registers registered incoming.manager
  upstreamRegistered : ∀ attempt,
    Registers registered (attempts attempt).outgoing ∧
      Registers registered (attempts attempt).incoming

end HttpExchange

/-! ## The passes of a query -/

namespace HttpHandler

def ownPass (exchange : QueryExchange) (self : HttpHandler)
    (job : TuiQueryJob) (method : String) (params : OrderedValue) :
    InterceptorCall :=
  exchange.ownPass.pass
    (.request (.new (.string (uuidText job.correlationId)) method params))
    .outgoing (uuidText self.sessionId)

/-- The passes of the request that is made for the query; a list of tools
that is fetched on the way makes passes of its own. -/
def queryPasses (exchange : QueryExchange) (self : HttpHandler)
    (job : TuiQueryJob) : List InterceptorCall :=
  match self.chooseRequest exchange job with
  | (next, .request method params) =>
      next.ownPass exchange job method params ::
        match (self.processTuiQuery exchange job).final with
        | some call => call.passes call.config.maxRetries.toNat 0
        | none => []
  | (_, .refused _) => []
  | (_, .panicked) => []

/-- A query whose request is sent upstream and answered at the first
attempt. -/
structure Forwarded (exchange : QueryExchange) (handler : HttpHandler)
    (job : TuiQueryJob) where
  next : HttpHandler
  method : String
  params : OrderedValue
  call : McpClient.Call
  reply : JsonRpcResponse
  incoming : InterceptionResult
  chosen : handler.chooseRequest exchange job =
    (next, .request method params)
  final : (handler.processTuiQuery exchange job).final = some call
  released : call.Released 0 reply incoming

namespace Forwarded

variable {exchange : QueryExchange} {handler : HttpHandler}
  {job : TuiQueryJob}

def handlerOutgoing (forwarded : Forwarded exchange handler job) :
    InterceptorCall :=
  forwarded.next.ownPass exchange job forwarded.method forwarded.params

def clientOutgoing (forwarded : Forwarded exchange handler job) :
    InterceptorCall :=
  McpClient.outgoingPass forwarded.call.metadata (forwarded.call.attempts 0)
    forwarded.call.request

def clientIncoming (forwarded : Forwarded exchange handler job) :
    InterceptorCall :=
  McpClient.incomingPass forwarded.call.metadata (forwarded.call.attempts 0)
    forwarded.reply

theorem queryPasses_eq (forwarded : Forwarded exchange handler job) :
    handler.queryPasses exchange job =
      [forwarded.handlerOutgoing, forwarded.clientOutgoing,
        forwarded.clientIncoming] := by
  simp only [queryPasses, forwarded.chosen, forwarded.final,
    McpClient.Call.passes_of_released forwarded.released]
  rfl

end Forwarded
end HttpHandler

/-- The passes of a query as they are wired at the start. -/
structure QueryExchange.Wired extends QueryExchange where
  registered : List String
  ownRegistered : Registers registered ownPass.manager
  clientRegistered : ∀ call attempt,
    Registers registered (attempts call attempt).outgoing ∧
      Registers registered (attempts call attempt).incoming

/-! ## Counting the runs -/

/-- Of two passes out and one back. -/
theorem exactlyOnce_three_iff {first second third : InterceptorCall}
    (hfirst : first.direction = .outgoing)
    (hsecond : second.direction = .outgoing)
    (hthird : third.direction = .incoming) (registered : ℕ) :
    InterceptorCall.ExactlyOnce [first, second, third] registered ↔
      ∀ index, index < registered →
        first.accepts index ≠ second.accepts index ∧
          third.accepts index = true := by
  refine forall_congr' fun index => forall_congr' fun _ => ?_
  simp only [InterceptorCall.invocations, List.countP_cons, List.countP_nil,
    InterceptorCall.ran_eq_accepts, hfirst, hsecond, hthird]
  cases first.accepts index <;> cases second.accepts index <;>
    cases third.accepts index <;> decide

/-- Of two passes out and two back. -/
theorem exactlyOnce_four_iff {first second third fourth : InterceptorCall}
    (hfirst : first.direction = .outgoing)
    (hsecond : second.direction = .outgoing)
    (hthird : third.direction = .incoming)
    (hfourth : fourth.direction = .incoming) (registered : ℕ) :
    InterceptorCall.ExactlyOnce [first, second, third, fourth] registered ↔
      ∀ index, index < registered →
        first.accepts index ≠ second.accepts index ∧
          third.accepts index ≠ fourth.accepts index := by
  refine forall_congr' fun index => forall_congr' fun _ => ?_
  simp only [InterceptorCall.invocations, List.countP_cons, List.countP_nil,
    InterceptorCall.ran_eq_accepts, hfirst, hsecond, hthird, hfourth]
  cases first.accepts index <;> cases second.accepts index <;>
    cases third.accepts index <;> cases fourth.accepts index <;> decide

/-- Every registered interceptor runs exactly once on the request and once on
the response exactly when it accepts one of the two passes that the request
makes, and one of those that the response makes: two in the one server, and
one elsewhere. -/
theorem exactlyOnce_paths_iff (exchange : HttpExchange.Wired)
    {request : JsonRpcRequest}
    (forwarded : exchange.toHttpExchange.Forwarded request)
    (queries : QueryExchange.Wired) {handler : HttpHandler}
    {job : TuiQueryJob}
    (query : handler.Forwarded queries.toQueryExchange job) :
    (InterceptorCall.ExactlyOnce
        (exchange.handleMcpPasses (.request request))
        exchange.registered.length ↔
      ∀ index, index < exchange.registered.length →
        forwarded.serverOutgoing.accepts index ≠
            forwarded.clientOutgoing.accepts index ∧
          forwarded.clientIncoming.accepts index ≠
            forwarded.serverIncoming.accepts index) ∧
    (InterceptorCall.ExactlyOnce
        (exchange.handleSsePasses (.request request))
        exchange.registered.length ↔
      ∀ index, index < exchange.registered.length →
        forwarded.serverOutgoing.accepts index ≠
            forwarded.clientOutgoing.accepts index ∧
          forwarded.clientIncoming.accepts index = true) ∧
    (InterceptorCall.ExactlyOnce
        (handler.queryPasses queries.toQueryExchange job)
        queries.registered.length ↔
      ∀ index, index < queries.registered.length →
        query.handlerOutgoing.accepts index ≠
            query.clientOutgoing.accepts index ∧
          query.clientIncoming.accepts index = true) := by
  rw [forwarded.handleMcpPasses_eq, forwarded.handleSsePasses_eq,
    query.queryPasses_eq]
  exact ⟨exactlyOnce_four_iff rfl rfl rfl rfl _,
    exactlyOnce_three_iff rfl rfl rfl _, exactlyOnce_three_iff rfl rfl rfl _⟩

/-! ## An interceptor that accepts everything -/

def watcher : MessageInterceptor where
  name := "watcher"
  shouldIntercept _ := true
  intercept context := .ok (.passThrough context.message)

def watching : InterceptorManager := ⟨[watcher], {}⟩

def watchedAttempt : Attempt where
  outgoing := watching
  outgoingAt := Auth.smallInstant
  outgoingMillis := 0
  transport request _ := .ok (.success request.id ⟨.null, .null⟩)
  incoming := watching
  incomingAt := Auth.smallInstant
  incomingMillis := 0

def watched : HttpExchange.Wired where
  sessionHeader := some "session"
  freshSession := nilUuid
  outgoing := ⟨watching, Auth.smallInstant, 0⟩
  incoming := ⟨watching, Auth.smallInstant, 0⟩
  overflowChecks := true
  client := McpClient.retryingClient
  attempts _ := watchedAttempt
  notified _ := .ok ()
  registered := ["watcher"]
  outgoingRegistered := rfl
  incomingRegistered := rfl
  upstreamRegistered _ := ⟨rfl, rfl⟩

def watchedRequest : JsonRpcRequest := .withoutParams (.number 1) "ping"

def watchedForwarded :
    watched.toHttpExchange.Forwarded watchedRequest where
  result := .passThrough (.request watchedRequest)
  req := watchedRequest
  reply := .success (.string ("req_" ++ toString (0 : UInt64).toNat))
    ⟨.null, .null⟩
  incoming := .passThrough (.response (.success
    (.string ("req_" ++ toString (0 : UInt64).toNat)) ⟨.null, .null⟩))
  intercepted := rfl
  unblocked := rfl
  message := rfl
  ready := rfl
  released :=
    { answered := ⟨_, rfl, rfl, rfl⟩
      intercepted := rfl
      unblocked := rfl }

/-- The watcher runs twice on the request, and in the one server also twice
on the response. -/
theorem watched_not_exactlyOnce :
    InterceptorCall.invocations
        (watched.handleMcpPasses (.request watchedRequest)) .outgoing 0 = 2 ∧
      InterceptorCall.invocations
        (watched.handleMcpPasses (.request watchedRequest)) .incoming 0 = 2 ∧
      InterceptorCall.invocations
        (watched.handleSsePasses (.request watchedRequest)) .outgoing 0 = 2 ∧
      ¬ InterceptorCall.ExactlyOnce
        (watched.handleMcpPasses (.request watchedRequest))
        watched.registered.length ∧
      ¬ InterceptorCall.ExactlyOnce
        (watched.handleSsePasses (.request watchedRequest))
        watched.registered.length := by
  rw [watchedForwarded.handleMcpPasses_eq, watchedForwarded.handleSsePasses_eq]
  refine ⟨rfl, rfl, rfl, ?_, ?_⟩
  · intro honce
    have hruns := (honce 0 (by decide)).1
    exact absurd hruns (by decide)
  · intro honce
    have hruns := (honce 0 (by decide)).1
    exact absurd hruns (by decide)

def watchedQueries : QueryExchange.Wired where
  floats := tableFloats
  overflowChecks := true
  ownPass := ⟨watching, Auth.smallInstant, 0⟩
  interceptorDelayMs := 0.0
  attempts _ _ := watchedAttempt
  elapsed _ := 0
  debugText _ := "None"
  registered := ["watcher"]
  ownRegistered := rfl
  clientRegistered _ _ := ⟨rfl, rfl⟩

def watchedHandler : HttpHandler where
  sessionId := nilUuid
  availableTools := none
  client := McpClient.retryingClient
  calls := []

/-- A query that asks for the tools. -/
def watchedJob : TuiQueryJob where
  correlationId := nilUuid
  query := "list tools"
  mcpMethod := some "tools/list"
  mcpParams := none
  responder := ⟨0⟩

def watchedCall : McpClient.Call :=
  McpClient.retryingClient.callFor true (fun _ => watchedAttempt) "tools/list"
    emptyParams

def watchedQuery :
    watchedHandler.Forwarded watchedQueries.toQueryExchange watchedJob where
  next := watchedHandler
  method := "tools/list"
  params := emptyParams
  call := watchedCall
  reply := .success (.string ("req_" ++ toString (0 : UInt64).toNat))
    ⟨.null, .null⟩
  incoming := .passThrough (.response (.success
    (.string ("req_" ++ toString (0 : UInt64).toNat)) ⟨.null, .null⟩))
  chosen := rfl
  final := rfl
  released :=
    { answered := ⟨_, rfl, rfl, rfl⟩
      intercepted := rfl
      unblocked := rfl }

/-- On none of the three paths does the watcher run once. -/
theorem exactlyOnce_paths_watched :
    ¬ InterceptorCall.ExactlyOnce
        (watched.handleMcpPasses (.request watchedRequest)) 1 ∧
      ¬ InterceptorCall.ExactlyOnce
        (watched.handleSsePasses (.request watchedRequest)) 1 ∧
      ¬ InterceptorCall.ExactlyOnce
        (watchedHandler.queryPasses watchedQueries.toQueryExchange
          watchedJob) 1 := by
  obtain ⟨hmcp, hsse, hquery⟩ :=
    exactlyOnce_paths_iff watched watchedForwarded watchedQueries watchedQuery
  refine ⟨fun honce => ?_, fun honce => ?_, fun honce => ?_⟩
  · exact (hmcp.mp honce 0 Nat.one_pos).1 rfl
  · exact (hsse.mp honce 0 Nat.one_pos).1 rfl
  · exact (hquery.mp honce 0 Nat.one_pos).1 rfl

end Transport
end Acdp
