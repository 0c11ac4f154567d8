import Acdp.TransportHttpServers
import Acdp.TransportStdioTransparency

/-!
# The identifier of an HTTP response

The upstream client numbers its requests itself, and neither server puts the
identifier of its own client's request back into the reply.  A client gets
its identifier only from an interceptor that writes it, from a backend that
makes it up, or with the message that a request was blocked.
-/

namespace Acdp
namespace Transport

open Acdp.Core Json
open StdioHandler (emptyParams)

namespace HttpExchange

/-- The identifier of what stands for a response with the given identifier
after a pass through the interceptors. -/
def finalId (interception : InterceptionResult) (id : RequestId) : RequestId :=
  match interception.message with
  | .response resp => resp.id
  | _ => id

theorem finalResponse_id (interception : InterceptionResult)
    (response : JsonRpcResponse) :
    (McpClient.finalResponse interception response).id =
      finalId interception response.id := by
  unfold McpClient.finalResponse finalId
  cases interception.message with
  | response resp => rfl
  | request req => rfl
  | notification notif => rfl

def AnswersWithId (answer : HttpAnswer) (id : RequestId) : Prop :=
  ∀ sessionId body, answer = .response sessionId body → body.id = id

/-- Whatever comes back for the message, `id` is what its identifier turns
into after the client's interceptors and then `later`. -/
def BringsId (self : HttpExchange)
    (later : JsonRpcResponse → RequestId → RequestId → Prop)
    (id : RequestId) : JsonRpcMessage → Prop
  | .request req =>
      self.client.state = .ready → ∀ reply incoming,
        (self.upstreamCall req).Returns self.retries reply incoming →
          later (McpClient.finalResponse incoming reply)
            (finalId incoming reply.id) id
  | .notification notif =>
      self.sendNotification notif = .ok () → later sentResponse .null id
  | .response _ => True

theorem bringsId_iff {self : HttpExchange}
    {later : JsonRpcResponse → RequestId → RequestId → Prop} {id : RequestId}
    {message : JsonRpcMessage} :
    self.BringsId later id message ↔
      ∀ response, self.Replied message response →
        later response response.id id := by
  cases message with
  | request req =>
      simp only [BringsId, Replied]
      constructor
      · rintro hbrings response ⟨hready, reply, incoming, hreturns, hresponse⟩
        have hlater := hbrings hready reply incoming hreturns
        rwa [← finalResponse_id, hresponse] at hlater
      · intro hbrings hready reply incoming hreturns
        rw [← finalResponse_id]
        exact hbrings _ ⟨hready, reply, incoming, hreturns, rfl⟩
  | notification notif =>
      simp only [BringsId, Replied]
      constructor
      · rintro hbrings response ⟨hsent, hresponse⟩
        rw [← hresponse]
        exact hbrings hsent
      · intro hbrings hsent
        exact hbrings _ ⟨hsent, rfl⟩
  | response resp => simp [BringsId, Replied]

/-- The request is not blocked, and what comes back for it carries its
identifier when `later` has been over it. -/
def KeepsId (self : HttpExchange)
    (later : JsonRpcResponse → RequestId → RequestId → Prop)
    (request : JsonRpcRequest) : Prop :=
  ∀ result, self.outgoing.intercept (.request request) .outgoing
      self.sessionId = .ok result →
    result.block = false → self.BringsId later request.id result.message

/-- The pass through the server's interceptors on the way back. -/
def incomingId (self : HttpExchange) (response : JsonRpcResponse)
    (id kept : RequestId) : Prop :=
  ∀ interception, self.incoming.intercept (.response response) .incoming
      self.sessionId = .ok interception →
    finalId interception id = kept

/-- There is no pass on the way back. -/
def sameId (_ : JsonRpcResponse) (id kept : RequestId) : Prop := id = kept

theorem handleMcpRequest_id_iff (self : HttpExchange)
    (request : JsonRpcRequest) :
    AnswersWithId (self.handleMcpRequest (some (.request request)))
        request.id ↔
      self.KeepsId self.incomingId request := by
  unfold AnswersWithId KeepsId
  simp only [handleMcpRequest_eq_response_iff, bringsId_iff]
  constructor
  · intro hanswers result hresult hblock response hreplied interception
      hinterception
    rw [← finalResponse_id]
    exact hanswers self.sessionId _ ⟨rfl, result, hresult,
      Or.inr ⟨hblock, response, interception, hreplied, hinterception, rfl⟩⟩
  · rintro hkeeps sessionId body ⟨_, result, hresult, hbody⟩
    rcases hbody with ⟨_, hbody⟩ |
      ⟨hblock, response, interception, hreplied, hinterception, hbody⟩
    · rw [← hbody]
      rfl
    · rw [← hbody, finalResponse_id]
      exact hkeeps result hresult hblock response hreplied interception
        hinterception

theorem handleSsePost_id_iff (self : HttpExchange)
    (request : JsonRpcRequest) :
    AnswersWithId (self.handleSsePost (some (.request request))) request.id ↔
      self.KeepsId sameId request := by
  unfold AnswersWithId KeepsId
  simp only [handleSsePost_eq_response_iff, bringsId_iff]
  constructor
  · intro hanswers result hresult hblock response hreplied
    exact hanswers self.sessionId _ ⟨rfl, result, hresult, hblock, hreplied⟩
  · rintro hkeeps sessionId body ⟨_, result, hresult, hblock, hreplied⟩
    exact hkeeps result hresult hblock body hreplied

/-- The client of either server gets its identifier back exactly when every
reply that gets through carries it: the request is blocked or fails, or the
identifier of the reply, unless interceptors replace it the one that the
backend gave, is that of the client's request. -/
theorem answersWithId_iff (self : HttpExchange) (request : JsonRpcRequest) :
    (AnswersWithId (self.handleMcpRequest (some (.request request)))
        request.id ↔
      self.KeepsId self.incomingId request) ∧
    (AnswersWithId (self.handleSsePost (some (.request request)))
        request.id ↔
      self.KeepsId sameId request) :=
  ⟨self.handleMcpRequest_id_iff request, self.handleSsePost_id_iff request⟩

/-! ## Backends that echo the identifier -/

theorem upstreamCall_request_id (self : HttpExchange) (req : JsonRpcRequest) :
    (self.upstreamCall req).request.id =
      .string ("req_" ++ toString self.client.requestCounter.toNat) := rfl

/-- Where nothing is rewritten on the way, the identifier that a server gets
from a backend that echoes it is the upstream client's own. -/
theorem replied_id_of_echoed {self : HttpExchange}
    (hattempts : ∀ attempt,
      LetsEverythingPass (self.attempts attempt).outgoing ∧
        LetsEverythingPass (self.attempts attempt).incoming)
    (hecho : ∀ attempt req timeout reply,
      (self.attempts attempt).transport req timeout = .ok reply →
        reply.id = req.id)
    {request : JsonRpcRequest} {response : JsonRpcResponse}
    (hreplied : self.Replied (.request request) response) :
    response.id =
      .string ("req_" ++ toString self.client.requestCounter.toNat) := by
  obtain ⟨_, reply, incoming, ⟨attempt, _, _, hreleased⟩, hresponse⟩ := hreplied
  obtain ⟨outgoing, houtgoing, _, htransport⟩ := hreleased.answered
  have hsent : Except.ok (.passThrough
      (.request (self.upstreamCall request).request)) = Except.ok outgoing :=
    (processMessage_of_passesThrough (hattempts attempt).1 _ _ _ _ _).symm.trans
      houtgoing
  have hreceived : Except.ok (.passThrough (.response reply)) =
      Except.ok incoming :=
    (processMessage_of_passesThrough (hattempts attempt).2 _ _ _ _ _).symm.trans
      hreleased.intercepted
  cases hsent
  cases hreceived
  rw [← hresponse]
  exact (hecho attempt _ _ reply htransport).trans
    (self.upstreamCall_request_id request)

/-- Then either server answers with the upstream client's identifier,
whatever the request's own is. -/
theorem id_of_echoed {self : HttpExchange}
    (houtgoing : LetsEverythingPass self.outgoing.manager)
    (hincoming : LetsEverythingPass self.incoming.manager)
    (hattempts : ∀ attempt,
      LetsEverythingPass (self.attempts attempt).outgoing ∧
        LetsEverythingPass (self.attempts attempt).incoming)
    (hecho : ∀ attempt req timeout reply,
      (self.attempts attempt).transport req timeout = .ok reply →
        reply.id = req.id)
    (request : JsonRpcRequest) :
    AnswersWithId (self.handleMcpRequest (some (.request request)))
        (.string ("req_" ++ toString self.client.requestCounter.toNat)) ∧
      AnswersWithId (self.handleSsePost (some (.request request)))
        (.string ("req_" ++ toString self.client.requestCounter.toNat)) := by
  have hpassed : self.outgoing.intercept (.request request) .outgoing
      self.sessionId = .ok (.passThrough (.request request)) :=
    processMessage_of_passesThrough houtgoing _ _ _ _ _
  constructor
  · intro sessionId body hanswer
    obtain ⟨_, result, hresult, hbody⟩ :=
      handleMcpRequest_eq_response_iff.mp hanswer
    cases hpassed.symm.trans hresult
    rcases hbody with ⟨hblock, _⟩ |
      ⟨_, response, interception, hreplied, hinterception, hbody⟩
    · cases hblock
    · have hunchanged : self.incoming.intercept (.response response) .incoming
          self.sessionId = .ok (.passThrough (.response response)) :=
        processMessage_of_passesThrough hincoming _ _ _ _ _
      cases hunchanged.symm.trans hinterception
      rw [← hbody]
      exact replied_id_of_echoed hattempts hecho hreplied
  · intro sessionId body hanswer
    obtain ⟨_, result, hresult, _, hreplied⟩ :=
      handleSsePost_eq_response_iff.mp hanswer
    cases hpassed.symm.trans hresult
    exact replied_id_of_echoed hattempts hecho hreplied

/-! ## A request with an identifier of its own -/

def quietMoment : Moment := ⟨.new, Auth.smallInstant, 0⟩

def echoing : Attempt where
  outgoing := .new
  outgoingAt := Auth.smallInstant
  outgoingMillis := 0
  transport request _ := .ok (.success request.id ⟨.null, .null⟩)
  incoming := .new
  incomingAt := Auth.smallInstant
  incomingMillis := 0

def numberedRequest : JsonRpcRequest := .withoutParams (.number 1) "ping"

def echoed : HttpExchange where
  sessionHeader := some "session"
  freshSession := nilUuid
  outgoing := quietMoment
  incoming := quietMoment
  overflowChecks := true
  client := McpClient.retryingClient
  attempts _ := echoing
  notified _ := .ok ()

def numberedReply : JsonRpcResponse :=
  .success (echoed.upstreamCall numberedRequest).request.id ⟨.null, .null⟩

theorem echoed_replied :
    echoed.Replied (.request numberedRequest) numberedReply := by
  have hreleased : (echoed.upstreamCall numberedRequest).Released 0
      numberedReply (.passThrough (.response numberedReply)) :=
    { answered := ⟨_, rfl, rfl, rfl⟩
      intercepted := rfl
      unblocked := rfl }
  refine ⟨rfl, numberedReply, _, ⟨0, Nat.zero_le _, ?_, hreleased⟩, rfl⟩
  intro earlier hearlier
  exact absurd hearlier (Nat.not_lt_zero earlier)

/-- The response to request 1 carries the identifier `req_0`. -/
theorem echoed_not_answersWithId :
    ¬ AnswersWithId (echoed.handleMcpRequest
        (some (.request numberedRequest))) numberedRequest.id ∧
      ¬ AnswersWithId (echoed.handleSsePost
        (some (.request numberedRequest))) numberedRequest.id := by
  constructor
  · intro hanswers
    have hanswer : echoed.handleMcpRequest (some (.request numberedRequest)) =
        .response "session" numberedReply :=
      handleMcpRequest_eq_response_iff.mpr ⟨rfl, _, rfl,
        Or.inr ⟨rfl, numberedReply, _, echoed_replied, rfl, rfl⟩⟩
    cases hanswers _ _ hanswer
  · intro hanswers
    have hanswer : echoed.handleSsePost (some (.request numberedRequest)) =
        .response "session" numberedReply :=
      handleSsePost_eq_response_iff.mpr ⟨rfl, _, rfl, rfl, echoed_replied⟩
    cases hanswers _ _ hanswer

end HttpExchange
end Transport
end Acdp
