import Acdp.CoreCorrelation
import Acdp.CoreHttpStreamTransport

/-!
# Whose answer a transport returns

A call of `send_request` on any of the transports, together with what it
meets while it runs.  Where the response comes through a wait, it can be
another one only if the identifiers are confusable; where it comes in the body
of a reply, the transport does not look at its identifier.
-/

namespace Acdp
namespace Core

open Auth (Duration)
open Json (OrderedValue)
open HttpSseTransport (awaited)

/-- The first response that has the text of the request's identifier is not
one of a confusable request. -/
def Unconfused (request : JsonRpcRequest) (messages : List JsonRpcMessage) :
    Prop :=
  ∀ response, messages.findSome?
      (awaited request.id.display) = some response →
    ¬ RequestId.Confusable response.id request.id

theorem unconfused_iff (request : JsonRpcRequest)
    (messages : List JsonRpcMessage) :
    (∀ response, messages.findSome?
        (awaited request.id.display) = some response →
      response.id = request.id) ↔ Unconfused request messages := by
  apply forall₂_congr
  intro response hfound
  have hkey := HttpSseTransport.display_of_findSome_awaited hfound
  rw [← RequestId.eq_of_display_eq_iff]
  simp [hkey]

/-! ## A call of the stdio transport -/

namespace StdioTransport

/-- The transport after the child has written the lines. -/
def readLines (json : SerdeJson) (self : StdioTransport)
    (lines : List String) : StdioTransport :=
  lines.foldl
    (fun self line => if self.reading then self.readLine json line else self)
    self

/-- A whole call: while it waits the child writes the lines, and it returns by
its timer if no answer has come. -/
def completeRequest (json : SerdeJson) (self : StdioTransport)
    (request : JsonRpcRequest) (timeout : Option Duration)
    (lines : List String) : StdioTransport :=
  let waited := (self.sendRequest request timeout).readLines json lines
  match waited.call with
  | some call => waited.resume call true
  | none => waited

def heardFrom (json : SerdeJson) (self : StdioTransport)
    (lines : List String) : List JsonRpcMessage :=
  if self.reading then lines.filterMap (messageOn json) else []

def offerAll (messages : List JsonRpcMessage) (call : StdioCall) :
    StdioCall :=
  { call with
    answer := call.answer.or
      (messages.findSome? (awaited call.request.id.display)) }

theorem offerAll_nil : offerAll [] = id := by
  funext call
  simp [offerAll]

theorem offerAll_cons (message : JsonRpcMessage)
    (messages : List JsonRpcMessage) :
    offerAll (message :: messages) = offerAll messages ∘ offer message := by
  funext call
  have hfirst : (message :: messages).findSome?
        (awaited call.request.id.display) =
      (awaited call.request.id.display message).or
        (messages.findSome? (awaited call.request.id.display)) := by
    rw [List.findSome?_cons]
    cases awaited call.request.id.display message <;> rfl
  simp only [offerAll, offer, Function.comp_apply, hfirst, Option.or_assoc]

theorem Registered.readLine_call {self : StdioTransport}
    (hregistered : self.Registered) (json : SerdeJson) (line : String) :
    (self.readLine json line).call =
      self.call.map (offerAll (messageOn json line).toList) := by
  rw [readLine_eq]
  cases messageOn json line with
  | none => simp [offerAll_nil]
  | some message =>
      simp [hregistered.dispatch_call, offerAll_cons, offerAll_nil]

theorem readLines_invariant {json : SerdeJson} {p : StdioTransport → Prop}
    (hline : ∀ self line, p self → p (self.readLine json line))
    {self : StdioTransport} (hself : p self) (lines : List String) :
    p (self.readLines json lines) := by
  apply List.foldlRecOn lines _ hself
  intro before hbefore line _
  split
  · exact hline before line hbefore
  · exact hbefore

theorem Registered.readLines {self : StdioTransport}
    (hregistered : self.Registered) (json : SerdeJson)
    (lines : List String) : (self.readLines json lines).Registered :=
  readLines_invariant (fun _ line hbefore => hbefore.readLine json line)
    hregistered lines

theorem readLines_results (json : SerdeJson) (self : StdioTransport)
    (lines : List String) :
    (self.readLines json lines).results = self.results := by
  apply readLines_invariant (p := fun after => after.results = self.results)
  · intro before line hbefore
    exact (framed_readLine json before line).results.trans hbefore
  · rfl

theorem readLines_cons (json : SerdeJson) (self : StdioTransport)
    (line : String) (rest : List String) :
    self.readLines json (line :: rest) =
      (if self.reading then self.readLine json line else self).readLines json
        rest := rfl

/-- While a call waits it is offered every message the child writes. -/
theorem Registered.readLines_call {self : StdioTransport}
    (hregistered : self.Registered)
    (hbusy : self.call ≠ none → self.connected = true) (json : SerdeJson)
    (lines : List String) :
    (self.readLines json lines).call =
      self.call.map (offerAll (self.heardFrom json lines)) := by
  induction lines generalizing self with
  | nil => simp [StdioTransport.readLines, heardFrom, offerAll_nil]
  | cons line rest ih =>
      have hframed := framed_readLine json self line
      have hcall := hregistered.readLine_call json line
      by_cases hreading : self.reading = true
      · have hbusyNext : (self.readLine json line).call ≠ none →
            (self.readLine json line).connected = true := by
          intro hwaits
          rw [hframed.connected]
          apply hbusy
          intro hidle
          simp [hcall, hidle] at hwaits
        rw [readLines_cons, if_pos hreading,
          ih (hregistered.readLine json line) hbusyNext, hcall]
        cases hself : self.call with
        | none => simp only [Option.map_none]
        | some call =>
            have hconnected := hbusy (by simp [hself])
            have hstill := (hframed.reading hconnected).trans hreading
            simp only [heardFrom, hstill, hreading, if_true]
            cases hmessage : messageOn json line with
            | none => simp [hmessage, offerAll_nil]
            | some message =>
                simp [hmessage, offerAll_cons, offerAll_nil]
      · rw [readLines_cons, if_neg hreading, ih hregistered hbusy]
        simp [heardFrom, hreading]

theorem Registered.senderAlive {self : StdioTransport}
    (hregistered : self.Registered) {call : StdioCall}
    (hcall : self.call = some call) (hanswer : call.answer = none) :
    self.senderAlive call.channel = true := by
  have hmem :=
    mem_of_lookup_eq_some (hregistered.filed call hcall hanswer)
  rw [StdioTransport.senderAlive, List.any_eq_true]
  exact ⟨_, hmem, by simp⟩

def requestOutcome (json : SerdeJson) (self : StdioTransport)
    (request : JsonRpcRequest) (timeout : Option Duration)
    (lines : List String) : McpResult JsonRpcResponse :=
  if self.connected then
    if self.writing then
      match (self.heardFrom json lines).findSome?
          (awaited request.id.display) with
      | some response => .ok response
      | none =>
          .error (.transport (.timeoutError "stdio"
            ("Request " ++ request.id.display ++ " timed out after " ++
              debugDuration (timeout.getD (Duration.fromSecs 30)))))
    else
      .error (.transport (.processError
        "Failed to send request to child process"))
  else .error notConnected

theorem completeRequest_of_finished {json : SerdeJson}
    {self : StdioTransport} {request : JsonRpcRequest}
    {timeout : Option Duration}
    (hregistered : (self.sendRequest request timeout).Registered)
    (hfinished : (self.sendRequest request timeout).call = none)
    (lines : List String) :
    (self.completeRequest json request timeout lines).results =
      (self.sendRequest request timeout).results := by
  have hcall := hregistered.readLines_call (by simp [hfinished]) json lines
  rw [hfinished, Option.map_none] at hcall
  rw [completeRequest, hcall]
  exact readLines_results json _ lines

/-- A call that has been sent waits, and returns the first response that has
the text of its identifier. -/
theorem Registered.completeRequest_of_sent {self : StdioTransport}
    (hregistered : self.Registered) (hconnected : self.connected = true)
    (hwriting : self.writing = true) (json : SerdeJson)
    (request : JsonRpcRequest) (timeout : Option Duration)
    (lines : List String) :
    (self.completeRequest json request timeout lines).results =
      self.results ++
        [(request, self.requestOutcome json request timeout lines)] := by
  have hsent := hregistered.sendRequest request timeout
  have hcall := hsent.readLines_call
    (by simp [StdioTransport.sendRequest, hconnected, hwriting]) json lines
  have hwaited := hsent.readLines json lines
  have hresults := readLines_results json (self.sendRequest request timeout)
    lines
  have hheard : (self.sendRequest request timeout).heardFrom json lines =
      self.heardFrom json lines := by
    simp [StdioTransport.sendRequest, hconnected, hwriting, heardFrom]
  have hstart : (self.sendRequest request timeout).call =
      some ⟨self.channels, request, timeout.getD (Duration.fromSecs 30),
        none⟩ := by
    simp [StdioTransport.sendRequest, hconnected, hwriting]
  have hbefore : (self.sendRequest request timeout).results =
      self.results := by
    simp [StdioTransport.sendRequest, hconnected, hwriting]
  rw [hheard, hstart, Option.map_some, offerAll, Option.none_or] at hcall
  rw [hbefore] at hresults
  rw [completeRequest, hcall]
  simp only [requestOutcome, hconnected, hwriting, if_true]
  cases hfound : (self.heardFrom json lines).findSome?
      (awaited request.id.display) with
  | some response =>
      simp [StdioTransport.resume, StdioTransport.finish, hresults]
  | none =>
      rw [hfound] at hcall
      have halive := hwaited.senderAlive hcall rfl
      simp only at halive
      simp [StdioTransport.resume, StdioTransport.finish, halive, hresults]

theorem Registered.completeRequest_results {self : StdioTransport}
    (hregistered : self.Registered) (json : SerdeJson)
    (request : JsonRpcRequest) (timeout : Option Duration)
    (lines : List String) :
    (self.completeRequest json request timeout lines).results =
      self.results ++
        [(request, self.requestOutcome json request timeout lines)] := by
  have hsent := hregistered.sendRequest request timeout
  by_cases hconnected : self.connected = true
  · by_cases hwriting : self.writing = true
    · exact hregistered.completeRequest_of_sent hconnected hwriting json
        request timeout lines
    · rw [completeRequest_of_finished hsent]
      · simp [StdioTransport.sendRequest, StdioTransport.finish,
          requestOutcome, hconnected, hwriting]
      · simp [StdioTransport.sendRequest, StdioTransport.finish, hconnected,
          hwriting]
  · rw [completeRequest_of_finished hsent]
    · simp [StdioTransport.sendRequest, StdioTransport.finish,
        requestOutcome, hconnected]
    · simp [StdioTransport.sendRequest, StdioTransport.finish, hconnected]

theorem requestOutcome_eq_ok_iff (json : SerdeJson) (self : StdioTransport)
    (request : JsonRpcRequest) (timeout : Option Duration)
    (lines : List String) (response : JsonRpcResponse) :
    self.requestOutcome json request timeout lines = .ok response ↔
      (self.connected = true ∧ self.writing = true) ∧
        (self.heardFrom json lines).findSome?
          (awaited request.id.display) = some response := by
  unfold requestOutcome
  split_ifs with hconnected hwriting
  · cases (self.heardFrom json lines).findSome?
        (awaited request.id.display) <;> simp [hconnected, hwriting]
  · simp [hwriting]
  · simp [hconnected]

end StdioTransport

/-! ## A call of the transport with event streams -/

def documentId : Json → Option RequestId
  | .obj members => Json.requiredField RequestId.deserialize members "id"
  | .arr (_ :: id :: _) => RequestId.deserialize id
  | _ => none

theorem documentId_of_deserialize {floats : Json.FloatText} {doc : Json}
    {response : JsonRpcResponse}
    (hread : JsonRpcResponse.deserialize floats doc = some response) :
    documentId doc = some response.id := by
  cases doc with
  | obj members =>
      simp only [JsonRpcResponse.deserialize, JsonRpcResponse.ofMembers,
        Option.bind_eq_bind, Option.bind_eq_some_iff,
        Option.some.injEq] at hread
      obtain ⟨_, _, id, hid, _, _, _, _, rfl⟩ := hread
      exact hid
  | arr elements =>
      simp only [JsonRpcResponse.deserialize] at hread
      unfold JsonRpcResponse.ofElements at hread
      split at hread
      next jsonrpc id result error =>
        simp only [Option.bind_eq_bind, Option.bind_eq_some_iff,
          Option.some.injEq] at hread
        obtain ⟨_, _, _, hid, _, _, _, _, rfl⟩ := hread
        exact hid
      next => simp at hread
  | _ => simp [JsonRpcResponse.deserialize] at hread

theorem documentId_of_ofDocument {floats : Json.FloatText} {doc : Json}
    {response : JsonRpcResponse}
    (hread : JsonRpcResponse.ofDocument floats doc = some response) :
    documentId doc = some response.id := by
  unfold JsonRpcResponse.ofDocument at hread
  split_ifs at hread
  exact documentId_of_deserialize hread

def BodyCarries (json : SerdeJson) (request : JsonRpcRequest)
    (reply : HttpReply) : Prop :=
  ∀ text doc, reply.body = .ok text → json.parse text = .ok doc →
    (JsonRpcResponse.ofDocument json.floats doc).isSome = true →
    documentId doc = some request.id

namespace HttpSseTransport

theorem readBody_eq_ok_iff (json : SerdeJson) (protocol : String)
    (reply : HttpReply) (response : JsonRpcResponse) :
    readBody json protocol reply = .ok response ↔
      ∃ text doc, reply.body = .ok text ∧ json.parse text = .ok doc ∧
        JsonRpcResponse.ofDocument json.floats doc = some response := by
  unfold readBody SerdeJson.response SerdeJson.read
  cases hbody : reply.body with
  | error e => simp
  | ok text =>
      cases hparse : json.parse text with
      | error e => simp [hparse, bind, Except.bind]
      | ok doc =>
          cases hdoc : JsonRpcResponse.ofDocument json.floats doc <;>
            simp [hparse, hdoc, bind, Except.bind]

theorem bodyCarries_iff (json : SerdeJson) (protocol : String)
    (request : JsonRpcRequest) (reply : HttpReply) :
    (∀ response, readBody json protocol reply = .ok response →
        response.id = request.id) ↔ BodyCarries json request reply := by
  simp only [readBody_eq_ok_iff]
  constructor
  · intro hall text doc hbody hparse hsome
    obtain ⟨response, hresponse⟩ := Option.isSome_iff_exists.mp hsome
    have hid := hall response ⟨text, doc, hbody, hparse, hresponse⟩
    rw [← hid]
    exact documentId_of_ofDocument hresponse
  · rintro hcarries response ⟨text, doc, hbody, hparse, hresponse⟩
    have hid := hcarries text doc hbody hparse (by simp [hresponse])
    rw [documentId_of_ofDocument hresponse, Option.some.injEq] at hid
    exact hid

/-- The reply to the request brings no other answer: its body carries the
identifier, or the wait it opens is not confused. -/
def ReplyAnswers (json : SerdeJson) (request : JsonRpcRequest)
    (exchange : HttpExchange) (contentType : String) (reply : HttpReply) :
    Prop :=
  if Text.contains contentType "application/json" = true then
    BodyCarries json request reply
  else
    Text.contains contentType "text/event-stream" = true →
      Unconfused request
        (heard exchange.monitor (some (handleSseResponse json reply)))

/-- The condition on what a call meets, by the branches of the transport. -/
def Answers (json : SerdeJson) (self : HttpSseTransport)
    (request : JsonRpcRequest) (exchange : HttpExchange) : Prop :=
  self.connected = true → exchange.timer = .inTime →
    ∀ reply, exchange.reply = .ok reply →
      if self.detectProtocolVersion = .httpSse then
        if reply.status = 202 then
          Unconfused request (heard exchange.monitor exchange.receiver)
        else
          ReplyAnswers json request exchange (reply.contentType.getD "") reply
      else
        reply.sessionHeader.elim (.ok ()) self.validateSessionId = .ok () →
          ReplyAnswers json request exchange
            (reply.contentType.getD "application/json") reply

theorem map_some_eq_ok_iff (result : McpResult JsonRpcResponse)
    (response : JsonRpcResponse) :
    result.map some = .ok (some response) ↔ result = .ok response := by
  cases result <;> simp [Except.map]

theorem map_some_ne_none (result : McpResult JsonRpcResponse) :
    result.map some ≠ .ok none := by
  cases result <;> simp [Except.map]

theorem awaitAnswer_iff (request : JsonRpcRequest) (exchange : HttpExchange)
    (receiver : Option Inbound) :
    (∀ response, awaitAnswer (.request request) exchange receiver =
        .ok (some response) → response.id = request.id) ↔
      Unconfused request (heard exchange.monitor receiver) := by
  rw [← unconfused_iff]
  simp only [awaitAnswer, map_some_eq_ok_iff, waitForSseResponse_eq_ok_iff]

theorem readBody_iff (json : SerdeJson) (protocol : String)
    (request : JsonRpcRequest) (reply : HttpReply) :
    (∀ response, (readBody json protocol reply).map some =
        .ok (some response) → response.id = request.id) ↔
      BodyCarries json request reply := by
  simp only [map_some_eq_ok_iff]
  exact bodyCarries_iff json protocol request reply

theorem replyAnswers_iff (json : SerdeJson) (protocol : String)
    (request : JsonRpcRequest) (exchange : HttpExchange)
    (contentType : String) (reply : HttpReply) (after : HttpSseTransport)
    (e : McpError) :
    (∀ response,
      (if Text.contains contentType "application/json" then
          (after, (readBody json protocol reply).map some)
        else if Text.contains contentType "text/event-stream" then
          (after, awaitAnswer (.request request) exchange
            (some (handleSseResponse json reply)))
        else (after, .error e)).2 = .ok (some response) →
      response.id = request.id) ↔
      ReplyAnswers json request exchange contentType reply := by
  unfold ReplyAnswers
  by_cases hjson : Text.contains contentType "application/json" = true
  · simp only [hjson, if_true]
    exact readBody_iff json protocol request reply
  · by_cases hstream : Text.contains contentType "text/event-stream" = true
    · simp only [hjson, hstream, Bool.false_eq_true, if_false, if_true,
        forall_const]
      exact awaitAnswer_iff request exchange _
    · simp [hjson, hstream]

theorem sendStreamableHttpRequest_iff (json : SerdeJson)
    (self : HttpSseTransport) (request : JsonRpcRequest)
    (exchange : HttpExchange) :
    (∀ response, (self.sendStreamableHttpRequest json (.request request)
        exchange).2 = .ok (some response) → response.id = request.id) ↔
      ∀ reply, exchange.reply = .ok reply →
        reply.sessionHeader.elim (.ok ()) self.validateSessionId = .ok () →
        ReplyAnswers json request exchange
          (reply.contentType.getD "application/json") reply := by
  unfold sendStreamableHttpRequest
  cases hreply : exchange.reply with
  | error e => simp
  | ok reply =>
      simp only [Except.ok.injEq, forall_eq']
      cases hheader :
          reply.sessionHeader.elim (.ok ()) self.validateSessionId with
      | error e => simp
      | ok checked =>
          simp only [forall_const]
          exact replyAnswers_iff json "Modern" request exchange _ reply _ _

theorem sendLegacySseRequest_iff (json : SerdeJson)
    (self : HttpSseTransport) (request : JsonRpcRequest)
    (exchange : HttpExchange) :
    (∀ response, (self.sendLegacySseRequest json (.request request)
        exchange).2 = .ok (some response) → response.id = request.id) ↔
      ∀ reply, exchange.reply = .ok reply →
        if reply.status = 202 then
          Unconfused request (heard exchange.monitor exchange.receiver)
        else
          ReplyAnswers json request exchange (reply.contentType.getD "")
            reply := by
  unfold sendLegacySseRequest
  cases hreply : exchange.reply with
  | error e => simp
  | ok reply =>
      simp only [Except.ok.injEq, forall_eq']
      by_cases haccepted : reply.status = 202
      · simp only [haccepted, if_true]
        exact awaitAnswer_iff request exchange _
      · simp only [haccepted, if_false]
        exact replyAnswers_iff json "Legacy" request exchange _ reply _ _

theorem awaitAnswer_ne_none (request : JsonRpcRequest)
    (exchange : HttpExchange) (receiver : Option Inbound) :
    awaitAnswer (.request request) exchange receiver ≠ .ok none :=
  map_some_ne_none _

theorem sendStreamableHttpRequest_ne_none (json : SerdeJson)
    (self : HttpSseTransport) (request : JsonRpcRequest)
    (exchange : HttpExchange) :
    (self.sendStreamableHttpRequest json (.request request) exchange).2 ≠
      .ok none := by
  unfold sendStreamableHttpRequest
  split
  · simp
  · split
    · simp
    · simp only
      split_ifs
      · exact map_some_ne_none _
      · exact awaitAnswer_ne_none request exchange _
      · simp

theorem sendLegacySseRequest_ne_none (json : SerdeJson)
    (self : HttpSseTransport) (request : JsonRpcRequest)
    (exchange : HttpExchange) :
    (self.sendLegacySseRequest json (.request request) exchange).2 ≠
      .ok none := by
  unfold sendLegacySseRequest
  split
  · simp
  · simp only
    split_ifs
    · exact awaitAnswer_ne_none request exchange _
    · exact map_some_ne_none _
    · exact awaitAnswer_ne_none request exchange _
    · simp

theorem sendMcpRequest_ne_none (json : SerdeJson) (self : HttpSseTransport)
    (request : JsonRpcRequest) (exchange : HttpExchange) :
    (self.sendMcpRequest json (.request request) exchange).2 ≠ .ok none := by
  unfold sendMcpRequest
  cases self.detectProtocolVersion with
  | streamableHttp => exact sendStreamableHttpRequest_ne_none json _ _ _
  | httpSse => exact sendLegacySseRequest_ne_none json _ _ _
  | autoDetect => exact sendStreamableHttpRequest_ne_none json _ _ _

theorem sendRequest_eq_ok_iff (json : SerdeJson) (self : HttpSseTransport)
    (request : JsonRpcRequest) (timeout : Option Duration)
    (exchange : HttpExchange) (response : JsonRpcResponse) :
    (self.sendRequest json request timeout exchange).2 = .ok response ↔
      self.connected = true ∧ exchange.timer = .inTime ∧
        (self.sendMcpRequest json (.request request) exchange).2 =
          .ok (some response) := by
  unfold sendRequest
  by_cases hconnected : self.connected = true
  · have hsome := sendMcpRequest_ne_none json self request exchange
    cases exchange.timer with
    | beforeReply => simp [hconnected]
    | afterReply => simp [hconnected]
    | inTime =>
        simp only [hconnected, Bool.not_true, Bool.false_eq_true, if_false,
          true_and]
        cases hsent : (self.sendMcpRequest json (.request request)
            exchange).2 with
        | error e => simp
        | ok sent =>
            cases sent with
            | none => exact absurd hsent hsome
            | some found => simp
  · simp [hconnected]

theorem sendMcpRequest_iff (json : SerdeJson) (self : HttpSseTransport)
    (request : JsonRpcRequest) (exchange : HttpExchange) :
    (∀ response, (self.sendMcpRequest json (.request request)
        exchange).2 = .ok (some response) → response.id = request.id) ↔
      ∀ reply, exchange.reply = .ok reply →
        if self.detectProtocolVersion = .httpSse then
          if reply.status = 202 then
            Unconfused request (heard exchange.monitor exchange.receiver)
          else
            ReplyAnswers json request exchange (reply.contentType.getD "")
              reply
        else
          reply.sessionHeader.elim (.ok ()) self.validateSessionId = .ok () →
            ReplyAnswers json request exchange
              (reply.contentType.getD "application/json") reply := by
  have hmodern := sendStreamableHttpRequest_iff json
    { self with protocolVersion := self.detectProtocolVersion } request
    exchange
  have hlegacy := sendLegacySseRequest_iff json
    { self with protocolVersion := self.detectProtocolVersion } request
    exchange
  cases hversion : self.detectProtocolVersion with
  | streamableHttp =>
      rw [hversion] at hmodern
      simp only [sendMcpRequest, hversion, reduceCtorEq, if_false]
      exact hmodern
  | httpSse =>
      rw [hversion] at hlegacy
      simp only [sendMcpRequest, hversion, if_true]
      exact hlegacy
  | autoDetect =>
      rw [hversion] at hmodern
      simp only [sendMcpRequest, hversion, reduceCtorEq, if_false]
      exact hmodern

theorem sendRequest_iff (json : SerdeJson) (self : HttpSseTransport)
    (request : JsonRpcRequest) (timeout : Option Duration)
    (exchange : HttpExchange) :
    (∀ response, (self.sendRequest json request timeout exchange).2 =
        .ok response → response.id = request.id) ↔
      self.Answers json request exchange := by
  simp only [sendRequest_eq_ok_iff, Answers]
  rw [← sendMcpRequest_iff]
  constructor
  · intro hall hconnected htimer response hsent
    exact hall response ⟨hconnected, htimer, hsent⟩
  · rintro hall response ⟨hconnected, htimer, hsent⟩
    exact hall hconnected htimer response hsent

end HttpSseTransport

/-! ## A call of the streaming transport -/

namespace HttpStreamTransport

/-- The document names the identifier in its member `id`.  A member that is
missing or no identifier counts as `null`. -/
def Names (document : OrderedValue) : RequestId → Prop
  | .string text => (document.get "id").map Subtype.val = some (.str text)
  | .number value => ∃ number,
      (document.get "id").map Subtype.val = some (.number number) ∧
        number.asI64 = some value
  | .null => ∀ member, document.get "id" = some member →
      (∀ text, member.val ≠ .str text) ∧
        ∀ number, member.val = .number number → number.asI64 = none

theorem extractRequestId_eq_iff (document : OrderedValue) (id : RequestId) :
    extractRequestId document = id ↔ Names document id := by
  unfold extractRequestId
  cases hmember : document.get "id" with
  | none => cases id <;> simp [Names, hmember]
  | some member =>
      obtain ⟨value, hnormal⟩ := member
      cases value with
      | number number =>
          cases hnumber : number.asI64 with
          | none => cases id <;> simp [Names, hmember, hnumber]
          | some found => cases id <;> simp [Names, hmember, hnumber]
      | _ => cases id <;> simp [Names, hmember]

/-- A document with a result names the request's identifier. -/
def DocumentCarries (request : JsonRpcRequest) (document : OrderedValue) :
    Prop :=
  (document.get "result").isSome = true → Names document request.id

theorem parseJsonResponse_iff (json : SerdeJson) (request : JsonRpcRequest)
    (document : OrderedValue) :
    (∀ response, parseJsonResponse json document = .ok response →
        response.id = request.id) ↔ DocumentCarries request document := by
  unfold parseJsonResponse DocumentCarries
  rw [← extractRequestId_eq_iff]
  cases document.get "result" with
  | some result => simp
  | none => cases document.get "error" <;> simp

/-- The document in a body carries the request's identifier: the body itself,
or the first data line that has one. -/
def TextCarries (json : SerdeJson) (request : JsonRpcRequest)
    (text : String) : Prop :=
  match json.value text with
  | .ok document => DocumentCarries request document
  | .error _ => Text.contains text "data: " = true →
      ∀ document, (Text.lines text).findSome? (sseDocument json) =
        some document → DocumentCarries request document

theorem parseResponse_iff (json : SerdeJson) (request : JsonRpcRequest)
    (text : String) :
    (∀ response, parseResponse json text = .ok response →
        response.id = request.id) ↔ TextCarries json request text := by
  unfold parseResponse TextCarries
  cases json.value text with
  | ok document => exact parseJsonResponse_iff json request document
  | error e =>
      by_cases hdata : Text.contains text "data: " = true
      · simp only [hdata, if_true, forall_const, parseSseResponse]
        cases (Text.lines text).findSome? (sseDocument json) with
        | none => simp
        | some document =>
            simpa using parseJsonResponse_iff json request document
      · simp [hdata]

def posted (json : SerdeJson) (self : HttpStreamTransport)
    (request : JsonRpcRequest) : HttpPost :=
  self.post json (.request request)
    (if request.method = "initialize" then none else self.sessionId)

def Answers (json : SerdeJson) (self : HttpStreamTransport)
    (request : JsonRpcRequest)
    (server : HttpPost → Except String HttpStreamReply) (timer : CallTimer) :
    Prop :=
  self.connected = true → timer = .inTime →
    ∀ reply text, server (self.posted json request) = .ok reply →
      isSuccess reply.status = true → reply.body = .ok text →
      TextCarries json request text

theorem sendMcpRequest_eq_ok_iff (json : SerdeJson)
    (self : HttpStreamTransport) (message : JsonRpcMessage)
    (server : HttpPost → Except String HttpStreamReply)
    (response : JsonRpcResponse) :
    self.sendMcpRequest json message server = .ok response ↔
      ∃ reply text,
        server (self.post json message self.sessionId) = .ok reply ∧
          isSuccess reply.status = true ∧ reply.body = .ok text ∧
          parseResponse json text = .ok response := by
  unfold sendMcpRequest
  cases server (self.post json message self.sessionId) with
  | error e => simp
  | ok reply =>
      by_cases hsuccess : isSuccess reply.status = true
      · cases hbody : reply.body <;> simp [hsuccess, hbody]
      · simp [hsuccess]

theorem sendInitializeRequest_eq_ok_iff (json : SerdeJson)
    (self : HttpStreamTransport) (request : JsonRpcRequest)
    (server : HttpPost → Except String HttpStreamReply)
    (response : JsonRpcResponse) :
    (self.sendInitializeRequest json request server).2 = .ok response ↔
      ∃ reply text,
        server (self.post json (.request request) none) = .ok reply ∧
          isSuccess reply.status = true ∧ reply.body = .ok text ∧
          parseResponse json text = .ok response := by
  unfold sendInitializeRequest
  cases server (self.post json (.request request) none) with
  | error e => simp
  | ok reply =>
      by_cases hsuccess : isSuccess reply.status = true
      · cases hbody : reply.body <;> simp [hsuccess, hbody]
      · simp [hsuccess]

theorem sendRequest_eq_ok_iff (json : SerdeJson) (self : HttpStreamTransport)
    (request : JsonRpcRequest) (timeout : Option Duration)
    (server : HttpPost → Except String HttpStreamReply) (timer : CallTimer)
    (response : JsonRpcResponse) :
    (self.sendRequest json request timeout server timer).2 = .ok response ↔
      self.connected = true ∧ timer = .inTime ∧
        ∃ reply text, server (self.posted json request) = .ok reply ∧
          isSuccess reply.status = true ∧ reply.body = .ok text ∧
          parseResponse json text = .ok response := by
  unfold sendRequest posted
  by_cases hconnected : self.connected = true
  · cases timer with
    | beforeReply => simp [hconnected]
    | afterReply => simp [hconnected]
    | inTime =>
        by_cases hinitialize : request.method = "initialize"
        · have hsent :=
            sendInitializeRequest_eq_ok_iff json self request server response
          simpa [hconnected, hinitialize] using hsent
        · have hsent := sendMcpRequest_eq_ok_iff json self (.request request)
            server response
          simpa [hconnected, hinitialize] using hsent
  · simp [hconnected]

theorem sendRequest_iff (json : SerdeJson) (self : HttpStreamTransport)
    (request : JsonRpcRequest) (timeout : Option Duration)
    (server : HttpPost → Except String HttpStreamReply) (timer : CallTimer) :
    (∀ response, (self.sendRequest json request timeout server timer).2 =
        .ok response → response.id = request.id) ↔
      self.Answers json request server timer := by
  simp only [sendRequest_eq_ok_iff, Answers, ← parseResponse_iff]
  constructor
  · intro hall hconnected htimer reply text hreply hstatus hbody response
      hparse
    exact hall response
      ⟨hconnected, htimer, reply, text, hreply, hstatus, hbody, hparse⟩
  · rintro hall response
      ⟨hconnected, htimer, reply, text, hreply, hstatus, hbody, hparse⟩
    exact hall hconnected htimer reply text hreply hstatus hbody response
      hparse

end HttpStreamTransport

/-! ## Every transport -/

/-- A call of `send_request` with what it meets.  The stdio transport is in
any state that a run has led to and in which no other call is in progress. -/
inductive TransportCall (json : SerdeJson) where
  | stdio (self : StdioTransport) (trace : List StdioTransport.Action)
      (reached : (StdioTransport.machine json).run StdioTransport.opened
        trace = some self)
      (idle : self.call = none) (lines : List String)
  | httpSse (self : HttpSseTransport) (exchange : HttpExchange)
  | httpStream (self : HttpStreamTransport)
      (server : HttpPost → Except String HttpStreamReply)
      (timer : CallTimer)

namespace TransportCall

def Returns {json : SerdeJson} (request : JsonRpcRequest)
    (timeout : Option Duration) (result : McpResult JsonRpcResponse) :
    TransportCall json → Prop
  | .stdio self _ _ _ lines =>
      (self.completeRequest json request timeout lines).results =
        self.results ++ [(request, result)]
  | .httpSse self exchange =>
      (self.sendRequest json request timeout exchange).2 = result
  | .httpStream self server timer =>
      (self.sendRequest json request timeout server timer).2 = result

/-- The call meets no response but the request's, where the transport would
not notice the difference. -/
def Answered {json : SerdeJson} (request : JsonRpcRequest) :
    TransportCall json → Prop
  | .stdio self _ _ _ lines =>
      self.connected = true → self.writing = true →
        Unconfused request (self.heardFrom json lines)
  | .httpSse self exchange => self.Answers json request exchange
  | .httpStream self server timer => self.Answers json request server timer

/-- A call returns no response but the request's exactly when it meets
none. -/
theorem returns_own_response_iff (json : SerdeJson)
    (call : TransportCall json) (request : JsonRpcRequest)
    (timeout : Option Duration) :
    (∀ response, call.Returns request timeout (.ok response) →
        response.id = request.id) ↔ call.Answered request := by
  cases call with
  | httpSse self exchange =>
      exact HttpSseTransport.sendRequest_iff json self request timeout exchange
  | httpStream self server timer =>
      exact HttpStreamTransport.sendRequest_iff json self request timeout
        server timer
  | stdio self trace reached idle lines =>
      have hregistered := StdioTransport.registered_of_run reached
      have hresults := hregistered.completeRequest_results json request timeout
        lines
      simp only [Returns, hresults, List.append_cancel_left_eq,
        List.cons.injEq, Prod.mk.injEq, true_and, and_true,
        StdioTransport.requestOutcome_eq_ok_iff, Answered, ← unconfused_iff]
      constructor
      · intro hall hconnected hwriting response hfound
        exact hall response ⟨⟨hconnected, hwriting⟩, hfound⟩
      · rintro hall response ⟨⟨hconnected, hwriting⟩, hfound⟩
        exact hall hconnected hwriting response hfound

def secondRequest : JsonRpcRequest := .withoutParams (.number 2) "ping"

def firstResponse : JsonRpcResponse :=
  .success (.number 1) ⟨.str "done", .str "done"⟩

/-- A reply whose body is the response to another request. -/
def strangerExchange : HttpExchange where
  reply := .ok
    { status := 200
      contentType := some "application/json"
      sessionHeader := none
      body := .ok StdioTransport.lateLine
      events := []
      ending := .closed }
  monitor := none
  receiver := none
  timer := .inTime

def strangerCall : TransportCall StdioTransport.lateJson :=
  .httpSse ⟨true, .streamableHttp, "/mcp", none, true⟩ strangerExchange

theorem strangerCall_returns_other_response :
    ¬ ∀ response, strangerCall.Returns secondRequest none (.ok response) →
      response.id = secondRequest.id := by
  intro hall
  have hid := hall firstResponse rfl
  have hne : firstResponse.id ≠ secondRequest.id := by decide
  exact hne hid

end TransportCall

end Core
end Acdp
