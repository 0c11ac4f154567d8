import Acdp.CoreMessageFidelity
import Acdp.JsonVisibleText
import Acdp.LitertServerRuns
import Acdp.TransportStdioTransparency

/-!
# Clients of the LiteRT server

The transport with server-sent events posts a request to the path of the
server and waits for a message with its identifier among the events of the
reply.  The server sends one event, whose data line is the text of the
response, so that the client gets what the server answered.
-/

namespace Acdp
namespace Transport
namespace LitertServer

open Acdp.Core Json

variable {json : SerdeJson} {formats : Formats}

/-! ## What is answered -/

theorem handleMethod_small (llmService : Option LlmService) (method : String)
    (params : Option OrderedValue) {result : OrderedValue}
    (hresult : handleMethod formats llmService method params = .ok result) :
    Small result := by
  unfold handleMethod at hresult
  split_ifs at hresult
  · rw [← Except.ok.inj hresult]
    exact ⟨⟨_, rfl⟩, by decide +kernel⟩
  · rw [← Except.ok.inj hresult]
    exact ⟨⟨_, rfl⟩, by decide +kernel⟩
  · have hregular : Regular (handleToolsCall formats llmService params) :=
      handleToolsCall_regular params
    rw [hresult] at hregular
    exact hregular
  · rw [← Except.ok.inj hresult]
    exact ⟨⟨_, rfl⟩, by decide +kernel⟩
  · rw [← Except.ok.inj hresult]
    exact ⟨⟨_, rfl⟩, by decide +kernel⟩

/-- Whether an answer survives its text depends on the numbers of its result
alone. -/
theorem handleRequest_lossless_iff (llmService : Option LlmService)
    (req : JsonRpcRequest) :
    (JsonRpcMessage.response (handleRequest formats llmService req)).Lossless
        json.floats ↔
      ∀ result, (handleRequest formats llmService req).result = some result →
        result.val.FloatsStable json.floats := by
  rw [JsonRpcMessage.Lossless, JsonRpcMessage.payloads]
  unfold handleRequest
  cases hhandled : handleMethod formats llmService req.method req.params with
  | error error => simp [errorOf]
  | ok result =>
      obtain ⟨⟨members, hobject⟩, hfits⟩ :=
        handleMethod_small llmService req.method req.params hhandled
      have hnull : result.val ≠ .null := by simp [hobject]
      simp [hnull, hfits]

/-! ## The event of a reply -/

/-- One event with one data line. -/
def eventStream (content : String) (hvisible : Visible content.toList) :
    EventStream.Stream where
  lines := [(.data true content, .lineFeed), (.blank, .lineFeed)]
  wellFormed := by
    intro line hline
    rcases List.mem_cons.mp hline with rfl | hblank
    · refine ⟨⟨?_, ?_⟩, Bool.noConfusion⟩
      · intro hfeed
        exact absurd (hvisible '\n' hfeed) (by decide)
      · intro hreturn
        exact absurd (hvisible '\r' hreturn) (by decide)
    · rw [List.mem_singleton.mp hblank]
      trivial

theorem text_eventStream {content : String}
    (hvisible : Visible content.toList) :
    (eventStream content hvisible).text = "data: " ++ content ++ "\n\n" := by
  rw [← String.toList_inj]
  simp [EventStream.Stream.text, eventStream, EventStream.Line.text,
    EventStream.LineEnd.chars]

theorem payloads_eventStream {content : String}
    (hvisible : Visible content.toList) :
    (eventStream content hvisible).payloads = [content] := by
  simp [EventStream.Stream.payloads, eventStream, EventStream.gather]

/-- What the client sees of an answer: the status and the headers, and the
events that the stream of the body has. -/
structure Relays (floats : FloatText) (sessionId : String)
    (response : JsonRpcResponse) (reply : HttpReply) : Prop where
  status : reply.status = 200
  contentType : reply.contentType = some "text/event-stream"
  sessionHeader : reply.sessionHeader = some sessionId
  body : reply.body = .ok (sseData floats response)
  events : ∀ stream : EventStream.Stream,
    stream.text = sseData floats response →
    reply.events = stream.payloads
  ending : reply.ending = .closed

theorem Relays.events_eq {sessionId : String} {response : JsonRpcResponse}
    {reply : HttpReply} (hrelays : Relays json.floats sessionId response reply)
    (hfloats : ∀ bits, DecimalText (json.floats.print bits)) :
    reply.events = [(response.serialize json.floats).print] := by
  have hproper : Proper (response.serialize json.floats) :=
    (JsonRpcMessage.response response).proper_serialize hfloats
  rw [hrelays.events (eventStream _ hproper.visible)
    (text_eventStream hproper.visible), payloads_eventStream]

/-- The text of a response announces no session. -/
theorem sseMessage_print (response : JsonRpcResponse) :
    HttpSseTransport.sseMessage json (response.serialize json.floats).print =
      (json.message (response.serialize json.floats).print).toOption := by
  obtain ⟨body, hbody⟩ : ∃ body,
      (response.serialize json.floats).print.toList = '\x7b' :: body :=
    (exists_print_obj _).imp' (· ++ ['\x7d']) (fun _ h => h)
  have hannounces (lead : String) (rest : List Char)
      (hlead : lead.toList = '/' :: rest) :
      Text.startsWith (response.serialize json.floats).print lead = false := by
    rw [Text.startsWith, hbody, hlead]
    rfl
  rw [HttpSseTransport.sseMessage, hannounces "/sse?sessionId=" _ rfl,
    hannounces "/mcp?sessionId=" _ rfl]
  rfl

/-! ## The call of a client -/

/-- The client talks to the path of the server, nothing that waits for it
elsewhere has the identifier, and its timer does not run out. -/
structure Waits (client : HttpSseTransport) (request : JsonRpcRequest)
    (exchange : Core.HttpExchange) : Prop where
  connected : client.connected = true
  version : client.detectProtocolVersion = .httpSse
  monitor : (exchange.monitor.getD []).findSome?
    (HttpSseTransport.awaited request.id.display) = none
  timer : exchange.timer = .inTime

/-- What the client returns is what it reads from the event. -/
theorem sendRequest_eq_ok_iff {client : HttpSseTransport}
    {request : JsonRpcRequest} {exchange : Core.HttpExchange}
    (hwaits : Waits client request exchange) {reply : HttpReply}
    (hreply : exchange.reply = .ok reply) {sessionId : String}
    {response : JsonRpcResponse}
    (hrelays : Relays json.floats sessionId response reply)
    (hfloats : ∀ bits, DecimalText (json.floats.print bits))
    (timeout : Option Auth.Duration) (given : JsonRpcResponse) :
    (client.sendRequest json request timeout exchange).2 = .ok given ↔
      json.message (response.serialize json.floats).print =
          .ok (.response given) ∧
        given.id.display = request.id.display := by
  have hinbound : HttpSseTransport.handleSseResponse json reply =
      ⟨(json.message (response.serialize
        json.floats).print).toOption.toList, .closed⟩ := by
    rw [HttpSseTransport.handleSseResponse, hrelays.events_eq hfloats,
      hrelays.ending, List.filterMap_cons, sseMessage_print]
    cases (json.message (response.serialize json.floats).print).toOption <;> rfl
  have hstatus : ¬ reply.status = 202 := by
    rw [hrelays.status]
    decide
  have hjson :
      Text.contains "text/event-stream" "application/json" = false := by
    decide +kernel
  have hstream : Text.contains "text/event-stream" "text/event-stream" =
      true := by
    decide +kernel
  simp only [HttpSseTransport.sendRequest, hwaits.connected, Bool.not_true,
    Bool.false_eq_true, if_false, HttpSseTransport.sendMcpRequest,
    hwaits.version, HttpSseTransport.sendLegacySseRequest, hreply, hstatus,
    hrelays.contentType, Option.getD_some, hjson, hstream, if_true,
    HttpSseTransport.awaitAnswer, HttpSseTransport.waitForSseResponse,
    hwaits.monitor, hwaits.timer, hinbound]
  cases hmessage : json.message (response.serialize json.floats).print with
  | error e => simp [Except.map, Except.toOption]
  | ok message =>
      cases message with
      | request req =>
          simp [Except.map, Except.toOption, HttpSseTransport.awaited]
      | notification notif =>
          simp [Except.map, Except.toOption, HttpSseTransport.awaited]
      | response found =>
          by_cases hid : found.id.display = request.id.display
          · simp [Except.map, Except.toOption, HttpSseTransport.awaited, hid]
            rintro rfl
            exact hid
          · simp [Except.map, Except.toOption, HttpSseTransport.awaited, hid]
            rintro rfl
            exact hid

/-- A text that the parser reads back is the message that it was written
from exactly if that is lossless. -/
theorem message_print_iff (message : JsonRpcMessage)
    (hreads : json.parse (message.serialize json.floats).print =
      .ok (message.serialize json.floats)) :
    json.message (message.serialize json.floats).print = .ok message ↔
      message.Lossless json.floats := by
  rw [SerdeJson.message, SerdeJson.read_eq_ok_iff hreads,
    ← JsonRpcMessage.reload_unchanged_iff]
  rfl

/-- A lossless request that a client posts is handled as it is, whatever the
server is doing; the answer has its identifier and goes to its session, and
the call of the client returns that answer exactly if the numbers of its
result survive their text. -/
theorem call_answered (json : SerdeJson) (formats : Formats)
    (request : JsonRpcRequest)
    (hfloats : ∀ bits, DecimalText (json.floats.print bits))
    (hlossless : (JsonRpcMessage.request request).Lossless json.floats)
    (hreads : json.parse (request.serialize json.floats).print =
      .ok (request.serialize json.floats)) :
    ∃ body, json.value (request.serialize json.floats).print = .ok body ∧
      (∀ naming, (Action.post naming body).posted =
        some (naming.sessionId, .request request)) ∧
      ∀ trace reached, (machine formats).run initial trace = some reached →
        ∀ entry ∈ reached.answered, entry.1.message = .request request →
          ∃ response, entry.2 = .response entry.1.session.id response ∧
            response.id = request.id ∧
            ∀ client exchange reply timeout, Waits client request exchange →
              exchange.reply = .ok reply →
              Relays json.floats entry.1.session.id response reply →
              json.parse (response.serialize json.floats).print =
                .ok (response.serialize json.floats) →
              ((client.sendRequest json request timeout exchange).2 =
                  .ok response ↔
                ∀ result, response.result = some result →
                  result.val.FloatsStable json.floats) := by
  have hcarries : Carries json (.request request)
      (request.serialize json.floats).print :=
    ⟨_, _, hreads, rfl, fun _ => rfl⟩
  obtain ⟨body, hvalue, hmessage⟩ :=
    JsonRpcMessage.fromValue_request hcarries hlossless
  refine ⟨body, hvalue, ?_, ?_⟩
  · intro naming
    simp only [Action.posted, hmessage, Option.map_some]
  · intro trace reached hrun entry hentry hrequest
    obtain ⟨before, service, hanswer⟩ :=
      (account_of_run hrun).answers entry hentry
    simp only [handleMessage, hrequest] at hanswer
    obtain ⟨_, hid, _⟩ := handleRequest_answers formats
      (if before.llmReady then some service else none) request
    refine ⟨_, hanswer.symm, hid, ?_⟩
    intro client exchange reply timeout hwaits hreply hrelays hparse
    rw [sendRequest_eq_ok_iff hwaits hreply hrelays hfloats,
      and_iff_left (congrArg RequestId.display hid),
      ← handleRequest_lossless_iff]
    exact message_print_iff (.response _) hparse

/-! ## A call -/

def promptsRequest : JsonRpcRequest :=
  ⟨"2.0", .string "7", "prompts/list", none⟩

def promptsResponse : JsonRpcResponse :=
  handleRequest plainFormats none promptsRequest

def promptsText : String := (promptsResponse.serialize tableFloats).print

def promptsJson : SerdeJson where
  parse text :=
    if text = (promptsRequest.serialize tableFloats).print then
      .ok (promptsRequest.serialize tableFloats)
    else if text = promptsText then .ok (promptsResponse.serialize tableFloats)
    else .error "expected value at line 1 column 1"
  floats := tableFloats
  mismatch _ := "invalid type"

def promptsReply : HttpReply where
  status := 200
  contentType := some "text/event-stream"
  sessionHeader := some "client-session-01"
  body := .ok (sseData tableFloats promptsResponse)
  events := [promptsText]
  ending := .closed

theorem promptsReply_relays : Relays tableFloats "client-session-01"
    promptsResponse promptsReply where
  status := rfl
  contentType := rfl
  sessionHeader := rfl
  body := rfl
  ending := rfl
  events := by
    intro stream htext
    have hproper : Proper (promptsResponse.serialize tableFloats) :=
      (JsonRpcMessage.response promptsResponse).proper_serialize
        StdioHandler.tableFloats_decimalText
    rw [EventStream.Stream.payloads_eq_of_text_eq
      (htext.trans (text_eventStream hproper.visible).symm),
      payloads_eventStream]
    rfl

def sseClient : HttpSseTransport where
  connected := true
  protocolVersion := .autoDetect
  basePath := "/sse"
  sessionId := none
  validateSessionIds := true

def promptsExchange : Core.HttpExchange where
  reply := .ok promptsReply
  monitor := none
  receiver := none
  timer := .inTime

theorem promptsJson_parse :
    promptsJson.parse (promptsRequest.serialize tableFloats).print =
        .ok (promptsRequest.serialize tableFloats) ∧
      promptsJson.parse promptsText =
        .ok (promptsResponse.serialize tableFloats) := by
  have hother : promptsText ≠ (promptsRequest.serialize tableFloats).print := by
    decide +kernel
  constructor
  · unfold promptsJson
    dsimp only
    rw [if_pos rfl]
  · unfold promptsJson
    dsimp only
    rw [if_neg hother, if_pos rfl]

/-- A listing is posted and answered, and the client gets the answer. -/
theorem call_answered_prompts :
    ∃ body reached,
      promptsJson.value (promptsRequest.serialize tableFloats).print =
          .ok body ∧
        (machine plainFormats).run initial
          [.post inSession body, .handle 0 silentService] = some reached ∧
        (sseClient.sendRequest promptsJson promptsRequest none
          promptsExchange).2 = .ok promptsResponse := by
  obtain ⟨body, hvalue, hposted, hanswered⟩ := call_answered promptsJson
    plainFormats promptsRequest StdioHandler.tableFloats_decimalText (by
      intro payload hpayload
      cases hpayload) promptsJson_parse.1
  have hmessage : JsonRpcMessage.fromValue body =
      some (.request promptsRequest) := by
    obtain ⟨message, hmessage, hsame⟩ :=
      Option.map_eq_some_iff.mp (hposted inSession)
    rw [hmessage, Option.some.injEq]
    exact congrArg Prod.snd hsame
  have hrun : ∃ reached, (machine plainFormats).run initial
        [.post inSession body, .handle 0 silentService] = some reached ∧
      reached.answered = [(⟨⟨"client-session-01", false⟩,
        .request promptsRequest⟩,
        .response "client-session-01" promptsResponse)] := by
    simp only [machine, StepMachine.run, step, hmessage]
    exact ⟨_, rfl, rfl⟩
  obtain ⟨reached, hrun, hlog⟩ := hrun
  obtain ⟨response, hresponse, _, hcall⟩ := hanswered _ reached hrun _
    (by rw [hlog]; exact List.mem_cons_self) rfl
  obtain rfl : promptsResponse = response := by
    injection hresponse
  refine ⟨body, reached, hvalue, hrun, (hcall sseClient promptsExchange
    promptsReply none ⟨rfl, by decide, rfl, rfl⟩ rfl promptsReply_relays
    promptsJson_parse.2).mpr ?_⟩
  intro result hresult
  have hobject : result.val = .object [("prompts", .array [])] := by
    rw [← Option.some.inj hresult]
    rfl
  rw [hobject, Value.floatsStable_object_iff, List.forall_mem_singleton,
    Value.floatsStable_array_iff]
  exact List.forall_mem_nil _

end LitertServer
end Transport
end Acdp
