import Acdp.TransportHttpHandler
import Acdp.TransportStdioTransparency

/-!
# The two paths of a query

The stdio handler writes the request for a query as a line, once the line has
been read as a message and written again.  The HTTP handler makes a call of
its client, with parameters that it makes itself.  Interceptors that let
everything pass leave the difference between the two.
-/

namespace Acdp
namespace Transport

open Acdp.Core Json
open StdioHandler (emptyParams callParams asksForTools)

/-! ## The parameters that both handlers make -/

def LacksFloats (params : OrderedValue) : Prop :=
  ∀ bits, ¬ params.val.HasFloat bits

theorem emptyParams_lacksFloats : LacksFloats emptyParams := by
  intro bits hfloat
  cases hfloat with
  | object hmember _ => cases hmember

theorem callParams_lacksFloats (toolName query : String) :
    LacksFloats (callParams toolName query) := by
  intro bits hfloat
  cases hfloat with
  | object hmember hfloat =>
      simp only [List.mem_cons, List.not_mem_nil, or_false] at hmember
      rcases hmember with hmember | hmember
      · rw [hmember] at hfloat
        cases hfloat with
        | object hinput hfloat =>
            rw [List.mem_singleton.mp hinput] at hfloat
            cases hfloat
      · rw [hmember] at hfloat
        cases hfloat

/-- Parameters that a handler makes of a query. -/
def Made (query : String) (params : OrderedValue) : Prop :=
  params = emptyParams ∨ ∃ toolName, params = callParams toolName query

theorem Made.lacksFloats {query : String} {params : OrderedValue}
    (hmade : Made query params) : LacksFloats params := by
  rcases hmade with hempty | ⟨toolName, hcall⟩
  · rw [hempty]
    exact emptyParams_lacksFloats
  · rw [hcall]
    exact callParams_lacksFloats toolName query

theorem Made.ne_null {query : String} {params : OrderedValue}
    (hmade : Made query params) : params.val ≠ .null := by
  rcases hmade with hempty | ⟨toolName, hcall⟩
  · rw [hempty]
    exact Value.noConfusion
  · rw [hcall]
    exact Value.noConfusion

/-! ## What the stdio handler sends -/

namespace StdioHandler

/-- The child reads a request with this method and these parameters. -/
def Queried.Sends (json : SerdeJson) (queried : Queried) (method : String)
    (params : OrderedValue) : Prop :=
  ∃ text members, queried.text = some text ∧
    documentOf json text = some (.obj members) ∧
    entries members "method" = [.str method] ∧
    entries members "params" = [params.serialize json.floats]

def Written.reaches : Written → Bool
  | .failed _ => false
  | _ => true

theorem deserialize_queryPayload (floats : FloatText)
    (requestId method : String) (params : OrderedValue) :
    JsonRpcRequest.deserialize floats
        (queryPayload floats requestId method params) =
      (readOptional (OrderedValue.deserialize floats)
        [params.serialize floats]).map
        (fun kept => ⟨"2.0", .string requestId, method, kept⟩) := by
  simp only [queryPayload, JsonRpcRequest.deserialize,
    JsonRpcRequest.ofMembers, requiredField, optionalField, entries_cons,
    entries_nil]
  simp only [String.reduceEq, if_true, if_false, readRequired_singleton,
    asString, RequestId.deserialize, Option.map_some, Option.some_or,
    Option.bind_eq_bind, Option.bind_some]
  cases readOptional (OrderedValue.deserialize floats)
      [params.serialize floats] <;> rfl

theorem isSome_readOptional {floats : FloatText} {doc : Json}
    (hdecode : (Value.decode floats doc).isSome = true) :
    (readOptional (OrderedValue.deserialize floats) [doc]).isSome = true := by
  by_cases hnull : doc = .null
  · rw [hnull]
    rfl
  · obtain ⟨value, hvalue⟩ := Option.isSome_iff_exists.mp hdecode
    have hread : OrderedValue.deserialize floats doc =
        some ⟨value, Value.decode_normal floats doc hvalue⟩ :=
      (OrderedValue.deserialize_eq_some_iff floats doc _).mpr hvalue
    rw [readOptional_singleton _ hnull, hread]
    rfl

/-- A payload that can be read is a request, with the parameters unless they
are `null`. -/
theorem ofDocument_queryPayload {floats : FloatText}
    {requestId method : String} {params : OrderedValue}
    {message : JsonRpcMessage}
    (hmessage : JsonRpcMessage.ofDocument floats
      (queryPayload floats requestId method params) = some message) :
    ∃ kept, message = .request ⟨"2.0", .string requestId, method, kept⟩ ∧
      readOptional (OrderedValue.deserialize floats)
        [params.serialize floats] = some kept := by
  obtain ⟨⟨_, hdecode⟩, hvariant⟩ :=
    (JsonRpcMessage.ofDocument_eq_some_iff floats _ _).mp hmessage
  have hparams : (Value.decode floats (params.serialize floats)).isSome =
      true :=
    (Value.isSome_decode_obj_iff floats _).mp hdecode
      ("params", params.serialize floats) (by simp)
  obtain ⟨kept, hkept⟩ :=
    Option.isSome_iff_exists.mp (isSome_readOptional hparams)
  rw [deserialize_queryPayload, hkept, Option.map_some, Option.map_some,
    Option.some_or, Option.some.injEq] at hvariant
  exact ⟨kept, hvariant.symm, hkept⟩

/-- Parameters without floating-point numbers are read as they are. -/
theorem kept_serialize_iff {floats : FloatText} {params target : OrderedValue}
    (hfree : LacksFloats target) (hnull : target.val ≠ .null)
    {kept : Option OrderedValue}
    (hkept : readOptional (OrderedValue.deserialize floats)
      [params.serialize floats] = some kept) :
    (kept.map (OrderedValue.serialize floats)).toList =
        [target.serialize floats] ↔
      params = target := by
  constructor
  · intro hwritten
    cases kept with
    | none => simp at hwritten
    | some value =>
        have hvalue : value = target := by
          have hencode : value.serialize floats = target.serialize floats := by
            simpa using hwritten
          exact Subtype.ext ((Value.encode_eq_iff_of_lacksFloat floats
            value.property target.property hfree).mp hencode)
        by_cases hparams : params.serialize floats = .null
        · rw [hparams] at hkept
          cases hkept
        · rw [readOptional_singleton _ hparams, Option.map_eq_some_iff] at hkept
          obtain ⟨read, hread, hsame⟩ := hkept
          cases hsame
          rw [OrderedValue.deserialize_eq_some_iff, hvalue] at hread
          exact Subtype.ext (Value.eq_of_decode_encode floats params.property
            hread hfree)
  · intro hsame
    rw [hsame] at hkept
    have hwritten : target.serialize floats ≠ .null := by
      intro hencode
      exact hnull ((Value.encode_eq_null_iff floats target.val).mp hencode)
    have hread : OrderedValue.deserialize floats (target.serialize floats) =
        some target :=
      (OrderedValue.deserialize_serialize_iff floats target).mpr
        (Value.floatsStable_scalar floats hfree)
    rw [readOptional_singleton _ hwritten, hread, Option.map_some,
      Option.some.injEq] at hkept
    rw [← hkept]
    rfl

def rawQuery (json : SerdeJson) (job : TuiQueryJob) (method : String)
    (params : OrderedValue) : Json :=
  queryPayload json.floats (uuidText job.correlationId) method params

/-- The JSON library reads back what it writes for the query and for the
message it reads in it. -/
structure QueryReadsBack (json : SerdeJson) (handler : StdioHandler)
    (job : TuiQueryJob) : Prop where
  payload : json.parse (print (rawQuery json job (handler.queryRequest job).1
      (handler.queryRequest job).2)) =
    .ok (rawQuery json job (handler.queryRequest job).1
      (handler.queryRequest job).2)
  message : ReadsBack json (print (rawQuery json job
    (handler.queryRequest job).1 (handler.queryRequest job).2) ++ "\n")

theorem processTuiQuery_text {json : SerdeJson} {handler : StdioHandler}
    (hpass : ∀ interceptor ∈ handler.interceptorManager.interceptors,
      PassesThrough interceptor)
    (job : TuiQueryJob) (written : Written) (clock : Clock) (delay : Float) :
    (processTuiQuery json handler job written clock delay).text =
      if written.reaches then
        some (rewrittenLine json (print (rawQuery json job
          (handler.queryRequest job).1 (handler.queryRequest job).2) ++ "\n"))
      else none := by
  have hfiltered : (processOutgoing json handler
      (print (rawQuery json job (handler.queryRequest job).1
        (handler.queryRequest job).2) ++ "\n") clock).result =
      .ok (rewrittenLine json (print (rawQuery json job
        (handler.queryRequest job).1 (handler.queryRequest job).2) ++ "\n"),
        false) :=
    processLine_of_passesThrough hpass .outgoing (fun handler _ => handler) _
      clock
  rw [rawQuery] at hfiltered
  simp only [processTuiQuery, hfiltered, rawQuery]
  cases written with
  | ok => rfl
  | failed e => rfl
  | flushFailed e => rfl

/-- The members of the line that is written: those of the message, or those
of the payload where it is nested too deeply to be read as one. -/
theorem documentOf_rewrittenLine {json : SerdeJson} {job : TuiQueryJob}
    {method : String} {params : OrderedValue}
    (hpayload : json.parse (print (rawQuery json job method params)) =
      .ok (rawQuery json job method params))
    (hback : ReadsBack json (print (rawQuery json job method params) ++ "\n")) :
    ∃ members,
      documentOf json (rewrittenLine json
          (print (rawQuery json job method params) ++ "\n")) =
        some (.obj members) ∧
      entries members "method" = [.str method] ∧
      (entries members "params" = [params.serialize json.floats] ∨
        ∃ kept, readOptional (OrderedValue.deserialize json.floats)
            [params.serialize json.floats] = some kept ∧
          entries members "params" =
            (kept.map (OrderedValue.serialize json.floats)).toList) := by
  have htrim : Text.trim (print (rawQuery json job method params) ++ "\n") =
      print (rawQuery json job method params) := trim_print_obj _
  cases hread : json.message
      (Text.trim (print (rawQuery json job method params) ++ "\n")) with
  | error e =>
      have hline : rewrittenLine json
          (print (rawQuery json job method params) ++ "\n") =
            print (rawQuery json job method params) ++ "\n" := by
        rw [rewrittenLine, hread]
      have hdocument : documentOf json
          (print (rawQuery json job method params) ++ "\n") =
            some (rawQuery json job method params) := by
        rw [documentOf_eq_some_iff, htrim]
        exact hpayload
      rw [hline, hdocument]
      exact ⟨_, rfl, by simp [entries_cons], Or.inl (by simp [entries_cons])⟩
  | ok message =>
      have hline : rewrittenLine json
          (print (rawQuery json job method params) ++ "\n") =
            print (message.serialize json.floats) ++ "\n" := by
        rw [rewrittenLine, hread]
      obtain ⟨doc, hparse, hmessage⟩ := (message_eq_ok_iff _ message).mp hread
      rw [htrim, hpayload, Except.ok.injEq] at hparse
      rw [← hparse, rawQuery] at hmessage
      obtain ⟨kept, hrequest, hkept⟩ := ofDocument_queryPayload hmessage
      rw [hline, documentOf_print (hback message hread), hrequest]
      refine ⟨_, rfl, ?_, Or.inr ⟨kept, hkept, ?_⟩⟩
      · simp [entries_cons, entries_optionalMember_ne]
      · simp [entries_cons]

/-- With interceptors that change nothing the child reads the request that
the handler chose, if its parameters have no floating-point numbers and are
not `null`. -/
theorem processTuiQuery_sends_iff {json : SerdeJson} {handler : StdioHandler}
    (hpass : ∀ interceptor ∈ handler.interceptorManager.interceptors,
      PassesThrough interceptor)
    {job : TuiQueryJob} (hreads : QueryReadsBack json handler job)
    (written : Written) (clock : Clock) (delay : Float) {method : String}
    {params : OrderedValue} (hfree : LacksFloats params)
    (hnull : params.val ≠ .null) :
    (processTuiQuery json handler job written clock delay).Sends json method
        params ↔
      written.reaches = true ∧ handler.queryRequest job = (method, params) := by
  obtain ⟨members, hdocument, hmethod, hparams⟩ :=
    documentOf_rewrittenLine hreads.payload hreads.message
  have hsame : entries members "params" = [params.serialize json.floats] ↔
      (handler.queryRequest job).2 = params := by
    rcases hparams with hparams | ⟨kept, hkept, hparams⟩
    · rw [hparams, List.singleton_inj, Subtype.ext_iff]
      exact Value.encode_eq_iff_of_lacksFloat json.floats
        (handler.queryRequest job).2.property params.property hfree
    · rw [hparams]
      exact kept_serialize_iff hfree hnull hkept
  unfold Queried.Sends
  rw [processTuiQuery_text hpass job written clock delay]
  cases hreaches : written.reaches with
  | false => simp
  | true =>
      simp only [if_true, Option.some.injEq, true_and, Prod.ext_iff]
      rw [← hsame]
      constructor
      · rintro ⟨text, others, htext, hothers, hnamed, hgiven⟩
        rw [← htext, hdocument, Option.some.injEq, Json.obj.injEq] at hothers
        rw [← hothers] at hnamed hgiven
        rw [hmethod, List.singleton_inj, Json.str.injEq] at hnamed
        exact ⟨hnamed, hgiven⟩
      · rintro ⟨hnamed, hgiven⟩
        rw [← hnamed]
        exact ⟨_, members, rfl, hdocument, hmethod, hgiven⟩

end StdioHandler

/-! ## What the HTTP handler sends -/

namespace HttpHandler

/-- The first attempt of the call hands the transport a request with this
method and these parameters. -/
def Transmits (call : McpClient.Call) (method : String)
    (params : OrderedValue) : Prop :=
  ∃ outgoing, McpClient.interceptOutgoing call.metadata (call.attempts 0)
      call.request = .ok outgoing ∧
    outgoing.block = false ∧
    (McpClient.finalRequest outgoing call.request).method = method ∧
    (McpClient.finalRequest outgoing call.request).params = some params

def Answered.Sends (answered : Answered) (method : String)
    (params : OrderedValue) : Prop :=
  ∃ call, answered.final = some call ∧ Transmits call method params

/-- The interceptors of the handler and those of its client, which are the
same, let everything pass. -/
structure QueryPasses (exchange : QueryExchange) : Prop where
  own : LetsEverythingPass exchange.ownPass.manager
  client : ∀ call attempt,
    LetsEverythingPass (exchange.attempts call attempt).outgoing ∧
      LetsEverythingPass (exchange.attempts call attempt).incoming

variable {exchange : QueryExchange}

theorem not_sends_unanswered {self : HttpHandler}
    {completion : Option TuiQueryCompletion} {method : String}
    {params : OrderedValue} :
    ¬ (self.unanswered completion).Sends method params := by
  rintro ⟨call, hfinal, _⟩
  cases hfinal

theorem answer_sends_iff (hpasses : QueryPasses exchange)
    {self : HttpHandler} {chosen method : String}
    {given params : OrderedValue} {errorText : McpError → String} :
    (self.answer exchange chosen given errorText).Sends method params ↔
      chosen = method ∧ given = params := by
  have hfinal : (self.answer exchange chosen given errorText).final =
      some (self.client.callFor exchange.overflowChecks
        (exchange.attempts self.calls.length) chosen given) := by
    simp [answer, sendRequest]
  have hpassed := processMessage_of_passesThrough
    (hpasses.client self.calls.length 0).1
    (.request (.new (.string ("req_" ++
      toString self.client.requestCounter.toNat)) chosen given))
    .outgoing self.client.interceptionMetadata
    (exchange.attempts self.calls.length 0).outgoingAt
    (exchange.attempts self.calls.length 0).outgoingMillis
  unfold Answered.Sends Transmits
  simp only [hfinal, Option.some.injEq, exists_eq_left']
  constructor
  · rintro ⟨outgoing, houtgoing, _, hmethod, hparams⟩
    cases hpassed.symm.trans houtgoing
    exact ⟨hmethod, Option.some.inj hparams⟩
  · rintro ⟨hmethod, hparams⟩
    exact ⟨_, hpassed, rfl, hmethod, congrArg some hparams⟩

/-- What is sent for a chosen request: the list of tools with no parameters,
or a call of the tool that is named, with the query as its input. -/
theorem sends_of_extractRequest (hpasses : QueryPasses exchange)
    {self : HttpHandler} {job : TuiQueryJob} {id : RequestId}
    {chosen method : String} {given params : OrderedValue}
    (hsends : (sendExtracted exchange (self.extractRequest exchange job
      (.request (.new id chosen given)))).Sends method params) :
    (chosen = "tools/list" ∧ method = "tools/list" ∧ params = emptyParams) ∨
      (chosen ≠ "tools/list" ∧ method = chosen ∧
        ∃ toolName, params = callParams toolName job.query) ∨
      (chosen ≠ "tools/list" ∧ method = "tools/list" ∧
        params = emptyParams) := by
  unfold extractRequest at hsends
  by_cases hlist : chosen = "tools/list"
  · simp only [JsonRpcRequest.new, hlist, if_true, sendExtracted,
      answer_sends_iff hpasses] at hsends
    exact Or.inl ⟨hlist, hsends.1.symm, hsends.2.symm⟩
  · simp only [JsonRpcRequest.new, hlist, if_false] at hsends
    cases hnamed : namedTool ⟨"2.0", id, chosen, some given⟩ with
    | some toolName =>
        simp only [hnamed, sendExtracted, answer_sends_iff hpasses] at hsends
        exact Or.inr (Or.inl ⟨hlist, hsends.1.symm, toolName, hsends.2.symm⟩)
    | none =>
        simp only [hnamed] at hsends
        rcases hfound : self.getAvailableTool exchange with ⟨next, found⟩
        cases found with
        | none =>
            simp only [hfound, sendExtracted] at hsends
            exact (not_sends_unanswered hsends).elim
        | some tool =>
            cases tool with
            | none =>
                simp only [hfound, sendExtracted, answer_sends_iff hpasses]
                  at hsends
                exact Or.inr (Or.inr ⟨hlist, hsends.1.symm, hsends.2.symm⟩)
            | some toolName =>
                simp only [hfound, sendExtracted, answer_sends_iff hpasses]
                  at hsends
                exact Or.inr (Or.inl ⟨hlist, hsends.1.symm, toolName,
                  hsends.2.symm⟩)

theorem extractRequest_sends_list (hpasses : QueryPasses exchange)
    (self : HttpHandler) (job : TuiQueryJob) (id : RequestId)
    (given : OrderedValue) :
    (sendExtracted exchange (self.extractRequest exchange job
      (.request (.new id "tools/list" given)))).Sends "tools/list"
        emptyParams := by
  simp only [extractRequest, JsonRpcRequest.new, if_true, sendExtracted,
    answer_sends_iff hpasses, and_self]

theorem namedTool_callParams (id : RequestId)
    (method toolName query : String) :
    namedTool (.new id method (callParams toolName query)) = some toolName := by
  rfl

theorem sendExtracted_call_iff (hpasses : QueryPasses exchange)
    {self : HttpHandler} {job : TuiQueryJob} {id : RequestId}
    {chosen method toolName : String} {params : OrderedValue}
    (hlist : chosen ≠ "tools/list") :
    (sendExtracted exchange (self.extractRequest exchange job
        (.request (.new id chosen (callParams toolName job.query))))).Sends
          method params ↔
      chosen = method ∧ callParams toolName job.query = params := by
  have hmethod : (JsonRpcRequest.new id chosen
      (callParams toolName job.query)).method ≠ "tools/list" := hlist
  simp only [extractRequest, if_neg hmethod, namedTool_callParams]
  rw [sendExtracted, answer_sends_iff hpasses]
  rfl

/-- Past the choice of a request, only the tool's name is taken from it. -/
theorem processTuiQuery_of_request (hpasses : QueryPasses exchange)
    {self next : HttpHandler} {job : TuiQueryJob} {method : String}
    {params : OrderedValue} (hready : self.client.state = .ready)
    (hchoice : self.chooseRequest exchange job =
      (next, .request method params)) :
    self.processTuiQuery exchange job =
      sendExtracted exchange (next.extractRequest exchange job
        (.request (.new (.string (uuidText job.correlationId)) method
          params))) := by
  have hpassed : exchange.ownPass.intercept
      (.request (.new (.string (uuidText job.correlationId)) method params))
      .outgoing (uuidText next.sessionId) =
        .ok (.passThrough (.request
          (.new (.string (uuidText job.correlationId)) method params))) :=
    processMessage_of_passesThrough hpasses.own _ _ _ _ _
  simp only [processTuiQuery, hready, if_true, hchoice, hpassed]
  rfl

theorem chooseRequest_structured {self : HttpHandler} {job : TuiQueryJob}
    {method : String} (hmethod : job.mcpMethod = some method) :
    self.chooseRequest exchange job =
      (self, .request method (job.mcpParams.getD emptyParams)) := by
  rw [chooseRequest, hmethod]

theorem chooseRequest_asks {self : HttpHandler} {job : TuiQueryJob}
    (hmethod : job.mcpMethod = none) (hasks : asksForTools job.query = true) :
    self.chooseRequest exchange job =
      (self, .request "tools/list" emptyParams) := by
  rw [chooseRequest, hmethod]
  exact if_pos hasks

theorem chooseRequest_cached {self : HttpHandler} {job : TuiQueryJob}
    (hmethod : job.mcpMethod = none) (hasks : asksForTools job.query = false)
    {toolName : String} (hcached : self.cachedTool = some toolName) :
    self.chooseRequest exchange job =
      (self, .request "tools/call" (callParams toolName job.query)) := by
  simp only [chooseRequest, hmethod, hasks, Bool.false_eq_true, if_false,
    getAvailableTool, hcached]

/-- Where no tool is known, a tool that is found is called, or nothing is
sent for the query. -/
theorem sends_of_text (hpasses : QueryPasses exchange)
    {self : HttpHandler} {job : TuiQueryJob}
    (hmethod : job.mcpMethod = none) (hasks : asksForTools job.query = false)
    {method : String} {params : OrderedValue}
    (hready : self.client.state = .ready)
    (hsends : (self.processTuiQuery exchange job).Sends method params) :
    method = "tools/call" := by
  have hcalled : ∀ {next : HttpHandler} {toolName : String},
      self.chooseRequest exchange job =
        (next, .request "tools/call" (callParams toolName job.query)) →
      method = "tools/call" := by
    intro next toolName hchoice
    rw [processTuiQuery_of_request hpasses hready hchoice,
      sendExtracted_call_iff hpasses (by decide)] at hsends
    exact hsends.1.symm
  rcases hfound : self.getAvailableTool exchange with ⟨next, found⟩
  cases found with
  | none =>
      have hchoice : self.chooseRequest exchange job = (next, .panicked) := by
        simp only [chooseRequest, hmethod, hasks, Bool.false_eq_true, if_false,
          hfound]
      simp only [processTuiQuery, hready, if_true, hchoice] at hsends
      exact (not_sends_unanswered hsends).elim
  | some tool =>
      cases tool with
      | none =>
          have hchoice : self.chooseRequest exchange job = (next, .refused
              "No tools available from MCP server. Try 'tools/list' to see available tools.") := by
            simp only [chooseRequest, hmethod, hasks, Bool.false_eq_true,
              if_false, hfound]
          simp only [processTuiQuery, hready, if_true, hchoice] at hsends
          exact (not_sends_unanswered hsends).elim
      | some toolName =>
          apply hcalled
          simp only [chooseRequest, hmethod, hasks, Bool.false_eq_true,
            if_false, hfound]
          rfl

end HttpHandler

/-! ## Agreement -/

/-- The backend gets one request from either handler, which is that of a
structured job where there is one. -/
def SameRequest (json : SerdeJson) (queried : StdioHandler.Queried)
    (answered : HttpHandler.Answered) (job : TuiQueryJob) : Prop :=
  ∃ method params, queried.Sends json method params ∧
    answered.Sends method params ∧
    ∀ mcpMethod, job.mcpMethod = some mcpMethod →
      method = mcpMethod ∧ params = job.mcpParams.getD emptyParams

/-- The parameters of a structured job are those that the HTTP handler makes
anyway, or a job without structure asks for the tools or finds one in the
cache. -/
def MadeAnyway (job : TuiQueryJob) (availableTools : Option (List String)) :
    Prop :=
  match job.mcpMethod with
  | some mcpMethod =>
      if mcpMethod = "tools/list" then
        job.mcpParams.getD emptyParams = emptyParams
      else
        ∃ toolName, job.mcpParams.getD emptyParams =
          callParams toolName job.query
  | none => asksForTools job.query = true ∨
      (availableTools.bind List.head?).isSome = true

namespace HttpHandler

variable {exchange : QueryExchange}

/-- Nothing is sent before the client is ready. -/
theorem ready_of_sends {self : HttpHandler} {job : TuiQueryJob}
    {method : String} {params : OrderedValue}
    (hsends : (self.processTuiQuery exchange job).Sends method params) :
    self.client.state = .ready := by
  by_contra hready
  rw [processTuiQuery, if_neg hready] at hsends
  exact not_sends_unanswered hsends

theorem made_of_sends (hpasses : QueryPasses exchange) {self : HttpHandler}
    {job : TuiQueryJob} {method : String} {params : OrderedValue}
    (hsends : (self.processTuiQuery exchange job).Sends method params) :
    Made job.query params := by
  have hready := ready_of_sends hsends
  rcases hchoice : self.chooseRequest exchange job with ⟨next, choice⟩
  cases choice with
  | panicked =>
      simp only [processTuiQuery, hready, if_true, hchoice] at hsends
      exact (not_sends_unanswered hsends).elim
  | refused message =>
      simp only [processTuiQuery, hready, if_true, hchoice] at hsends
      exact (not_sends_unanswered hsends).elim
  | request chosen given =>
      rw [processTuiQuery_of_request hpasses hready hchoice] at hsends
      rcases sends_of_extractRequest hpasses hsends with
        ⟨_, _, hparams⟩ | ⟨_, _, hparams⟩ | ⟨_, _, hparams⟩
      · exact Or.inl hparams
      · exact Or.inr hparams
      · exact Or.inl hparams

/-- Where the stdio handler chooses what the HTTP handler sends, the HTTP
handler makes the parameters of that choice anyway. -/
theorem madeAnyway_of_sends (hpasses : QueryPasses exchange)
    {handler : StdioHandler} {self : HttpHandler} {job : TuiQueryJob}
    (hcache : handler.availableTools = self.availableTools) {method : String}
    {params : OrderedValue}
    (hchosen : handler.queryRequest job = (method, params))
    (hsends : (self.processTuiQuery exchange job).Sends method params) :
    MadeAnyway job self.availableTools := by
  have hready := ready_of_sends hsends
  unfold MadeAnyway
  unfold StdioHandler.queryRequest at hchosen
  cases hmethod : job.mcpMethod with
  | some mcpMethod =>
      simp only [hmethod, Prod.mk.injEq] at hchosen ⊢
      rw [processTuiQuery_of_request hpasses hready
        (chooseRequest_structured hmethod)] at hsends
      rw [hchosen.1, hchosen.2]
      rcases sends_of_extractRequest hpasses hsends with
        ⟨hlist, _, hparams⟩ | ⟨hlist, _, hparams⟩ | ⟨hlist, hsent, _⟩
      · rw [hchosen.1] at hlist
        rw [if_pos hlist, hparams]
      · rw [hchosen.1] at hlist
        rw [if_neg hlist]
        exact hparams
      · rw [hchosen.1] at hlist
        exact (hlist hsent).elim
  | none =>
      simp only [hmethod] at hchosen ⊢
      cases hasks : asksForTools job.query with
      | true => exact Or.inl rfl
      | false =>
          right
          have hcall := sends_of_text hpasses hmethod hasks hready hsends
          simp only [hasks, Bool.false_eq_true, if_false,
            StdioHandler.getAvailableToolName, hcache] at hchosen
          cases hcached : self.availableTools.bind List.head? with
          | some toolName => rfl
          | none =>
              simp only [hcached, Prod.mk.injEq] at hchosen
              rw [hcall] at hchosen
              exact absurd hchosen.1 (by decide)

/-- Where the parameters are made anyway, both handlers send them. -/
theorem exists_sends_of_madeAnyway (hpasses : QueryPasses exchange)
    {handler : StdioHandler} {self : HttpHandler} {job : TuiQueryJob}
    (hcache : handler.availableTools = self.availableTools)
    (hready : self.client.state = .ready)
    (hmade : MadeAnyway job self.availableTools) :
    ∃ method params, handler.queryRequest job = (method, params) ∧
      Made job.query params ∧
      (self.processTuiQuery exchange job).Sends method params := by
  unfold MadeAnyway at hmade
  unfold StdioHandler.queryRequest
  cases hmethod : job.mcpMethod with
  | some mcpMethod =>
      simp only [hmethod] at hmade
      have hquery := processTuiQuery_of_request hpasses hready
        (chooseRequest_structured hmethod)
      by_cases hlist : mcpMethod = "tools/list"
      · rw [if_pos hlist] at hmade
        refine ⟨_, _, rfl, Or.inl hmade, ?_⟩
        rw [hquery, hmade, hlist]
        exact extractRequest_sends_list hpasses self job _ emptyParams
      · rw [if_neg hlist] at hmade
        obtain ⟨toolName, hparams⟩ := hmade
        refine ⟨_, _, rfl, Or.inr ⟨toolName, hparams⟩, ?_⟩
        rw [hquery, hparams, sendExtracted_call_iff hpasses hlist]
        exact ⟨rfl, rfl⟩
  | none =>
      simp only [hmethod] at hmade
      cases hasks : asksForTools job.query with
      | true =>
          refine ⟨_, _, if_pos rfl, Or.inl rfl, ?_⟩
          rw [processTuiQuery_of_request hpasses hready
            (chooseRequest_asks hmethod hasks)]
          exact extractRequest_sends_list hpasses self job _ emptyParams
      | false =>
          rw [hasks] at hmade
          obtain ⟨toolName, hcached⟩ := Option.isSome_iff_exists.mp
            (hmade.resolve_left Bool.false_ne_true)
          have hstdio : handler.getAvailableToolName = some toolName := by
            rw [StdioHandler.getAvailableToolName, hcache]
            exact hcached
          refine ⟨"tools/call", callParams toolName job.query, ?_,
            Or.inr ⟨toolName, rfl⟩, ?_⟩
          · simp only [Bool.false_eq_true, if_false, hstdio]
          · rw [processTuiQuery_of_request hpasses hready
                (chooseRequest_cached hmethod hasks hcached),
              sendExtracted_call_iff hpasses (by decide)]
            exact ⟨rfl, rfl⟩

end HttpHandler

/-- With interceptors that let everything pass and one cache of tools, the
backend gets the same request from both handlers exactly when both get to
send one and the parameters are those that the HTTP handler makes anyway. -/
theorem processTuiQuery_sameRequest_iff {json : SerdeJson}
    {handler : StdioHandler} {self : HttpHandler} {exchange : QueryExchange}
    {job : TuiQueryJob}
    (hpass : LetsEverythingPass handler.interceptorManager)
    (hpasses : HttpHandler.QueryPasses exchange)
    (hcache : handler.availableTools = self.availableTools)
    (hreads : StdioHandler.QueryReadsBack json handler job)
    (written : StdioHandler.Written) (clock : Clock) (delay : Float) :
    SameRequest json (handler.processTuiQuery json job written clock delay)
        (self.processTuiQuery exchange job) job ↔
      written.reaches = true ∧ self.client.state = .ready ∧
        MadeAnyway job self.availableTools := by
  constructor
  · rintro ⟨method, params, hqueried, hanswered, _⟩
    have hmade := HttpHandler.made_of_sends hpasses hanswered
    obtain ⟨hreaches, hchosen⟩ := (StdioHandler.processTuiQuery_sends_iff hpass
      hreads written clock delay hmade.lacksFloats hmade.ne_null).mp hqueried
    exact ⟨hreaches, HttpHandler.ready_of_sends hanswered,
      HttpHandler.madeAnyway_of_sends hpasses hcache hchosen hanswered⟩
  · rintro ⟨hreaches, hready, hanyway⟩
    obtain ⟨method, params, hchosen, hmade, hanswered⟩ :=
      HttpHandler.exists_sends_of_madeAnyway hpasses hcache hready hanyway
    have hqueried := (StdioHandler.processTuiQuery_sends_iff hpass hreads
      written clock delay hmade.lacksFloats hmade.ne_null).mpr
        ⟨hreaches, hchosen⟩
    refine ⟨method, params, hqueried, hanswered, ?_⟩
    intro mcpMethod hmethod
    rw [StdioHandler.queryRequest, hmethod, Prod.mk.injEq] at hchosen
    exact ⟨hchosen.1.symm, hchosen.2.symm⟩

/-! ## A structured job that the HTTP handler rewrites -/

def resourceParams : OrderedValue :=
  ⟨.object [("uri", .str "file:///notes")], by
    refine .object (List.pairwise_singleton _ _) ?_
    intro member hmember
    rw [List.mem_singleton.mp hmember]
    exact .str "file:///notes"⟩

def resourceJob : TuiQueryJob where
  correlationId := nilUuid
  query := "read my notes"
  mcpMethod := some "resources/read"
  mcpParams := some resourceParams
  responder := ⟨0⟩

def resourcePayload : Json :=
  StdioHandler.queryPayload tableFloats (uuidText resourceJob.correlationId)
    "resources/read" resourceParams

def resourceRequest : JsonRpcMessage :=
  .request ⟨"2.0", .string (uuidText resourceJob.correlationId),
    "resources/read", some resourceParams⟩

def resourceJson : SerdeJson where
  parse text :=
    if text = print resourcePayload then .ok resourcePayload
    else if text = print (resourceRequest.serialize tableFloats) then
      .ok (resourceRequest.serialize tableFloats)
    else .error "expected value at line 1 column 1"
  floats := tableFloats
  mismatch _ :=
    "data did not match any variant of untagged enum JsonRpcMessage"

theorem resourceJson_reads_payload :
    resourceJson.parse (print resourcePayload) = .ok resourcePayload := by
  simp [resourceJson]

theorem resourceJson_reads_request :
    resourceJson.parse (print (resourceRequest.serialize tableFloats)) =
      .ok (resourceRequest.serialize tableFloats) := by
  have htext : print (resourceRequest.serialize tableFloats) ≠
      print resourcePayload := by decide +kernel
  simp only [resourceJson, if_neg htext, if_true]

theorem resourceParams_lacksFloats : LacksFloats resourceParams := by
  intro bits hfloat
  cases hfloat with
  | object hmember hfloat =>
      rw [List.mem_singleton.mp hmember] at hfloat
      cases hfloat

theorem resourceJson_readsBack : StdioHandler.QueryReadsBack resourceJson
    StdioHandler.plainHandler resourceJob := by
  refine ⟨resourceJson_reads_payload, ?_⟩
  intro message hread
  obtain ⟨doc, hparse, hmessage⟩ :=
    (StdioHandler.message_eq_ok_iff _ message).mp hread
  have hpayload : resourceJson.parse
      (Text.trim (print resourcePayload ++ "\n")) = .ok resourcePayload := by
    rw [resourcePayload, StdioHandler.queryPayload, trim_print_obj]
    exact resourceJson_reads_payload
  cases hpayload.symm.trans hparse
  obtain ⟨kept, hrequest, hkept⟩ :=
    StdioHandler.ofDocument_queryPayload hmessage
  have hwritten : (kept.map (OrderedValue.serialize tableFloats)).toList =
      [resourceParams.serialize tableFloats] :=
    (StdioHandler.kept_serialize_iff resourceParams_lacksFloats
      Value.noConfusion hkept).mpr rfl
  have hserialize : message.serialize tableFloats =
      resourceRequest.serialize tableFloats := by
    cases kept with
    | none => cases hwritten
    | some value =>
        have hvalue : value.serialize tableFloats =
            resourceParams.serialize tableFloats := by
          simpa using hwritten
        rw [hrequest]
        simp only [resourceRequest, JsonRpcMessage.serialize,
          JsonRpcRequest.serialize, optionalMember, hvalue]
  have hsame : message.serialize resourceJson.floats =
      resourceRequest.serialize tableFloats := hserialize
  rw [hsame]
  exact resourceJson_reads_request

def quietExchange : QueryExchange where
  floats := tableFloats
  overflowChecks := true
  ownPass := ⟨.new, Auth.smallInstant, 0⟩
  interceptorDelayMs := 0.0
  attempts _ _ :=
    { outgoing := .new
      outgoingAt := Auth.smallInstant
      outgoingMillis := 0
      transport := fun request _ => .ok (.success request.id ⟨.null, .null⟩)
      incoming := .new
      incomingAt := Auth.smallInstant
      incomingMillis := 0 }
  elapsed _ := 0
  debugText _ := "None"

def readyHandler : HttpHandler where
  sessionId := nilUuid
  availableTools := none
  client := McpClient.retryingClient
  calls := []

theorem new_letsEverythingPass : LetsEverythingPass .new :=
  fun _ hmem => (List.not_mem_nil hmem).elim

theorem quietExchange_queryPasses : HttpHandler.QueryPasses quietExchange :=
  ⟨new_letsEverythingPass,
    fun _ _ => ⟨new_letsEverythingPass, new_letsEverythingPass⟩⟩

theorem resourceJob_sameRequest_iff :
    SameRequest resourceJson (StdioHandler.plainHandler.processTuiQuery
          resourceJson resourceJob .ok StdioHandler.plainClock 0.0)
        (readyHandler.processTuiQuery quietExchange resourceJob)
        resourceJob ↔
      StdioHandler.Written.ok.reaches = true ∧
        readyHandler.client.state = .ready ∧
        MadeAnyway resourceJob readyHandler.availableTools :=
  processTuiQuery_sameRequest_iff new_letsEverythingPass
    quietExchange_queryPasses rfl resourceJson_readsBack .ok
    StdioHandler.plainClock 0.0

/-- A structured job reaches the backend over HTTP with other parameters than
its own. -/
theorem resourceJob_not_sameRequest :
    LetsEverythingPass StdioHandler.plainHandler.interceptorManager ∧
      HttpHandler.QueryPasses quietExchange ∧
      StdioHandler.plainHandler.availableTools = readyHandler.availableTools ∧
      ¬ SameRequest resourceJson (StdioHandler.plainHandler.processTuiQuery
          resourceJson resourceJob .ok StdioHandler.plainClock 0.0)
        (readyHandler.processTuiQuery quietExchange resourceJob)
        resourceJob := by
  refine ⟨new_letsEverythingPass, quietExchange_queryPasses, rfl, ?_⟩
  rintro ⟨method, params, _, hanswered, hstructured⟩
  have hmade := HttpHandler.made_of_sends quietExchange_queryPasses hanswered
  rw [(hstructured "resources/read" rfl).2] at hmade
  rcases hmade with hempty | ⟨toolName, hcall⟩
  · have hvalue := congrArg Subtype.val hempty
    simp [resourceJob, resourceParams, emptyParams] at hvalue
  · have hvalue := congrArg Subtype.val hcall
    simp [resourceJob, resourceParams, callParams] at hvalue

end Transport
end Acdp
