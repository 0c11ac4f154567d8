import Acdp.TransportStdioTransparency

/-!
# Requests that the interceptors see

A line that cannot be read as one message is passed on to the child without
any interceptor having seen it.  A request is therefore offered to the
interceptors exactly when the message types can read its spelling; a batch
never is.
-/

namespace Acdp
namespace Transport

open Acdp.Core Json

/-! ## Requests in a document -/

def IsRequest (doc : Json) (method : String) : Prop :=
  ∃ members, doc = .obj members ∧
    (∃ version, .str version ∈ entries members "jsonrpc") ∧
    .str method ∈ entries members "method"

/-- A single request, or one of a batch of requests. -/
def RequestIn (doc : Json) (method : String) : Prop :=
  IsRequest doc method ∨
    ∃ elements, doc = .arr elements ∧
      (∀ element ∈ elements, ∃ other, IsRequest element other) ∧
      ∃ element ∈ elements, IsRequest element method

theorem requestIn_obj_iff (members : List (String × Json)) (method : String) :
    RequestIn (.obj members) method ↔
      (∃ version, .str version ∈ entries members "jsonrpc") ∧
        .str method ∈ entries members "method" := by
  constructor
  · rintro (⟨others, hothers, hrequest⟩ | ⟨elements, hdoc, _⟩)
    · rw [Json.obj.injEq] at hothers
      rw [hothers]
      exact hrequest
    · cases hdoc
  · intro hrequest
    exact Or.inl ⟨members, rfl, hrequest⟩

/-- A record written as an array starts with a string. -/
theorem ofDocument_arr_head {floats : FloatText} {elements : List Json}
    {message : JsonRpcMessage}
    (hread : JsonRpcMessage.ofDocument floats (.arr elements) = some message) :
    ∃ text rest, elements = .str text :: rest := by
  have hhead : ∀ {element : Json} {rest : List Json} {text : String},
      asString element = some text →
      ∃ spelled others, element :: rest = .str spelled :: others := by
    intro element rest text hstring
    rw [asString_eq hstring]
    exact ⟨text, rest, rfl⟩
  cases message with
  | request request =>
      rw [JsonRpcMessage.ofDocument_eq_request_iff] at hread
      have hfields : JsonRpcRequest.ofElements floats elements =
          some request := hread.2
      unfold JsonRpcRequest.ofElements at hfields
      split at hfields
      · simp only [Option.bind_eq_bind, Option.bind_eq_some_iff] at hfields
        obtain ⟨jsonrpc, hjsonrpc, _⟩ := hfields
        exact hhead hjsonrpc
      · cases hfields
  | response response =>
      rw [JsonRpcMessage.ofDocument_eq_response_iff] at hread
      have hfields : JsonRpcResponse.ofElements floats elements =
          some response := hread.2.2
      unfold JsonRpcResponse.ofElements at hfields
      split at hfields
      · simp only [Option.bind_eq_bind, Option.bind_eq_some_iff] at hfields
        obtain ⟨jsonrpc, hjsonrpc, _⟩ := hfields
        exact hhead hjsonrpc
      · cases hfields
  | notification notification =>
      rw [JsonRpcMessage.ofDocument_eq_notification_iff] at hread
      have hfields : JsonRpcNotification.ofElements floats elements =
          some notification := hread.2.2.2
      unfold JsonRpcNotification.ofElements at hfields
      split at hfields
      · simp only [Option.bind_eq_bind, Option.bind_eq_some_iff] at hfields
        obtain ⟨jsonrpc, hjsonrpc, _⟩ := hfields
        exact hhead hjsonrpc
      · cases hfields

theorem RequestIn.of_read {floats : FloatText} {doc : Json} {method : String}
    (hrequest : RequestIn doc method) {message : JsonRpcMessage}
    (hread : JsonRpcMessage.ofDocument floats doc = some message) :
    ∃ members, doc = .obj members := by
  rcases hrequest with ⟨members, hmembers, _⟩ | ⟨elements, hdoc, hall, _⟩
  · exact ⟨members, hmembers⟩
  · rw [hdoc] at hread
    obtain ⟨text, rest, helements⟩ := ofDocument_arr_head hread
    obtain ⟨other, members, hobj, _⟩ := hall (.str text) (by simp [helements])
    cases hobj

namespace StdioHandler

variable (json : SerdeJson)

/-! ## Requests on a line -/

/-- Where the line is passed on, each request in it was offered to the
interceptors with its method, and they did not block it. -/
def Guarded (handler : StdioHandler) (content : String) (clock : Clock) :
    Prop :=
  ∀ doc method, documentOf json content = some doc → RequestIn doc method →
    ∀ out, (processOutgoing json handler content clock).result = .ok out →
      ∃ message,
        (processOutgoing json handler content clock).offered = some message ∧
        message.method = some method ∧
        ∀ result,
          (handler.interceptMessage .outgoing message clock).result =
            .ok result → result.block = false

/-- The interceptors block the response that the document is taken for. -/
def BlockedAsResponse (handler : StdioHandler) (members : List (String × Json))
    (clock : Clock) : Prop :=
  ∃ response result,
    JsonRpcResponse.deserialize json.floats (.obj members) = some response ∧
      (handler.interceptMessage .outgoing (.response response) clock).result =
        .ok result ∧ result.block = true

/-- A single request that the parser takes, whose version and method occur
once and whose parameters occur at most once. -/
def Readable (handler : StdioHandler) (content : String) (clock : Clock) :
    Prop :=
  ∀ doc method, documentOf json content = some doc → RequestIn doc method →
    ∃ members, doc = .obj members ∧
      JsonRpcMessage.Parsable json.floats (.obj members) ∧
      ReadsString members "jsonrpc" ∧
      ((ReadsString members "method" ∧ AtMostOne members "params") ∨
        BlockedAsResponse json handler members clock)

variable {json}

theorem method_of_request {members : List (String × Json)}
    {request : JsonRpcRequest}
    (hread : JsonRpcRequest.deserialize json.floats (.obj members) =
      some request) : entries members "method" = [.str request.method] := by
  simp only [JsonRpcRequest.deserialize, JsonRpcRequest.ofMembers,
    Option.bind_eq_bind, Option.bind_eq_some_iff, Option.some.injEq] at hread
  obtain ⟨_, _, _, _, method, hmethod, _, _, rfl⟩ := hread
  exact entries_of_required .str (fun doc => asString_eq) hmethod

theorem method_of_notification {members : List (String × Json)}
    {notification : JsonRpcNotification}
    (hread : JsonRpcNotification.deserialize json.floats (.obj members) =
      some notification) :
    entries members "method" = [.str notification.method] := by
  simp only [JsonRpcNotification.deserialize, JsonRpcNotification.ofMembers,
    Option.bind_eq_bind, Option.bind_eq_some_iff, Option.some.injEq] at hread
  obtain ⟨_, _, method, hmethod, _, _, rfl⟩ := hread
  exact entries_of_required .str (fun doc => asString_eq) hmethod

/-- What is read from an object with a method: a message with that method, or
a response, when the method or the parameters cannot be read. -/
theorem read_obj_cases {members : List (String × Json)}
    {message : JsonRpcMessage}
    (hread : JsonRpcMessage.ofDocument json.floats (.obj members) =
      some message) :
    ReadsString members "jsonrpc" ∧
      ((ReadsString members "method" ∧ AtMostOne members "params" ∧
          ∃ method, message.method = some method ∧
            entries members "method" = [.str method]) ∨
        (¬ (ReadsString members "method" ∧ AtMostOne members "params") ∧
          ∃ response, message = .response response ∧
            JsonRpcResponse.deserialize json.floats (.obj members) =
              some response)) := by
  have hparsable :=
    ((JsonRpcMessage.ofDocument_eq_some_iff json.floats _ message).mp hread).1
  have hrequest := isSome_request_iff json.floats hparsable
  have hresponse := isSome_response_iff json.floats hparsable
  have hnotification := isSome_notification_iff json.floats hparsable
  cases message with
  | request request =>
      rw [JsonRpcMessage.ofDocument_eq_request_iff] at hread
      have hmethodIs := method_of_request hread.2
      rw [hread.2] at hrequest
      obtain ⟨hversion, _, hmethod, hparams⟩ := hrequest.mp rfl
      exact ⟨hversion, Or.inl ⟨hmethod, hparams, request.method, rfl,
        hmethodIs⟩⟩
  | notification notification =>
      rw [JsonRpcMessage.ofDocument_eq_notification_iff] at hread
      have hmethodIs := method_of_notification hread.2.2.2
      rw [hread.2.2.2] at hnotification
      obtain ⟨hversion, hmethod, hparams⟩ := hnotification.mp rfl
      exact ⟨hversion, Or.inl ⟨hmethod, hparams, notification.method, rfl,
        hmethodIs⟩⟩
  | response response =>
      rw [JsonRpcMessage.ofDocument_eq_response_iff] at hread
      rw [hread.2.1] at hrequest
      rw [hread.2.2] at hresponse
      obtain ⟨hversion, hid, _, _⟩ := hresponse.mp rfl
      refine ⟨hversion, Or.inr ⟨?_, response, rfl, hread.2.2⟩⟩
      intro hmethod
      exact absurd (hrequest.mpr ⟨hversion, hid, hmethod⟩) (by simp)

theorem isSome_ofDocument {members : List (String × Json)}
    (hparsable : JsonRpcMessage.Parsable json.floats (.obj members))
    (hversion : ReadsString members "jsonrpc")
    (hmethod : ReadsString members "method")
    (hparams : AtMostOne members "params") :
    ∃ message,
      JsonRpcMessage.ofDocument json.floats (.obj members) = some message := by
  have hnotification := (isSome_notification_iff json.floats hparsable).mpr
    ⟨hversion, hmethod, hparams⟩
  obtain ⟨notification, hread⟩ := Option.isSome_iff_exists.mp hnotification
  simp only [JsonRpcMessage.ofDocument_eq_some_iff, hparsable, true_and, hread]
  cases JsonRpcRequest.deserialize json.floats (.obj members) with
  | some request => exact ⟨_, rfl⟩
  | none =>
      cases JsonRpcResponse.deserialize json.floats (.obj members) with
      | some response => exact ⟨_, rfl⟩
      | none => exact ⟨_, rfl⟩

section Line

variable {handler : StdioHandler} {content : String} {clock : Clock}

theorem deliver_ok_iff {message : JsonRpcMessage}
    {result : InterceptionResult}
    (observe : StdioHandler → JsonRpcMessage → StdioHandler) :
    (∃ out, (deliver observe json handler content message
      (.ok result)).result = .ok out) ↔ result.block = false := by
  cases hblock : result.block <;> simp [deliver, hblock]

theorem offered_deliver {message : JsonRpcMessage}
    {result : InterceptionResult}
    (observe : StdioHandler → JsonRpcMessage → StdioHandler) :
    (deliver observe json handler content message (.ok result)).offered =
      some message := by
  cases hblock : result.block <;> simp [deliver, hblock]

theorem readable_of_guarded (hguarded : Guarded json handler content clock) :
    Readable json handler content clock := by
  intro doc method hdoc hrequest
  have hguard := hguarded doc method hdoc hrequest
  rcases processLine_cases .outgoing (fun handler _ => handler) json handler
      content clock with ⟨e, _, hline⟩ | ⟨message, result, hread, hresult, hline⟩
  · rw [processOutgoing, hline] at hguard
    obtain ⟨message, hoffered, _⟩ := hguard _ rfl
    cases hoffered
  · rw [documentOf_eq_some_iff] at hdoc
    obtain ⟨other, hparse, hmessage⟩ := (message_eq_ok_iff _ message).mp hread
    rw [hdoc, Except.ok.injEq] at hparse
    subst hparse
    obtain ⟨members, rfl⟩ := hrequest.of_read hmessage
    have hparsable :=
      ((JsonRpcMessage.ofDocument_eq_some_iff _ _ message).mp hmessage).1
    obtain ⟨hversion, hkind⟩ := read_obj_cases hmessage
    refine ⟨members, rfl, hparsable, hversion, ?_⟩
    rcases hkind with ⟨hmethod, hparams, _⟩ | ⟨_, response, rfl, hresponse⟩
    · exact Or.inl ⟨hmethod, hparams⟩
    · refine Or.inr ⟨response, result, hresponse, hresult, ?_⟩
      -- a response that were passed on would have been offered with a method
      by_contra hpassed
      rw [Bool.not_eq_true, ← deliver_ok_iff (fun handler _ => handler)]
        at hpassed
      obtain ⟨out, hout⟩ := hpassed
      rw [processOutgoing, hline, offered_deliver] at hguard
      obtain ⟨_, hoffered, hmethod, _⟩ := hguard out hout
      rw [← Option.some.inj hoffered] at hmethod
      cases hmethod

theorem guarded_of_readable (hreadable : Readable json handler content clock) :
    Guarded json handler content clock := by
  intro doc method hdoc hrequest out hout
  obtain ⟨members, rfl, hparsable, hversion, hkind⟩ :=
    hreadable doc method hdoc hrequest
  have hparse := (documentOf_eq_some_iff content _).mp hdoc
  rcases processLine_cases .outgoing (fun handler _ => handler) json handler
      content clock with ⟨e, hread, _⟩ | ⟨message, result, hread, hresult, hline⟩
  · have hnone : ∀ message, JsonRpcMessage.ofDocument json.floats
        (.obj members) ≠ some message := by
      intro message hmessage
      have hok := (message_eq_ok_iff _ message).mpr ⟨_, hparse, hmessage⟩
      rw [hread] at hok
      cases hok
    rcases hkind with ⟨hmethod, hparams⟩ | ⟨response, _, hresponse, _⟩
    · obtain ⟨message, hmessage⟩ :=
        isSome_ofDocument hparsable hversion hmethod hparams
      exact (hnone message hmessage).elim
    · cases hrequestRead :
          JsonRpcRequest.deserialize json.floats (.obj members) with
      | some request =>
          exact (hnone _ ((JsonRpcMessage.ofDocument_eq_request_iff _ _ _).mpr
            ⟨hparsable, hrequestRead⟩)).elim
      | none =>
          exact (hnone _ ((JsonRpcMessage.ofDocument_eq_response_iff _ _ _).mpr
            ⟨hparsable, hrequestRead, hresponse⟩)).elim
  · obtain ⟨other, hother, hmessage⟩ := (message_eq_ok_iff _ message).mp hread
    rw [hparse, Except.ok.injEq] at hother
    subst hother
    rw [processOutgoing, hline] at hout ⊢
    have hpassed := (deliver_ok_iff (fun handler _ => handler)).mp ⟨out, hout⟩
    refine ⟨message, offered_deliver _, ?_, ?_⟩
    · obtain ⟨_, hread⟩ := read_obj_cases hmessage
      rcases hread with ⟨_, _, spelled, hspelled, hentries⟩ |
          ⟨hunreadable, response, rfl, hresponse⟩
      · have hmember := ((requestIn_obj_iff members method).mp hrequest).2
        rw [hentries, List.mem_singleton, Json.str.injEq] at hmember
        rw [hmember]
        exact hspelled
      · rcases hkind with hmethod | ⟨other, blocked, hother, hblocked, hblock⟩
        · exact (hunreadable hmethod).elim
        · rw [hresponse, Option.some.injEq] at hother
          subst hother
          rw [hresult, Except.ok.injEq] at hblocked
          rw [hblocked, hblock] at hpassed
          cases hpassed
    · intro other hother
      rw [hresult, Except.ok.injEq] at hother
      rw [← hother]
      exact hpassed

end Line

/-- Exactly the requests that the message types can read are kept from
passing the interceptors by. -/
theorem guarded_iff_readable (json : SerdeJson) (handler : StdioHandler)
    (content : String) (clock : Clock) :
    Guarded json handler content clock ↔
      Readable json handler content clock :=
  ⟨readable_of_guarded, guarded_of_readable⟩

/-! A batch of one request. -/

def batchedCall : Json :=
  .arr [.obj [("jsonrpc", .str "2.0"), ("id", .int 1),
    ("method", .str "tools/call")]]

def batchJson : SerdeJson where
  parse text :=
    if text = print batchedCall then .ok batchedCall
    else .error "expected value at line 1 column 1"
  floats := tableFloats
  mismatch _ :=
    "data did not match any variant of untagged enum JsonRpcMessage"

theorem batchedCall_not_guarded :
    ¬ Guarded batchJson plainHandler (print batchedCall) plainClock := by
  have htrim : Text.trim (print batchedCall) = print batchedCall := by decide
  have hdocument : documentOf batchJson (print batchedCall) =
      some batchedCall := by
    rw [documentOf, htrim]
    simp [batchJson, Except.toOption]
  have hrequest : RequestIn batchedCall "tools/call" := by
    refine Or.inr ⟨_, rfl, ?_⟩
    simp [IsRequest, entries_cons]
  intro hguarded
  obtain ⟨members, hobj, _⟩ := readable_of_guarded hguarded batchedCall
    "tools/call" hdocument hrequest
  cases hobj

end StdioHandler

end Transport
end Acdp
