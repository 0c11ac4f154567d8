import Acdp.CoreMessages

/-!
# Reading messages back

Two facts about the derived codec of JSON-RPC messages.  A message written
and read back is the same message exactly when none of its optional values is
`null`, which is read as a missing value.  And a document is classified as
the protocol asks exactly when its identifier, where it has one, is of a kind
that can be read and it has the members of a request or of a response.
-/

namespace Acdp
namespace Core

open Json

variable (floats : FloatText)

/-! ## Variants of a document -/

namespace JsonRpcMessage

def Parsable (doc : Json) : Prop :=
  doc.fits 127 = true ∧ (Value.decode floats doc).isSome = true

theorem ofDocument_eq_some_iff (doc : Json) (message : JsonRpcMessage) :
    ofDocument floats doc = some message ↔
      Parsable floats doc ∧
        ((JsonRpcRequest.deserialize floats doc).map .request).or
          (((JsonRpcResponse.deserialize floats doc).map .response).or
            ((JsonRpcNotification.deserialize floats doc).map
              .notification)) = some message := by
  unfold ofDocument deserialize Parsable
  split_ifs with hfits hbuffered
  · simp [hfits, hbuffered]
  · simp [hbuffered]
  · simp [hfits]

theorem ofDocument_eq_request_iff (doc : Json) (request : JsonRpcRequest) :
    ofDocument floats doc = some (.request request) ↔
      Parsable floats doc ∧
        JsonRpcRequest.deserialize floats doc = some request := by
  rw [ofDocument_eq_some_iff]
  cases JsonRpcRequest.deserialize floats doc with
  | some read => simp
  | none =>
      cases JsonRpcResponse.deserialize floats doc with
      | some read => simp
      | none => simp

theorem ofDocument_eq_response_iff (doc : Json) (response : JsonRpcResponse) :
    ofDocument floats doc = some (.response response) ↔
      Parsable floats doc ∧ JsonRpcRequest.deserialize floats doc = none ∧
        JsonRpcResponse.deserialize floats doc = some response := by
  rw [ofDocument_eq_some_iff]
  cases JsonRpcRequest.deserialize floats doc with
  | some read => simp
  | none =>
      cases JsonRpcResponse.deserialize floats doc with
      | some read => simp
      | none => simp

theorem ofDocument_eq_notification_iff (doc : Json)
    (notification : JsonRpcNotification) :
    ofDocument floats doc = some (.notification notification) ↔
      Parsable floats doc ∧ JsonRpcRequest.deserialize floats doc = none ∧
        JsonRpcResponse.deserialize floats doc = none ∧
        JsonRpcNotification.deserialize floats doc = some notification := by
  rw [ofDocument_eq_some_iff]
  cases JsonRpcRequest.deserialize floats doc with
  | some read => simp
  | none =>
      cases JsonRpcResponse.deserialize floats doc with
      | some read => simp
      | none => simp

end JsonRpcMessage

/-! ## Writing and reading back -/

theorem RequestId.deserialize_serialize (id : RequestId) :
    RequestId.deserialize id.serialize = some id := by
  cases id with
  | string text => rfl
  | number value => simp [serialize, deserialize, asString]
  | null => rfl

@[simp] theorem RequestId.fits_serialize (depth : ℕ) (id : RequestId) :
    id.serialize.fits depth = true := by
  cases id with
  | string text => exact fits_str depth text
  | number value => exact fits_int depth value.toInt
  | null => exact fits_null depth

theorem isSome_decode_int64 (value : Int64) :
    (Value.decode floats (.int value.toInt)).isSome = true := by
  have hlower : -2 ^ 63 ≤ value.toInt := value.le_toInt
  have hupper : value.toInt < 2 ^ 63 := value.toInt_lt
  simp only [Value.decode, Number.decode, Number.ofInt, Option.isSome_map]
  split_ifs with hnonneg hnegative
  · rfl
  · rfl
  · omega

@[simp] theorem RequestId.isSome_decode_serialize (id : RequestId) :
    (Value.decode floats id.serialize).isSome = true := by
  cases id with
  | string text => rfl
  | number value => exact isSome_decode_int64 floats value
  | null => rfl

def Kept (payload : Option OrderedValue) : Prop :=
  ∀ value, payload = some value →
    value.val ≠ .null ∧ value.val.FloatsStable floats

theorem readOptional_payload_iff (payload : Option OrderedValue) :
    readOptional (OrderedValue.deserialize floats)
        (payload.map (OrderedValue.serialize floats)).toList =
        some payload ↔ Kept floats payload := by
  rw [readOptional_toList_iff]
  apply forall₂_congr
  intro value _
  rw [OrderedValue.deserialize_serialize_iff, OrderedValue.serialize, ne_eq,
    Value.encode_eq_null_iff]

theorem Kept.isSome_decode {payload : Option OrderedValue}
    (hkept : Kept floats payload) (name : String) :
    ∀ member ∈ optionalMember name (OrderedValue.serialize floats) payload,
      (Value.decode floats member.2).isSome = true := by
  intro member hmember
  cases payload with
  | none => simp [optionalMember] at hmember
  | some value =>
      simp only [optionalMember, List.mem_singleton] at hmember
      rw [hmember]
      have hread : Value.decode floats (value.val.encode floats) =
          some value.val :=
        (Value.decode_encode_iff floats value.property).mpr (hkept value rfl).2
      simp [OrderedValue.serialize, hread]

def payloadFits (depth : ℕ) (payload : Option OrderedValue) : Bool :=
  payload.all (fun value => value.val.fits depth)

theorem fits_payload (depth : ℕ) (name : String)
    (payload : Option OrderedValue) :
    (optionalMember name (OrderedValue.serialize floats) payload).all
        (fun member => member.2.fits depth) = payloadFits depth payload := by
  simp [payloadFits, OrderedValue.serialize, Value.fits_encode]

/-! Requests, notifications and errors are some members and an optional
payload behind them. -/

section Payload

variable {floats} {members : List (String × Json)}

theorem fits_withPayload {depth : ℕ}
    (hmembers : members.all (fun member => member.2.fits depth) = true)
    (name : String) (payload : Option OrderedValue) :
    (Json.obj (members ++
        optionalMember name (OrderedValue.serialize floats) payload)).fits
        (depth + 1) = payloadFits depth payload := by
  rw [fits_obj_succ, List.all_append, fits_payload, hmembers, Bool.true_and]

theorem isSome_decode_withPayload
    (hmembers : ∀ member ∈ members,
      (Value.decode floats member.2).isSome = true)
    {payload : Option OrderedValue} (hkept : Kept floats payload)
    (name : String) :
    (Value.decode floats (.obj (members ++
      optionalMember name (OrderedValue.serialize floats) payload))).isSome =
        true := by
  rw [Value.isSome_decode_obj_iff, List.forall_mem_append]
  exact ⟨hmembers, hkept.isSome_decode floats name⟩

end Payload

namespace JsonRpcRequest

theorem deserialize_serialize_iff (request : JsonRpcRequest) :
    deserialize floats (request.serialize floats) = some request ↔
      Kept floats request.params := by
  rw [← readOptional_payload_iff]
  obtain ⟨jsonrpc, id, method, params⟩ := request
  simp [serialize, deserialize, ofMembers, requiredField, optionalField,
    entries_cons, entries_optionalMember_ne, RequestId.deserialize_serialize,
    Option.bind_eq_some_iff]

theorem fits_serialize (depth : ℕ) (request : JsonRpcRequest) :
    (request.serialize floats).fits (depth + 1) =
      payloadFits depth request.params := by
  apply fits_withPayload
  simp

theorem isSome_decode_serialize {request : JsonRpcRequest}
    (hkept : Kept floats request.params) :
    (Value.decode floats (request.serialize floats)).isSome = true := by
  apply isSome_decode_withPayload _ hkept
  simp [Value.decode]

end JsonRpcRequest

namespace JsonRpcNotification

theorem deserialize_serialize_iff (notification : JsonRpcNotification) :
    deserialize floats (notification.serialize floats) = some notification ↔
      Kept floats notification.params := by
  rw [← readOptional_payload_iff]
  obtain ⟨jsonrpc, method, params⟩ := notification
  simp [serialize, deserialize, ofMembers, requiredField, optionalField,
    entries_cons, entries_optionalMember_ne, Option.bind_eq_some_iff]

theorem fits_serialize (depth : ℕ) (notification : JsonRpcNotification) :
    (notification.serialize floats).fits (depth + 1) =
      payloadFits depth notification.params := by
  apply fits_withPayload
  simp

theorem isSome_decode_serialize {notification : JsonRpcNotification}
    (hkept : Kept floats notification.params) :
    (Value.decode floats (notification.serialize floats)).isSome = true := by
  apply isSome_decode_withPayload _ hkept
  simp [Value.decode]

theorem serialize_lacks_id (notification : JsonRpcNotification) :
    JsonRpcRequest.deserialize floats (notification.serialize floats) = none ∧
      JsonRpcResponse.deserialize floats (notification.serialize floats) =
        none := by
  simp [serialize, JsonRpcRequest.deserialize, JsonRpcRequest.ofMembers,
    JsonRpcResponse.deserialize, JsonRpcResponse.ofMembers, requiredField,
    entries_cons, entries_optionalMember_ne, readRequired]

end JsonRpcNotification

namespace JsonRpcError

theorem deserialize_serialize_iff (error : JsonRpcError) :
    deserialize floats (error.serialize floats) = some error ↔
      Kept floats error.data := by
  rw [← readOptional_payload_iff]
  obtain ⟨code, message, data⟩ := error
  simp [serialize, deserialize, ofMembers, requiredField, optionalField,
    entries_cons, entries_optionalMember_ne, Option.bind_eq_some_iff]

theorem fits_serialize (depth : ℕ) (error : JsonRpcError) :
    (error.serialize floats).fits (depth + 1) =
      payloadFits depth error.data := by
  apply fits_withPayload
  simp

theorem isSome_decode_serialize {error : JsonRpcError}
    (hkept : Kept floats error.data) :
    (Value.decode floats (error.serialize floats)).isSome = true := by
  have hcode : (Value.decode floats (.int error.code.toInt)).isSome = true := by
    have hwide := isSome_decode_int64 floats error.code.toInt64
    simpa using hwide
  apply isSome_decode_withPayload _ hkept
  simp only [List.forall_mem_cons, hcode]
  simp [Value.decode]

end JsonRpcError

namespace JsonRpcResponse

theorem deserialize_serialize_iff (response : JsonRpcResponse) :
    deserialize floats (response.serialize floats) = some response ↔
      Kept floats response.result ∧
        ∀ error, response.error = some error → Kept floats error.data := by
  have herror : readOptional (JsonRpcError.deserialize floats)
      (response.error.map (JsonRpcError.serialize floats)).toList =
        some response.error ↔
      ∀ error, response.error = some error → Kept floats error.data := by
    rw [readOptional_toList_iff]
    apply forall₂_congr
    intro error _
    rw [JsonRpcError.deserialize_serialize_iff]
    simp [JsonRpcError.serialize]
  rw [← readOptional_payload_iff, ← herror]
  obtain ⟨jsonrpc, id, result, error⟩ := response
  simp [serialize, deserialize, ofMembers, requiredField, optionalField,
    entries_cons, entries_optionalMember_ne, RequestId.deserialize_serialize,
    Option.bind_eq_some_iff]

theorem fits_serialize (depth : ℕ) (response : JsonRpcResponse) :
    (response.serialize floats).fits (depth + 2) =
      (payloadFits (depth + 1) response.result &&
        response.error.all (fun error => payloadFits depth error.data)) := by
  rw [serialize, fits_obj_succ, List.all_append, List.all_append,
    fits_payload]
  simp [JsonRpcError.fits_serialize]

theorem isSome_decode_serialize {response : JsonRpcResponse}
    (hresult : Kept floats response.result)
    (herror : ∀ error, response.error = some error →
      Kept floats error.data) :
    (Value.decode floats (response.serialize floats)).isSome = true := by
  rw [serialize, Value.isSome_decode_obj_iff, List.forall_mem_append,
    List.forall_mem_append]
  refine ⟨⟨?_, hresult.isSome_decode floats "result"⟩, ?_⟩
  · simp [Value.decode]
  · intro member hmember
    cases hsome : response.error with
    | none => simp [hsome, optionalMember] at hmember
    | some error =>
        simp only [hsome, optionalMember, List.mem_singleton] at hmember
        rw [hmember]
        exact JsonRpcError.isSome_decode_serialize floats (herror error hsome)

theorem serialize_lacks_method (response : JsonRpcResponse) :
    JsonRpcRequest.deserialize floats (response.serialize floats) = none := by
  simp [serialize, JsonRpcRequest.deserialize, JsonRpcRequest.ofMembers,
    requiredField, entries_cons, entries_optionalMember_ne, readRequired]

end JsonRpcResponse

namespace JsonRpcMessage

/-- The optional values of a message, each with the depth of nesting that the
parser's recursion limit leaves for it. -/
def payloads : JsonRpcMessage → List (OrderedValue × ℕ)
  | .request req => req.params.toList.map (fun value => (value, 126))
  | .response resp =>
      resp.result.toList.map (fun value => (value, 126)) ++
        (resp.error.bind JsonRpcError.data).toList.map
          (fun value => (value, 125))
  | .notification notif => notif.params.toList.map (fun value => (value, 126))

/-- Every optional value is other than `null`, has floating-point numbers
whose text reads back, and nests within the recursion limit. -/
def Lossless (message : JsonRpcMessage) : Prop :=
  ∀ payload ∈ message.payloads,
    payload.1.val ≠ .null ∧ payload.1.val.FloatsStable floats ∧
      payload.1.val.fits payload.2 = true

theorem forall_payload_iff (depth : ℕ) (payload : Option OrderedValue) :
    (∀ entry ∈ payload.toList.map (fun value => (value, depth)),
        entry.1.val ≠ .null ∧ entry.1.val.FloatsStable floats ∧
          entry.1.val.fits entry.2 = true) ↔
      Kept floats payload ∧ payloadFits depth payload = true := by
  cases payload with
  | none => simp [Kept, payloadFits]
  | some value => simp [Kept, payloadFits, and_assoc]

theorem reload_unchanged_iff (message : JsonRpcMessage) :
    message.reload floats = some message ↔ message.Lossless floats := by
  cases message with
  | request req =>
      rw [reload, serialize, ofDocument_eq_request_iff,
        JsonRpcRequest.deserialize_serialize_iff, Lossless, payloads,
        forall_payload_iff, Parsable, JsonRpcRequest.fits_serialize]
      constructor
      · rintro ⟨⟨hfits, _⟩, hkept⟩
        exact ⟨hkept, hfits⟩
      · rintro ⟨hkept, hfits⟩
        exact ⟨⟨hfits, JsonRpcRequest.isSome_decode_serialize floats hkept⟩,
          hkept⟩
  | response resp =>
      have herror :
          (∀ error, resp.error = some error → Kept floats error.data) ∧
              resp.error.all
                (fun error => payloadFits 125 error.data) = true ↔
            Kept floats (resp.error.bind JsonRpcError.data) ∧
              payloadFits 125 (resp.error.bind JsonRpcError.data) = true := by
        cases resp.error with
        | none => simp [Kept, payloadFits]
        | some error => simp
      rw [reload, serialize, ofDocument_eq_response_iff,
        JsonRpcResponse.deserialize_serialize_iff, Lossless, payloads,
        List.forall_mem_append, forall_payload_iff, forall_payload_iff,
        ← herror, Parsable, JsonRpcResponse.fits_serialize, Bool.and_eq_true]
      constructor
      · rintro ⟨⟨⟨hresult, hdata⟩, _⟩, _, hkept, hkeptError⟩
        exact ⟨⟨hkept, hresult⟩, hkeptError, hdata⟩
      · rintro ⟨⟨hkept, hresult⟩, hkeptError, hdata⟩
        exact ⟨⟨⟨hresult, hdata⟩,
          JsonRpcResponse.isSome_decode_serialize floats hkept hkeptError⟩,
          JsonRpcResponse.serialize_lacks_method floats resp, hkept,
          hkeptError⟩
  | notification notif =>
      have hlacks := JsonRpcNotification.serialize_lacks_id floats notif
      rw [reload, serialize, ofDocument_eq_notification_iff,
        JsonRpcNotification.deserialize_serialize_iff, Lossless, payloads,
        forall_payload_iff, Parsable, JsonRpcNotification.fits_serialize]
      constructor
      · rintro ⟨⟨hfits, _⟩, _, _, hkept⟩
        exact ⟨hkept, hfits⟩
      · rintro ⟨hkept, hfits⟩
        exact ⟨⟨hfits,
          JsonRpcNotification.isSome_decode_serialize floats hkept⟩,
          hlacks.1, hlacks.2, hkept⟩

end JsonRpcMessage

def tableFloats : FloatText where
  print bits := if bits = 0x3FF8000000000000 then "1.5" else "0.0"
  parse text :=
    if text = "1.5" then some 0x3FF8000000000000
    else if text = "0.0" then some 0
    else none

def nullResult : JsonRpcResponse := .success (.number 1) ⟨.null, .null⟩

/-- A successful response with the result `null` comes back as a response
that is not successful. -/
theorem JsonRpcMessage.reload_loses_null_result :
    (JsonRpcMessage.response nullResult).reload tableFloats ≠
        some (.response nullResult) ∧
      (JsonRpcMessage.response nullResult).reload tableFloats =
        some (.response { nullResult with result := none }) ∧
      nullResult.isSuccess = true ∧
      { nullResult with result := none : JsonRpcResponse }.isSuccess =
        false := by
  have hreload : (JsonRpcMessage.response nullResult).reload tableFloats =
      some (.response { nullResult with result := none }) := rfl
  refine ⟨?_, hreload, rfl, rfl⟩
  rw [hreload]
  simp [nullResult, JsonRpcResponse.success]

/-! ## Classification -/

section Classification

variable (members : List (String × Json))

def ReadsString (name : String) : Prop :=
  ∃ text, entries members name = [.str text]

def ReadsId : Prop :=
  ∃ value, entries members "id" = [value] ∧
    (RequestId.deserialize value).isSome = true

def ReadsError : Prop :=
  (optionalField (JsonRpcError.deserialize floats) members "error").isSome =
    true

def AtMostOne (name : String) : Prop := (entries members name).length ≤ 1

variable {members}

theorem isSome_requiredField_asString_iff (name : String) :
    (requiredField asString members name).isSome = true ↔
      ReadsString members name := by
  unfold requiredField ReadsString
  cases hentries : entries members name with
  | nil => simp [readRequired]
  | cons value rest =>
      cases rest with
      | nil => cases value <;> simp [asString]
      | cons other rest => simp [readRequired]

theorem isSome_requiredField_id_iff :
    (requiredField RequestId.deserialize members "id").isSome = true ↔
      ReadsId members := by
  unfold requiredField ReadsId
  cases hentries : entries members "id" with
  | nil => simp [readRequired]
  | cons value rest =>
      cases rest with
      | nil => simp
      | cons other rest => simp [readRequired]

theorem isSome_optionalField_payload_iff
    (hparsable : JsonRpcMessage.Parsable floats (.obj members))
    (name : String) :
    (optionalField (OrderedValue.deserialize floats) members name).isSome =
        true ↔ AtMostOne members name := by
  have hdecode : ∀ value ∈ entries members name,
      (OrderedValue.deserialize floats value).isSome = true := by
    intro value hvalue
    obtain ⟨member, hmember, rfl⟩ := List.mem_map.mp hvalue
    have hbuffered := (Value.isSome_decode_obj_iff floats members).mp
      hparsable.2 member (List.mem_of_mem_filter hmember)
    obtain ⟨decoded, hdecoded⟩ := Option.isSome_iff_exists.mp hbuffered
    rw [(OrderedValue.deserialize_eq_some_iff floats member.2
      ⟨decoded, Value.decode_normal floats member.2 hdecoded⟩).mpr hdecoded]
    rfl
  unfold optionalField AtMostOne
  cases hentries : entries members name with
  | nil => simp
  | cons value rest =>
      cases rest with
      | nil =>
          rw [hentries] at hdecode
          have hvalue := hdecode value List.mem_cons_self
          by_cases hnull : value = .null
          · simp [hnull, readOptional]
          · simp [readOptional_singleton _ hnull, hvalue]
      | cons other rest => simp [readOptional]

theorem isSome_request_iff
    (hparsable : JsonRpcMessage.Parsable floats (.obj members)) :
    (JsonRpcRequest.deserialize floats (.obj members)).isSome = true ↔
      ReadsString members "jsonrpc" ∧ ReadsId members ∧
        ReadsString members "method" ∧ AtMostOne members "params" := by
  rw [← isSome_requiredField_asString_iff, ← isSome_requiredField_id_iff,
    ← isSome_requiredField_asString_iff,
    ← isSome_optionalField_payload_iff floats hparsable]
  simp [JsonRpcRequest.deserialize, JsonRpcRequest.ofMembers,
    Option.isSome_iff_exists, Option.bind_eq_some_iff]

theorem isSome_response_iff
    (hparsable : JsonRpcMessage.Parsable floats (.obj members)) :
    (JsonRpcResponse.deserialize floats (.obj members)).isSome = true ↔
      ReadsString members "jsonrpc" ∧ ReadsId members ∧
        AtMostOne members "result" ∧ ReadsError floats members := by
  rw [← isSome_requiredField_asString_iff, ← isSome_requiredField_id_iff,
    ← isSome_optionalField_payload_iff floats hparsable, ReadsError]
  simp [JsonRpcResponse.deserialize, JsonRpcResponse.ofMembers,
    Option.isSome_iff_exists, Option.bind_eq_some_iff]

theorem isSome_notification_iff
    (hparsable : JsonRpcMessage.Parsable floats (.obj members)) :
    (JsonRpcNotification.deserialize floats (.obj members)).isSome = true ↔
      ReadsString members "jsonrpc" ∧ ReadsString members "method" ∧
        AtMostOne members "params" := by
  rw [← isSome_requiredField_asString_iff,
    ← isSome_requiredField_asString_iff,
    ← isSome_optionalField_payload_iff floats hparsable]
  simp [JsonRpcNotification.deserialize, JsonRpcNotification.ofMembers,
    Option.isSome_iff_exists, Option.bind_eq_some_iff]

/-- The message the document becomes is of the kind the protocol gives it. -/
structure WellClassified (members : List (String × Json))
    (message : JsonRpcMessage) : Prop where
  notification : ∀ notif, message = .notification notif →
    entries members "id" = []
  request : (∃ req, message = .request req) ↔
    entries members "id" ≠ [] ∧ ∃ text, .str text ∈ entries members "method"
  response : ∀ resp, message = .response resp →
    entries members "id" ≠ [] ∧ entries members "method" = [] ∧
      Xor (entries members "result" ≠ []) (entries members "error" ≠ [])

/-- Where the members of a notification come with an identifier, it is the
only one and can be read; and a document with the members of a response that
is not a request has no method and either a result or an error. -/
structure Classifiable (members : List (String × Json)) : Prop where
  identified : ReadsString members "jsonrpc" →
    ReadsString members "method" → AtMostOne members "params" →
    entries members "id" ≠ [] → ReadsId members
  answered : ReadsString members "jsonrpc" → ReadsId members →
    AtMostOne members "result" → ReadsError floats members →
    ¬ (ReadsString members "method" ∧ AtMostOne members "params") →
    entries members "method" = [] ∧
      Xor (entries members "result" ≠ []) (entries members "error" ≠ [])

theorem ReadsId.entries_ne_nil (hid : ReadsId members) :
    entries members "id" ≠ [] := by
  obtain ⟨value, hvalue, _⟩ := hid
  rw [hvalue]
  exact List.cons_ne_nil _ _

theorem Classifiable.wellClassified
    (hparsable : JsonRpcMessage.Parsable floats (.obj members))
    (hclassifiable : Classifiable floats members) {message : JsonRpcMessage}
    (hread : JsonRpcMessage.ofDocument floats (.obj members) =
      some message) :
    WellClassified members message := by
  have hrequest := isSome_request_iff floats hparsable
  have hresponse := isSome_response_iff floats hparsable
  have hnotification := isSome_notification_iff floats hparsable
  cases message with
  | request req =>
      rw [JsonRpcMessage.ofDocument_eq_request_iff] at hread
      rw [hread.2] at hrequest
      obtain ⟨_, hid, ⟨text, htext⟩, _⟩ := hrequest.mp rfl
      constructor
      · simp
      · constructor
        · intro _
          refine ⟨hid.entries_ne_nil, text, ?_⟩
          rw [htext]
          exact List.mem_cons_self
        · intro _
          exact ⟨req, rfl⟩
      · simp
  | response resp =>
      rw [JsonRpcMessage.ofDocument_eq_response_iff] at hread
      rw [hread.2.1] at hrequest
      rw [hread.2.2] at hresponse
      obtain ⟨hversion, hid, hresult, herror⟩ := hresponse.mp rfl
      have hother : ¬ (ReadsString members "method" ∧
          AtMostOne members "params") := by
        intro hmethod
        exact absurd (hrequest.mpr ⟨hversion, hid, hmethod⟩) (by simp)
      have hanswered :=
        hclassifiable.answered hversion hid hresult herror hother
      constructor
      · simp
      · simp [hanswered.1]
      · intro _ _
        exact ⟨hid.entries_ne_nil, hanswered⟩
  | notification notif =>
      rw [JsonRpcMessage.ofDocument_eq_notification_iff] at hread
      rw [hread.2.1] at hrequest
      rw [hread.2.2.2] at hnotification
      obtain ⟨hversion, hmethod, hparams⟩ := hnotification.mp rfl
      have habsent : entries members "id" = [] := by
        by_contra hpresent
        have hid :=
          hclassifiable.identified hversion hmethod hparams hpresent
        exact absurd (hrequest.mpr ⟨hversion, hid, hmethod, hparams⟩)
          (by simp)
      constructor
      · intro _ _
        exact habsent
      · simp [habsent]
      · simp

/-- A document that the parser takes is classified as the protocol asks
exactly when it is classifiable. -/
theorem ofDocument_wellClassified_iff (members : List (String × Json)) :
    (∀ message, JsonRpcMessage.ofDocument floats (.obj members) =
        some message → WellClassified members message) ↔
      (JsonRpcMessage.Parsable floats (.obj members) →
        Classifiable floats members) := by
  constructor
  · intro hwell hparsable
    have hrequest := isSome_request_iff floats hparsable
    have hresponse := isSome_response_iff floats hparsable
    have hnotification := isSome_notification_iff floats hparsable
    constructor
    · intro hversion hmethod hparams hpresent
      by_contra hid
      have hnone : JsonRpcRequest.deserialize floats (.obj members) = none := by
        rw [← Option.not_isSome_iff_eq_none, hrequest]
        exact fun hfields => hid hfields.2.1
      have hnoneResponse :
          JsonRpcResponse.deserialize floats (.obj members) = none := by
        rw [← Option.not_isSome_iff_eq_none, hresponse]
        exact fun hfields => hid hfields.2.1
      obtain ⟨notif, hnotif⟩ := Option.isSome_iff_exists.mp
        (hnotification.mpr ⟨hversion, hmethod, hparams⟩)
      have hread := (JsonRpcMessage.ofDocument_eq_notification_iff floats
        (.obj members) notif).mpr ⟨hparsable, hnone, hnoneResponse, hnotif⟩
      exact hpresent ((hwell _ hread).notification notif rfl)
    · intro hversion hid hresult herror hother
      have hnone : JsonRpcRequest.deserialize floats (.obj members) = none := by
        rw [← Option.not_isSome_iff_eq_none, hrequest]
        exact fun hfields => hother hfields.2.2
      obtain ⟨resp, hresp⟩ := Option.isSome_iff_exists.mp
        (hresponse.mpr ⟨hversion, hid, hresult, herror⟩)
      have hread := (JsonRpcMessage.ofDocument_eq_response_iff floats
        (.obj members) resp).mpr ⟨hparsable, hnone, hresp⟩
      exact ((hwell _ hread).response resp rfl).2
  · intro hclassifiable message hread
    have hparsable :=
      ((JsonRpcMessage.ofDocument_eq_some_iff floats _ message).mp hread).1
    exact (hclassifiable hparsable).wellClassified floats hparsable hread

end Classification

def fractionalId : List (String × Json) :=
  [("jsonrpc", .str "2.0"), ("id", .decimal "1.5"), ("method", .str "ping")]

/-- It becomes a notification, and the identifier is dropped. -/
theorem ofDocument_demotes_fractional_id :
    JsonRpcMessage.ofDocument tableFloats (.obj fractionalId) =
        some (.notification ⟨"2.0", "ping", none⟩) ∧
      ¬ WellClassified fractionalId (.notification ⟨"2.0", "ping", none⟩) := by
  constructor
  · rfl
  · intro hwell
    have habsent := hwell.notification _ rfl
    simp [fractionalId, entries_cons] at habsent

end Core
end Acdp
