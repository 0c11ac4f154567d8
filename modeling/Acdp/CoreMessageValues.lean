import Acdp.CoreStreamedResponses

/-!
# Messages read from values

A server that takes its bodies as JSON values reads a message from the value
and not from the text.  A value has each name once and its numbers read
already, and it is classified in the same order: a request, a response, a
notification.
-/

namespace Acdp
namespace Core

open Json

/-! ## Structs in values -/

/-- The elements of an array. -/
def valueElements (value : OrderedValue) : Option (List OrderedValue) :=
  match hvalue : value.val with
  | .array elements =>
      some (elements.attach.map (fun element =>
        ⟨element.val, by
          have hnormal := value.property
          rw [hvalue] at hnormal
          cases hnormal with
          | array helements => exact helements element.val element.property⟩))
  | _ => none

/-- What stands for the fields of a struct: the members of an object under
their names, or the elements of an array that has as many. -/
def fieldsOf (names : List String) (value : OrderedValue) :
    Option (List (Option OrderedValue)) :=
  match value.val with
  | .object _ => some (names.map value.get)
  | _ =>
      (valueElements value).bind (fun elements =>
        if elements.length = names.length then some (elements.map some)
        else none)

def requiredIn {α : Type} (read : Value → Option α)
    (field : Option OrderedValue) : Option α :=
  field.bind (fun value => read value.val)

def optionalIn {α : Type} (read : OrderedValue → Option α) :
    Option OrderedValue → Option (Option α)
  | none => some none
  | some value =>
      match value.val with
      | .null => some none
      | _ => (read value).map some

/-- `i32`, where the number is one. -/
def valueAsI32 : Value → Option Int32
  | .number number =>
      number.asI64.bind (fun value =>
        if -2 ^ 31 ≤ value.toInt ∧ value.toInt < 2 ^ 31 then
          some (Int32.ofInt value.toInt)
        else none)
  | _ => none

def RequestId.fromValue : Value → Option RequestId
  | .str text => some (.string text)
  | .number value => value.asI64.map .number
  | .null => some .null
  | _ => none

def JsonRpcError.fromValue (value : OrderedValue) : Option JsonRpcError := do
  match ← fieldsOf ["code", "message", "data"] value with
  | [code, message, data] =>
      let code ← requiredIn valueAsI32 code
      let message ← requiredIn Value.asStr message
      let data ← optionalIn some data
      some ⟨code, message, data⟩
  | _ => none

def JsonRpcRequest.fromValue (value : OrderedValue) :
    Option JsonRpcRequest := do
  match ← fieldsOf ["jsonrpc", "id", "method", "params"] value with
  | [jsonrpc, id, method, params] =>
      let jsonrpc ← requiredIn Value.asStr jsonrpc
      let id ← requiredIn RequestId.fromValue id
      let method ← requiredIn Value.asStr method
      let params ← optionalIn some params
      some ⟨jsonrpc, id, method, params⟩
  | _ => none

def JsonRpcResponse.fromValue (value : OrderedValue) :
    Option JsonRpcResponse := do
  match ← fieldsOf ["jsonrpc", "id", "result", "error"] value with
  | [jsonrpc, id, result, error] =>
      let jsonrpc ← requiredIn Value.asStr jsonrpc
      let id ← requiredIn RequestId.fromValue id
      let result ← optionalIn some result
      let error ← optionalIn JsonRpcError.fromValue error
      some ⟨jsonrpc, id, result, error⟩
  | _ => none

def JsonRpcNotification.fromValue (value : OrderedValue) :
    Option JsonRpcNotification := do
  match ← fieldsOf ["jsonrpc", "method", "params"] value with
  | [jsonrpc, method, params] =>
      let jsonrpc ← requiredIn Value.asStr jsonrpc
      let method ← requiredIn Value.asStr method
      let params ← optionalIn some params
      some ⟨jsonrpc, method, params⟩
  | _ => none

/-- `serde_json::from_value`. -/
def JsonRpcMessage.fromValue (value : OrderedValue) : Option JsonRpcMessage :=
  ((JsonRpcRequest.fromValue value).map .request).or
    (((JsonRpcResponse.fromValue value).map .response).or
      ((JsonRpcNotification.fromValue value).map .notification))

/-! ## A request that was written as text -/

section Carried

variable {json : SerdeJson} {request : JsonRpcRequest} {text : String}

theorem RequestId.fromValue_of_decode {floats : FloatText} {id : RequestId}
    {value : Value} (hdecode : Value.decode floats id.serialize = some value) :
    RequestId.fromValue value = some id := by
  cases id with
  | string text => rw [← Option.some.inj hdecode]; rfl
  | number number =>
      rw [RequestId.serialize, Value.decode, Number.decode] at hdecode
      obtain ⟨read, hread, rfl⟩ := Option.map_eq_some_iff.mp hdecode
      rw [fromValue, asI64_ofInt floats number hread]
      rfl
  | null => rw [← Option.some.inj hdecode]; rfl

theorem fieldsOf_object {value : OrderedValue}
    (hobject : ∃ members, value.val = .object members) (names : List String) :
    fieldsOf names value = some (names.map value.get) := by
  obtain ⟨members, hmembers⟩ := hobject
  simp only [fieldsOf, hmembers]

theorem requiredIn_of_map {α : Type} (read : Value → Option α)
    {field : Option OrderedValue} {value : Value}
    (hfield : field.map Subtype.val = some value) :
    requiredIn read field = read value := by
  obtain ⟨found, rfl, rfl⟩ := Option.map_eq_some_iff.mp hfield
  rfl

theorem optionalIn_some {α : Type} (read : OrderedValue → Option α)
    {value : OrderedValue} (hvalue : value.val ≠ .null) :
    optionalIn read (some value) = (read value).map some := by
  obtain ⟨val, hnormal⟩ := value
  cases val with
  | null => exact absurd rfl hvalue
  | _ => rfl

/-- The parameters come back as they were. -/
theorem optionalIn_of_decode {floats : FloatText}
    {payload found : Option OrderedValue} (hkept : Kept floats payload)
    (hfound : found.map Subtype.val = (payload.map
      (OrderedValue.serialize floats)).bind (Value.decode floats)) :
    optionalIn some found = some payload := by
  cases payload with
  | none =>
      rw [Option.map_eq_none_iff.mp hfound]
      rfl
  | some value =>
      obtain ⟨hnull, hstable⟩ := hkept value rfl
      have hdecode :=
        (Value.decode_encode_iff floats value.property).mpr hstable
      obtain rfl : found = some value := by
        apply Option.map_injective Subtype.val_injective
        exact hfound.trans hdecode
      exact optionalIn_some some hnull

/-- A lossless request that was written as text is read from the value of the
text. -/
theorem JsonRpcMessage.fromValue_request
    (hcarries : Carries json (.request request) text)
    (hlossless : (JsonRpcMessage.request request).Lossless json.floats) :
    ∃ document, json.value text = .ok document ∧
      fromValue document = some (.request request) := by
  obtain ⟨members, others, hparse, hserialize, hentries⟩ := hcarries
  obtain rfl := Json.obj.inj hserialize
  obtain ⟨hkept, hfits⟩ : Kept json.floats request.params ∧
      payloadFits 126 request.params = true := by
    rw [← forall_payload_iff]
    exact hlossless
  obtain ⟨document, hvalue⟩ : ∃ document, json.value text = .ok document := by
    rw [SerdeJson.exists_value_iff hparse,
      forall_mem_iff_of_entries hentries (Legible json.floats 126)]
    refine List.forall_mem_append.mpr ⟨?_, ?_⟩
    · refine List.forall_mem_cons.mpr ⟨legible_str _ 126 _,
        List.forall_mem_cons.mpr ⟨⟨RequestId.fits_serialize 126 request.id,
          RequestId.isSome_decode_serialize json.floats request.id⟩,
          List.forall_mem_singleton.mpr (legible_str _ 126 _)⟩⟩
    · intro member hmember
      cases hparams : request.params with
      | none =>
          rw [hparams] at hmember
          cases hmember
      | some value =>
          rw [hparams] at hmember hfits
          rw [List.mem_singleton.mp hmember]
          exact Value.legible_encode _ value.property hfits
            (hkept value hparams).2
  have hget := SerdeJson.map_val_get hparse hvalue
  refine ⟨document, hvalue, ?_⟩
  have hversion : (document.get "jsonrpc").map Subtype.val =
      some (.str request.jsonrpc) := by
    rw [hget, hentries]
    simp [entries_cons, entries_optionalMember_ne, Value.decode]
  have hid : (document.get "id").map Subtype.val =
      Value.decode json.floats request.id.serialize := by
    rw [hget, hentries]
    simp [entries_cons, entries_optionalMember_ne]
  have hmethod : (document.get "method").map Subtype.val =
      some (.str request.method) := by
    rw [hget, hentries]
    simp [entries_cons, entries_optionalMember_ne, Value.decode]
  have hparams : (document.get "params").map Subtype.val =
      (request.params.map (OrderedValue.serialize json.floats)).bind
        (Value.decode json.floats) := by
    rw [hget, hentries]
    cases request.params <;> simp [entries_cons]
  have hobject : ∃ decoded, document.val = .object decoded := by
    obtain ⟨_, hdecode⟩ := (SerdeJson.value_eq_ok_iff hparse document).mp hvalue
    rw [Value.decode] at hdecode
    obtain ⟨decoded, _, hdecoded⟩ := Option.map_eq_some_iff.mp hdecode
    exact ⟨_, hdecoded.symm⟩
  obtain ⟨id, hdecode⟩ := Option.isSome_iff_exists.mp
    (RequestId.isSome_decode_serialize json.floats request.id)
  rw [hdecode] at hid
  have hrequest : JsonRpcRequest.fromValue document = some request := by
    simp only [JsonRpcRequest.fromValue, fieldsOf_object hobject, List.map_cons,
      List.map_nil, requiredIn_of_map _ hversion, requiredIn_of_map _ hid,
      requiredIn_of_map _ hmethod, RequestId.fromValue_of_decode hdecode,
      optionalIn_of_decode hkept hparams, Value.asStr, bind, Option.bind]
  rw [fromValue, hrequest]
  rfl

end Carried

end Core
end Acdp
