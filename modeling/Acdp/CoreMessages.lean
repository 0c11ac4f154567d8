import Acdp.JsonValue

/-!
# JSON-RPC messages

Requests, responses and notifications of the JSON-RPC protocol with their
derived JSON form.  A record is read from an object or, in the order of its
fields, from an array of exactly its length.  The message type is untagged:
which variant a document becomes depends only on which fields can be read.
-/

namespace Acdp
namespace Core

open Json

/-! ## Identifiers -/

inductive RequestId where
  | string (text : String)
  | number (value : Int64)
  | null
  deriving DecidableEq, Repr

namespace RequestId

/-- `Display`, the text under which the transports file an identifier. -/
def display : RequestId → String
  | .string text => text
  | .number value => toString value.toInt
  | .null => "null"

def serialize : RequestId → Json
  | .string text => .str text
  | .number value => .int value.toInt
  | .null => .null

/-- The first variant that can be read: a string, then an `i64`, then
`null`. -/
def deserialize (doc : Json) : Option RequestId :=
  ((asString doc).map .string).or
    (((asInt64 doc).map .number).or
      (match doc with
        | .null => some .null
        | _ => none))

end RequestId

/-! ## Errors, requests, responses and notifications -/

structure JsonRpcError where
  code : Int32
  message : String
  data : Option OrderedValue

namespace JsonRpcError

def serialize (floats : FloatText) (self : JsonRpcError) : Json :=
  .obj ([("code", .int self.code.toInt), ("message", .str self.message)] ++
    optionalMember "data" (OrderedValue.serialize floats) self.data)

def ofMembers (floats : FloatText) (members : List (String × Json)) :
    Option JsonRpcError := do
  let code ← requiredField asInt32 members "code"
  let message ← requiredField asString members "message"
  let data ← optionalField (OrderedValue.deserialize floats) members "data"
  some ⟨code, message, data⟩

def ofElements (floats : FloatText) : List Json → Option JsonRpcError
  | [code, message, data] => do
      let code ← asInt32 code
      let message ← asString message
      let data ← readOptional (OrderedValue.deserialize floats) [data]
      some ⟨code, message, data⟩
  | _ => none

def deserialize (floats : FloatText) : Json → Option JsonRpcError
  | .obj members => ofMembers floats members
  | .arr elements => ofElements floats elements
  | _ => none

def fitsKnown (depth : ℕ) : Json → Bool
  | .obj members => (entries members "data").all (fits depth)
  | .arr elements => elements.all (fits depth)
  | _ => true

end JsonRpcError

structure JsonRpcRequest where
  jsonrpc : String
  id : RequestId
  method : String
  params : Option OrderedValue

namespace JsonRpcRequest

def new (id : RequestId) (method : String) (params : OrderedValue) :
    JsonRpcRequest :=
  ⟨"2.0", id, method, some params⟩

def withoutParams (id : RequestId) (method : String) : JsonRpcRequest :=
  ⟨"2.0", id, method, none⟩

def serialize (floats : FloatText) (self : JsonRpcRequest) : Json :=
  .obj ([("jsonrpc", .str self.jsonrpc), ("id", self.id.serialize),
      ("method", .str self.method)] ++
    optionalMember "params" (OrderedValue.serialize floats) self.params)

def ofMembers (floats : FloatText) (members : List (String × Json)) :
    Option JsonRpcRequest := do
  let jsonrpc ← requiredField asString members "jsonrpc"
  let id ← requiredField RequestId.deserialize members "id"
  let method ← requiredField asString members "method"
  let params ←
    optionalField (OrderedValue.deserialize floats) members "params"
  some ⟨jsonrpc, id, method, params⟩

def ofElements (floats : FloatText) : List Json → Option JsonRpcRequest
  | [jsonrpc, id, method, params] => do
      let jsonrpc ← asString jsonrpc
      let id ← RequestId.deserialize id
      let method ← asString method
      let params ← readOptional (OrderedValue.deserialize floats) [params]
      some ⟨jsonrpc, id, method, params⟩
  | _ => none

def deserialize (floats : FloatText) : Json → Option JsonRpcRequest
  | .obj members => ofMembers floats members
  | .arr elements => ofElements floats elements
  | _ => none

end JsonRpcRequest

structure JsonRpcResponse where
  jsonrpc : String
  id : RequestId
  result : Option OrderedValue
  error : Option JsonRpcError

namespace JsonRpcResponse

def success (id : RequestId) (result : OrderedValue) : JsonRpcResponse :=
  ⟨"2.0", id, some result, none⟩

def failure (id : RequestId) (error : JsonRpcError) : JsonRpcResponse :=
  ⟨"2.0", id, none, some error⟩

def isSuccess (self : JsonRpcResponse) : Bool :=
  self.result.isSome && self.error.isNone

def isError (self : JsonRpcResponse) : Bool := self.error.isSome

def serialize (floats : FloatText) (self : JsonRpcResponse) : Json :=
  .obj ([("jsonrpc", .str self.jsonrpc), ("id", self.id.serialize)] ++
    optionalMember "result" (OrderedValue.serialize floats) self.result ++
    optionalMember "error" (JsonRpcError.serialize floats) self.error)

def ofMembers (floats : FloatText) (members : List (String × Json)) :
    Option JsonRpcResponse := do
  let jsonrpc ← requiredField asString members "jsonrpc"
  let id ← requiredField RequestId.deserialize members "id"
  let result ←
    optionalField (OrderedValue.deserialize floats) members "result"
  let error ← optionalField (JsonRpcError.deserialize floats) members "error"
  some ⟨jsonrpc, id, result, error⟩

def ofElements (floats : FloatText) : List Json → Option JsonRpcResponse
  | [jsonrpc, id, result, error] => do
      let jsonrpc ← asString jsonrpc
      let id ← RequestId.deserialize id
      let result ← readOptional (OrderedValue.deserialize floats) [result]
      let error ← readOptional (JsonRpcError.deserialize floats) [error]
      some ⟨jsonrpc, id, result, error⟩
  | _ => none

def deserialize (floats : FloatText) : Json → Option JsonRpcResponse
  | .obj members => ofMembers floats members
  | .arr elements => ofElements floats elements
  | _ => none

/-- The parts that are read nest within the recursion limit; members that are
skipped may nest deeper. -/
def fitsKnown : Json → Bool
  | .obj members =>
      (entries members "result").all (fits 126) &&
        (entries members "error").all (JsonRpcError.fitsKnown 125)
  | .arr [_, _, result, error] =>
      result.fits 126 && JsonRpcError.fitsKnown 125 error
  | _ => true

/-- `serde_json::from_str` for a response alone, on the text of a
document. -/
def ofDocument (floats : FloatText) (doc : Json) : Option JsonRpcResponse :=
  if fitsKnown doc then deserialize floats doc else none

end JsonRpcResponse

structure JsonRpcNotification where
  jsonrpc : String
  method : String
  params : Option OrderedValue

namespace JsonRpcNotification

def serialize (floats : FloatText) (self : JsonRpcNotification) : Json :=
  .obj ([("jsonrpc", .str self.jsonrpc), ("method", .str self.method)] ++
    optionalMember "params" (OrderedValue.serialize floats) self.params)

def ofMembers (floats : FloatText) (members : List (String × Json)) :
    Option JsonRpcNotification := do
  let jsonrpc ← requiredField asString members "jsonrpc"
  let method ← requiredField asString members "method"
  let params ←
    optionalField (OrderedValue.deserialize floats) members "params"
  some ⟨jsonrpc, method, params⟩

def ofElements (floats : FloatText) : List Json → Option JsonRpcNotification
  | [jsonrpc, method, params] => do
      let jsonrpc ← asString jsonrpc
      let method ← asString method
      let params ← readOptional (OrderedValue.deserialize floats) [params]
      some ⟨jsonrpc, method, params⟩
  | _ => none

def deserialize (floats : FloatText) : Json → Option JsonRpcNotification
  | .obj members => ofMembers floats members
  | .arr elements => ofElements floats elements
  | _ => none

end JsonRpcNotification

/-! ## Messages -/

inductive JsonRpcMessage where
  | request (req : JsonRpcRequest)
  | response (resp : JsonRpcResponse)
  | notification (notif : JsonRpcNotification)

namespace JsonRpcMessage

def method : JsonRpcMessage → Option String
  | .request req => some req.method
  | .notification notif => some notif.method
  | .response _ => none

def id : JsonRpcMessage → Option RequestId
  | .request req => some req.id
  | .response resp => some resp.id
  | .notification _ => none

def serialize (floats : FloatText) : JsonRpcMessage → Json
  | .request req => req.serialize floats
  | .response resp => resp.serialize floats
  | .notification notif => notif.serialize floats

/-- The derived reader of the untagged type.  It buffers the document first,
which fails on a number no machine number stands for, and then takes the
first variant that can be read. -/
def deserialize (floats : FloatText) (doc : Json) : Option JsonRpcMessage :=
  if (Value.decode floats doc).isSome then
    ((JsonRpcRequest.deserialize floats doc).map .request).or
      (((JsonRpcResponse.deserialize floats doc).map .response).or
        ((JsonRpcNotification.deserialize floats doc).map .notification))
  else none

/-- `serde_json::from_str` on the text of a document: the parser gives up at
its recursion limit. -/
def ofDocument (floats : FloatText) (doc : Json) : Option JsonRpcMessage :=
  if doc.fits 127 then deserialize floats doc else none

/-- `serde_json::from_str(&serde_json::to_string(self)?)`. -/
def reload (floats : FloatText) (self : JsonRpcMessage) :
    Option JsonRpcMessage :=
  ofDocument floats (self.serialize floats)

end JsonRpcMessage

/-! ## Texts -/

/-- The JSON library: the syntax of texts, the texts of floating-point
numbers, and what is said about a document that is not of the type asked
for. -/
structure SerdeJson where
  parse : String → Except String Json
  floats : FloatText
  mismatch : Json → String

namespace SerdeJson

def read {α : Type} (json : SerdeJson) (decode : Json → Option α)
    (text : String) : Except String α := do
  let doc ← json.parse text
  match decode doc with
  | some value => .ok value
  | none => .error (json.mismatch doc)

def message (json : SerdeJson) (text : String) :
    Except String JsonRpcMessage :=
  json.read (JsonRpcMessage.ofDocument json.floats) text

def response (json : SerdeJson) (text : String) :
    Except String JsonRpcResponse :=
  json.read (JsonRpcResponse.ofDocument json.floats) text

def value (json : SerdeJson) (text : String) : Except String OrderedValue :=
  json.read
    (fun doc =>
      if doc.fits 127 then OrderedValue.deserialize json.floats doc else none)
    text

end SerdeJson

end Core
end Acdp
