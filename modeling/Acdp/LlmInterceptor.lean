import Acdp.CoreMessages
import Acdp.JsonReadBack

/-!
# What the LLM interceptor reads off a message

The key under which a message is filed, the tool that a message really uses,
and the text from which the tool is predicted.
-/

namespace Acdp
namespace Llm

open Acdp.Core Json

/-- `Number::from(i64)`. -/
def numberOfInt64 (value : Int64) : Number :=
  if hsign : 0 ≤ value.toInt then .posInt (UInt64.ofNat value.toInt.toNat)
  else
    .negInt value.toInt value.le_toInt (not_le.mp hsign)

def idValue : RequestId → Value
  | .string text => .str text
  | .number value => .number (numberOfInt64 value)
  | .null => .null

theorem idValue_normal (id : RequestId) : (idValue id).Normal := by
  cases id with
  | string text => exact .str text
  | number value => exact .number _
  | null => exact .null

/-- A member that is `null` where there is nothing. -/
def nullable (value : Option Value) : Value := value.getD .null

theorem nullable_normal {value : Option Value}
    (hnormal : ∀ found ∈ value, found.Normal) : (nullable value).Normal := by
  cases value with
  | none => exact .null
  | some found => exact hnormal found rfl

namespace LlmInterceptor

/-- The identifier as a text; a number and a string may have the same one. -/
def extractRequestId : JsonRpcMessage → Option String
  | .request request => some request.id.display
  | .response response => some response.id.display
  | .notification _ => none

def extractToolName : Option OrderedValue → Option String
  | some ⟨.array items, _⟩ => items.findSome? (fun item => item.getStr "name")
  | some params => params.val.getStr "name"
  | none => none

/-- The tool that is called, or the method itself. -/
def actualTool (method : String) (params : Option OrderedValue) :
    Option String :=
  if method = "tools/call" ∨ method = "tools.call" then extractToolName params
  else some method

def determineActualTool : JsonRpcMessage → Option String
  | .request request => actualTool request.method request.params
  | .notification notification =>
      actualTool notification.method notification.params
  | .response _ => none

def messageMethod : JsonRpcMessage → Option String
  | .request request => some request.method
  | .notification notification => some notification.method
  | .response _ => none

def messageParams : JsonRpcMessage → Option OrderedValue
  | .request request => request.params
  | .notification notification => notification.params
  | .response _ => none

def messageId : JsonRpcMessage → Option RequestId
  | .request request => some request.id
  | .response response => some response.id
  | .notification _ => none

def contextValue (message : JsonRpcMessage) : OrderedValue where
  val := .object
    [("id", nullable ((messageId message).map idValue)),
      ("method", nullable ((messageMethod message).map .str)),
      ("params", nullable ((messageParams message).map Subtype.val))]
  property := by
    have hnames : "id" < "method" ∧ "method" < "params" := by decide
    refine .object (List.isChain_iff_pairwise.mp ?_) ?_
    · simpa using hnames
    · simp only [List.forall_mem_cons]
      refine ⟨nullable_normal ?_, nullable_normal ?_, nullable_normal ?_,
        by simp⟩
      · simp only [Option.mem_def, Option.map_eq_some_iff]
        rintro found ⟨id, _, rfl⟩
        exact idValue_normal id
      · simp only [Option.mem_def, Option.map_eq_some_iff]
        rintro found ⟨method, _, rfl⟩
        exact .str method
      · simp only [Option.mem_def, Option.map_eq_some_iff]
        rintro found ⟨params, _, rfl⟩
        exact params.property

def extractMcpContext (floats : FloatText) (message : JsonRpcMessage) :
    String :=
  print ((contextValue message).serialize floats)

end LlmInterceptor

end Llm
end Acdp
