import Acdp.CoreValidation
import Acdp.JsonObjects
import Acdp.LlmModelManager
import Acdp.LlmSessions
import Acdp.StatefulAttempts

/-!
# What the LLM interceptor adds to a message

A prediction or a routing rule is written into the parameters of a request or
of a notification, as two members of an object.  Parameters that are no
object make way for a new one, and members of the two names are written over.
-/

namespace Acdp
namespace Llm

open Acdp.Core Json Attempt

/-- What is used of a routing rule. -/
structure RoutingRule where
  targetTransport : String
  confidence : UInt64

namespace LlmInterceptor

/-- Two members of an object: a text and a confidence. -/
structure Metadata where
  nameKey : String
  name : String
  confidenceKey : String
  confidence : UInt64

namespace Metadata

variable (self : Metadata)

def keys : List String := [self.nameKey, self.confidenceKey]

def nameValue : OrderedValue := ⟨.str self.name, .str self.name⟩

def insertInto (params : Option OrderedValue) :
    Except LlmError OrderedValue :=
  let obj := (OrderedMap.ofValue? params).insert self.nameKey self.nameValue
  match numberFromF64 self.confidence with
  | some number =>
      .ok (obj.insert self.confidenceKey (numberValue number)).toValue
  | none => .error (.configError "Invalid confidence")

def addTo : EStateM LlmError JsonRpcMessage Unit := do
  match ← get with
  | .request req => do
      let params ← fromAnswer (self.insertInto req.params)
      set (JsonRpcMessage.request { req with params := some params })
  | .notification notif => do
      let params ← fromAnswer (self.insertInto notif.params)
      set (JsonRpcMessage.notification { notif with params := some params })
  | .response _ => pure ()

end Metadata

def predictionMetadata (prediction : ToolPrediction) : Metadata where
  nameKey := "_predicted_tool"
  name := prediction.toolName
  confidenceKey := "_prediction_confidence"
  confidence := (asF64 prediction.confidence).toBits

def enhanceRequestWithPrediction (prediction : ToolPrediction) :
    EStateM LlmError JsonRpcMessage Unit :=
  (predictionMetadata prediction).addTo

def routingMetadata (rule : RoutingRule) : Metadata where
  nameKey := "_routed_transport"
  name := rule.targetTransport
  confidenceKey := "_routing_confidence"
  confidence := rule.confidence

def applyRoutingRule (rule : RoutingRule) :
    EStateM LlmError JsonRpcMessage Unit :=
  (routingMetadata rule).addTo

/-! ## What is kept -/

/-- An object keeps its members, anything else stays as it is, and where there
was nothing an object may come. -/
def ParamsKept (keys : List String) :
    Option OrderedValue → Option OrderedValue → Prop
  | none, after =>
      after = none ∨ ∃ map : OrderedMap, after = some map.toValue ∧
        OrderedMap.empty.Extends keys map
  | some ⟨.object members, hnormal⟩, after =>
      ∃ map : OrderedMap, after = some map.toValue ∧
        (OrderedMap.ofValue? (some ⟨.object members, hnormal⟩)).Extends keys map
  | some value, after => after = some value

/-- The message but for its parameters. -/
def Frame : JsonRpcMessage → JsonRpcMessage → Prop
  | .request before, .request after =>
      after = { before with params := after.params }
  | .notification before, .notification after =>
      after = { before with params := after.params }
  | .response before, .response after => after = before
  | _, _ => False

def Kept (keys : List String) (before after : JsonRpcMessage) : Prop :=
  Frame before after ∧
    ParamsKept keys (messageParams before) (messageParams after)

/-- Nothing but the keys is added, and nothing at all with an error. -/
def OnlyAdds (keys : List String)
    (program : EStateM LlmError JsonRpcMessage Unit)
    (message : JsonRpcMessage) : Prop :=
  Ends program message (fun _ after => Kept keys message after)
    (fun _ after => after = message)

/-- Parameters into which the metadata goes without a loss: none, or an object
that has no other values under the two names. -/
def Metadata.FitsInto (self : Metadata) : Option OrderedValue → Prop
  | none => True
  | some ⟨.object members, hnormal⟩ =>
      let map := OrderedMap.ofValue? (some ⟨.object members, hnormal⟩)
      map.Allows self.nameKey (.str self.name) ∧
        map.Allows self.confidenceKey (.number (.float self.confidence))
  | some _ => False

/-- A confidence that is no finite number is refused. -/
def Metadata.Spares (self : Metadata) (params : Option OrderedValue) : Prop :=
  isFiniteDouble self.confidence = true → self.FitsInto params

namespace Metadata

variable (self : Metadata) {params : Option OrderedValue}

/-- The object that goes with a message whose confidence is finite. -/
def extended (params : Option OrderedValue) : OrderedMap :=
  ((OrderedMap.ofValue? params).insert self.nameKey self.nameValue).insert
    self.confidenceKey (numberValue (.float self.confidence))

theorem insertInto_of_finite (hfinite : isFiniteDouble self.confidence = true)
    (params : Option OrderedValue) :
    self.insertInto params = .ok (self.extended params).toValue := by
  rw [insertInto, numberFromF64, if_pos hfinite]
  rfl

theorem insertInto_of_not_finite
    (hfinite : ¬ isFiniteDouble self.confidence = true)
    (params : Option OrderedValue) :
    self.insertInto params = .error (.configError "Invalid confidence") := by
  rw [insertInto, numberFromF64, if_neg hfinite]

theorem extends_extended_iff (hkeys : self.nameKey ≠ self.confidenceKey)
    (params : Option OrderedValue) :
    (OrderedMap.ofValue? params).Extends self.keys (self.extended params) ↔
      (OrderedMap.ofValue? params).Allows self.nameKey (.str self.name) ∧
        (OrderedMap.ofValue? params).Allows self.confidenceKey
          (.number (.float self.confidence)) :=
  OrderedMap.extends_insert_insert_iff _ hkeys _ _

/-- The value that was there is kept just when the metadata fits into it. -/
theorem paramsKept_iff (hkeys : self.nameKey ≠ self.confidenceKey)
    (params : Option OrderedValue) :
    ParamsKept self.keys params (some (self.extended params).toValue) ↔
      self.FitsInto params := by
  have hextends := self.extends_extended_iff hkeys params
  cases params with
  | none =>
      refine iff_of_true (Or.inr ⟨_, rfl, ?_⟩) trivial
      exact hextends.mpr ⟨OrderedMap.allows_empty _ _,
        OrderedMap.allows_empty _ _⟩
  | some value =>
      obtain ⟨value, hnormal⟩ := value
      cases value with
      | object members =>
          rw [ParamsKept, FitsInto, ← hextends]
          constructor
          · rintro ⟨map, hmap, hmore⟩
            rw [OrderedMap.toValue_injective (Option.some.inj hmap)]
            exact hmore
          · intro hmore
            exact ⟨_, rfl, hmore⟩
      | _ =>
          refine iff_of_false ?_ not_false
          intro hkept
          have hvalue := congrArg Subtype.val (Option.some.inj hkept)
          cases hvalue

theorem ends_addTo_request {req : JsonRpcRequest}
    {returned : Unit → JsonRpcMessage → Prop}
    {stopped : LlmError → JsonRpcMessage → Prop} :
    Ends self.addTo (.request req) returned stopped ↔
      match self.insertInto req.params with
      | .ok params =>
          returned () (.request { req with params := some params })
      | .error error => stopped error (.request req) := by
  rw [addTo, ends_bind, ends_get]
  dsimp only
  rw [ends_bind]
  cases self.insertInto req.params with
  | ok params => exact Iff.rfl
  | error error => exact Iff.rfl

theorem ends_addTo_notification {notif : JsonRpcNotification}
    {returned : Unit → JsonRpcMessage → Prop}
    {stopped : LlmError → JsonRpcMessage → Prop} :
    Ends self.addTo (.notification notif) returned stopped ↔
      match self.insertInto notif.params with
      | .ok params =>
          returned () (.notification { notif with params := some params })
      | .error error => stopped error (.notification notif) := by
  rw [addTo, ends_bind, ends_get]
  dsimp only
  rw [ends_bind]
  cases self.insertInto notif.params with
  | ok params => exact Iff.rfl
  | error error => exact Iff.rfl

/-- The message is kept but for its parameters, and wholly with an error. -/
theorem addTo_frame (message : JsonRpcMessage) :
    Ends self.addTo message (fun _ after => Frame message after)
      (fun _ after => after = message) := by
  cases message with
  | request req =>
      rw [ends_addTo_request]
      cases self.insertInto req.params with
      | ok params => rfl
      | error error => rfl
  | notification notif =>
      rw [ends_addTo_notification]
      cases self.insertInto notif.params with
      | ok params => rfl
      | error error => rfl
  | response resp => rfl

/-- Metadata only adds to a message just when it is refused or fits into the
parameters. -/
theorem onlyAdds_iff (hkeys : self.nameKey ≠ self.confidenceKey)
    (message : JsonRpcMessage) :
    OnlyAdds self.keys self.addTo message ↔
      self.Spares (messageParams message) := by
  unfold OnlyAdds Spares
  by_cases hfinite : isFiniteDouble self.confidence = true
  · rw [forall_prop_of_true hfinite]
    cases message with
    | request req =>
        rw [ends_addTo_request, self.insertInto_of_finite hfinite]
        exact (and_iff_right rfl).trans (self.paramsKept_iff hkeys req.params)
    | notification notif =>
        rw [ends_addTo_notification, self.insertInto_of_finite hfinite]
        exact (and_iff_right rfl).trans
          (self.paramsKept_iff hkeys notif.params)
    | response resp => exact iff_of_true ⟨rfl, Or.inl rfl⟩ trivial
  · rw [forall_prop_of_false hfinite, iff_true]
    cases message with
    | request req =>
        rw [ends_addTo_request, self.insertInto_of_not_finite hfinite]
    | notification notif =>
        rw [ends_addTo_notification, self.insertInto_of_not_finite hfinite]
    | response resp => exact ⟨rfl, Or.inl rfl⟩

end Metadata

/-- The interceptor only adds to a message just when the confidence is no
finite number, or the parameters are missing or an object that has nothing
else under the keys. -/
theorem enrichment_onlyAdds_iff (prediction : ToolPrediction)
    (rule : RoutingRule) (message : JsonRpcMessage) :
    (OnlyAdds ["_predicted_tool", "_prediction_confidence"]
        (enhanceRequestWithPrediction prediction) message ↔
      (predictionMetadata prediction).Spares (messageParams message)) ∧
    (OnlyAdds ["_routed_transport", "_routing_confidence"]
        (applyRoutingRule rule) message ↔
      (routingMetadata rule).Spares (messageParams message)) := by
  constructor
  · have hkeys : "_predicted_tool" ≠ "_prediction_confidence" := by decide
    exact (predictionMetadata prediction).onlyAdds_iff hkeys message
  · have hkeys : "_routed_transport" ≠ "_routing_confidence" := by decide
    exact (routingMetadata rule).onlyAdds_iff hkeys message

/-- A call by position: the tool is the only element of its parameters. -/
def positionalCall : JsonRpcMessage :=
  .request
    { jsonrpc := "2.0"
      id := .number 1
      method := "tools/call"
      params := some ⟨.array [.str "read_file"],
        .array (by
          intro element helement
          rw [List.mem_singleton.mp helement]
          exact .str _)⟩ }

/-- A rule with the confidence 0.5. -/
def stdioRule : RoutingRule where
  targetTransport := "stdio"
  confidence := 0x3FE0000000000000

/-- The element is gone after the rule has been applied. -/
theorem positionalCall_not_kept :
    Ends (applyRoutingRule stdioRule) positionalCall
        (fun _ after => (messageParams after).map Subtype.val =
          some (.object [("_routed_transport", .str "stdio"),
            ("_routing_confidence", .number (.float 0x3FE0000000000000))]))
        (fun _ _ => False) ∧
      ¬ OnlyAdds ["_routed_transport", "_routing_confidence"]
        (applyRoutingRule stdioRule) positionalCall := by
  have hfinite : isFiniteDouble (routingMetadata stdioRule).confidence =
      true := by decide
  have hkeys : (routingMetadata stdioRule).nameKey ≠
      (routingMetadata stdioRule).confidenceKey := by decide
  constructor
  · rw [applyRoutingRule, positionalCall, Metadata.ends_addTo_request,
      Metadata.insertInto_of_finite _ hfinite]
    have hmembers : ∀ value other : Value,
        insertMember "_routing_confidence" other
          (insertMember "_routed_transport" value []) =
            [("_routed_transport", value), ("_routing_confidence", other)] := by
      intro value other
      have hbefore : ¬ "_routing_confidence" < "_routed_transport" := by decide
      have hne : ¬ "_routing_confidence" = "_routed_transport" := by decide
      rw [insertMember, insertMember, if_neg hbefore, if_neg hne, insertMember]
    exact congrArg (fun members => some (Value.object members))
      (hmembers (.str "stdio") (.number (.float 0x3FE0000000000000)))
  · intro honly
    have hspares :=
      ((routingMetadata stdioRule).onlyAdds_iff hkeys positionalCall).mp honly
    exact hspares hfinite

end LlmInterceptor
end Llm
end Acdp
