import Acdp.CoreMessageCodec
import Acdp.LlmPendingPredictions
import Acdp.LlmRoutingRules
import Acdp.StableSorting

/-!
# Routing by the LLM interceptor

A message that goes out is given the best rule for its text, or else a
prediction that is confident enough.  Either is written into the parameters as
two members; nothing else of a message changes, and no message is blocked.
-/

namespace Acdp
namespace Llm

open Acdp.Core Json Attempt
open Auth (smallInstant)
open RoutingRulesDatabase (BestMatch MadeBy)

/-- The interceptor, with the answers that it gets from the table of rules and
from the predictor. -/
structure LlmInterceptor where
  routingMode : RoutingMode
  routingDb : Except LlmError RoutingRulesDatabase
  predictTool : String → Except LlmError ToolPredictor.PredictionOutcome

namespace LlmInterceptor

def confidenceThreshold : Float32 := 0.8

/-- The message as a computation leaves it, if it returns. -/
def changedBy (program : EStateM LlmError JsonRpcMessage Unit)
    (message : JsonRpcMessage) : Except LlmError JsonRpcMessage :=
  match program message with
  | .ok _ changed => .ok changed
  | .error e _ => .error e

section Operations

variable (floats : FloatText) (order : ConfidenceOrder)
  (self : LlmInterceptor)

def semanticRouting (message : JsonRpcMessage) (context : String) :
    Except LlmError InterceptionResult := do
  let outcome ← self.predictTool context
  let prediction := outcome.prediction
  if confidenceThreshold ≤ prediction.confidence then
    let message ← changedBy (enhanceRequestWithPrediction prediction) message
    return .rewritten message
      ("Enhanced with tool prediction: " ++ prediction.toolName)
      (asF64 prediction.confidence)
  else return .passThrough message

def hybridRouting (message : JsonRpcMessage) (context : String) :
    Except LlmError InterceptionResult := do
  let database ← self.routingDb
  match database.findMatchingRule order context with
  | some rule =>
      let message ← changedBy (applyRoutingRule rule.toRoutingRule) message
      return .rewritten message ("Routed via rule: " ++ rule.pattern)
        (Float.ofBits rule.confidence)
  | none => self.semanticRouting message context

def predictAndRoute (message : JsonRpcMessage) (context : String) :
    McpResult InterceptionResult :=
  match self.routingMode with
  | .bypass => .ok (.passThrough message)
  | .semantic =>
      (self.semanticRouting message context).mapError
        (fun e => .internal e.display)
  | .hybrid =>
      (self.hybridRouting order message context).mapError
        (fun e => .internal e.display)

def shouldIntercept (context : MessageContext) : Bool :=
  InterceptorState.shouldIntercept context.direction context.message

def intercept (context : MessageContext) : McpResult InterceptionResult :=
  match context.direction with
  | .outgoing =>
      (self.predictAndRoute order context.message
        (extractMcpContext floats context.message)).mapError
          (fun e => .internal e.display)
  | .incoming => .ok (.passThrough context.message)

def toMessageInterceptor : MessageInterceptor where
  name := "LLM Interceptor"
  shouldIntercept := shouldIntercept
  intercept := self.intercept floats order

end Operations

/-! ## What is added -/

def isResponse : JsonRpcMessage → Bool
  | .response _ => true
  | _ => false

/-- The message carries the metadata: its parameters are an object with the
two members, and with the other members that it had. -/
structure Metadata.CarriedBy (self : Metadata) (params : Option OrderedValue)
    (map : OrderedMap) : Prop where
  name : map.find self.nameKey = some (.str self.name)
  confidence : map.find self.confidenceKey =
    some (.number (.float self.confidence))
  others : ∀ key, key ∉ self.keys →
    map.find key = (OrderedMap.ofValue? params).find key

theorem Metadata.carriedBy_extended (self : Metadata)
    (hkeys : self.nameKey ≠ self.confidenceKey)
    (params : Option OrderedValue) :
    self.CarriedBy params (self.extended params) where
  name := by
    unfold extended
    rw [OrderedMap.find_insert_of_ne _ hkeys, OrderedMap.find_insert_self]
    rfl
  confidence := OrderedMap.find_insert_self _ _ _
  others key hkey := by
    simp only [keys, List.mem_cons, List.not_mem_nil, or_false,
      not_or] at hkey
    unfold extended
    rw [OrderedMap.find_insert_of_ne _ hkey.2,
      OrderedMap.find_insert_of_ne _ hkey.1]

/-- A response has no parameters and is left as it is. -/
def Metadata.Added (self : Metadata) : JsonRpcMessage → JsonRpcMessage → Prop
  | .response before, after => after = .response before
  | before, after =>
      Frame before after ∧
        ∃ map : OrderedMap, messageParams after = some map.toValue ∧
          self.CarriedBy (messageParams before) map

theorem Metadata.added_of_changedBy (self : Metadata)
    (hkeys : self.nameKey ≠ self.confidenceKey)
    {message changed : JsonRpcMessage}
    (hchanged : changedBy self.addTo message = .ok changed) :
    self.Added message changed := by
  have hends : Ends self.addTo message
      (fun _ after => self.Added message after) (fun _ _ => True) := by
    by_cases hfinite : isFiniteDouble self.confidence = true
    · have hcarried := self.carriedBy_extended hkeys (messageParams message)
      cases message with
      | request req =>
          rw [ends_addTo_request, self.insertInto_of_finite hfinite]
          exact ⟨rfl, _, rfl, hcarried⟩
      | notification notif =>
          rw [ends_addTo_notification, self.insertInto_of_finite hfinite]
          exact ⟨rfl, _, rfl, hcarried⟩
      | response resp => rfl
    · cases message with
      | request req =>
          rw [ends_addTo_request, self.insertInto_of_not_finite hfinite]
          trivial
      | notification notif =>
          rw [ends_addTo_notification, self.insertInto_of_not_finite hfinite]
          trivial
      | response resp => rfl
  unfold Ends at hends
  unfold changedBy at hchanged
  cases hrun : self.addTo message with
  | ok value next =>
      rw [hrun] at hends hchanged
      rw [← Except.ok.inj hchanged]
      exact hends
  | error e next =>
      rw [hrun] at hchanged
      cases hchanged

theorem Metadata.refused_of_changedBy (self : Metadata)
    {message : JsonRpcMessage} {e : LlmError}
    (hchanged : changedBy self.addTo message = .error e) :
    isResponse message = false ∧ isFiniteDouble self.confidence = false ∧
      e = .configError "Invalid confidence" := by
  have hends : Ends self.addTo message (fun _ _ => True) (fun e _ =>
      isResponse message = false ∧ isFiniteDouble self.confidence = false ∧
        e = .configError "Invalid confidence") := by
    cases hfinite : isFiniteDouble self.confidence with
    | true =>
        cases message with
        | request req =>
            rw [ends_addTo_request, self.insertInto_of_finite hfinite]
            trivial
        | notification notif =>
            rw [ends_addTo_notification, self.insertInto_of_finite hfinite]
            trivial
        | response resp => trivial
    | false =>
        have hnot : ¬ isFiniteDouble self.confidence = true := by
          rw [hfinite]
          exact Bool.false_ne_true
        cases message with
        | request req =>
            rw [ends_addTo_request, self.insertInto_of_not_finite hnot]
            exact ⟨rfl, rfl, rfl⟩
        | notification notif =>
            rw [ends_addTo_notification, self.insertInto_of_not_finite hnot]
            exact ⟨rfl, rfl, rfl⟩
        | response resp => trivial
  unfold Ends at hends
  unfold changedBy at hchanged
  cases hrun : self.addTo message with
  | ok value next =>
      rw [hrun] at hchanged
      cases hchanged
  | error found next =>
      rw [hrun] at hends hchanged
      rw [← Except.error.inj hchanged]
      exact hends

/-! ## What is left alone -/

theorem frame_refl (message : JsonRpcMessage) : Frame message message := by
  cases message <;> rfl

theorem Metadata.Added.frame {self : Metadata}
    {message changed : JsonRpcMessage} (hadded : self.Added message changed) :
    Frame message changed := by
  cases message with
  | request req => exact hadded.1
  | notification notif => exact hadded.1
  | response resp =>
      have hsame : changed = .response resp := hadded
      rw [hsame]
      exact frame_refl _

/-- A result that does not block, with the message but for its parameters. -/
def Harmless (message : JsonRpcMessage)
    (answer : Except LlmError InterceptionResult) : Prop :=
  ∀ result, answer = .ok result →
    result.block = false ∧ Frame message result.message

theorem harmless_passThrough (message : JsonRpcMessage) :
    Harmless message (.ok (.passThrough message)) := by
  intro result hresult
  rw [← Except.ok.inj hresult]
  exact ⟨rfl, frame_refl message⟩

theorem Metadata.harmless_added (self : Metadata)
    (hkeys : self.nameKey ≠ self.confidenceKey) (message : JsonRpcMessage)
    (reasoning : String) (confidence : Float) :
    Harmless message ((changedBy self.addTo message).map
      (fun changed => .rewritten changed reasoning confidence)) := by
  intro result hresult
  cases hchanged : changedBy self.addTo message with
  | error e =>
      rw [hchanged] at hresult
      cases hresult
  | ok changed =>
      rw [hchanged] at hresult
      rw [← Except.ok.inj hresult]
      exact ⟨rfl, (self.added_of_changedBy hkeys hchanged).frame⟩

theorem harmless_semanticRouting (self : LlmInterceptor)
    (message : JsonRpcMessage) (context : String) :
    Harmless message (self.semanticRouting message context) := by
  unfold semanticRouting
  cases self.predictTool context with
  | error e =>
      intro result hresult
      cases hresult
  | ok outcome =>
      simp only [bind, Except.bind]
      split_ifs with hconfident
      · have hkeys : "_predicted_tool" ≠ "_prediction_confidence" := by decide
        exact (predictionMetadata outcome.prediction).harmless_added hkeys
          message _ _
      · exact harmless_passThrough message

theorem harmless_hybridRouting (order : ConfidenceOrder)
    (self : LlmInterceptor) (message : JsonRpcMessage) (context : String) :
    Harmless message (self.hybridRouting order message context) := by
  unfold hybridRouting
  cases self.routingDb with
  | error e =>
      intro result hresult
      cases hresult
  | ok database =>
      simp only [bind, Except.bind]
      cases database.findMatchingRule order context with
      | none => exact self.harmless_semanticRouting message context
      | some rule =>
          have hkeys : "_routed_transport" ≠ "_routing_confidence" := by
            decide
          exact (routingMetadata rule.toRoutingRule).harmless_added hkeys
            message _ _

theorem ok_of_mapError {Value Error Other : Type} {f : Error → Other}
    {answer : Except Error Value} {value : Value}
    (hvalue : answer.mapError f = .ok value) : answer = .ok value := by
  cases answer with
  | error e => cases hvalue
  | ok found => exact congrArg Except.ok (Except.ok.inj hvalue)

/-- Whatever the answers are, no message is blocked, and only parameters are
changed. -/
theorem intercept_frame {floats : FloatText} {order : ConfidenceOrder}
    {self : LlmInterceptor} {context : MessageContext}
    {result : InterceptionResult}
    (hresult : self.intercept floats order context = .ok result) :
    result.block = false ∧ Frame context.message result.message := by
  unfold intercept at hresult
  cases hdirection : context.direction with
  | incoming =>
      rw [hdirection] at hresult
      rw [← Except.ok.inj hresult]
      exact ⟨rfl, frame_refl _⟩
  | outgoing =>
      rw [hdirection] at hresult
      have hrouted := ok_of_mapError hresult
      unfold predictAndRoute at hrouted
      cases hmode : self.routingMode with
      | bypass =>
          rw [hmode] at hrouted
          rw [← Except.ok.inj hrouted]
          exact ⟨rfl, frame_refl _⟩
      | semantic =>
          rw [hmode] at hrouted
          exact self.harmless_semanticRouting _ _ result
            (ok_of_mapError hrouted)
      | hybrid =>
          rw [hmode] at hrouted
          exact self.harmless_hybridRouting order _ _ result
            (ok_of_mapError hrouted)

/-! ## What it is taken from -/

/-- No rule is for the text, where rules are looked at. -/
def Predicts (calls : List RoutingRulesDatabase.Call) (self : LlmInterceptor)
    (content : String) : Prop :=
  self.routingMode = .semantic ∨
    self.routingMode = .hybrid ∧ ∀ rule, MadeBy calls rule →
      Text.contains content rule.pattern = false

/-- What is added to a message with this text, why, and how sure it is, where
the calls have made the table. -/
inductive Chosen (calls : List RoutingRulesDatabase.Call)
    (self : LlmInterceptor) (content : String) :
    Metadata → String → Float → Prop
  | rule (rule : RoutingRuleRow) (hmode : self.routingMode = .hybrid)
      (hbest : BestMatch (MadeBy calls) content rule) :
      Chosen calls self content (routingMetadata rule.toRoutingRule)
        ("Routed via rule: " ++ rule.pattern) (Float.ofBits rule.confidence)
  | prediction (outcome : ToolPredictor.PredictionOutcome)
      (hpredicts : self.Predicts calls content)
      (houtcome : self.predictTool content = .ok outcome)
      (hconfident : confidenceThreshold ≤ outcome.prediction.confidence) :
      Chosen calls self content (predictionMetadata outcome.prediction)
        ("Enhanced with tool prediction: " ++ outcome.prediction.toolName)
        (asF64 outcome.prediction.confidence)

/-- Why a message could not be routed. -/
inductive Refused (calls : List RoutingRulesDatabase.Call)
    (self : LlmInterceptor) (content : String) (message : JsonRpcMessage) :
    LlmError → Prop
  | predictor (e : LlmError) (hpredicts : self.Predicts calls content)
      (hfailed : self.predictTool content = .error e) :
      Refused calls self content message e
  | confidence {metadata : Metadata} {reasoning : String} {confidence : Float}
      (hchosen : self.Chosen calls content metadata reasoning confidence)
      (hfinite : isFiniteDouble metadata.confidence = false)
      (hmessage : isResponse message = false) :
      Refused calls self content message (.configError "Invalid confidence")

/-- A message is changed just when there is something to add to it. -/
inductive Routed (calls : List RoutingRulesDatabase.Call)
    (self : LlmInterceptor) (content : String) (message : JsonRpcMessage) :
    InterceptionResult → Prop
  | passed (hnone : ∀ metadata reasoning confidence,
        ¬ self.Chosen calls content metadata reasoning confidence) :
      Routed calls self content message (.passThrough message)
  | enriched {metadata : Metadata} {reasoning : String} {confidence : Float}
      {changed : JsonRpcMessage}
      (hchosen : self.Chosen calls content metadata reasoning confidence)
      (hadded : metadata.Added message changed) :
      Routed calls self content message
        (.rewritten changed reasoning confidence)

/-- The two ways in which routing can end. -/
def Ended (calls : List RoutingRulesDatabase.Call) (self : LlmInterceptor)
    (content : String) (message : JsonRpcMessage) :
    Except LlmError InterceptionResult → Prop
  | .ok result => self.Routed calls content message result
  | .error e => self.Refused calls content message e

section Routes

variable {floats : FloatText} {order : ConfidenceOrder}
  {self : LlmInterceptor} {calls : List RoutingRulesDatabase.Call}
  {message : JsonRpcMessage} {content : String}

theorem mapError_mapError {Value Error Other Last : Type} {f : Error → Other}
    {g : Other → Last} (answer : Except Error Value) :
    (answer.mapError f).mapError g =
      answer.mapError (fun e => g (f e)) := by
  cases answer <;> rfl

theorem not_chosen_of_bypass (hmode : self.routingMode = .bypass)
    (metadata : Metadata) (reasoning : String) (confidence : Float) :
    ¬ self.Chosen calls content metadata reasoning confidence := by
  intro hchosen
  cases hchosen with
  | rule rule hhybrid hbest =>
      rw [hmode] at hhybrid
      cases hhybrid
  | prediction outcome hpredicts houtcome hconfident =>
      unfold Predicts at hpredicts
      rw [hmode] at hpredicts
      rcases hpredicts with hsemantic | ⟨hhybrid, _⟩
      · cases hsemantic
      · cases hhybrid

/-- Where the predictor is asked, nothing else can be chosen. -/
theorem confident_of_chosen (hpredicts : self.Predicts calls content)
    {outcome : ToolPredictor.PredictionOutcome}
    (houtcome : self.predictTool content = .ok outcome)
    {metadata : Metadata} {reasoning : String} {confidence : Float}
    (hchosen : self.Chosen calls content metadata reasoning confidence) :
    confidenceThreshold ≤ outcome.prediction.confidence := by
  cases hchosen with
  | rule rule hhybrid hbest =>
      rcases hpredicts with hsemantic | ⟨_, hnone⟩
      · rw [hhybrid] at hsemantic
        cases hsemantic
      · have hmatching := hbest.matching
        rw [hnone rule hbest.candidate] at hmatching
        cases hmatching
  | prediction other _ hother hconfident =>
      rw [houtcome] at hother
      rw [Except.ok.inj hother]
      exact hconfident

/-- What was chosen is added, or its confidence is not finite. -/
theorem ended_of_chosen {metadata : Metadata} {reasoning : String}
    {confidence : Float}
    (hchosen : self.Chosen calls content metadata reasoning confidence)
    (hkeys : metadata.nameKey ≠ metadata.confidenceKey) :
    self.Ended calls content message
      ((changedBy metadata.addTo message).map
        (fun changed => .rewritten changed reasoning confidence)) := by
  cases hchanged : changedBy metadata.addTo message with
  | ok changed =>
      exact .enriched hchosen (metadata.added_of_changedBy hkeys hchanged)
  | error e =>
      obtain ⟨hmessage, hfinite, rfl⟩ := metadata.refused_of_changedBy hchanged
      exact .confidence hchosen hfinite hmessage

theorem ended_semanticRouting (hpredicts : self.Predicts calls content) :
    self.Ended calls content message
      (self.semanticRouting message content) := by
  unfold semanticRouting
  cases houtcome : self.predictTool content with
  | error e => exact .predictor e hpredicts houtcome
  | ok outcome =>
      simp only [bind, Except.bind]
      by_cases hconfident :
          confidenceThreshold ≤ outcome.prediction.confidence
      · rw [if_pos hconfident]
        have hkeys : "_predicted_tool" ≠ "_prediction_confidence" := by decide
        exact ended_of_chosen
          (.prediction outcome hpredicts houtcome hconfident) hkeys
      · rw [if_neg hconfident]
        apply Routed.passed
        intro metadata reasoning confidence hchosen
        exact hconfident (confident_of_chosen hpredicts houtcome hchosen)

theorem ended_hybridRouting
    (htable : self.routingDb = .ok (RoutingRulesDatabase.after calls))
    (hmode : self.routingMode = .hybrid) :
    self.Ended calls content message
      (self.hybridRouting order message content) := by
  obtain ⟨hbest, hnone⟩ :=
    RoutingRulesDatabase.findMatchingRule_after order calls content
  unfold hybridRouting
  simp only [htable, bind, Except.bind]
  cases hfound : (RoutingRulesDatabase.after calls).findMatchingRule order
      content with
  | none => exact ended_semanticRouting (Or.inr ⟨hmode, hnone.mp hfound⟩)
  | some rule =>
      have hkeys : "_routed_transport" ≠ "_routing_confidence" := by decide
      exact ended_of_chosen (.rule rule hmode (hbest rule hfound)) hkeys

end Routes

/-- Whatever calls have made the table: a message that comes in is let through.
One that goes out is changed just when there is a rule for its text, the best
one, or a prediction to add; then it has the two members, and all else in it
is kept.  It is refused only where the predictor fails or what would be added
has no finite confidence. -/
theorem intercept_after (floats : FloatText) (order : ConfidenceOrder)
    {self : LlmInterceptor} {calls : List RoutingRulesDatabase.Call}
    (htable : self.routingDb = .ok (RoutingRulesDatabase.after calls))
    (context : MessageContext) :
    match context.direction with
    | .incoming =>
        self.intercept floats order context =
          .ok (.passThrough context.message)
    | .outgoing =>
        ∃ ended, self.Ended calls (extractMcpContext floats context.message)
            context.message ended ∧
          self.intercept floats order context =
            ended.mapError (fun e =>
              .internal (McpError.internal e.display).display) := by
  cases hdirection : context.direction with
  | incoming =>
      simp only [intercept, hdirection]
  | outgoing =>
      simp only [intercept, hdirection, predictAndRoute]
      cases hmode : self.routingMode with
      | bypass =>
          exact ⟨.ok (.passThrough context.message),
            .passed (not_chosen_of_bypass hmode), rfl⟩
      | semantic =>
          refine ⟨_, ended_semanticRouting (Or.inl hmode), ?_⟩
          exact mapError_mapError _
      | hybrid =>
          have hended : self.Ended calls
              (extractMcpContext floats context.message) context.message
              (self.hybridRouting order context.message
                (extractMcpContext floats context.message)) :=
            ended_hybridRouting htable hmode
          exact ⟨_, hended, mapError_mapError _⟩

/-- A request whose tools are routed to another transport. -/
def listTools : JsonRpcMessage :=
  .request (.withoutParams (.number 1) "tools/list")

def listRule : RoutingRulesDatabase.Call :=
  .createRule "1" "tools/list" "tools.list" "stdio" 0x3FE0000000000000
    smallInstant

def descendingKey (row : RoutingRuleRow) : ℤᵒᵈ :=
  OrderDual.toDual (Double.key row.confidence)

def stableOrder : ConfidenceOrder where
  arrange := stableSort descendingKey
  perm := stableSort_perm descendingKey
  descending rows := stableSort_ordered descendingKey rows

def listRouter : LlmInterceptor where
  routingMode := .hybrid
  routingDb := .ok (RoutingRulesDatabase.after [listRule])
  predictTool _ := .error (.predictionError "no engine")

theorem intercept_listTools :
    ∃ ended, listRouter.Ended [listRule]
        (extractMcpContext tableFloats listTools) listTools ended ∧
      listRouter.intercept tableFloats stableOrder
          (.new listTools .outgoing smallInstant) =
        ended.mapError (fun e =>
          .internal (McpError.internal e.display).display) :=
  intercept_after tableFloats stableOrder rfl
    (.new listTools .outgoing smallInstant)

end LlmInterceptor
end Llm
end Acdp
