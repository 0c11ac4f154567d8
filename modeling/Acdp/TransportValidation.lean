import Acdp.CoreInterceptorGuards
import Acdp.LlmRouting
import Acdp.TransportTransform

/-!
# Validation of the messages

The strict validation blocks every message that the protocol does not allow.
It runs early, and the interceptors that run after it, the limit on rates, the
transformations and the routing, make no valid message invalid: whatever a
manager lets through is valid, even where foreign interceptors rewrite
messages before the validation.
-/

namespace Acdp
namespace Transport

open Acdp.Core Json
open Auth (DateTime)
open Llm (LlmInterceptor ConfidenceOrder)

/-- The readings of the clocks in one call. -/
structure StatsClock where
  processed : DateTime
  elapsedMillis : ℕ

namespace InterceptorStats

def count (stats : InterceptorStats) (clock : StatsClock) : InterceptorStats :=
  { stats with
    totalIntercepted := stats.totalIntercepted + 1
    lastProcessed := some clock.processed }

/-- The running mean over all calls that are counted, this one included. -/
def average (stats : InterceptorStats) (clock : StatsClock) :
    InterceptorStats :=
  { stats with
    avgProcessingTimeMs :=
      (stats.avgProcessingTimeMs * (stats.totalIntercepted - 1).toFloat +
        Float.ofNat clock.elapsedMillis) / stats.totalIntercepted.toFloat }

def block (stats : InterceptorStats) : InterceptorStats :=
  { stats with totalBlocked := stats.totalBlocked + 1 }

end InterceptorStats

/-! ## Logging -/

structure LoggingInterceptor where
  name : String
  stats : InterceptorStats
  logContent : Bool

namespace LoggingInterceptor

def new (logContent : Bool) : LoggingInterceptor where
  name := "LoggingInterceptor"
  stats := {}
  logContent := logContent

def priority (_ : LoggingInterceptor) : UInt32 := 10

def shouldIntercept (_ : LoggingInterceptor) (_ : MessageContext) : Bool := true

def intercept (self : LoggingInterceptor) (context : MessageContext)
    (clock : StatsClock) : LoggingInterceptor × InterceptionResult :=
  ({ self with stats := (self.stats.count clock).average clock },
    .passThrough context.message)

end LoggingInterceptor

/-! ## Validation -/

structure ValidationInterceptor where
  name : String
  stats : InterceptorStats
  strictMode : Bool

namespace ValidationInterceptor

def new (strictMode : Bool) : ValidationInterceptor where
  name := "ValidationInterceptor"
  stats := {}
  strictMode := strictMode

def validateVersion (jsonrpc : String) : Except String Unit :=
  if jsonrpc ≠ "2.0" then .error ("Invalid JSON-RPC version: " ++ jsonrpc)
  else .ok ()

def validateMethod (subject method : String) : Except String Unit :=
  if method = "" then .error (subject ++ " method cannot be empty")
  else .ok ()

def validateOutcome (resp : JsonRpcResponse) : Except String Unit :=
  match resp.result, resp.error with
  | some _, some _ => .error "Response has both result and error"
  | none, none => .error "Response must have either result or error"
  | _, _ => .ok ()

def validateMessage : JsonRpcMessage → Except String Unit
  | .request req => do
      validateVersion req.jsonrpc
      validateMethod "Request" req.method
  | .response resp => do
      validateVersion resp.jsonrpc
      validateOutcome resp
  | .notification notif => do
      validateVersion notif.jsonrpc
      validateMethod "Notification" notif.method

def priority (_ : ValidationInterceptor) : UInt32 := 20

def shouldIntercept (_ : ValidationInterceptor) (_ : MessageContext) : Bool :=
  true

/-- Only the time of a valid message enters the mean. -/
def intercept (self : ValidationInterceptor) (context : MessageContext)
    (clock : StatsClock) : ValidationInterceptor × InterceptionResult :=
  let stats := self.stats.count clock
  match validateMessage context.message with
  | .ok () =>
      ({ self with stats := stats.average clock },
        .passThrough context.message)
  | .error err =>
      if self.strictMode then
        ({ self with stats := stats.block },
          .blocked ("Protocol validation failed: " ++ err))
      else ({ self with stats := stats }, .passThrough context.message)

end ValidationInterceptor

open ValidationInterceptor (validateMessage validateVersion validateMethod
  validateOutcome)

/-! ## Valid messages -/

/-- The message is one that the protocol allows. -/
def Valid (message : JsonRpcMessage) : Prop := validateMessage message = .ok ()

theorem validateVersion_eq_ok_iff {jsonrpc : String} :
    validateVersion jsonrpc = .ok () ↔ jsonrpc = "2.0" := by
  unfold validateVersion
  split_ifs with hversion
  · exact iff_of_false (by simp) hversion
  · exact iff_of_true rfl (not_not.mp hversion)

theorem validateMethod_eq_ok_iff {subject method : String} :
    validateMethod subject method = .ok () ↔ method ≠ "" := by
  unfold validateMethod
  split_ifs with hmethod <;> simp [hmethod]

theorem validateOutcome_eq_ok_iff {resp : JsonRpcResponse} :
    validateOutcome resp = .ok () ↔
      (resp.result.isSome ↔ resp.error.isNone) := by
  unfold validateOutcome
  cases resp.result <;> cases resp.error <;> simp

theorem andThen_eq_ok_iff {first second : Except String Unit} :
    (do first; second) = .ok () ↔ first = .ok () ∧ second = .ok () := by
  cases first with
  | error e => simp [bind, Except.bind]
  | ok value => simp [bind, Except.bind]

theorem valid_request_iff {req : JsonRpcRequest} :
    Valid (.request req) ↔ req.jsonrpc = "2.0" ∧ req.method ≠ "" := by
  unfold Valid validateMessage
  rw [andThen_eq_ok_iff, validateVersion_eq_ok_iff, validateMethod_eq_ok_iff]

theorem valid_notification_iff {notif : JsonRpcNotification} :
    Valid (.notification notif) ↔ notif.jsonrpc = "2.0" ∧ notif.method ≠ "" := by
  unfold Valid validateMessage
  rw [andThen_eq_ok_iff, validateVersion_eq_ok_iff, validateMethod_eq_ok_iff]

theorem valid_response_iff {resp : JsonRpcResponse} :
    Valid (.response resp) ↔ resp.jsonrpc = "2.0" ∧
      (resp.result.isSome ↔ resp.error.isNone) := by
  unfold Valid validateMessage
  rw [andThen_eq_ok_iff, validateVersion_eq_ok_iff, validateOutcome_eq_ok_iff]

/-! ## What the transformations keep -/

/-- A payload is only ever put in the place of another. -/
theorem Valid.withPayload {message : JsonRpcMessage} (hvalid : Valid message)
    {old : OrderedValue} (hold : TransformRule.payload message = some old)
    (value : OrderedValue) : Valid (TransformRule.withPayload message value) := by
  cases message with
  | request req => exact valid_request_iff.mpr (valid_request_iff.mp hvalid)
  | notification notif =>
      exact valid_notification_iff.mpr (valid_notification_iff.mp hvalid)
  | response resp =>
      obtain ⟨hversion, hone⟩ := valid_response_iff.mp hvalid
      refine valid_response_iff.mpr ⟨hversion, ?_⟩
      have hresult : resp.result = some old := hold
      rw [hresult, Option.isSome_some] at hone
      exact hone

theorem Valid.apply {build : TransformBuild} {rule : TransformRule}
    {message changed : JsonRpcMessage} (hvalid : Valid message)
    (happly : rule.apply build message = some (.ok changed)) :
    Valid changed := by
  unfold TransformRule.apply at happly
  cases hpayload : TransformRule.payload message with
  | none =>
      rw [hpayload] at happly
      rw [← Except.ok.inj (Option.some.inj happly)]
      exact hvalid
  | some old =>
      rw [hpayload] at happly
      obtain ⟨outcome, _, houtcome⟩ := Option.map_eq_some_iff.mp happly
      cases outcome with
      | error e => cases houtcome
      | ok value =>
          rw [← Except.ok.inj houtcome]
          exact hvalid.withPayload hpayload value

theorem Valid.turn {build : TransformBuild} {context : MessageContext}
    {pass next : RulePass} {rule : TransformRule}
    (hvalid : Valid pass.currentMessage)
    (hturn : TransformInterceptor.turn build context pass rule = some next) :
    Valid next.currentMessage := by
  unfold TransformInterceptor.turn at hturn
  split_ifs at hturn with hmatches
  · obtain ⟨outcome, happly, rfl⟩ := Option.map_eq_some_iff.mp hturn
    cases outcome with
    | ok changed => exact hvalid.apply happly
    | error e => exact hvalid
  · rw [← Option.some.inj hturn]
    exact hvalid

theorem Valid.foldlM_turn {build : TransformBuild} {context : MessageContext}
    {rules : List TransformRule} {pass last : RulePass}
    (hvalid : Valid pass.currentMessage)
    (hrules : rules.foldlM (TransformInterceptor.turn build context) pass =
      some last) : Valid last.currentMessage := by
  induction rules generalizing pass with
  | nil =>
      rw [List.foldlM_nil] at hrules
      rw [← Option.some.inj hrules]
      exact hvalid
  | cons rule rest ih =>
      rw [List.foldlM_cons] at hrules
      obtain ⟨next, hturn, hrest⟩ := Option.bind_eq_some_iff.mp hrules
      exact ih (hvalid.turn hturn) hrest

/-! ## What routing keeps -/

theorem Valid.frame {before after : JsonRpcMessage} (hvalid : Valid before)
    (hframe : LlmInterceptor.Frame before after) : Valid after := by
  cases before with
  | request req =>
      cases after with
      | request changed =>
          have hreq := valid_request_iff.mp hvalid
          rw [hframe]
          exact valid_request_iff.mpr hreq
      | response _ => exact hframe.elim
      | notification _ => exact hframe.elim
  | notification notif =>
      cases after with
      | notification changed =>
          have hnotif := valid_notification_iff.mp hvalid
          rw [hframe]
          exact valid_notification_iff.mpr hnotif
      | request _ => exact hframe.elim
      | response _ => exact hframe.elim
  | response resp =>
      cases after with
      | response changed =>
          rw [hframe]
          exact hvalid
      | request _ => exact hframe.elim
      | notification _ => exact hframe.elim

/-! ## The interceptors after the validation -/

/-- An answer of one of the interceptors, in any state that it may have, to be
told by its priority. -/
inductive Answers : UInt32 → MessageContext → InterceptionResult → Prop
  | logging (self : LoggingInterceptor) (context : MessageContext)
      (clock : StatsClock) :
      Answers self.priority context (self.intercept context clock).2
  | validation (self : ValidationInterceptor) (context : MessageContext)
      (clock : StatsClock) :
      Answers self.priority context (self.intercept context clock).2
  | rateLimit (self next : RateLimitInterceptor) (context : MessageContext)
      (clock : RateLimitInterceptor.Clock) (result : InterceptionResult)
      (hintercept : self.intercept context clock = some (next, result)) :
      Answers self.priority context result
  | transform (build : TransformBuild) (self next : TransformInterceptor)
      (context : MessageContext) (clock : TransformInterceptor.Clock)
      (result : InterceptionResult)
      (hintercept : self.intercept build context clock =
        some (next, result)) :
      Answers self.priority context result
  | llm (floats : FloatText) (order : ConfidenceOrder) (self : LlmInterceptor)
      (context : MessageContext) (result : InterceptionResult)
      (hintercept : self.intercept floats order context = .ok result) :
      Answers (self.toMessageInterceptor floats order).priority context result

/-- The interceptor is one of these. -/
def Own (interceptor : MessageInterceptor) : Prop :=
  ∀ context result, interceptor.intercept context = .ok result →
    Answers interceptor.priority context result

/-- The interceptor is the validation in strict mode. -/
structure StrictValidation (interceptor : MessageInterceptor) : Prop where
  priority : interceptor.priority = 20
  asked : ∀ context, interceptor.shouldIntercept context = true
  answer : ∀ context, ∃ self : ValidationInterceptor, ∃ clock,
    self.strictMode = true ∧
      interceptor.intercept context = .ok (self.intercept context clock).2

theorem validation_intercept_cases (self : ValidationInterceptor)
    (context : MessageContext) (clock : StatsClock) :
    (Valid context.message ∧ (self.intercept context clock).2 =
      .passThrough context.message) ∨
    ∃ err, validateMessage context.message = .error err ∧
      (self.intercept context clock).2 =
        if self.strictMode then
          .blocked ("Protocol validation failed: " ++ err)
        else .passThrough context.message := by
  unfold ValidationInterceptor.intercept
  cases hvalidated : validateMessage context.message with
  | ok value => exact Or.inl ⟨hvalidated, rfl⟩
  | error err =>
      refine Or.inr ⟨err, rfl, ?_⟩
      cases self.strictMode with
      | true => rfl
      | false => rfl

theorem StrictValidation.guards {interceptor : MessageInterceptor}
    (hstrict : StrictValidation interceptor) : interceptor.Guards Valid where
  asked := hstrict.asked
  answers context := by
    obtain ⟨self, clock, _, hanswer⟩ := hstrict.answer context
    exact ⟨_, hanswer⟩
  passes context result hresult hblock := by
    obtain ⟨self, clock, hmode, hanswer⟩ := hstrict.answer context
    rw [hanswer, Except.ok.injEq] at hresult
    rcases validation_intercept_cases self context clock with
      ⟨hvalid, hpassed⟩ | ⟨err, _, hblocked⟩
    · rw [← hresult, hpassed]
      exact hvalid
    · rw [hmode, if_pos rfl] at hblocked
      rw [← hresult, hblocked] at hblock
      cases hblock

/-- A result that rewrites a message into a valid one, if it was valid. -/
theorem Answers.valid {priority : UInt32} {context : MessageContext}
    {result : InterceptionResult} (hanswer : Answers priority context result)
    (hvalid : Valid context.message) (hmodified : result.modified = true) :
    Valid result.message := by
  cases hanswer with
  | logging self _ clock => cases hmodified
  | validation self _ clock =>
      rcases validation_intercept_cases self context clock with
        ⟨_, hpassed⟩ | ⟨err, _, hblocked⟩
      · rw [hpassed] at hmodified
        cases hmodified
      · rw [hblocked] at hmodified
        split_ifs at hmodified <;> cases hmodified
  | rateLimit self next _ clock _ hintercept =>
      obtain ⟨allowed, rate, _, _, rfl⟩ :=
        RateLimitInterceptor.intercept_eq_some hintercept
      split_ifs at hmodified <;> cases hmodified
  | transform build self next _ clock _ hintercept =>
      obtain ⟨pass, hpass, hresult⟩ := Option.map_eq_some_iff.mp hintercept
      have hlast : Valid pass.currentMessage := by
        apply Valid.foldlM_turn _ hpass
        exact hvalid
      rw [Prod.mk.injEq] at hresult
      rw [← hresult.2]
      split_ifs <;> exact hlast
  | llm floats order self _ _ hintercept =>
      exact hvalid.frame (LlmInterceptor.intercept_frame hintercept).2

theorem Own.keeps {interceptor : MessageInterceptor} (hown : Own interceptor) :
    interceptor.Keeps Valid := by
  intro context result hvalid hresult _ hmodified
  exact (hown context result hresult).valid hvalid hmodified

/-- Some calls have built the list of the manager; it has the strict
validation, and only these interceptors run after it. -/
structure Validating (manager : InterceptorManager) : Prop where
  built : ∃ calls,
    manager.interceptors = (InterceptorManager.after calls).interceptors
  strict : ∃ interceptor ∈ manager.interceptors, StrictValidation interceptor
  own : ∀ interceptor ∈ manager.interceptors, 20 ≤ interceptor.priority →
    Own interceptor

theorem Validating.guarded {manager : InterceptorManager}
    (hvalidating : Validating manager) : manager.Guarded Valid := by
  obtain ⟨⟨calls, hbuilt⟩, ⟨interceptor, hmem, hstrict⟩, hown⟩ := hvalidating
  unfold InterceptorManager.Guarded
  rw [hbuilt] at hmem hown ⊢
  apply InterceptorManager.guarded_after hmem hstrict.guards
  intro other hother hpriority
  rw [hstrict.priority] at hpriority
  exact (hown other hother hpriority).keeps

/-- Whatever the interceptors before the validation do, every message that is
not blocked is valid. -/
theorem processMessage_valid {manager : InterceptorManager}
    (hvalidating : Validating manager) (message : JsonRpcMessage)
    (direction : MessageDirection) (metadata : InterceptionMetadata)
    (now : DateTime) (elapsedMillis : ℕ) :
    ∃ result, (manager.processMessageWithMetadata message direction metadata
        now elapsedMillis).result = .ok result ∧
      (result.block = true ∨ Valid result.message) := by
  obtain ⟨result, hresult⟩ := manager.processMessage_isOk message direction
    metadata now elapsedMillis
  refine ⟨result, hresult, ?_⟩
  cases hblock : result.block with
  | true => exact Or.inl rfl
  | false =>
      right
      exact hvalidating.guarded.processMessage message direction metadata now
        elapsedMillis hresult hblock

/-! ### A manager with a foreign interceptor -/

def ValidationInterceptor.toMessageInterceptor (self : ValidationInterceptor)
    (clock : StatsClock) : MessageInterceptor where
  name := self.name
  priority := self.priority
  shouldIntercept := self.shouldIntercept
  intercept context := .ok (self.intercept context clock).2

theorem strictValidation_toMessageInterceptor {self : ValidationInterceptor}
    (hmode : self.strictMode = true) (clock : StatsClock) :
    StrictValidation (self.toMessageInterceptor clock) where
  priority := rfl
  asked _ := rfl
  answer _ := ⟨self, clock, hmode, rfl⟩

theorem own_toMessageInterceptor (self : ValidationInterceptor)
    (clock : StatsClock) : Own (self.toMessageInterceptor clock) := by
  intro context result hresult
  rw [← Except.ok.inj hresult]
  exact .validation self context clock

/-- It gives every message away for one of an old version. -/
def downgrader : MessageInterceptor where
  name := "Downgrader"
  priority := 5
  shouldIntercept _ := true
  intercept _ :=
    .ok (.rewritten (.notification ⟨"1.0", "ping", none⟩) "downgraded" 1.0)

def strictValidator : MessageInterceptor :=
  (ValidationInterceptor.new true).toMessageInterceptor ⟨Auth.smallInstant, 0⟩

def downgradingCalls : List InterceptorManager.Call :=
  [.addInterceptor strictValidator, .addInterceptor downgrader]

theorem validating_downgradingCalls :
    Validating (InterceptorManager.after downgradingCalls) := by
  have hmem : ∀ interceptor,
      interceptor ∈ (InterceptorManager.after downgradingCalls).interceptors ↔
        interceptor = strictValidator ∨ interceptor = downgrader := by
    intro interceptor
    rw [(InterceptorManager.after_stablySorts downgradingCalls).perm.mem_iff]
    simp [downgradingCalls, InterceptorManager.survivors,
      InterceptorManager.removes]
  refine ⟨⟨downgradingCalls, rfl⟩, ⟨strictValidator, ?_, ?_⟩, ?_⟩
  · rw [hmem]
    exact Or.inl rfl
  · exact strictValidation_toMessageInterceptor rfl _
  · intro interceptor hinterceptor hpriority
    rcases (hmem interceptor).mp hinterceptor with rfl | rfl
    · exact own_toMessageInterceptor _ _
    · exact absurd hpriority (by decide)

theorem processMessage_valid_downgraded :
    ∃ result, ((InterceptorManager.after
        downgradingCalls).processMessageWithMetadata
          LlmInterceptor.listTools .outgoing {} Auth.smallInstant 0).result =
        .ok result ∧
      (result.block = true ∨ Valid result.message) :=
  processMessage_valid validating_downgradingCalls LlmInterceptor.listTools
    .outgoing {} Auth.smallInstant 0

end Transport
end Acdp
