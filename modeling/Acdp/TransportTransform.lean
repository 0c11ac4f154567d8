import Acdp.JsonPaths
import Acdp.LlmInterceptor
import Acdp.TextCase
import Acdp.TransportRateLimit

/-!
# The transform interceptor

Rules rewrite one place of a message's parameters, named by a dotted path:
they set, add or remove a field, rename it or apply a function to its value.
The interceptor applies the rules of its list in turn to a copy of the
message and keeps the copy where the rule succeeds.
-/

namespace Acdp
namespace Transport

open Acdp.Core Json
open Auth (DateTime)

inductive TransformOperation where
  | set (value : OrderedValue)
  | addIfMissing (value : OrderedValue)
  | remove
  | rename (newName : String)
  | function (name : String) (args : List OrderedValue)

structure TransformRule where
  name : String
  methodPattern : String
  path : String
  operation : TransformOperation

/-- What the code leaves to its build: the tables of letters outside ASCII
and whether an overflow panics or wraps around. -/
structure TransformBuild where
  lower : Text.CaseTables
  upper : Char → List Char
  overflowChecks : Bool

def TransformRule.matches (self : TransformRule) (context : MessageContext) :
    Bool :=
  match context.message.method with
  | some method => self.methodPattern == "*" || self.methodPattern == method
  | none => false

namespace TransformRule

/-- `self.path.split('.')`. -/
def pathParts (self : TransformRule) : List String :=
  (self.path.toList.splitOn '.').map String.ofList

def getAtPath (value : OrderedValue) (path : List String) :
    Option OrderedValue :=
  OrderedValue.tree.getAt path value

/-! ## The operations -/

def setAtPath (value : OrderedValue) (path : List String)
    (newValue : OrderedValue) : Except String OrderedValue :=
  match path.getLast? with
  | none => .error "Empty path"
  | some fieldName =>
      if path.length = 1 then
        match value.insertField fieldName newValue with
        | some updated => .ok updated
        | none => .error "Cannot set field on non-object"
      else
        match OrderedValue.tree.updateAt
            (fun parent => parent.insertField fieldName newValue)
            path.dropLast value with
        | some updated => .ok updated
        | none => .error "Path not found"

def removeAtPath (value : OrderedValue) (path : List String) :
    Except String OrderedValue :=
  match path.getLast? with
  | none => .error "Empty path"
  | some fieldName =>
      if path.length = 1 then
        match value.removeField fieldName with
        | some updated => .ok updated
        | none => .error "Cannot remove field from non-object"
      else
        match OrderedValue.tree.updateAt
            (fun parent => parent.removeField fieldName)
            path.dropLast value with
        | some updated => .ok updated
        | none => .ok value

def renameAtPath (value : OrderedValue) (path : List String)
    (newName : String) : OrderedValue :=
  match path.getLast? with
  | none => value
  | some last =>
      (OrderedValue.tree.updateAt
        (fun parent => parent.renameField last newName)
        path.dropLast value).getD value

/-- `Value::as_i64`. -/
def asI64 : Value → Option Int64
  | .number number => number.asI64
  | _ => none

/-- `n + 1` on an `i64`; `none` where it panics. -/
def incremented (build : TransformBuild) (n : Int64) : Option Int64 :=
  if build.overflowChecks && n == Int64.maxValue then none else some (n + 1)

/-- The new value of the target; the outer `none` is a panic. -/
def functionOf (build : TransformBuild) (funcName : String)
    (target : OrderedValue) : Option (Except String OrderedValue) :=
  if funcName = "uppercase" then
    match target.val with
    | .str s => some (.ok ⟨.str (Text.toUppercase build.upper s), .str _⟩)
    | _ => some (.ok target)
  else if funcName = "lowercase" then
    match target.val with
    | .str s => some (.ok ⟨.str (build.lower.toLowercase s), .str _⟩)
    | _ => some (.ok target)
  else if funcName = "increment" then
    match asI64 target.val with
    | some n =>
        (incremented build n).map (fun next =>
          .ok ⟨.number (Llm.numberOfInt64 next), .number _⟩)
    | none => some (.ok target)
  else some (.error ("Unknown function: " ++ funcName))

def applyFunction (build : TransformBuild) (value : OrderedValue)
    (path : List String) (funcName : String) (_args : List OrderedValue) :
    Option (Except String OrderedValue) :=
  match getAtPath value path with
  | none => some (.ok value)
  | some target =>
      (functionOf build funcName target).map (fun outcome =>
        outcome.map (fun changed =>
          (OrderedValue.tree.updateAt (fun _ => some changed)
            path value).getD value))

def applyToValue (build : TransformBuild) (self : TransformRule)
    (value : OrderedValue) : Option (Except String OrderedValue) :=
  match self.operation with
  | .set newValue => some (setAtPath value self.pathParts newValue)
  | .addIfMissing newValue =>
      if (getAtPath value self.pathParts).isNone then
        some (setAtPath value self.pathParts newValue)
      else some (.ok value)
  | .remove => some (removeAtPath value self.pathParts)
  | .rename newName => some (.ok (renameAtPath value self.pathParts newName))
  | .function name args =>
      applyFunction build value self.pathParts name args

/-! ## Messages -/

/-- The payload of a message that rules apply to. -/
def payload : JsonRpcMessage → Option OrderedValue
  | .request req => req.params
  | .response resp => resp.result
  | .notification notif => notif.params

def withPayload (message : JsonRpcMessage) (value : OrderedValue) :
    JsonRpcMessage :=
  match message with
  | .request req => .request { req with params := some value }
  | .response resp => .response { resp with result := some value }
  | .notification notif => .notification { notif with params := some value }

def apply (build : TransformBuild) (self : TransformRule)
    (message : JsonRpcMessage) : Option (Except String JsonRpcMessage) :=
  match payload message with
  | none => some (.ok message)
  | some value =>
      (self.applyToValue build value).map (fun outcome =>
        outcome.map (withPayload message))

end TransformRule

/-! ## The interceptor -/

structure TransformInterceptor where
  name : String
  stats : InterceptorStats
  rules : List TransformRule

/-- The variables of the loop over the rules. -/
structure RulePass where
  currentMessage : JsonRpcMessage
  wasModified : Bool
  appliedRules : List String

namespace TransformInterceptor

def new : TransformInterceptor := ⟨"TransformInterceptor", {}, []⟩

def addRule (self : TransformInterceptor) (rule : TransformRule) :
    TransformInterceptor :=
  { self with rules := self.rules ++ [rule] }

def removeRule (self : TransformInterceptor) (name : String) :
    TransformInterceptor × Bool :=
  let kept := self.rules.filter (fun rule => rule.name != name)
  ({ self with rules := kept }, kept.length != self.rules.length)

def listRules (self : TransformInterceptor) : List String :=
  self.rules.map TransformRule.name

def priority (_ : TransformInterceptor) : UInt32 := 40

def shouldIntercept (self : TransformInterceptor) (context : MessageContext) :
    Bool :=
  self.rules.any (fun rule => rule.matches context)

/-- One turn of the loop; `none` is a panic. -/
def turn (build : TransformBuild) (context : MessageContext)
    (pass : RulePass) (rule : TransformRule) : Option RulePass :=
  if rule.matches context then
    (rule.apply build pass.currentMessage).map (fun outcome =>
      match outcome with
      | .ok modified =>
          ⟨modified, true, pass.appliedRules ++ [rule.name]⟩
      | .error _ => pass)
  else some pass

def applyRules (build : TransformBuild) (context : MessageContext)
    (rules : List TransformRule) : Option RulePass :=
  rules.foldlM (turn build context) ⟨context.message, false, []⟩

/-- The readings of the clocks at the end of a call. -/
structure Clock where
  processed : DateTime
  elapsedMillis : ℕ

def recorded (stats : InterceptorStats) (wasModified : Bool) (clock : Clock) :
    InterceptorStats :=
  let total := stats.totalIntercepted + 1
  { stats with
    totalIntercepted := total
    totalModified :=
      if wasModified then stats.totalModified + 1 else stats.totalModified
    lastProcessed := some clock.processed
    avgProcessingTimeMs :=
      (stats.avgProcessingTimeMs * (total - 1).toFloat +
        Float.ofNat clock.elapsedMillis) / total.toFloat }

def intercept (build : TransformBuild) (self : TransformInterceptor)
    (context : MessageContext) (clock : Clock) :
    Option (TransformInterceptor × InterceptionResult) :=
  (applyRules build context self.rules).map (fun pass =>
    ({ self with stats := recorded self.stats pass.wasModified clock },
      if pass.wasModified then
        .rewritten pass.currentMessage
          ("Applied rules: " ++ ", ".intercalate pass.appliedRules) 1.0
      else .passThrough pass.currentMessage))

end TransformInterceptor
end Transport
end Acdp
