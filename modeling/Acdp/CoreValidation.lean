import Acdp.BinaryDoubles
import Acdp.JsonCodec
import Acdp.JsonPaths
import Acdp.JsonReadBack
import Acdp.LlmInterceptor
import Acdp.TextCase
import Acdp.TextOperations
import Acdp.TextPrefix

/-!
# Parameter validation

A validator coerces the members of the parameters to the types that a schema
declares, checks the types of the members and looks for the required ones.
Each of the three passes has nothing to do where the schema or the parameters
are not of the shape it expects.  The maps are sorted by name here; the loops
over maps in the order of their documents have a module of their own.  The
parsing and printing of floating-point numbers and the case of letters outside
ASCII are parameters.
-/

namespace Acdp
namespace Core

open Json

inductive ValidationError where
  | schemaError (message : String)
  | missingRequired (field : String)
  | validationFailed (field reason : String)
  | transformationFailed (field reason : String)
  | invalidSchema (message : String)

structure ValidationResult where
  isValid : Bool
  errors : List ValidationError
  warnings : List String
  validatedParams : OrderedValue
  transformations : List String

structure ParameterValidator where
  autoTransform : Bool
  strictMode : Bool

/-- The standard library's texts of numbers and case of letters; the numbers
are given by their bits. -/
structure ValidationTexts where
  lower : Text.CaseTables
  parseDouble : String → Option UInt64
  printDouble : UInt64 → String

/-! ## Reading values -/

/-- The text of the actual type in an error. -/
def typeName : Value → String
  | .str _ => "string"
  | .number _ => "number"
  | .bool _ => "boolean"
  | .array _ => "array"
  | .object _ => "object"
  | .null => "null"

/-- `Value::as_f64`; the inner `none` is a number that is not finite. -/
def asF64 : Value → Option (Option ℚ)
  | .number (.posInt n) => some (some (Double.roundInt n.toNat))
  | .number (.negInt n _ _) => some (some (Double.roundInt n))
  | .number (.float bits) => some (Double.toRat? bits)
  | _ => none

/-- `n.fract() == 0.0`. -/
def hasNoFraction (value : Option ℚ) : Bool :=
  value.any (fun n => Double.fract n = 0)

/-- `schema.get("properties").and_then(|p| p.as_object())`. -/
def declaredProperties (schema : Value) : Option (List (String × Value)) :=
  match schema.get "properties" with
  | some (.object properties) => some properties
  | _ => none

/-- `schema.get("required").and_then(|r| r.as_array())`. -/
def requiredEntries (schema : Value) : Option (List Value) :=
  match schema.get "required" with
  | some (.array entries) => some entries
  | _ => none

/-- `field_schema.get("type").and_then(|t| t.as_str())`. -/
def declaredType (fieldSchema : Value) : Option String :=
  (fieldSchema.get "type").bind Value.asStr

/-! ## Coercion -/

/-- A value after coercion, and what the log says about it. -/
structure Coerced where
  value : OrderedValue
  transformations : List String

def Coerced.unchanged (value : OrderedValue) : Coerced := ⟨value, []⟩

def autoFixUrl (url : String) : Option String :=
  if url = "" || Text.startsWith url "http://" ||
      Text.startsWith url "https://" then none
  else if Text.startsWith url "localhost" ||
      Text.startsWith url "127.0.0.1" || Text.startsWith url "0.0.0.0" then
    some ("http://" ++ url)
  else if Text.contains url "." && !Text.contains url " " then
    some ("https://" ++ url)
  else none

def looksLikeUrl (texts : ValidationTexts) (fieldName : String)
    (fieldSchema : Value) : Bool :=
  match (fieldSchema.get "description").bind Value.asStr with
  | some description =>
      let descLower := texts.lower.toLowercase description
      Text.contains descLower "url" || Text.contains descLower "uri" ||
        Text.contains (texts.lower.toLowercase fieldName) "url"
  | none => false

def coerceString (texts : ValidationTexts) (fieldName : String)
    (fieldSchema : Value) (paramValue : OrderedValue) : Coerced :=
  match paramValue.val with
  | .str originalUrl =>
      if looksLikeUrl texts fieldName fieldSchema then
        match autoFixUrl originalUrl with
        | some fixedUrl =>
            ⟨⟨.str fixedUrl, .str _⟩,
              ["Auto-prefixed URL in '" ++ fieldName ++ "': '" ++
                originalUrl ++ "' → '" ++ fixedUrl ++ "'"]⟩
        | none => .unchanged paramValue
      else .unchanged paramValue
  | _ => .unchanged paramValue

/-- `Value::Number`. -/
def numberValue (number : Number) : OrderedValue :=
  ⟨.number number, .number number⟩

/-- `Number::from_f64`. -/
def numberFromF64 (bits : UInt64) : Option Number :=
  if isFiniteDouble bits then some (.float bits) else none

/-- `none` is the panic of `unwrap` at a number that is not finite. -/
def coerceNumber (texts : ValidationTexts) (fieldName : String)
    (paramValue : OrderedValue) : Option Coerced :=
  match paramValue.val with
  | .str originalStr =>
      match texts.parseDouble originalStr with
      | some bits =>
          (numberFromF64 bits).map (fun number =>
            ⟨numberValue number,
              ["Converted string to number in '" ++ fieldName ++ "': '" ++
                originalStr ++ "' → " ++ texts.printDouble bits]⟩)
      | none => some (.unchanged paramValue)
  | _ => some (.unchanged paramValue)

/-- The number that the digits stand for. -/
def digitsValue (digits : List Char) : Option ℕ :=
  if digits ≠ [] ∧ digits.all Char.isDigit then
    some (digits.foldl (fun n digit => 10 * n + (digit.toNat - 48)) 0)
  else none

/-- `str::parse::<i64>`. -/
def parseI64 (text : String) : Option Int64 := do
  let value ← match text.toList with
    | '-' :: digits => (digitsValue digits).map (fun n => -(n : ℤ))
    | '+' :: digits => (digitsValue digits).map (fun n => (n : ℤ))
    | digits => (digitsValue digits).map (fun n => (n : ℤ))
  if -2 ^ 63 ≤ value ∧ value < 2 ^ 63 then some (Int64.ofInt value) else none

def coerceInteger (fieldName : String) (paramValue : OrderedValue) :
    Coerced :=
  match paramValue.val with
  | .str originalStr =>
      match parseI64 originalStr with
      | some intVal =>
          ⟨numberValue (Llm.numberOfInt64 intVal),
            ["Converted string to integer in '" ++ fieldName ++ "': '" ++
              originalStr ++ "' → " ++ toString intVal.toInt]⟩
      | none => .unchanged paramValue
  | _ => .unchanged paramValue

def boolOf (lower : String) : Option Bool :=
  if lower ∈ ["true", "yes", "1", "on"] then some true
  else if lower ∈ ["false", "no", "0", "off"] then some false
  else none

def coerceBoolean (texts : ValidationTexts) (fieldName : String)
    (paramValue : OrderedValue) : Coerced :=
  match paramValue.val with
  | .str originalStr =>
      match boolOf (texts.lower.toLowercase originalStr) with
      | some boolVal =>
          ⟨⟨.bool boolVal, .bool _⟩,
            ["Converted string to boolean in '" ++ fieldName ++ "': '" ++
              originalStr ++ "' → " ++ toString boolVal]⟩
      | none => .unchanged paramValue
  | _ => .unchanged paramValue

/-- The code's `Result` is always `Ok`; `none` is a panic. -/
def transformFieldValue (texts : ValidationTexts) (fieldName : String)
    (fieldSchema : Value) (paramValue : OrderedValue) : Option Coerced :=
  match declaredType fieldSchema with
  | none => some (.unchanged paramValue)
  | some expectedType =>
      if expectedType = "string" then
        some (coerceString texts fieldName fieldSchema paramValue)
      else if expectedType = "number" then
        coerceNumber texts fieldName paramValue
      else if expectedType = "integer" then
        some (coerceInteger fieldName paramValue)
      else if expectedType = "boolean" then
        some (coerceBoolean texts fieldName paramValue)
      else some (.unchanged paramValue)

/-- The loop over the declared properties. -/
def transformFields (texts : ValidationTexts) :
    List (String × Value) → Coerced → Option Coerced
  | [], result => some result
  | (fieldName, fieldSchema) :: rest, result =>
      match result.value.get fieldName with
      | none => transformFields texts rest result
      | some paramValue => do
          let field ←
            transformFieldValue texts fieldName fieldSchema paramValue
          transformFields texts rest
            ⟨(result.value.insertField fieldName field.value).getD
                result.value,
              result.transformations ++ field.transformations⟩

def applyTransformations (texts : ValidationTexts) (schema : Value)
    (params : OrderedValue) : Option Coerced :=
  match declaredProperties schema, params.val with
  | some properties, .object _ =>
      transformFields texts properties (.unchanged params)
  | _, _ => some (.unchanged params)

/-! ## Checks -/

def validateSchemaSyntax : Value → Except ValidationError Unit
  | .object _ => .ok ()
  | _ => .error (.invalidSchema "Schema must be a JSON object")

def validType (expectedType : String) (paramValue : Value) : Bool :=
  if expectedType = "string" then typeName paramValue = "string"
  else if expectedType = "number" then typeName paramValue = "number"
  else if expectedType = "integer" then
    typeName paramValue = "number" && (asF64 paramValue).any hasNoFraction
  else if expectedType = "boolean" then typeName paramValue = "boolean"
  else if expectedType = "array" then typeName paramValue = "array"
  else if expectedType = "object" then typeName paramValue = "object"
  else true

/-- The body of the loop over the declared properties. -/
def checkField (members : List (String × Value))
    (property : String × Value) : Except ValidationError Unit :=
  match members.lookup property.1, declaredType property.2 with
  | some paramValue, some expectedType =>
      if validType expectedType paramValue then .ok ()
      else .error (.validationFailed property.1
        ("Expected type '" ++ expectedType ++ "' but got '" ++
          typeName paramValue ++ "'"))
  | _, _ => .ok ()

def validateAgainstSchema (schema params : Value) :
    Except ValidationError Unit :=
  match declaredProperties schema, params with
  | some properties, .object members =>
      properties.forM (checkField members)
  | _, _ => .ok ()

/-- The body of the loop over the required fields. -/
def checkRequiredField (members : List (String × Value)) (entry : Value) :
    Except ValidationError Unit :=
  match entry.asStr with
  | some fieldName =>
      if (members.lookup fieldName).isSome then .ok ()
      else .error (.missingRequired fieldName)
  | none => .ok ()

def checkRequiredFields (schema params : Value) :
    Except ValidationError Unit :=
  match requiredEntries schema, params with
  | some entries, .object members => entries.forM (checkRequiredField members)
  | _, _ => .ok ()

namespace ParameterValidator

def new : ParameterValidator := ⟨true, false⟩

def strict : ParameterValidator := ⟨false, true⟩

/-- The result after the coercion: both checks are made. -/
def checked (schema : Value) (coerced : Coerced) : ValidationResult :=
  let errors :=
    [validateAgainstSchema schema coerced.value.val,
      checkRequiredFields schema coerced.value.val].filterMap
      (fun outcome => match outcome with
        | .ok () => none
        | .error e => some e)
  ⟨errors.isEmpty, errors, [], coerced.value, coerced.transformations⟩

/-- `none` is a panic. -/
def validate (texts : ValidationTexts) (self : ParameterValidator)
    (schema params : OrderedValue) : Option ValidationResult :=
  match validateSchemaSyntax schema.val with
  | .error e => some ⟨false, [e], [], params, []⟩
  | .ok () =>
      if self.autoTransform then
        (applyTransformations texts schema.val params).map
          (checked schema.val)
      else some (checked schema.val (.unchanged params))

def isValid (texts : ValidationTexts) (self : ParameterValidator)
    (schema params : OrderedValue) : Option Bool :=
  (self.validate texts schema params).map ValidationResult.isValid

end ParameterValidator

/-- Quick validation with coercion. -/
def validateParameters (texts : ValidationTexts)
    (schema params : OrderedValue) : Option ValidationResult :=
  ParameterValidator.new.validate texts schema params

def validateParametersStrict (texts : ValidationTexts)
    (schema params : OrderedValue) : Option ValidationResult :=
  ParameterValidator.strict.validate texts schema params

end Core
end Acdp
