import Acdp.CoreValidation

/-!
# What a valid result says

A result is valid when the coerced parameters pass both checks.  Every check
looks at the members of the parameters, so for parameters that are an object
a valid result carries its meaning, and for any others nothing is checked at
all.  No pass looks for members that the schema does not declare.
-/

namespace Acdp
namespace Core

open Json

/-! ## Types of values -/

/-- The value of the number is an integer. -/
def IsInteger : Number → Prop
  | .posInt _ => True
  | .negInt _ _ _ => True
  | .float bits => ∃ n : ℤ, Double.toRat? bits = some (n : ℚ)

/-- The types that are checked. -/
inductive SchemaType where
  | string
  | number
  | integer
  | boolean
  | array
  | object

def SchemaType.name : SchemaType → String
  | .string => "string"
  | .number => "number"
  | .integer => "integer"
  | .boolean => "boolean"
  | .array => "array"
  | .object => "object"

inductive HasType : SchemaType → Value → Prop
  | string (text : String) : HasType .string (.str text)
  | number (number : Number) : HasType .number (.number number)
  | integer {number : Number} (hinteger : IsInteger number) :
      HasType .integer (.number number)
  | boolean (value : Bool) : HasType .boolean (.bool value)
  | array (elements : List Value) : HasType .array (.array elements)
  | object (members : List (String × Value)) :
      HasType .object (.object members)

theorem hasNoFraction_asF64_iff (number : Number) :
    (asF64 (.number number)).any hasNoFraction = true ↔ IsInteger number := by
  cases number with
  | posInt n =>
      have hzero := Double.fract_intCast (Double.roundInt n.toNat)
      simp [asF64, hasNoFraction, IsInteger, hzero]
  | negInt n lower negative =>
      have hzero := Double.fract_intCast (Double.roundInt n)
      simp [asF64, hasNoFraction, IsInteger, hzero]
  | float bits =>
      simp only [asF64, IsInteger, Option.any_some, hasNoFraction]
      cases Double.toRat? bits with
      | none => simp
      | some value => simp [Double.fract_eq_zero_iff]

/-- The check of one value says that it has the type. -/
theorem validType_iff (type : SchemaType) (value : Value) :
    validType type.name value = true ↔ HasType type value := by
  constructor
  · intro hvalid
    cases type with
    | integer =>
        cases value with
        | number number =>
            have hfraction : (asF64 (.number number)).any hasNoFraction =
                true := by
              simpa [validType, SchemaType.name, typeName] using hvalid
            exact .integer ((hasNoFraction_asF64_iff number).mp hfraction)
        | _ => simp [validType, SchemaType.name, typeName] at hvalid
    | _ =>
        cases value <;>
          first
          | constructor
          | simp [validType, SchemaType.name, typeName] at hvalid
  · intro htype
    cases htype with
    | integer hinteger =>
        have hfraction := (hasNoFraction_asF64_iff _).mpr hinteger
        simpa [validType, SchemaType.name, typeName] using hfraction
    | _ => simp [validType, SchemaType.name, typeName]

/-! ## Loops of checks -/

/-- A loop of checks passes just when every check does. -/
theorem forM_eq_ok_iff {Item Reason : Type} {items : List Item}
    {check : Item → Except Reason Unit} :
    items.forM check = .ok () ↔ ∀ item ∈ items, check item = .ok () := by
  induction items with
  | nil => exact iff_of_true rfl (by simp)
  | cons item rest ih =>
      change (check item >>= fun _ => rest.forM check) = .ok () ↔ _
      rw [List.forall_mem_cons]
      cases check item with
      | ok passed => exact ih.trans (by simp)
      | error e =>
          apply iff_of_false
          · intro hok
            cases hok
          · rintro ⟨hok, _⟩
            cases hok

theorem checkField_eq_ok_iff {members : List (String × Value)}
    {fieldName : String} {fieldSchema : Value} :
    checkField members (fieldName, fieldSchema) = .ok () ↔
      ∀ paramValue expectedType,
        members.lookup fieldName = some paramValue →
        declaredType fieldSchema = some expectedType →
          validType expectedType paramValue = true := by
  unfold checkField
  cases hmember : members.lookup fieldName with
  | none => simp
  | some paramValue =>
      cases htype : declaredType fieldSchema with
      | none => simp
      | some expectedType => simp

theorem validateAgainstSchema_eq_ok_iff {schema : Value}
    {members : List (String × Value)} :
    validateAgainstSchema schema (.object members) = .ok () ↔
      ∀ properties, declaredProperties schema = some properties →
      ∀ fieldName fieldSchema, (fieldName, fieldSchema) ∈ properties →
      ∀ paramValue expectedType,
        members.lookup fieldName = some paramValue →
        declaredType fieldSchema = some expectedType →
          validType expectedType paramValue = true := by
  unfold validateAgainstSchema
  cases declaredProperties schema with
  | none => simp
  | some properties =>
      simp only [Option.some.injEq, forall_eq', forM_eq_ok_iff, Prod.forall,
        checkField_eq_ok_iff]

theorem checkRequiredFields_eq_ok_iff {schema : Value}
    {members : List (String × Value)} :
    checkRequiredFields schema (.object members) = .ok () ↔
      ∀ entries, requiredEntries schema = some entries →
      ∀ fieldName, Value.str fieldName ∈ entries →
        (members.lookup fieldName).isSome = true := by
  unfold checkRequiredFields
  cases requiredEntries schema with
  | none => simp
  | some entries =>
      simp only [Option.some.injEq, forall_eq', forM_eq_ok_iff]
      constructor
      · intro hchecks fieldName hentry
        have hcheck := hchecks (.str fieldName) hentry
        simpa [checkRequiredField, Value.asStr] using hcheck
      · intro hpresent entry hentry
        cases entry with
        | str fieldName =>
            simp [checkRequiredField, Value.asStr, hpresent fieldName hentry]
        | _ => rfl

/-! ## The loop of coercions -/

section Coercion

variable {texts : ValidationTexts} {properties : List (String × Value)}
  {result final : Coerced}

/-- One turn of the loop: a property without a member is passed over, and
the member of any other is replaced. -/
theorem transformFields_cons_eq_some_iff {fieldName : String}
    {fieldSchema : Value} {rest : List (String × Value)} :
    transformFields texts ((fieldName, fieldSchema) :: rest) result =
        some final ↔
      (result.value.get fieldName = none ∧
        transformFields texts rest result = some final) ∨
      ∃ paramValue field updated,
        result.value.get fieldName = some paramValue ∧
        transformFieldValue texts fieldName fieldSchema paramValue =
          some field ∧
        result.value.insertField fieldName field.value = some updated ∧
        transformFields texts rest
          ⟨updated, result.transformations ++ field.transformations⟩ =
          some final := by
  rw [transformFields]
  cases hmember : result.value.get fieldName with
  | none => simp
  | some paramValue =>
      cases hfield : transformFieldValue texts fieldName fieldSchema
          paramValue with
      | none => simp [hfield]
      | some field =>
          obtain ⟨members, hobject⟩ :=
            OrderedValue.exists_object_of_get hmember
          obtain ⟨updated, hupdated⟩ :=
            OrderedValue.insertField_of_object hobject fieldName field.value
          simp only [hfield, Option.bind_eq_bind, Option.bind_some, hupdated,
            Option.getD_some]
          constructor
          · intro hrun
            exact Or.inr ⟨paramValue, field, updated, rfl, hfield, hupdated,
              hrun⟩
          · rintro (⟨hnone, _⟩ |
              ⟨value, changed, other, hvalue, hchanged, hother, hrun⟩)
            · cases hnone
            · obtain rfl : paramValue = value := Option.some.inj hvalue
              obtain rfl : field = changed :=
                Option.some.inj (hfield.symm.trans hchanged)
              obtain rfl : updated = other :=
                Option.some.inj (hupdated.symm.trans hother)
              exact hrun

theorem ne_of_later {fieldName : String} {fieldSchema : Value}
    {rest : List (String × Value)}
    (hsorted : Sorted ((fieldName, fieldSchema) :: rest)) :
    ∀ later ∈ rest, later.1 ≠ fieldName := by
  intro later hlater
  exact (ne_of_lt ((List.pairwise_cons.mp hsorted).1 later hlater)).symm

/-- A turn leaves the members alone that later turns look at. -/
theorem get_of_later {fieldName : String} {fieldSchema : Value}
    {rest : List (String × Value)} {value child updated : OrderedValue}
    (hsorted : Sorted ((fieldName, fieldSchema) :: rest))
    (hinsert : value.insertField fieldName child = some updated)
    {name : String} {schema : Value} (hlater : (name, schema) ∈ rest) :
    updated.get name = value.get name := by
  have hne : name ≠ fieldName := ne_of_later hsorted (name, schema) hlater
  exact (OrderedValue.get_insertField hinsert name).trans (if_neg hne)

/-- The members of the declared properties are coerced and all others stay
as they are. -/
theorem get_transformFields (hsorted : Sorted properties)
    (hrun : transformFields texts properties result = some final) :
    (∀ name, (∀ property ∈ properties, property.1 ≠ name) →
      final.value.get name = result.value.get name) ∧
    ∀ name fieldSchema, (name, fieldSchema) ∈ properties →
      final.value.get name = (result.value.get name).bind (fun paramValue =>
        (transformFieldValue texts name fieldSchema paramValue).map
          Coerced.value) := by
  induction properties generalizing result with
  | nil =>
      obtain rfl : result = final := Option.some.inj hrun
      exact ⟨fun _ _ => rfl, fun _ _ hmember => by cases hmember⟩
  | cons property rest ih =>
      obtain ⟨fieldName, fieldSchema⟩ := property
      have hrest : Sorted rest := (List.pairwise_cons.mp hsorted).2
      rw [transformFields_cons_eq_some_iff] at hrun
      rcases hrun with ⟨hnone, hrun⟩ |
        ⟨paramValue, field, updated, hmember, hfield, hinsert, hrun⟩
      · obtain ⟨hkept, hcoerced⟩ := ih hrest hrun
        constructor
        · intro name hname
          exact hkept name (List.forall_mem_cons.mp hname).2
        · intro name schema hproperty
          rcases List.mem_cons.mp hproperty with hhead | hlater
          · obtain ⟨rfl, rfl⟩ := Prod.mk.inj hhead
            rw [hkept name (ne_of_later hsorted), hnone]
            rfl
          · exact hcoerced name schema hlater
      · obtain ⟨hkept, hcoerced⟩ := ih hrest hrun
        have hget := OrderedValue.get_insertField hinsert
        constructor
        · intro name hname
          obtain ⟨hne, hothers⟩ := List.forall_mem_cons.mp hname
          rw [hkept name hothers]
          exact (hget name).trans (if_neg (Ne.symm hne))
        · intro name schema hproperty
          rcases List.mem_cons.mp hproperty with hhead | hlater
          · obtain ⟨rfl, rfl⟩ := Prod.mk.inj hhead
            rw [hkept name (ne_of_later hsorted), hmember, Option.bind_some,
              hfield]
            exact (hget name).trans (if_pos rfl)
          · rw [hcoerced name schema hlater,
              ← get_of_later hsorted hinsert hlater]

/-- A loop that ends has coerced every member without a panic. -/
theorem transformFieldValue_ne_none (hsorted : Sorted properties)
    (hrun : transformFields texts properties result = some final)
    {name : String} {fieldSchema : Value}
    (hproperty : (name, fieldSchema) ∈ properties)
    {paramValue : OrderedValue}
    (hparam : result.value.get name = some paramValue) :
    transformFieldValue texts name fieldSchema paramValue ≠ none := by
  induction properties generalizing result with
  | nil => cases hproperty
  | cons property rest ih =>
      obtain ⟨fieldName, firstSchema⟩ := property
      have hrest : Sorted rest := (List.pairwise_cons.mp hsorted).2
      rw [transformFields_cons_eq_some_iff] at hrun
      rcases hrun with ⟨hnone, hrun⟩ |
        ⟨value, field, updated, hmember, hfield, hinsert, hrun⟩
      · rcases List.mem_cons.mp hproperty with hhead | hlater
        · obtain ⟨rfl, rfl⟩ := Prod.mk.inj hhead
          rw [hnone] at hparam
          cases hparam
        · exact ih hrest hrun hlater hparam
      · rcases List.mem_cons.mp hproperty with hhead | hlater
        · obtain ⟨rfl, rfl⟩ := Prod.mk.inj hhead
          rw [hmember, Option.some.injEq] at hparam
          rw [← hparam, hfield]
          exact Option.some_ne_none field
        · apply ih hrest hrun hlater
          exact (get_of_later hsorted hinsert hlater).trans hparam

/-- Where every member is coerced without a panic the loop ends. -/
theorem exists_transformFields (hsorted : Sorted properties)
    (hall : ∀ name fieldSchema, (name, fieldSchema) ∈ properties →
      ∀ paramValue, result.value.get name = some paramValue →
        transformFieldValue texts name fieldSchema paramValue ≠ none) :
    ∃ final, transformFields texts properties result = some final := by
  induction properties generalizing result with
  | nil => exact ⟨result, rfl⟩
  | cons property rest ih =>
      obtain ⟨fieldName, fieldSchema⟩ := property
      have hrest : Sorted rest := (List.pairwise_cons.mp hsorted).2
      simp only [transformFields_cons_eq_some_iff]
      cases hmember : result.value.get fieldName with
      | none =>
          obtain ⟨final, hrun⟩ := ih hrest (fun name schema hlater =>
            hall name schema (List.mem_cons_of_mem _ hlater))
          exact ⟨final, Or.inl ⟨rfl, hrun⟩⟩
      | some paramValue =>
          obtain ⟨field, hfield⟩ := Option.ne_none_iff_exists'.mp
            (hall fieldName fieldSchema List.mem_cons_self paramValue hmember)
          obtain ⟨members, hobject⟩ :=
            OrderedValue.exists_object_of_get hmember
          obtain ⟨updated, hinsert⟩ :=
            OrderedValue.insertField_of_object hobject fieldName field.value
          have hrun : ∃ final, transformFields texts rest
              ⟨updated, result.transformations ++ field.transformations⟩ =
              some final := by
            apply ih hrest
            intro name schema hlater value hvalue
            apply hall name schema (List.mem_cons_of_mem _ hlater)
            exact (get_of_later hsorted hinsert hlater).symm.trans hvalue
          obtain ⟨final, hrun⟩ := hrun
          exact ⟨final, Or.inr ⟨paramValue, field, updated, rfl, hfield,
            hinsert, hrun⟩⟩

/-- The loop neither adds nor removes members. -/
theorem isSome_get_transformFields (hsorted : Sorted properties)
    (hrun : transformFields texts properties result = some final)
    (name : String) :
    (final.value.get name).isSome = (result.value.get name).isSome := by
  obtain ⟨hkept, hcoerced⟩ := get_transformFields hsorted hrun
  by_cases hdeclared : ∃ property ∈ properties, property.1 = name
  · obtain ⟨⟨_, fieldSchema⟩, hproperty, rfl⟩ := hdeclared
    rw [hcoerced _ fieldSchema hproperty]
    cases hparam : result.value.get _ with
    | none => rfl
    | some paramValue =>
        have hfield :=
          transformFieldValue_ne_none hsorted hrun hproperty hparam
        rw [Option.bind_some, Option.isSome_some, Option.isSome_map]
        exact Option.isSome_iff_ne_none.mpr hfield
  · push Not at hdeclared
    rw [hkept name hdeclared]

theorem exists_object_of_transformFields
    (hobject : ∃ members, result.value.val = .object members)
    (hrun : transformFields texts properties result = some final) :
    ∃ members, final.value.val = .object members := by
  induction properties generalizing result with
  | nil =>
      obtain rfl : result = final := Option.some.inj hrun
      exact hobject
  | cons property rest ih =>
      obtain ⟨fieldName, fieldSchema⟩ := property
      rw [transformFields_cons_eq_some_iff] at hrun
      rcases hrun with ⟨_, hrun⟩ |
        ⟨paramValue, field, updated, _, _, hinsert, hrun⟩
      · exact ih hobject hrun
      · obtain ⟨_, _, hupdated⟩ := OrderedValue.insertField_eq_some hinsert
        exact ih ⟨_, hupdated⟩ hrun

end Coercion

/-! ## Valid results -/

/-- What the type and requirement clauses of a schema say of a value. -/
structure ConformsTo (schema validated : Value) : Prop where
  object : ∃ members, validated = .object members
  required : ∀ entries, requiredEntries schema = some entries →
    ∀ name, Value.str name ∈ entries → (validated.get name).isSome = true
  typed : ∀ properties, schema.get "properties" = some properties →
    ∀ name fieldSchema, properties.get name = some fieldSchema →
    ∀ type : SchemaType, declaredType fieldSchema = some type.name →
    ∀ paramValue, validated.get name = some paramValue →
      HasType type paramValue

/-- Every member of the parameters is declared where the schema has
properties. -/
def DeclaredOnly (schema params : Value) : Prop :=
  ∀ properties, schema.get "properties" = some properties →
    ∀ name, (params.get name).isSome = true →
      (properties.get name).isSome = true

namespace ParameterValidator

variable {texts : ValidationTexts} {self : ParameterValidator}
  {schema params : OrderedValue}

/-- A valid result carries its meaning. -/
def ValidMeansSound (texts : ValidationTexts) (self : ParameterValidator)
    (schema params : OrderedValue) : Prop :=
  ∀ result, self.validate texts schema params = some result →
    result.isValid = true →
      ConformsTo schema.val result.validatedParams.val ∧
        (self.strictMode = true → DeclaredOnly schema.val params.val)

/-- What the checks see of a member; `none` is a panic. -/
def coercedField (texts : ValidationTexts) (self : ParameterValidator)
    (fieldName : String) (fieldSchema : Value) (paramValue : OrderedValue) :
    Option OrderedValue :=
  if self.autoTransform then
    (transformFieldValue texts fieldName fieldSchema paramValue).map
      Coerced.value
  else some paramValue

/-- A required field is missing, or the coercion of some member panics or
leaves it without the declared type. -/
def Refuses (texts : ValidationTexts) (self : ParameterValidator)
    (schema params : OrderedValue) : Prop :=
  (∃ entries name, requiredEntries schema.val = some entries ∧
    Value.str name ∈ entries ∧ params.get name = none) ∨
  ∃ properties name fieldSchema paramValue,
    declaredProperties schema.val = some properties ∧
    (name, fieldSchema) ∈ properties ∧
    params.get name = some paramValue ∧
    ∀ value, coercedField texts self name fieldSchema paramValue =
      some value →
      ∃ expectedType, declaredType fieldSchema = some expectedType ∧
        validType expectedType value.val = false

theorem isValid_checked_iff {coerced : Coerced} :
    (checked schema.val coerced).isValid = true ↔
      validateAgainstSchema schema.val coerced.value.val = .ok () ∧
        checkRequiredFields schema.val coerced.value.val = .ok () := by
  unfold checked
  cases validateAgainstSchema schema.val coerced.value.val with
  | ok first =>
      cases checkRequiredFields schema.val coerced.value.val <;> simp
  | error e => simp

/-- What the checks are made on. -/
def coercedParams (texts : ValidationTexts) (self : ParameterValidator)
    (schema : Value) (params : OrderedValue) : Option Coerced :=
  if self.autoTransform then applyTransformations texts schema params
  else some (.unchanged params)

theorem validate_of_object
    (hschema : ∃ members, schema.val = .object members) :
    self.validate texts schema params =
      (coercedParams texts self schema.val params).map
        (checked schema.val) := by
  obtain ⟨members, hschema⟩ := hschema
  have hpasses : validateSchemaSyntax schema.val = .ok () := by
    rw [hschema]
    rfl
  unfold validate coercedParams
  rw [hpasses]
  split_ifs <;> rfl

theorem sorted_declaredProperties {properties : List (String × Value)}
    (hproperties : declaredProperties schema.val = some properties) :
    Sorted properties := by
  have hget : schema.val.get "properties" = some (.object properties) := by
    unfold declaredProperties at hproperties
    split at hproperties
    · rename_i found hfound
      rw [hfound, ← Option.some.inj hproperties]
    · cases hproperties
  have hnormal := schema.property.get hget
  cases hnormal with
  | object hsorted _ => exact hsorted

theorem applyTransformations_of_object {schema : Value}
    (hparams : ∃ members, params.val = .object members) :
    applyTransformations texts schema params =
      (declaredProperties schema).elim (some (.unchanged params))
        (fun properties =>
          transformFields texts properties (.unchanged params)) := by
  obtain ⟨members, hparams⟩ := hparams
  unfold applyTransformations
  rw [hparams]
  cases declaredProperties schema <;> rfl

theorem coercedField_of_auto (texts : ValidationTexts)
    (hauto : self.autoTransform = true) (name : String)
    (fieldSchema : Value) :
    coercedField texts self name fieldSchema = fun paramValue =>
      (transformFieldValue texts name fieldSchema paramValue).map
        Coerced.value := by
  funext paramValue
  rw [coercedField, if_pos hauto]

theorem coercedField_of_not_auto (texts : ValidationTexts)
    (hauto : ¬ self.autoTransform = true) (name : String)
    (fieldSchema : Value) :
    coercedField texts self name fieldSchema = some := by
  funext paramValue
  rw [coercedField, if_neg hauto]

/-- The coercion ends without a panic just when that of every member
does. -/
theorem coercedParams_isSome_iff
    (hparams : ∃ members, params.val = .object members) :
    (∃ coerced, coercedParams texts self schema.val params = some coerced) ↔
      ∀ properties, declaredProperties schema.val = some properties →
        ∀ name fieldSchema, (name, fieldSchema) ∈ properties →
        ∀ paramValue, params.get name = some paramValue →
          coercedField texts self name fieldSchema paramValue ≠ none := by
  unfold coercedParams
  split_ifs with hauto
  · rw [applyTransformations_of_object hparams]
    simp only [coercedField_of_auto texts hauto, ne_eq,
      Option.map_eq_none_iff]
    cases hproperties : declaredProperties schema.val with
    | none => simp
    | some properties =>
        have hsorted := sorted_declaredProperties hproperties
        constructor
        · rintro ⟨coerced, hrun⟩ others hothers name fieldSchema hproperty
            paramValue hparam
          obtain rfl : properties = others := Option.some.inj hothers
          exact transformFieldValue_ne_none hsorted hrun hproperty hparam
        · intro hall
          exact exists_transformFields hsorted (hall properties rfl)
  · simp [coercedField_of_not_auto texts hauto]

/-- Coercion keeps the parameters an object with the same names, and each
declared member is the coerced one. -/
theorem coercedParams_eq_some {coerced : Coerced}
    (hparams : ∃ members, params.val = .object members)
    (hcoerced : coercedParams texts self schema.val params = some coerced) :
    (∃ members, coerced.value.val = .object members) ∧
      (∀ name, (coerced.value.get name).isSome = (params.get name).isSome) ∧
      ∀ properties, declaredProperties schema.val = some properties →
        ∀ name fieldSchema, (name, fieldSchema) ∈ properties →
          coerced.value.get name = (params.get name).bind
            (coercedField texts self name fieldSchema) := by
  unfold coercedParams at hcoerced
  split_ifs at hcoerced with hauto
  · rw [applyTransformations_of_object hparams] at hcoerced
    cases hproperties : declaredProperties schema.val with
    | none =>
        rw [hproperties] at hcoerced
        obtain rfl : Coerced.unchanged params = coerced :=
          Option.some.inj hcoerced
        exact ⟨hparams, fun _ => rfl, fun _ hnone => by cases hnone⟩
    | some properties =>
        rw [hproperties] at hcoerced
        have hsorted := sorted_declaredProperties hproperties
        refine ⟨exists_object_of_transformFields hparams hcoerced,
          isSome_get_transformFields hsorted hcoerced, ?_⟩
        intro others hothers name fieldSchema hproperty
        obtain rfl : properties = others := Option.some.inj hothers
        rw [coercedField_of_auto texts hauto]
        exact (get_transformFields hsorted hcoerced).2 name fieldSchema
          hproperty
  · obtain rfl : Coerced.unchanged params = coerced :=
      Option.some.inj hcoerced
    refine ⟨hparams, fun _ => rfl, ?_⟩
    intro properties _ name fieldSchema _
    rw [coercedField_of_not_auto texts hauto, Option.bind_fun_some]
    rfl

/-- On an object the checks speak about the members by name. -/
theorem isValid_checked_iff_of_object {coerced : Coerced}
    (hobject : ∃ members, coerced.value.val = .object members) :
    (checked schema.val coerced).isValid = true ↔
      (∀ properties, declaredProperties schema.val = some properties →
        ∀ name fieldSchema, (name, fieldSchema) ∈ properties →
        ∀ value expectedType, coerced.value.get name = some value →
          declaredType fieldSchema = some expectedType →
            validType expectedType value.val = true) ∧
      ∀ entries, requiredEntries schema.val = some entries →
        ∀ name, Value.str name ∈ entries →
          (coerced.value.get name).isSome = true := by
  obtain ⟨members, hobject⟩ := hobject
  have hlookup (name : String) : members.lookup name =
      (coerced.value.get name).map Subtype.val := by
    rw [OrderedValue.map_val_get, hobject]
    rfl
  rw [isValid_checked_iff, hobject, validateAgainstSchema_eq_ok_iff,
    checkRequiredFields_eq_ok_iff]
  simp only [hlookup, Option.isSome_map]
  apply and_congr_left
  intro _
  constructor
  · intro htypes properties hproperties name fieldSchema hproperty value
      expectedType hvalue
    apply htypes properties hproperties name fieldSchema hproperty
    rw [hvalue]
    rfl
  · intro htypes properties hproperties name fieldSchema hproperty found
      expectedType hfound
    obtain ⟨value, hvalue, rfl⟩ := Option.map_eq_some_iff.mp hfound
    exact htypes properties hproperties name fieldSchema hproperty value
      expectedType hvalue

/-- For objects a result is valid just when nothing is refused. -/
theorem exists_valid_iff (hschema : ∃ members, schema.val = .object members)
    (hparams : ∃ members, params.val = .object members) :
    (∃ result, self.validate texts schema params = some result ∧
        result.isValid = true) ↔
      ¬ Refuses texts self schema params := by
  rw [validate_of_object hschema]
  constructor
  · rintro ⟨result, hresult, hvalid⟩
    rw [Option.map_eq_some_iff] at hresult
    obtain ⟨coerced, hcoerced, rfl⟩ := hresult
    obtain ⟨hobject, hnames, hget⟩ := coercedParams_eq_some hparams hcoerced
    rw [isValid_checked_iff_of_object hobject] at hvalid
    obtain ⟨htypes, hrequired⟩ := hvalid
    rintro (⟨entries, name, hentries, hentry, hmissing⟩ |
      ⟨properties, name, fieldSchema, paramValue, hproperties, hproperty,
        hparam, hrefused⟩)
    · have hpresent := hrequired entries hentries name hentry
      rw [hnames, hmissing] at hpresent
      cases hpresent
    · have hmember := hget properties hproperties name fieldSchema hproperty
      rw [hparam, Option.bind_some] at hmember
      have hdefined := (coercedParams_isSome_iff hparams).mp
        ⟨coerced, hcoerced⟩ properties hproperties name fieldSchema hproperty
        paramValue hparam
      obtain ⟨value, hvalue⟩ := Option.ne_none_iff_exists'.mp hdefined
      obtain ⟨expectedType, htype, hwrong⟩ := hrefused value hvalue
      have hright := htypes properties hproperties name fieldSchema hproperty
        value expectedType (hmember.trans hvalue) htype
      rw [hwrong] at hright
      cases hright
  · intro haccepts
    unfold Refuses at haccepts
    push Not at haccepts
    obtain ⟨hpresent, hfields⟩ := haccepts
    have hdefined : ∃ coerced,
        coercedParams texts self schema.val params = some coerced := by
      rw [coercedParams_isSome_iff hparams]
      intro properties hproperties name fieldSchema hproperty paramValue hparam
        hnone
      obtain ⟨value, hvalue, _⟩ := hfields properties name fieldSchema
        paramValue hproperties hproperty hparam
      rw [hnone] at hvalue
      cases hvalue
    obtain ⟨coerced, hcoerced⟩ := hdefined
    obtain ⟨hobject, hnames, hget⟩ := coercedParams_eq_some hparams hcoerced
    refine ⟨checked schema.val coerced, by rw [hcoerced]; rfl, ?_⟩
    rw [isValid_checked_iff_of_object hobject]
    constructor
    · intro properties hproperties name fieldSchema hproperty value
        expectedType hvalue htype
      rw [hget properties hproperties name fieldSchema hproperty,
        Option.bind_eq_some_iff] at hvalue
      obtain ⟨paramValue, hparam, hvalue⟩ := hvalue
      obtain ⟨other, hother, hright⟩ := hfields properties name fieldSchema
        paramValue hproperties hproperty hparam
      obtain rfl : value = other :=
        Option.some.inj (hvalue.symm.trans hother)
      simpa using hright expectedType htype
    · intro entries hentries name hentry
      rw [hnames, Option.isSome_iff_ne_none]
      exact hpresent entries name hentries hentry

/-- Parameters that are no object pass every check. -/
theorem validate_of_not_object (texts : ValidationTexts)
    (self : ParameterValidator)
    (hschema : ∃ members, schema.val = .object members)
    (hparams : ¬ ∃ members, params.val = .object members) :
    ∃ result, self.validate texts schema params = some result ∧
      result.isValid = true ∧ result.validatedParams = params := by
  have hcoerced : coercedParams texts self schema.val params =
      some (.unchanged params) := by
    unfold coercedParams applyTransformations
    split_ifs
    · split
      · rename_i properties members _ hobject
        exact absurd ⟨members, hobject⟩ hparams
      · rfl
    · rfl
  refine ⟨checked schema.val (.unchanged params), ?_, ?_, rfl⟩
  · rw [validate_of_object hschema, hcoerced]
    rfl
  · rw [isValid_checked_iff]
    constructor
    · unfold validateAgainstSchema
      split
      · rename_i properties members _ hobject
        exact absurd ⟨members, hobject⟩ hparams
      · rfl
    · unfold checkRequiredFields
      split
      · rename_i entries members _ hobject
        exact absurd ⟨members, hobject⟩ hparams
      · rfl

/-- A valid result on an object conforms to the schema. -/
theorem conformsTo_of_valid {result : ValidationResult}
    (hschema : ∃ members, schema.val = .object members)
    (hparams : ∃ members, params.val = .object members)
    (hresult : self.validate texts schema params = some result)
    (hvalid : result.isValid = true) :
    ConformsTo schema.val result.validatedParams.val := by
  rw [validate_of_object hschema, Option.map_eq_some_iff] at hresult
  obtain ⟨coerced, hcoerced, rfl⟩ := hresult
  obtain ⟨hobject, _, _⟩ := coercedParams_eq_some hparams hcoerced
  rw [isValid_checked_iff_of_object hobject] at hvalid
  obtain ⟨htypes, hrequired⟩ := hvalid
  refine ⟨hobject, ?_, ?_⟩
  · intro entries hentries name hentry
    change (coerced.value.val.get name).isSome = true
    rw [← OrderedValue.map_val_get, Option.isSome_map]
    exact hrequired entries hentries name hentry
  · intro declared hdeclared name fieldSchema hfield type htype paramValue
      hparam
    change coerced.value.val.get name = some paramValue at hparam
    rw [← OrderedValue.map_val_get, Option.map_eq_some_iff] at hparam
    obtain ⟨value, hvalue, rfl⟩ := hparam
    cases declared with
    | object properties =>
        have hproperties :
            declaredProperties schema.val = some properties := by
          rw [declaredProperties, hdeclared]
        have hproperty : (name, fieldSchema) ∈ properties :=
          (lookup_eq_some_iff_mem (sorted_declaredProperties hproperties)).mp
            hfield
        have hvalid := htypes properties hproperties name fieldSchema
          hproperty value type.name hvalue htype
        exact (validType_iff type value.val).mp hvalid
    | _ => cases hfield

/-- A valid result carries its meaning exactly where the parameters are an
object and, in strict mode, either hold declared members only or are refused
for another reason; schemas that are no objects are always refused. -/
theorem validMeansSound_iff (texts : ValidationTexts)
    (self : ParameterValidator) (schema params : OrderedValue) :
    ValidMeansSound texts self schema params ↔
      (¬ ∃ members, schema.val = .object members) ∨
      ((∃ members, params.val = .object members) ∧
        (self.strictMode = true →
          DeclaredOnly schema.val params.val ∨
            Refuses texts self schema params)) := by
  by_cases hschema : ∃ members, schema.val = .object members
  · constructor
    · intro hsound
      by_cases hparams : ∃ members, params.val = .object members
      · refine Or.inr ⟨hparams, ?_⟩
        intro hstrict
        by_cases hrefuses : Refuses texts self schema params
        · exact Or.inr hrefuses
        · obtain ⟨result, hresult, hvalid⟩ :=
            (exists_valid_iff hschema hparams).mpr hrefuses
          exact Or.inl ((hsound result hresult hvalid).2 hstrict)
      · obtain ⟨result, hresult, hvalid, hsame⟩ :=
          validate_of_not_object texts self hschema hparams
        have hobject := (hsound result hresult hvalid).1.object
        rw [hsame] at hobject
        exact absurd hobject hparams
    · rintro (hnone | ⟨hparams, hstrict⟩) result hresult hvalid
      · exact absurd hschema hnone
      · refine ⟨conformsTo_of_valid hschema hparams hresult hvalid, ?_⟩
        intro hmode
        rcases hstrict hmode with hdeclared | hrefuses
        · exact hdeclared
        · exact absurd hrefuses ((exists_valid_iff hschema hparams).mp
            ⟨result, hresult, hvalid⟩)
  · refine iff_of_true ?_ (Or.inl hschema)
    intro result hresult hvalid
    have hpasses : validateSchemaSyntax schema.val =
        .error (.invalidSchema "Schema must be a JSON object") := by
      unfold validateSchemaSyntax
      split
      · rename_i members hobject
        exact absurd ⟨members, hobject⟩ hschema
      · rfl
    rw [validate, hpasses, Option.some.injEq] at hresult
    rw [← hresult] at hvalid
    cases hvalid

/-! A schema with a required field, and a schema that declares no fields. -/

def asciiTexts : ValidationTexts where
  lower := ⟨fun char => [char], fun _ => false, fun _ => false⟩
  parseDouble := fun _ => none
  printDouble := fun _ => ""

def urlSchema : OrderedValue where
  val := .object [("required", .array [.str "url"])]
  property := .object (List.pairwise_singleton _ _) (by
    intro member hmember
    rw [List.mem_singleton.mp hmember]
    refine .array ?_
    intro element helement
    rw [List.mem_singleton.mp helement]
    exact .str _)

def closedSchema : OrderedValue where
  val := .object [("properties", .object [])]
  property := .object (List.pairwise_singleton _ _) (by
    intro member hmember
    rw [List.mem_singleton.mp hmember]
    exact .object List.Pairwise.nil (by simp))

def shellParams : OrderedValue where
  val := .object [("shell", .bool true)]
  property := .object (List.pairwise_singleton _ _) (by
    intro member hmember
    rw [List.mem_singleton.mp hmember]
    exact .bool _)

/-- Parameters that are no object pass although a field is required, and an
undeclared member passes in strict mode. -/
theorem validate_accepts_unsound :
    ¬ ValidMeansSound asciiTexts new urlSchema ⟨.null, .null⟩ ∧
    ¬ ValidMeansSound asciiTexts strict closedSchema shellParams := by
  constructor
  · intro hsound
    obtain ⟨members, hobject⟩ := (hsound _ rfl rfl).1.object
    cases hobject
  · intro hsound
    have hdeclared := (hsound _ rfl rfl).2 rfl (.object []) rfl "shell" rfl
    cases hdeclared

end ParameterValidator

end Core
end Acdp
