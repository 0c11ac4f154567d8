import Acdp.CoreValidationOrder

/-!
# Validating what has been validated

Callers validate the same parameters more than once, so a second pass must
find nothing left to correct.  Each coercion leaves a value that no coercion
changes; the one step that can fail is the conversion of a number that is not
finite, which panics.
-/

namespace Acdp
namespace Core

open Json

/-! ## One value -/

section Values

variable {texts : ValidationTexts} {fieldName : String} {fieldSchema : Value}
  {paramValue : OrderedValue} {field : Coerced}

theorem autoFixUrl_of_startsWith {url : String}
    (hurl : Text.startsWith url "http://" = true ∨
      Text.startsWith url "https://" = true) :
    autoFixUrl url = none := by
  rw [autoFixUrl, if_pos]
  rcases hurl with hurl | hurl
  · simp [hurl]
  · simp [hurl]

/-- The text of a URL whose scheme is missing. -/
def UnprefixedUrl (url : String) : Prop :=
  url ≠ "" ∧ Text.startsWith url "http://" = false ∧
    Text.startsWith url "https://" = false ∧
    (Text.startsWith url "localhost" = true ∨
      Text.startsWith url "127.0.0.1" = true ∨
      Text.startsWith url "0.0.0.0" = true ∨
      (Text.contains url "." = true ∧ Text.contains url " " = false))

theorem autoFixUrl_eq_none_iff {url : String} :
    autoFixUrl url = none ↔ ¬ UnprefixedUrl url := by
  unfold autoFixUrl UnprefixedUrl
  split_ifs with hdone hlocal hdomain
  · simp only [Bool.or_eq_true, decide_eq_true_eq] at hdone
    grind
  · simp only [Bool.or_eq_true, decide_eq_true_eq] at hdone hlocal
    grind
  · simp only [Bool.or_eq_true, decide_eq_true_eq] at hdone hlocal
    grind
  · simp only [Bool.or_eq_true, decide_eq_true_eq] at hdone hlocal
    grind

/-- A corrected URL has its scheme. -/
theorem autoFixUrl_fixed {url fixed : String}
    (hfixed : autoFixUrl url = some fixed) : autoFixUrl fixed = none := by
  apply autoFixUrl_of_startsWith
  unfold autoFixUrl at hfixed
  split_ifs at hfixed with hdone hlocal hdomain
  · obtain rfl := Option.some.inj hfixed
    exact Or.inl (by simp)
  · obtain rfl := Option.some.inj hfixed
    exact Or.inr (by simp)

theorem coerceString_again :
    coerceString texts fieldName fieldSchema
        (coerceString texts fieldName fieldSchema paramValue).value =
      .unchanged
        (coerceString texts fieldName fieldSchema paramValue).value := by
  obtain ⟨value, hnormal⟩ := paramValue
  cases value with
  | str url =>
      by_cases hurl : looksLikeUrl texts fieldName fieldSchema = true
      · cases hfixed : autoFixUrl url with
        | none => simp [coerceString, hurl, hfixed, Coerced.unchanged]
        | some fixed =>
            simp [coerceString, hurl, hfixed, autoFixUrl_fixed hfixed]
      · simp [coerceString, hurl, Coerced.unchanged]
  | _ => rfl

theorem coerceNumber_again
    (hfield : coerceNumber texts fieldName paramValue = some field) :
    coerceNumber texts fieldName field.value =
      some (.unchanged field.value) := by
  obtain ⟨value, hnormal⟩ := paramValue
  cases value with
  | str text =>
      cases hparse : texts.parseDouble text with
      | none =>
          simp only [coerceNumber, hparse, Option.some.injEq] at hfield
          rw [← hfield]
          simp [coerceNumber, Coerced.unchanged, hparse]
      | some bits =>
          simp only [coerceNumber, hparse, Option.map_eq_some_iff] at hfield
          obtain ⟨number, _, rfl⟩ := hfield
          rfl
  | _ =>
      obtain rfl := Option.some.inj hfield
      rfl

theorem coerceInteger_again :
    coerceInteger fieldName (coerceInteger fieldName paramValue).value =
      .unchanged (coerceInteger fieldName paramValue).value := by
  obtain ⟨value, hnormal⟩ := paramValue
  cases value with
  | str text =>
      cases hparse : parseI64 text with
      | none => simp [coerceInteger, hparse, Coerced.unchanged]
      | some number => simp [coerceInteger, hparse, numberValue]
  | _ => rfl

theorem coerceBoolean_again :
    coerceBoolean texts fieldName
        (coerceBoolean texts fieldName paramValue).value =
      .unchanged (coerceBoolean texts fieldName paramValue).value := by
  obtain ⟨value, hnormal⟩ := paramValue
  cases value with
  | str text =>
      cases hword : boolOf (texts.lower.toLowercase text) with
      | none => simp [coerceBoolean, hword, Coerced.unchanged]
      | some flag => simp [coerceBoolean, hword]
  | _ => rfl

/-- What the coercion of a value leaves is not coerced again. -/
theorem transformFieldValue_again
    (hfield : transformFieldValue texts fieldName fieldSchema paramValue =
      some field) :
    transformFieldValue texts fieldName fieldSchema field.value =
      some (.unchanged field.value) := by
  unfold transformFieldValue at hfield ⊢
  cases htype : declaredType fieldSchema with
  | none => rfl
  | some expectedType =>
      rw [htype] at hfield
      dsimp only at hfield ⊢
      split_ifs at hfield ⊢ with hstring hnumber hinteger hboolean
      · obtain rfl := Option.some.inj hfield
        rw [coerceString_again]
      · exact coerceNumber_again hfield
      · obtain rfl := Option.some.inj hfield
        rw [coerceInteger_again]
      · obtain rfl := Option.some.inj hfield
        rw [coerceBoolean_again]
      · rfl

/-- The declared type is one of those checked, and the value has it. -/
def HasDeclaredType (fieldSchema value : Value) : Prop :=
  ∃ type : SchemaType, declaredType fieldSchema = some type.name ∧
    HasType type value

/-- A value of the declared type is coerced only where it is a URL without
its scheme. -/
theorem transformFieldValue_of_hasType
    (htype : HasDeclaredType fieldSchema paramValue.val)
    (hurl : ∀ text, paramValue.val = .str text →
      ¬ (looksLikeUrl texts fieldName fieldSchema = true ∧
        UnprefixedUrl text)) :
    transformFieldValue texts fieldName fieldSchema paramValue =
      some (.unchanged paramValue) := by
  obtain ⟨type, hdeclared, htype⟩ := htype
  obtain ⟨value, hnormal⟩ := paramValue
  simp only [transformFieldValue, hdeclared]
  dsimp only at htype hurl
  cases htype with
  | string text =>
      have hkept := hurl text rfl
      simp only [SchemaType.name, if_true, coerceString]
      split_ifs with hlooks
      · have hnone : autoFixUrl text = none :=
          autoFixUrl_eq_none_iff.mpr (fun hfix => hkept ⟨hlooks, hfix⟩)
        simp only [hnone]
      · rfl
  | _ => rfl

/-- The one coercion that panics. -/
theorem transformFieldValue_eq_none_iff :
    transformFieldValue texts fieldName fieldSchema paramValue = none ↔
      declaredType fieldSchema = some "number" ∧
        ∃ text bits, paramValue.val = .str text ∧
          texts.parseDouble text = some bits ∧
          isFiniteDouble bits = false := by
  unfold transformFieldValue
  cases htype : declaredType fieldSchema with
  | none => simp
  | some expectedType =>
      dsimp only
      split_ifs with hstring hnumber hinteger hboolean
      · simp [hstring]
      · obtain ⟨value, hnormal⟩ := paramValue
        cases value with
        | str text =>
            cases hparse : texts.parseDouble text with
            | none => simp [coerceNumber, hparse]
            | some bits =>
                simp [coerceNumber, hparse, numberFromF64, hnumber]
        | _ => simp [coerceNumber]
      · simp [hnumber]
      · simp [hnumber]
      · simp [hnumber]

end Values

/-! ## The loop over the properties -/

theorem transformFields_unchanged {texts : ValidationTexts}
    {properties : List (String × Value)} {result : Coerced}
    (hkept : ∀ name fieldSchema, (name, fieldSchema) ∈ properties →
      ∀ paramValue, result.value.get name = some paramValue →
        transformFieldValue texts name fieldSchema paramValue =
          some (.unchanged paramValue)) :
    transformFields texts properties result = some result := by
  induction properties with
  | nil => rfl
  | cons property rest ih =>
      obtain ⟨fieldName, fieldSchema⟩ := property
      have hrest := ih (fun name schema hlater =>
        hkept name schema (List.mem_cons_of_mem _ hlater))
      rw [transformFields]
      cases hmember : result.value.get fieldName with
      | none => exact hrest
      | some paramValue =>
          have hfield :=
            hkept fieldName fieldSchema List.mem_cons_self paramValue hmember
          simp only [hfield, Option.bind_eq_bind, Option.bind_some,
            Coerced.unchanged, OrderedValue.insertField_get hmember,
            Option.getD_some, List.append_nil]
          exact hrest

namespace ParameterValidator

variable {texts : ValidationTexts} {self : ParameterValidator}
  {schema params : OrderedValue}

theorem applyTransformations_of_not_object {schema : Value}
    (hparams : ¬ ∃ members, params.val = .object members) :
    applyTransformations texts schema params = some (.unchanged params) := by
  unfold applyTransformations
  split
  · rename_i properties members _ hobject
    exact absurd ⟨members, hobject⟩ hparams
  · rfl

/-- What is left after one pass, the next pass leaves as it is. -/
theorem coercedParams_again {coerced : Coerced}
    (hcoerced : coercedParams texts self schema.val params = some coerced) :
    coercedParams texts self schema.val coerced.value =
      some (.unchanged coerced.value) := by
  unfold coercedParams at hcoerced ⊢
  split_ifs at hcoerced ⊢ with hauto
  · by_cases hparams : ∃ members, params.val = .object members
    · rw [applyTransformations_of_object hparams] at hcoerced
      cases hproperties : declaredProperties schema.val with
      | none =>
          rw [hproperties] at hcoerced
          obtain rfl := Option.some.inj hcoerced
          rw [Coerced.unchanged, applyTransformations_of_object hparams,
            hproperties]
          rfl
      | some properties =>
          rw [hproperties] at hcoerced
          have hsorted := sorted_declaredProperties hproperties
          have hget := (get_transformFields hsorted hcoerced).2
          rw [applyTransformations_of_object
            (exists_object_of_transformFields hparams hcoerced), hproperties]
          apply transformFields_unchanged
          intro name fieldSchema hproperty paramValue hparam
          change coerced.value.get name = some paramValue at hparam
          rw [hget name fieldSchema hproperty, Option.bind_eq_some_iff]
            at hparam
          obtain ⟨original, _, hvalue⟩ := hparam
          obtain ⟨field, hfield, rfl⟩ := Option.map_eq_some_iff.mp hvalue
          exact transformFieldValue_again hfield
    · rw [applyTransformations_of_not_object hparams] at hcoerced
      obtain rfl := Option.some.inj hcoerced
      exact applyTransformations_of_not_object hparams
  · obtain rfl := Option.some.inj hcoerced
    rfl

/-! ## Numbers that are not finite -/

/-- A member that is declared a number is the text of one that is not
finite. -/
def MeetsNonFinite (texts : ValidationTexts) (schema params : OrderedValue) :
    Prop :=
  ∃ properties name fieldSchema paramValue text bits,
    declaredProperties schema.val = some properties ∧
    (name, fieldSchema) ∈ properties ∧
    declaredType fieldSchema = some "number" ∧
    params.get name = some paramValue ∧ paramValue.val = .str text ∧
    texts.parseDouble text = some bits ∧ isFiniteDouble bits = false

theorem exists_coercedParams_iff :
    (∃ coerced, coercedParams texts self schema.val params = some coerced) ↔
      (self.autoTransform = true → ¬ MeetsNonFinite texts schema params) := by
  by_cases hauto : self.autoTransform = true
  · by_cases hparams : ∃ members, params.val = .object members
    · rw [coercedParams_isSome_iff hparams]
      simp only [coercedField_of_auto texts hauto, ne_eq,
        Option.map_eq_none_iff, transformFieldValue_eq_none_iff, hauto,
        forall_const]
      constructor
      · rintro hall ⟨properties, name, fieldSchema, paramValue, text, bits,
          hproperties, hproperty, htype, hparam, htext, hparse, hfinite⟩
        exact hall properties hproperties name fieldSchema hproperty
          paramValue hparam ⟨htype, text, bits, htext, hparse, hfinite⟩
      · rintro hnever properties hproperties name fieldSchema hproperty
          paramValue hparam ⟨htype, text, bits, htext, hparse, hfinite⟩
        exact hnever ⟨properties, name, fieldSchema, paramValue, text, bits,
          hproperties, hproperty, htype, hparam, htext, hparse, hfinite⟩
    · apply iff_of_true
      · refine ⟨.unchanged params, ?_⟩
        rw [coercedParams, if_pos hauto,
          applyTransformations_of_not_object hparams]
      · rintro - ⟨_, _, _, _, _, _, _, _, _, hparam, _⟩
        exact hparams (OrderedValue.exists_object_of_get hparam)
  · refine iff_of_true ⟨.unchanged params, ?_⟩
      (fun htrue => absurd htrue hauto)
    rw [coercedParams, if_neg hauto]

theorem declaredProperties_of_not_object {value : Value}
    (hvalue : ¬ ∃ members, value = .object members) :
    declaredProperties value = none := by
  cases value with
  | object members => exact absurd ⟨members, rfl⟩ hvalue
  | _ => rfl

theorem validate_of_schema_not_object
    (hschema : ¬ ∃ members, schema.val = .object members) :
    self.validate texts schema params = some
      ⟨false, [.invalidSchema "Schema must be a JSON object"], [], params,
        []⟩ := by
  have hrefused : validateSchemaSyntax schema.val =
      .error (.invalidSchema "Schema must be a JSON object") := by
    cases hvalue : schema.val with
    | object members => exact absurd ⟨members, hvalue⟩ hschema
    | _ => rfl
  rw [validate, hrefused]

/-- Validation returns a result exactly when coercion is off or meets no
number that is not finite. -/
theorem validate_returns_iff (texts : ValidationTexts)
    (self : ParameterValidator) (schema params : OrderedValue) :
    (∃ result, self.validate texts schema params = some result) ↔
      (self.autoTransform = true → ¬ MeetsNonFinite texts schema params) := by
  by_cases hschema : ∃ members, schema.val = .object members
  · rw [validate_of_object hschema, ← exists_coercedParams_iff]
    simp only [Option.map_eq_some_iff]
    constructor
    · rintro ⟨result, coerced, hcoerced, _⟩
      exact ⟨coerced, hcoerced⟩
    · rintro ⟨coerced, hcoerced⟩
      exact ⟨_, coerced, hcoerced, rfl⟩
  · apply iff_of_true ⟨_, validate_of_schema_not_object hschema⟩
    rintro - ⟨properties, _, _, _, _, _, hproperties, _⟩
    rw [declaredProperties_of_not_object hschema] at hproperties
    cases hproperties

/-- A parser that knows the infinite numbers by their usual name. -/
def infinityTexts : ValidationTexts where
  lower := ⟨fun char => [char], fun _ => false, fun _ => false⟩
  parseDouble := fun text =>
    if text = "inf" then some 0x7FF0000000000000 else none
  printDouble := fun _ => "inf"

/-- A schema with one property and its type. -/
def propertySchema (fieldName type : String) : OrderedValue where
  val := .object [("properties",
    .object [(fieldName, .object [("type", .str type)])])]
  property := .object (List.pairwise_singleton _ _) (by
    intro member hmember
    rw [List.mem_singleton.mp hmember]
    refine .object (List.pairwise_singleton _ _) ?_
    intro field hfield
    rw [List.mem_singleton.mp hfield]
    refine .object (List.pairwise_singleton _ _) ?_
    intro clause hclause
    rw [List.mem_singleton.mp hclause]
    exact .str type)

def textParams (fieldName text : String) : OrderedValue where
  val := .object [(fieldName, .str text)]
  property := .object (List.pairwise_singleton _ _) (by
    intro member hmember
    rw [List.mem_singleton.mp hmember]
    exact .str text)

theorem validate_panics_at_infinity :
    ¬ ∃ result, new.validate infinityTexts
      (propertySchema "limit" "number") (textParams "limit" "inf") =
        some result := by
  rintro ⟨result, hresult⟩
  cases hresult

/-! ## A second pass, and what a pass may change -/

/-- A second pass finds nothing left to correct and judges alike; the first
keeps the names of the members, and every member that is not declared, or has
its type already and is no URL without a scheme. -/
structure StableAndLocal (texts : ValidationTexts) (self : ParameterValidator)
    (schema params : OrderedValue) (result : ValidationResult) : Prop where
  again : ∃ second,
    self.validate texts schema result.validatedParams = some second ∧
      second.validatedParams = result.validatedParams ∧
      second.transformations = [] ∧ second.isValid = result.isValid
  names : ∀ name, (result.validatedParams.get name).isSome =
    (params.get name).isSome
  kept : ∀ name paramValue, params.get name = some paramValue →
    (∀ properties fieldSchema,
      declaredProperties schema.val = some properties →
      (name, fieldSchema) ∈ properties →
        HasDeclaredType fieldSchema paramValue.val ∧
        ∀ text, paramValue.val = .str text →
          ¬ (looksLikeUrl texts name fieldSchema = true ∧
            UnprefixedUrl text)) →
    result.validatedParams.get name = some paramValue
  others : (¬ ∃ members, params.val = .object members) →
    result.validatedParams = params

theorem stableAndLocal_of_schema_not_object
    (hschema : ¬ ∃ members, schema.val = .object members)
    {result : ValidationResult}
    (hresult : self.validate texts schema params = some result) :
    StableAndLocal texts self schema params result := by
  rw [validate_of_schema_not_object hschema] at hresult
  obtain rfl := Option.some.inj hresult
  exact
    { again := ⟨_, validate_of_schema_not_object hschema, rfl, rfl, rfl⟩
      names := fun _ => rfl
      kept := fun _ _ hparam _ => hparam
      others := fun _ => rfl }

theorem get_kept {coerced : Coerced} {name : String}
    {paramValue : OrderedValue}
    (hcoerced : coercedParams texts self schema.val params = some coerced)
    (hparam : params.get name = some paramValue)
    (hkept : ∀ properties fieldSchema,
      declaredProperties schema.val = some properties →
      (name, fieldSchema) ∈ properties →
        coercedField texts self name fieldSchema paramValue =
          some paramValue) :
    coerced.value.get name = some paramValue := by
  have hparams := OrderedValue.exists_object_of_get hparam
  by_cases hdeclared : ∃ properties fieldSchema,
      declaredProperties schema.val = some properties ∧
        (name, fieldSchema) ∈ properties
  · obtain ⟨properties, fieldSchema, hproperties, hproperty⟩ := hdeclared
    rw [(coercedParams_eq_some hparams hcoerced).2.2 properties hproperties
      name fieldSchema hproperty, hparam, Option.bind_some]
    exact hkept properties fieldSchema hproperties hproperty
  · push Not at hdeclared
    unfold coercedParams at hcoerced
    split_ifs at hcoerced with hauto
    · rw [applyTransformations_of_object hparams] at hcoerced
      cases hproperties : declaredProperties schema.val with
      | none =>
          rw [hproperties] at hcoerced
          obtain rfl := Option.some.inj hcoerced
          exact hparam
      | some properties =>
          rw [hproperties] at hcoerced
          rw [(get_transformFields (sorted_declaredProperties hproperties)
            hcoerced).1 name]
          · exact hparam
          · rintro ⟨other, fieldSchema⟩ hproperty rfl
            exact hdeclared properties fieldSchema hproperties hproperty
    · obtain rfl := Option.some.inj hcoerced
      exact hparam

theorem coercedField_of_hasType {name : String} {fieldSchema : Value}
    {paramValue : OrderedValue}
    (htype : HasDeclaredType fieldSchema paramValue.val)
    (hurl : ∀ text, paramValue.val = .str text →
      ¬ (looksLikeUrl texts name fieldSchema = true ∧ UnprefixedUrl text)) :
    coercedField texts self name fieldSchema paramValue =
      some paramValue := by
  unfold coercedField
  split_ifs
  · rw [transformFieldValue_of_hasType htype hurl]
    rfl
  · rfl

theorem coercedParams_of_not_object {coerced : Coerced}
    (hcoerced : coercedParams texts self schema.val params = some coerced)
    (hparams : ¬ ∃ members, params.val = .object members) :
    coerced = .unchanged params := by
  unfold coercedParams at hcoerced
  rw [applyTransformations_of_not_object hparams, ite_self] at hcoerced
  exact (Option.some.inj hcoerced).symm

theorem stableAndLocal_of_result {result : ValidationResult}
    (hresult : self.validate texts schema params = some result) :
    StableAndLocal texts self schema params result := by
  by_cases hschema : ∃ members, schema.val = .object members
  · rw [validate_of_object hschema, Option.map_eq_some_iff] at hresult
    obtain ⟨coerced, hcoerced, rfl⟩ := hresult
    refine ⟨⟨checked schema.val (.unchanged coerced.value), ?_, rfl, rfl,
      rfl⟩, ?_, ?_, ?_⟩
    · rw [validate_of_object hschema]
      change (coercedParams texts self schema.val coerced.value).map _ = _
      rw [coercedParams_again hcoerced]
      rfl
    · intro name
      by_cases hparams : ∃ members, params.val = .object members
      · exact (coercedParams_eq_some hparams hcoerced).2.1 name
      · rw [coercedParams_of_not_object hcoerced hparams]
        rfl
    · intro name paramValue hparam hkept
      apply get_kept hcoerced hparam
      intro properties fieldSchema hproperties hproperty
      obtain ⟨htype, hurl⟩ :=
        hkept properties fieldSchema hproperties hproperty
      exact coercedField_of_hasType htype hurl
    · intro hparams
      rw [coercedParams_of_not_object hcoerced hparams]
      rfl
  · exact stableAndLocal_of_schema_not_object hschema hresult

/-! ## Strict and relaxed validation -/

theorem validatedParams_of_not_auto (hauto : self.autoTransform = false)
    {result : ValidationResult}
    (hresult : self.validate texts schema params = some result) :
    result.validatedParams = params := by
  by_cases hschema : ∃ members, schema.val = .object members
  · rw [validate_of_object hschema, coercedParams, if_neg (by simp [hauto])]
      at hresult
    obtain rfl := Option.some.inj hresult
    rfl
  · rw [validate_of_schema_not_object hschema] at hresult
    obtain rfl := Option.some.inj hresult
    rfl

/-- A value that passes the check of its type also passes it after the
coercion, which does not panic. -/
theorem validType_of_coercion {name : String} {fieldSchema : Value}
    {paramValue : OrderedValue} {expectedType : String}
    (htype : declaredType fieldSchema = some expectedType)
    (hvalid : validType expectedType paramValue.val = true) :
    ∃ field, transformFieldValue texts name fieldSchema paramValue =
        some field ∧
      validType expectedType field.value.val = true := by
  obtain ⟨value, hnormal⟩ := paramValue
  unfold transformFieldValue
  rw [htype]
  dsimp only
  cases value with
  | str text =>
      split_ifs with hstring hnumber hinteger hboolean
      · refine ⟨_, rfl, ?_⟩
        unfold coerceString
        dsimp only
        split_ifs
        · cases autoFixUrl text with
          | none => exact hvalid
          | some fixed => simp [hstring, validType, typeName]
        · exact hvalid
      · simp [hnumber, validType, typeName] at hvalid
      · simp [hinteger, validType, typeName] at hvalid
      · simp [hboolean, validType, typeName] at hvalid
      · exact ⟨_, rfl, hvalid⟩
  | _ => split_ifs <;> exact ⟨_, rfl, hvalid⟩

theorem not_refuses_new (hstrict : ¬ Refuses texts strict schema params) :
    ¬ Refuses texts new schema params := by
  rintro (hrequired | ⟨properties, name, fieldSchema, paramValue,
    hproperties, hproperty, hparam, hrefused⟩)
  · exact hstrict (Or.inl hrequired)
  · apply hstrict
    refine Or.inr ⟨properties, name, fieldSchema, paramValue, hproperties,
      hproperty, hparam, ?_⟩
    intro value hvalue
    obtain rfl : paramValue = value := Option.some.inj hvalue
    by_contra hpasses
    push Not at hpasses
    cases htype : declaredType fieldSchema with
    | none =>
        have hkept : coercedField texts new name fieldSchema paramValue =
            some paramValue := by
          simp [coercedField, new, transformFieldValue, htype,
            Coerced.unchanged]
        obtain ⟨expectedType, hother, _⟩ := hrefused paramValue hkept
        rw [htype] at hother
        cases hother
    | some expectedType =>
        have hvalid : validType expectedType paramValue.val = true := by
          simpa using hpasses expectedType htype
        obtain ⟨field, hfield, hright⟩ :
            ∃ field, transformFieldValue texts name fieldSchema paramValue =
                some field ∧
              validType expectedType field.value.val = true :=
          validType_of_coercion htype hvalid
        have hcoerced : coercedField texts new name fieldSchema paramValue =
            some field.value := by
          simp [coercedField, new, hfield]
        obtain ⟨other, hother, hwrong⟩ := hrefused field.value hcoerced
        obtain rfl : expectedType = other :=
          Option.some.inj (htype.symm.trans hother)
        rw [hright] at hwrong
        cases hwrong

theorem valid_new_of_valid_strict {result : ValidationResult}
    (hresult : strict.validate texts schema params = some result)
    (hvalid : result.isValid = true) :
    ∃ relaxed, new.validate texts schema params = some relaxed ∧
      relaxed.isValid = true := by
  by_cases hschema : ∃ members, schema.val = .object members
  · by_cases hparams : ∃ members, params.val = .object members
    · rw [exists_valid_iff hschema hparams]
      exact not_refuses_new
        ((exists_valid_iff hschema hparams).mp ⟨result, hresult, hvalid⟩)
    · obtain ⟨relaxed, hrelaxed, hpasses, _⟩ :=
        validate_of_not_object texts new hschema hparams
      exact ⟨relaxed, hrelaxed, hpasses⟩
  · rw [validate_of_schema_not_object hschema] at hresult
    obtain rfl := Option.some.inj hresult
    cases hvalid

/-! ## The whole validator -/

/-- Where coercion meets no number that is not finite it is stable and local.
In whatever order the members stand, the loops make the same of them and of
their validity, and what they make of sorted ones stands for all; without
coercion the parameters stay as they are, and coercion makes no valid
parameters invalid. -/
theorem validation_is_stable_and_local (texts : ValidationTexts) :
    (∀ (self : ParameterValidator) (schema params : OrderedValue),
      self.autoTransform = true → ¬ MeetsNonFinite texts schema params →
        ∃ result, self.validate texts schema params = some result ∧
          StableAndLocal texts self schema params result) ∧
    (∀ (self : ParameterValidator) schema otherSchema params otherParams,
      Value.Reordered schema otherSchema →
      Value.Reordered params otherParams →
        Option.Rel ValidationInOrder.Agrees
          (self.validateInOrder texts schema params)
          (self.validateInOrder texts otherSchema otherParams)) ∧
    (∀ (self : ParameterValidator) schema params,
      Value.Reordered schema schema → Value.Reordered params params →
        ∃ orderedSchema orderedParams : OrderedValue,
          schema.Reordered orderedSchema.val ∧
          params.Reordered orderedParams.val ∧
          Option.Rel ValidationInOrder.Agrees
            (self.validateInOrder texts schema params)
            ((self.validate texts orderedSchema orderedParams).map
              ValidationResult.inOrder)) ∧
    (∀ (self : ParameterValidator) (schema params : OrderedValue),
      self.autoTransform = false →
        ∃ result, self.validate texts schema params = some result ∧
          result.validatedParams = params) ∧
    ∀ schema params result,
      strict.validate texts schema params = some result →
      result.isValid = true →
        ∃ relaxed, new.validate texts schema params = some relaxed ∧
          relaxed.isValid = true := by
  refine ⟨?_, ?_, ?_, ?_, ?_⟩
  · intro self schema params _ hfinite
    obtain ⟨result, hresult⟩ :=
      (validate_returns_iff texts self schema params).mpr (fun _ => hfinite)
    exact ⟨result, hresult, stableAndLocal_of_result hresult⟩
  · intro self schema otherSchema params otherParams hschema hparams
    exact validateInOrder_rel self hschema hparams
  · intro self schema params hschema hparams
    exact exists_sorted self hschema hparams
  · intro self schema params hauto
    obtain ⟨result, hresult⟩ :=
      (validate_returns_iff texts self schema params).mpr
        (fun htrue => by rw [hauto] at htrue; cases htrue)
    exact ⟨result, hresult, validatedParams_of_not_auto hauto hresult⟩
  · intro schema params result hresult hvalid
    exact valid_new_of_valid_strict hresult hvalid

theorem validation_of_age :
    ∃ result, new.validate infinityTexts (propertySchema "age" "integer")
        (textParams "age" "42") = some result ∧
      StableAndLocal infinityTexts new (propertySchema "age" "integer")
        (textParams "age" "42") result := by
  apply (validation_is_stable_and_local infinityTexts).1 new _ _ rfl
  rintro ⟨properties, name, fieldSchema, _, _, _, hproperties, hproperty,
    htype, _⟩
  obtain rfl : [("age", Value.object [("type", .str "integer")])] =
      properties := Option.some.inj hproperties
  obtain ⟨rfl, rfl⟩ := Prod.mk.inj (List.mem_singleton.mp hproperty)
  have hnames : "integer" = "number" := Option.some.inj htype
  exact absurd hnames (by decide)

end ParameterValidator

end Core
end Acdp
