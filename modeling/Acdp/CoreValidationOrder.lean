import Acdp.CoreValidationSoundness
import Acdp.JsonEquivalence

/-!
# Validation in the order of the members

A map keeps its members in the order of the document it was read from, and
both loops over the declared properties follow the order of the schema.  The
property met first decides which error is reported and the log follows the
loop, but a turn touches one member only and no name repeats, so what becomes
of the parameters, and whether they are valid, is the same in every order.
On maps that are sorted by name the validator is the one of the other modules.
-/

namespace Acdp
namespace Core

open Json

/-! ## The loops in the order of the maps -/

/-- The result of a validation, its maps in the order they came in. -/
structure ValidationInOrder where
  isValid : Bool
  errors : List ValidationError
  warnings : List String
  validatedParams : Value
  transformations : List String

def ValidationResult.inOrder (result : ValidationResult) :
    ValidationInOrder where
  isValid := result.isValid
  errors := result.errors
  warnings := result.warnings
  validatedParams := result.validatedParams.val
  transformations := result.transformations

/-- `transform_field_value`: only texts are ever coerced. -/
def coerceInOrder (texts : ValidationTexts) (fieldName : String)
    (fieldSchema : Value) : Value → Option (Value × List String)
  | .str text =>
      (transformFieldValue texts fieldName fieldSchema
          ⟨.str text, .str text⟩).map
        (fun field => (field.value.val, field.transformations))
  | paramValue => some (paramValue, [])

/-- `*param_value = value` at the place that `get_mut` has found. -/
def replaceMember (name : String) (value : Value) :
    List (String × Value) → List (String × Value)
  | [] => []
  | (key, old) :: rest =>
      if name = key then (key, value) :: rest
      else (key, old) :: replaceMember name value rest

/-- The loop over the declared properties. -/
def transformInOrder (texts : ValidationTexts) :
    List (String × Value) → List (String × Value) → List String →
      Option (List (String × Value) × List String)
  | [], members, log => some (members, log)
  | (fieldName, fieldSchema) :: rest, members, log =>
      match members.lookup fieldName with
      | none => transformInOrder texts rest members log
      | some paramValue => do
          let field ← coerceInOrder texts fieldName fieldSchema paramValue
          transformInOrder texts rest
            (replaceMember fieldName field.1 members) (log ++ field.2)

def applyInOrder (texts : ValidationTexts) (schema params : Value) :
    Option (Value × List String) :=
  match declaredProperties schema, params with
  | some properties, .object members =>
      (transformInOrder texts properties members []).map
        (fun result => (.object result.1, result.2))
  | _, _ => some (params, [])

namespace ParameterValidator

def checkedInOrder (schema : Value) (coerced : Value × List String) :
    ValidationInOrder :=
  let errors :=
    [validateAgainstSchema schema coerced.1,
      checkRequiredFields schema coerced.1].filterMap
      (fun outcome => match outcome with
        | .ok () => none
        | .error e => some e)
  ⟨errors.isEmpty, errors, [], coerced.1, coerced.2⟩

/-- `validate` on maps in any order; `none` is a panic. -/
def validateInOrder (texts : ValidationTexts) (self : ParameterValidator)
    (schema params : Value) : Option ValidationInOrder :=
  match validateSchemaSyntax schema with
  | .error e => some ⟨false, [e], [], params, []⟩
  | .ok () =>
      if self.autoTransform then
        (applyInOrder texts schema params).map (checkedInOrder schema)
      else some (checkedInOrder schema (params, []))

end ParameterValidator

/-! ## One turn -/

section Turns

variable {texts : ValidationTexts}

theorem names_replaceMember (name : String) (value : Value)
    (members : List (String × Value)) :
    (replaceMember name value members).map Prod.fst =
      members.map Prod.fst := by
  induction members with
  | nil => rfl
  | cons member rest ih =>
      obtain ⟨key, old⟩ := member
      rw [replaceMember]
      split_ifs
      · rfl
      · rw [List.map_cons, List.map_cons, ih]

theorem lookup_replaceMember (key name : String) (value : Value)
    (members : List (String × Value)) :
    (replaceMember key value members).lookup name =
      if name = key then (members.lookup key).map (fun _ => value)
      else members.lookup name := by
  induction members with
  | nil => simp [replaceMember]
  | cons member rest ih =>
      obtain ⟨other, old⟩ := member
      rw [replaceMember]
      by_cases hkey : key = other
      · subst hkey
        rw [if_pos rfl, lookup_cons_eq_if, lookup_cons_eq_if,
          lookup_cons_eq_if, if_pos rfl]
        split_ifs
        · rfl
        · rfl
      · rw [if_neg hkey, lookup_cons_eq_if, ih, lookup_cons_eq_if,
          lookup_cons_eq_if, if_neg hkey]
        by_cases hname : name = key
        · have hother : name ≠ other := hname ▸ hkey
          rw [if_neg hother, if_pos hname, if_pos hname]
        · rw [if_neg hname, if_neg hname]

theorem asStr_eq_of_reordered {value other : Value}
    (hreordered : value.Reordered other) : value.asStr = other.asStr := by
  cases hreordered <;> rfl

theorem textOf_eq_of_reordered {value other : Value}
    (hreordered : value.Reordered other) (name : String) :
    (value.get name).bind Value.asStr = (other.get name).bind Value.asStr := by
  apply bind_eq_of_rel (hreordered.get name)
  intro found another hsame
  exact asStr_eq_of_reordered hsame

/-- The schema of a field is asked for its type and its description only. -/
theorem transformFieldValue_eq_of_reordered {fieldSchema other : Value}
    (hreordered : fieldSchema.Reordered other) (fieldName : String)
    (paramValue : OrderedValue) :
    transformFieldValue texts fieldName fieldSchema paramValue =
      transformFieldValue texts fieldName other paramValue := by
  have htype : declaredType fieldSchema = declaredType other :=
    textOf_eq_of_reordered hreordered "type"
  have hurl : looksLikeUrl texts fieldName fieldSchema =
      looksLikeUrl texts fieldName other := by
    unfold looksLikeUrl
    rw [textOf_eq_of_reordered hreordered "description"]
  unfold transformFieldValue coerceString
  rw [htype, hurl]

end Turns

/-! ## The loop of coercions -/

section Loop

variable {texts : ValidationTexts} {properties rest : List (String × Value)}
  {members : List (String × Value)} {name fieldName : String}
  {fieldSchema : Value}

/-- What becomes of a value under the schema of its name; `none` is a
panic. -/
def coercedBy (texts : ValidationTexts) (properties : List (String × Value))
    (name : String) (value : Value) : Option Value :=
  match properties.lookup name with
  | none => some value
  | some fieldSchema =>
      (coerceInOrder texts name fieldSchema value).map Prod.fst

/-- What becomes of the member of a name. -/
def memberAfter (texts : ValidationTexts)
    (properties members : List (String × Value)) (name : String) :
    Option Value :=
  (members.lookup name).bind (coercedBy texts properties name)

theorem coercedBy_of_absent (habsent : name ∉ properties.map Prod.fst)
    (value : Value) : coercedBy texts properties name value = some value := by
  have hnone : properties.lookup name = none := by
    rw [← Option.not_isSome_iff_eq_none, isSome_lookup_iff]
    exact habsent
  rw [coercedBy, hnone]

theorem memberAfter_of_ne (hname : name ≠ fieldName) :
    memberAfter texts ((fieldName, fieldSchema) :: rest) members name =
      memberAfter texts rest members name := by
  unfold memberAfter coercedBy
  rw [lookup_cons_eq_if, if_neg hname]

theorem memberAfter_self :
    memberAfter texts ((fieldName, fieldSchema) :: rest) members fieldName =
      (members.lookup fieldName).bind (fun value =>
        (coerceInOrder texts fieldName fieldSchema value).map Prod.fst) := by
  unfold memberAfter coercedBy
  rw [lookup_cons_eq_if, if_pos rfl]

/-- A property without a member changes nothing. -/
theorem memberAfter_skip (hmember : members.lookup fieldName = none)
    (name : String) :
    memberAfter texts ((fieldName, fieldSchema) :: rest) members name =
      memberAfter texts rest members name := by
  by_cases hname : name = fieldName
  · rw [hname, memberAfter_self, memberAfter, hmember]
    rfl
  · exact memberAfter_of_ne hname

/-- The turn of a property does all that is done for its name. -/
theorem memberAfter_turn (habsent : fieldName ∉ rest.map Prod.fst)
    {paramValue : Value} (hmember : members.lookup fieldName = some paramValue)
    {field : Value × List String}
    (hfield : coerceInOrder texts fieldName fieldSchema paramValue =
      some field) (name : String) :
    memberAfter texts ((fieldName, fieldSchema) :: rest) members name =
      memberAfter texts rest (replaceMember fieldName field.1 members)
        name := by
  by_cases hname : name = fieldName
  · subst hname
    rw [memberAfter_self, memberAfter, lookup_replaceMember, if_pos rfl,
      hmember, Option.map_some, Option.bind_some, Option.bind_some, hfield,
      coercedBy_of_absent habsent]
    rfl
  · rw [memberAfter_of_ne hname, memberAfter, memberAfter,
      lookup_replaceMember, if_neg hname]

/-- The loop turns every member into what becomes of it, at its place, and
panics where one of them does. -/
theorem transformInOrder_spec (texts : ValidationTexts)
    (hdistinct : (properties.map Prod.fst).Nodup) (members : List (String × Value)) (log : List String) :
    (transformInOrder texts properties members log = none ↔
      ∃ name ∈ members.map Prod.fst,
        memberAfter texts properties members name = none) ∧
    ∀ result, transformInOrder texts properties members log = some result →
      result.1.map Prod.fst = members.map Prod.fst ∧
        ∀ name, result.1.lookup name =
          memberAfter texts properties members name := by
  induction properties generalizing members log with
  | nil =>
      have hkept : ∀ name, memberAfter texts [] members name =
          members.lookup name := by
        intro name
        exact Option.bind_fun_some _
      constructor
      · simp [transformInOrder, hkept, ← Option.not_isSome_iff_eq_none]
      · rintro result hrun
        obtain rfl := Option.some.inj hrun
        exact ⟨rfl, fun name => (hkept name).symm⟩
  | cons property rest ih =>
      obtain ⟨fieldName, fieldSchema⟩ := property
      rw [List.map_cons, List.nodup_cons] at hdistinct
      obtain ⟨habsent, hrest⟩ := hdistinct
      rw [transformInOrder]
      cases hmember : members.lookup fieldName with
      | none =>
          simp only [memberAfter_skip hmember]
          exact ih hrest members log
      | some paramValue =>
          cases hfield : coerceInOrder texts fieldName fieldSchema
              paramValue with
          | none =>
              have hpanics : memberAfter texts
                  ((fieldName, fieldSchema) :: rest) members fieldName =
                    none := by
                rw [memberAfter_self, hmember, Option.bind_some, hfield]
                rfl
              have hthere : fieldName ∈ members.map Prod.fst := by
                rw [← isSome_lookup_iff, hmember]
                rfl
              simp only [hfield, Option.bind_eq_bind, Option.bind_none]
              exact ⟨iff_of_true trivial ⟨fieldName, hthere, hpanics⟩, by simp⟩
          | some field =>
              simp only [hfield, Option.bind_eq_bind, Option.bind_some,
                memberAfter_turn habsent hmember hfield]
              have hreplaced := ih hrest
                (replaceMember fieldName field.1 members) (log ++ field.2)
              rwa [names_replaceMember] at hreplaced

end Loop

/-! ## Two orders -/

section Orders

variable {texts : ValidationTexts}
  {schema otherSchema params otherParams : Value}
  {properties others members otherMembers : List (String × Value)}

theorem coerceInOrder_rel {fieldSchema otherField value other : Value}
    (hschema : fieldSchema.Reordered otherField)
    (hvalue : value.Reordered other) (fieldName : String) :
    Option.Rel
      (fun field another => Value.Reordered field.1 another.1)
      (coerceInOrder texts fieldName fieldSchema value)
      (coerceInOrder texts fieldName otherField other) := by
  cases hvalue with
  | str text =>
      simp only [coerceInOrder,
        transformFieldValue_eq_of_reordered hschema fieldName]
      cases transformFieldValue texts fieldName otherField
          ⟨.str text, .str text⟩ with
      | none => exact .none
      | some field => exact .some field.value.property.reordered
  | null => exact .some .null
  | bool value => exact .some (.bool value)
  | number value => exact .some (.number value)
  | array hlength helements => exact .some (.array hlength helements)
  | object hdistinct hnames hmembers =>
      exact .some (.object hdistinct hnames hmembers)

theorem coercedBy_rel
    (hproperties : Value.Reordered (.object properties) (.object others))
    (name : String) {value other : Value} (hvalue : value.Reordered other) :
    Option.Rel Value.Reordered (coercedBy texts properties name value)
      (coercedBy texts others name other) := by
  have hdeclared := (Value.reordered_object_iff.mp hproperties).2.2 name
  unfold coercedBy
  revert hdeclared
  generalize properties.lookup name = first
  generalize others.lookup name = second
  intro hdeclared
  cases hdeclared with
  | none => exact .some hvalue
  | some hschema =>
      exact rel_map (coerceInOrder_rel hschema hvalue name)
        (fun _ _ hfield => hfield)

theorem memberAfter_rel
    (hproperties : Value.Reordered (.object properties) (.object others))
    (hmembers : Value.Reordered (.object members) (.object otherMembers))
    (name : String) :
    Option.Rel Value.Reordered (memberAfter texts properties members name)
      (memberAfter texts others otherMembers name) := by
  apply rel_bind ((Value.reordered_object_iff.mp hmembers).2.2 name)
  intro value other hvalue
  exact coercedBy_rel hproperties name hvalue

/-- The loop over reordered properties does the same to reordered members, or
panics as well. -/
theorem transformInOrder_rel
    (hproperties : Value.Reordered (.object properties) (.object others))
    (hmembers : Value.Reordered (.object members) (.object otherMembers))
    (log : List String) :
    Option.Rel
      (fun result other => Value.Reordered (.object result.1) (.object other.1))
      (transformInOrder texts properties members log)
      (transformInOrder texts others otherMembers log) := by
  obtain ⟨hdistinct, hothers, _⟩ := Value.reordered_object_iff.mp hproperties
  have hnames : (members.map Prod.fst).Perm (otherMembers.map Prod.fst) := by
    cases hmembers with
    | object _ hnames _ => exact hnames
  obtain ⟨hmembersDistinct, hothersDistinct, _⟩ :=
    Value.reordered_object_iff.mp hmembers
  obtain ⟨hpanics, hresult⟩ :=
    transformInOrder_spec texts hdistinct members log
  obtain ⟨hotherPanics, hotherResult⟩ :=
    transformInOrder_spec texts hothers otherMembers log
  have hsame : transformInOrder texts properties members log = none ↔
      transformInOrder texts others otherMembers log = none := by
    rw [hpanics, hotherPanics]
    apply exists_congr
    intro name
    rw [hnames.mem_iff, ← Option.not_isSome_iff_eq_none,
      ← Option.not_isSome_iff_eq_none,
      isSome_eq_of_rel (memberAfter_rel hproperties hmembers name)]
  cases hrun : transformInOrder texts properties members log with
  | none =>
      rw [hsame.mp hrun]
      exact .none
  | some result =>
      cases hother : transformInOrder texts others otherMembers log with
      | none =>
          rw [hsame.mpr hother] at hrun
          cases hrun
      | some other =>
          obtain ⟨hkept, hlookup⟩ := hresult result hrun
          obtain ⟨hotherKept, hotherLookup⟩ := hotherResult other hother
          apply Option.Rel.some
          rw [Value.reordered_object_iff, hkept, hotherKept]
          refine ⟨hmembersDistinct, hothersDistinct, fun name => ?_⟩
          rw [hlookup, hotherLookup]
          exact memberAfter_rel hproperties hmembers name

theorem declaredProperties_rel (hschema : schema.Reordered otherSchema) :
    Option.Rel
      (fun properties others =>
        Value.Reordered (.object properties) (.object others))
      (declaredProperties schema) (declaredProperties otherSchema) := by
  have hdeclared := hschema.get "properties"
  unfold declaredProperties
  revert hdeclared
  generalize schema.get "properties" = first
  generalize otherSchema.get "properties" = second
  intro hdeclared
  cases hdeclared with
  | none => exact .none
  | some hvalues =>
      cases hvalues with
      | object hdistinct hnames hmembers =>
          exact .some (.object hdistinct hnames hmembers)
      | _ => exact .none

theorem applyInOrder_rel (hschema : schema.Reordered otherSchema)
    (hparams : params.Reordered otherParams) :
    Option.Rel (fun coerced other => Value.Reordered coerced.1 other.1)
      (applyInOrder texts schema params)
      (applyInOrder texts otherSchema otherParams) := by
  have hdeclared := declaredProperties_rel hschema
  unfold applyInOrder
  revert hdeclared
  generalize declaredProperties schema = first
  generalize declaredProperties otherSchema = second
  intro hdeclared
  cases hdeclared with
  | none => exact .some hparams
  | some hproperties =>
      cases hparams with
      | object hdistinct hnames hmembers =>
          apply rel_map
          · exact transformInOrder_rel hproperties
              (.object hdistinct hnames hmembers) []
          · intro result other hsame
            exact hsame
      | null => exact .some .null
      | bool value => exact .some (.bool value)
      | number value => exact .some (.number value)
      | str text => exact .some (.str text)
      | array hlength helements => exact .some (.array hlength helements)

theorem requiredEntries_rel (hschema : schema.Reordered otherSchema) :
    Option.Rel
      (fun entries others => Value.Reordered (.array entries) (.array others))
      (requiredEntries schema) (requiredEntries otherSchema) := by
  have hrequired := hschema.get "required"
  unfold requiredEntries
  revert hrequired
  generalize schema.get "required" = first
  generalize otherSchema.get "required" = second
  intro hrequired
  cases hrequired with
  | none => exact .none
  | some hvalues =>
      cases hvalues with
      | array hlength helements => exact .some (.array hlength helements)
      | _ => exact .none

/-! ### The checks -/

theorem validType_eq_of_reordered {value other : Value}
    (hvalue : value.Reordered other) (expectedType : String) :
    validType expectedType value = validType expectedType other := by
  cases hvalue <;> rfl

theorem validateAgainstSchema_of_reordered
    (hschema : schema.Reordered otherSchema)
    (hparams : params.Reordered otherParams)
    (hpasses : validateAgainstSchema schema params = .ok ()) :
    validateAgainstSchema otherSchema otherParams = .ok () := by
  cases hparams with
  | object hdistinct hnames hmembers =>
      have hlookup := (Value.reordered_object_iff.mp
        (Value.Reordered.object hdistinct hnames hmembers).symm).2.2
      rw [validateAgainstSchema_eq_ok_iff] at hpasses ⊢
      intro others hothers fieldName otherField hfield otherValue expectedType
        hother htype
      obtain ⟨properties, hproperties, hsame⟩ :=
        exists_of_rel (declaredProperties_rel hschema.symm) hothers
      obtain ⟨hothersDistinct, hpropertiesDistinct, hdeclared⟩ :=
        Value.reordered_object_iff.mp hsame
      obtain ⟨fieldSchema, hlisted, hfields⟩ :=
        exists_of_rel (hdeclared fieldName)
          ((lookup_eq_some_iff_of_distinct hothersDistinct).mpr hfield)
      obtain ⟨paramValue, hparam, hvalues⟩ :=
        exists_of_rel (hlookup fieldName) hother
      rw [validType_eq_of_reordered hvalues]
      apply hpasses properties hproperties fieldName fieldSchema
        ((lookup_eq_some_iff_of_distinct hpropertiesDistinct).mp hlisted)
        paramValue expectedType hparam
      exact (textOf_eq_of_reordered hfields "type").symm.trans htype
  | _ =>
      unfold validateAgainstSchema
      cases declaredProperties otherSchema <;> rfl

theorem checkRequiredFields_of_reordered
    (hschema : schema.Reordered otherSchema)
    (hparams : params.Reordered otherParams)
    (hpasses : checkRequiredFields schema params = .ok ()) :
    checkRequiredFields otherSchema otherParams = .ok () := by
  cases hparams with
  | object hdistinct hnames hmembers =>
      have hlookup := (Value.reordered_object_iff.mp
        (Value.Reordered.object hdistinct hnames hmembers)).2.2
      rw [checkRequiredFields_eq_ok_iff] at hpasses ⊢
      intro others hothers fieldName hfield
      obtain ⟨entries, hentries, hsame⟩ :=
        exists_of_rel (requiredEntries_rel hschema.symm) hothers
      rw [← isSome_eq_of_rel (hlookup fieldName)]
      exact hpasses entries hentries fieldName (hsame.mem_str hfield)
  | _ =>
      unfold checkRequiredFields
      cases requiredEntries otherSchema <;> rfl

end Orders

/-! ### The validator -/

/-- Two results that differ in the order of the members of the parameters,
and perhaps in what they report. -/
structure ValidationInOrder.Agrees (result other : ValidationInOrder) :
    Prop where
  isValid : result.isValid = other.isValid
  validatedParams : result.validatedParams.Reordered other.validatedParams

namespace ParameterValidator

variable {texts : ValidationTexts}
  {schema otherSchema params otherParams : Value}

theorem isValid_checkedInOrder_iff {coerced : Value × List String} :
    (checkedInOrder schema coerced).isValid = true ↔
      validateAgainstSchema schema coerced.1 = .ok () ∧
        checkRequiredFields schema coerced.1 = .ok () := by
  unfold checkedInOrder
  cases validateAgainstSchema schema coerced.1 with
  | ok first =>
      cases checkRequiredFields schema coerced.1 <;> simp
  | error e => simp

theorem checkedInOrder_agrees (hschema : schema.Reordered otherSchema)
    {coerced other : Value × List String}
    (hcoerced : coerced.1.Reordered other.1) :
    (checkedInOrder schema coerced).Agrees
      (checkedInOrder otherSchema other) := by
  refine ⟨?_, hcoerced⟩
  rw [Bool.eq_iff_iff, isValid_checkedInOrder_iff, isValid_checkedInOrder_iff]
  constructor
  · rintro ⟨htypes, hrequired⟩
    exact ⟨validateAgainstSchema_of_reordered hschema hcoerced htypes,
      checkRequiredFields_of_reordered hschema hcoerced hrequired⟩
  · rintro ⟨htypes, hrequired⟩
    exact ⟨validateAgainstSchema_of_reordered hschema.symm hcoerced.symm htypes,
      checkRequiredFields_of_reordered hschema.symm hcoerced.symm hrequired⟩

/-- The order of the members decides neither what becomes of the parameters
nor whether they are valid. -/
theorem validateInOrder_rel (self : ParameterValidator)
    (hschema : schema.Reordered otherSchema)
    (hparams : params.Reordered otherParams) :
    Option.Rel ValidationInOrder.Agrees
      (self.validateInOrder texts schema params)
      (self.validateInOrder texts otherSchema otherParams) := by
  have hobject : validateSchemaSyntax schema =
      validateSchemaSyntax otherSchema := by
    cases hschema <;> rfl
  unfold validateInOrder
  rw [hobject]
  cases validateSchemaSyntax otherSchema with
  | error e => exact .some ⟨rfl, hparams⟩
  | ok passed =>
      dsimp only
      split_ifs
      · exact rel_map (applyInOrder_rel hschema hparams)
          (fun _ _ hcoerced => checkedInOrder_agrees hschema hcoerced)
      · exact .some (checkedInOrder_agrees hschema hparams)

end ParameterValidator

/-! ## Sorted maps -/

section SortedMaps

variable {texts : ValidationTexts}

def Coerced.inOrder (coerced : Coerced) : Value × List String :=
  (coerced.value.val, coerced.transformations)

theorem coerceInOrder_eq (fieldName : String) (fieldSchema : Value)
    (paramValue : OrderedValue) :
    coerceInOrder texts fieldName fieldSchema paramValue.val =
      (transformFieldValue texts fieldName fieldSchema paramValue).map
        Coerced.inOrder := by
  obtain ⟨value, hnormal⟩ := paramValue
  cases value with
  | str text => rfl
  | _ =>
      unfold transformFieldValue
      cases declaredType fieldSchema with
      | none => rfl
      | some expectedType =>
          dsimp only
          split_ifs <;> rfl

theorem insertMember_eq_replaceMember {members : List (String × Value)}
    (hsorted : Sorted members) {name : String} {old : Value}
    (hmember : members.lookup name = some old) (value : Value) :
    insertMember name value members = replaceMember name value members := by
  induction members with
  | nil => cases hmember
  | cons member rest ih =>
      obtain ⟨key, first⟩ := member
      rw [insertMember, replaceMember]
      by_cases hname : name = key
      · subst hname
        rw [if_neg (lt_irrefl _), if_pos rfl, if_pos rfl]
      · rw [lookup_cons_eq_if, if_neg hname] at hmember
        obtain ⟨hless, hrest⟩ := List.pairwise_cons.mp hsorted
        have hlater : ¬ name < key :=
          lt_asymm (hless _ ((lookup_eq_some_iff_mem hrest).mp hmember))
        rw [if_neg hlater, if_neg hname, if_neg hname, ih hrest hmember]

/-- On sorted maps the loop inserts where it replaces. -/
theorem transformInOrder_eq {properties members : List (String × Value)}
    (result : Coerced) (hobject : result.value.val = .object members) :
    (transformInOrder texts properties members result.transformations).map
        (fun final => (Value.object final.1, final.2)) =
      (transformFields texts properties result).map Coerced.inOrder := by
  induction properties generalizing result members with
  | nil =>
      simp only [transformInOrder, transformFields, Option.map_some,
        Coerced.inOrder, hobject]
  | cons property rest ih =>
      obtain ⟨fieldName, fieldSchema⟩ := property
      have hlookup : result.value.val.get fieldName =
          members.lookup fieldName := by
        rw [hobject]
        rfl
      rw [transformInOrder, transformFields]
      cases hmember : result.value.get fieldName with
      | none =>
          rw [OrderedValue.get_eq_none_iff, hlookup] at hmember
          rw [hmember]
          exact ih result hobject
      | some paramValue =>
          rw [OrderedValue.get_eq_some_iff, hlookup] at hmember
          simp only [hmember, coerceInOrder_eq, Option.bind_eq_bind]
          cases hfield : transformFieldValue texts fieldName fieldSchema
              paramValue with
          | none => rfl
          | some field =>
              obtain ⟨updated, hinsert⟩ :=
                OrderedValue.insertField_of_object hobject fieldName
                  field.value
              obtain ⟨before, hbefore, hupdated⟩ :=
                OrderedValue.insertField_eq_some hinsert
              obtain rfl : members = before := by
                rw [hobject, Value.object.injEq] at hbefore
                exact hbefore
              rw [insertMember_eq_replaceMember
                (OrderedValue.sorted_of_object hobject) hmember] at hupdated
              simp only [Option.map_some, Option.bind_some, hinsert,
                Option.getD_some]
              exact ih ⟨updated, _⟩ hupdated

theorem applyInOrder_eq (schema : Value) (params : OrderedValue) :
    applyInOrder texts schema params.val =
      (applyTransformations texts schema params).map Coerced.inOrder := by
  unfold applyInOrder applyTransformations
  cases declaredProperties schema with
  | none => rfl
  | some properties =>
      cases hparams : params.val with
      | object members =>
          exact transformInOrder_eq (.unchanged params) hparams
      | _ =>
          simp only [Option.map_some, Coerced.inOrder, Coerced.unchanged,
            hparams]

/-- On sorted maps the validator is the one that keeps them sorted. -/
theorem ParameterValidator.validateInOrder_eq (self : ParameterValidator)
    (schema params : OrderedValue) :
    self.validateInOrder texts schema.val params.val =
      (self.validate texts schema params).map ValidationResult.inOrder := by
  unfold validateInOrder validate
  cases validateSchemaSyntax schema.val with
  | error e => rfl
  | ok passed =>
      dsimp only
      split_ifs
      · rw [applyInOrder_eq, Option.map_map, Option.map_map]
        rfl
      · rfl

/-- The validator does with any maps what it does with the sorted ones. -/
theorem ParameterValidator.exists_sorted (self : ParameterValidator)
    {schema params : Value} (hschema : schema.Reordered schema)
    (hparams : params.Reordered params) :
    ∃ orderedSchema orderedParams : OrderedValue,
      schema.Reordered orderedSchema.val ∧
      params.Reordered orderedParams.val ∧
      Option.Rel ValidationInOrder.Agrees
        (self.validateInOrder texts schema params)
        ((self.validate texts orderedSchema orderedParams).map
          ValidationResult.inOrder) := by
  obtain ⟨orderedSchema, hsortedSchema, hsameSchema⟩ := hschema.exists_normal
  obtain ⟨orderedParams, hsortedParams, hsameParams⟩ := hparams.exists_normal
  refine ⟨⟨orderedSchema, hsortedSchema⟩, ⟨orderedParams, hsortedParams⟩,
    hsameSchema, hsameParams, ?_⟩
  rw [← validateInOrder_eq]
  exact validateInOrder_rel self hsameSchema hsameParams

end SortedMaps

end Core
end Acdp
