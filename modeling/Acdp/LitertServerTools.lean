import Acdp.CoreValidationSoundness
import Acdp.LitertServer

/-!
# The listed tools and their calls

A call is refused as invalid exactly if it names no listed tool or if its
arguments leave out what the schema of the tool requires, which is looked at
only once the language model is there.  Arguments that pass the strict
validation against the listed schema are never refused.
-/

namespace Acdp
namespace Transport
namespace LitertServer

open Acdp.Core Json

variable {formats : Formats} {llmService : Option LlmService}

/-! ## Errors -/

theorem ofInt_eq_numberOfInt64 (floats : FloatText) (value : Int64) :
    Number.ofInt floats value.toInt =
      some (ProgressToken.numberOfInt64 value) := by
  have hlower := value.le_toInt
  have hupper := value.toInt_lt
  unfold Number.ofInt ProgressToken.numberOfInt64
  by_cases hnegative : value.toInt < 0
  · rw [if_neg (by omega), dif_pos ⟨hlower, hnegative⟩, dif_pos hnegative]
  · rw [if_pos (by omega), dif_neg hnegative]

theorem index_ofMembers {members : List (String × OrderedValue)}
    (hnames : (members.map Prod.fst).Nodup) (name : String) :
    index (.ofMembers members) name =
      (members.lookup name).getD ⟨.null, .null⟩ := by
  rw [index, OrderedValue.get_ofMembers hnames]

@[simp] theorem errorOf_errorValue (code : Int32) (message : String) :
    errorOf (errorValue code message) = ⟨code, message, none⟩ := by
  have hnames : ([("code", OrderedValue.ofNumber
      (ProgressToken.numberOfInt64 code.toInt64)),
      ("message", .ofString message)].map Prod.fst).Nodup := by
    simp
  have hcode : index (errorValue code message) "code" =
      .ofNumber (ProgressToken.numberOfInt64 code.toInt64) :=
    index_ofMembers hnames "code"
  have hmessage : index (errorValue code message) "message" =
      .ofString message :=
    index_ofMembers hnames "message"
  have hread : (ProgressToken.numberOfInt64 code.toInt64).asI64 =
      some code.toInt64 :=
    asI64_ofInt ⟨fun _ => "", fun _ => none⟩ code.toInt64
      (ofInt_eq_numberOfInt64 _ _)
  simp [errorOf, textAt, hcode, hmessage, OrderedValue.ofNumber,
    OrderedValue.ofString, Value.asStr, hread]

/-- The handler fails with the code. -/
def Fails (handled : Handled) (code : Int32) : Prop :=
  ∃ error, handled = .error error ∧ (errorOf error).code = code

@[simp] theorem fails_ok_iff {result : OrderedValue} {code : Int32} :
    Fails (.ok result) code ↔ False := by
  simp [Fails]

@[simp] theorem fails_error_iff {message : String} {code given : Int32} :
    Fails (.error (errorValue given message)) code ↔ given = code := by
  simp [Fails]

/-! ## What a schema requires -/

/-- Every required name leads to a value of the type that is declared for
it. -/
def Supplies (schema : Value) (args : OrderedValue) : Prop :=
  ∀ entries, requiredEntries schema = some entries →
    ∀ name, Value.str name ∈ entries →
      ∃ value, args.get name = some value ∧
        ∀ properties, declaredProperties schema = some properties →
          ∀ fieldSchema, (name, fieldSchema) ∈ properties →
            ∀ type, declaredType fieldSchema = some type →
              validType type value.val = true

/-- What a validator passes supplies what is required. -/
theorem supplies_of_valid {texts : ValidationTexts}
    {validator : ParameterValidator} {schema args : OrderedValue}
    {result : ValidationResult}
    (hschema : ∃ members, schema.val = .object members)
    (hargs : ∃ members, args.val = .object members)
    (hresult : validator.validate texts schema args = some result)
    (hvalid : result.isValid = true) :
    Supplies schema.val result.validatedParams := by
  rw [ParameterValidator.validate_of_object hschema,
    Option.map_eq_some_iff] at hresult
  obtain ⟨coerced, hcoerced, rfl⟩ := hresult
  obtain ⟨hobject, _, _⟩ :=
    ParameterValidator.coercedParams_eq_some hargs hcoerced
  obtain ⟨htypes, hrequired⟩ :=
    (ParameterValidator.isValid_checked_iff_of_object hobject).mp hvalid
  intro entries hentries name hentry
  obtain ⟨value, hvalue⟩ := Option.isSome_iff_exists.mp
    (hrequired entries hentries name hentry)
  refine ⟨value, hvalue, ?_⟩
  intro properties hproperties fieldSchema hproperty type htype
  exact htypes properties hproperties name fieldSchema hproperty value type
    hvalue htype

theorem textAt_eq_none_iff {args : OrderedValue} {name : String} :
    textAt args name = none ↔
      ¬ ∃ value, args.get name = some value ∧
        validType "string" value.val = true := by
  unfold textAt index
  cases args.get name with
  | none => simp [Value.asStr]
  | some value =>
      obtain ⟨val, hnormal⟩ := value
      cases val <;> simp [Value.asStr, validType, typeName]

theorem arrayAt_eq_none_iff {args : OrderedValue} {name : String} :
    (index args name).val.asArray = none ↔
      ¬ ∃ value, args.get name = some value ∧
        validType "array" value.val = true := by
  unfold index
  cases args.get name with
  | none => simp [Value.asArray]
  | some value =>
      obtain ⟨val, hnormal⟩ := value
      cases val <;> simp [Value.asArray, validType, typeName]

/-- A schema that requires names whose declared types are those given. -/
structure Requires (schema : Value) (names : List (String × String)) :
    Prop where
  entries : requiredEntries schema =
    some (names.map (fun required => .str required.1))
  declared : ∀ required ∈ names, ∃ properties fieldSchema,
    declaredProperties schema = some properties ∧ Sorted properties ∧
      (required.1, fieldSchema) ∈ properties ∧
      declaredType fieldSchema = some required.2

theorem Requires.supplies_iff {schema : Value} {args : OrderedValue}
    {names : List (String × String)} (hrequires : Requires schema names) :
    Supplies schema args ↔ ∀ required ∈ names,
      ∃ value, args.get required.1 = some value ∧
        validType required.2 value.val = true := by
  constructor
  · intro hsupplies required hmem
    obtain ⟨value, hvalue, htypes⟩ := hsupplies _ hrequires.entries required.1
      (List.mem_map_of_mem hmem)
    obtain ⟨properties, fieldSchema, hproperties, _, hproperty, htype⟩ :=
      hrequires.declared required hmem
    exact ⟨value, hvalue,
      htypes properties hproperties fieldSchema hproperty _ htype⟩
  · intro hall entries hentries name hentry
    rw [hrequires.entries] at hentries
    rw [← Option.some.inj hentries] at hentry
    obtain ⟨required, hmem, hname⟩ := List.mem_map.mp hentry
    obtain rfl : required.1 = name := Value.str.inj hname
    obtain ⟨value, hvalue, hvalid⟩ := hall required hmem
    refine ⟨value, hvalue, ?_⟩
    intro others hothers fieldSchema hfield type htype
    obtain ⟨properties, declared, hproperties, hsorted, hproperty,
      hdeclared⟩ := hrequires.declared required hmem
    rw [hproperties] at hothers
    obtain rfl := Option.some.inj hothers
    -- A name is declared once.
    have hsame : fieldSchema = declared := by
      have hfirst := (lookup_eq_some_iff_mem hsorted).mpr hfield
      rw [(lookup_eq_some_iff_mem hsorted).mpr hproperty] at hfirst
      exact (Option.some.inj hfirst).symm
    rw [hsame, hdeclared] at htype
    rw [← Option.some.inj htype]
    exact hvalid

theorem requires_textGeneration :
    Requires textGeneration.inputSchema.val [("prompt", "string")] where
  entries := rfl
  declared := by
    intro required hmem
    rw [List.mem_singleton.mp hmem]
    exact ⟨_, _, rfl, sorted_collectMembers _,
      List.mem_of_getElem? (i := 1) rfl, rfl⟩

theorem requires_toolPrediction :
    Requires toolPrediction.inputSchema.val
      [("query", "string"), ("available_tools", "array")] where
  entries := rfl
  declared := by
    intro required hmem
    rcases List.mem_cons.mp hmem with rfl | hrest
    · exact ⟨_, _, rfl, sorted_collectMembers _,
        List.mem_of_getElem? (i := 1) rfl, rfl⟩
    · rw [List.mem_singleton.mp hrest]
      exact ⟨_, _, rfl, sorted_collectMembers _,
        List.mem_of_getElem? (i := 0) rfl, rfl⟩

theorem supplies_of_nothing_required {schema : Value} {args : OrderedValue}
    (hrequired : requiredEntries schema = none) : Supplies schema args := by
  intro entries hentries
  rw [hrequired] at hentries
  cases hentries

theorem supplies_textGeneration_iff {args : OrderedValue} :
    Supplies textGeneration.inputSchema.val args ↔
      textAt args "prompt" ≠ none := by
  rw [requires_textGeneration.supplies_iff, List.forall_mem_singleton, ne_eq,
    textAt_eq_none_iff, not_not]

theorem supplies_toolPrediction_iff {args : OrderedValue} :
    Supplies toolPrediction.inputSchema.val args ↔
      textAt args "query" ≠ none ∧
        (index args "available_tools").val.asArray ≠ none := by
  rw [requires_toolPrediction.supplies_iff, List.forall_mem_cons,
    List.forall_mem_singleton, ne_eq, ne_eq, textAt_eq_none_iff,
    arrayAt_eq_none_iff, not_not, not_not]

/-! ## Calls of listed tools -/

theorem handleTextGeneration_invalid_iff {args : OrderedValue} :
    Fails (handleTextGeneration llmService args) (-32602) ↔
      llmService ≠ none ∧
        ¬ Supplies textGeneration.inputSchema.val args := by
  rw [supplies_textGeneration_iff]
  cases llmService with
  | none =>
      simp [handleTextGeneration, readService, okOr, bind, Except.bind]
  | some service =>
      cases hprompt : textAt args "prompt" with
      | none =>
          simp [handleTextGeneration, readService, okOr, bind, Except.bind,
            hprompt]
      | some prompt =>
          simp only [handleTextGeneration, readService, okOr, bind,
            Except.bind, hprompt]
          cases service.startGeneration _ <;> simp

theorem handleToolPrediction_invalid_iff {args : OrderedValue} :
    Fails (handleToolPrediction formats llmService args) (-32602) ↔
      llmService ≠ none ∧
        ¬ Supplies toolPrediction.inputSchema.val args := by
  rw [supplies_toolPrediction_iff]
  cases llmService with
  | none =>
      simp [handleToolPrediction, readService, okOr, bind, Except.bind]
  | some service =>
      cases hquery : textAt args "query" with
      | none =>
          simp [handleToolPrediction, readService, okOr, bind, Except.bind,
            hquery]
      | some query =>
          cases havailable : (index args "available_tools").val.asArray with
          | none =>
              simp [handleToolPrediction, readService, okOr, bind, Except.bind,
                hquery, havailable]
          | some available =>
              simp only [handleToolPrediction, readService, okOr, bind,
                Except.bind, hquery, havailable]
              cases service.predictTool _ <;> simp

/-- The calls that only report on the model need no arguments. -/
theorem report_not_invalid (result : LlmService → OrderedValue) :
    ¬ Fails (readService llmService >>= fun service => .ok (result service))
      (-32602) := by
  cases llmService <;> simp [readService, okOr, bind, Except.bind]

theorem callTool_invalid_iff {tool : ListedTool} (htool : tool ∈ tools)
    {args : OrderedValue} :
    Fails (callTool formats llmService tool.name args) (-32602) ↔
      llmService ≠ none ∧ ¬ Supplies tool.inputSchema.val args := by
  have hnothing : ∀ schema : Value, requiredEntries schema = none →
      ¬ (llmService ≠ none ∧ ¬ Supplies schema args) :=
    fun schema hrequired hboth =>
      hboth.2 (supplies_of_nothing_required hrequired)
  simp only [tools, List.mem_cons, List.not_mem_nil, or_false] at htool
  rcases htool with rfl | rfl | rfl | rfl
  · exact handleTextGeneration_invalid_iff
  · exact handleToolPrediction_invalid_iff
  · exact iff_of_false (report_not_invalid _) (hnothing _ rfl)
  · exact iff_of_false (report_not_invalid _) (hnothing _ rfl)

theorem callTool_of_not_listed {toolName : String}
    (hlisted : ∀ tool ∈ tools, tool.name ≠ toolName) (args : OrderedValue) :
    callTool formats llmService toolName args =
      .error (errorValue (-32602) ("Unknown tool: " ++ toolName)) := by
  simp only [tools, List.forall_mem_cons] at hlisted
  obtain ⟨hgeneration, hprediction, hinfo, hcache, _⟩ := hlisted
  have hgeneration : toolName ≠ "text_generation" := Ne.symm hgeneration
  have hprediction : toolName ≠ "tool_prediction" := Ne.symm hprediction
  have hinfo : toolName ≠ "model_info" := Ne.symm hinfo
  have hcache : toolName ≠ "cache_status" := Ne.symm hcache
  simp only [callTool, if_neg hgeneration, if_neg hprediction, if_neg hinfo,
    if_neg hcache]

/-! ## The list that clients are given -/

/-- The answer to a listing has a tool of this name with this schema. -/
def Lists (toolName : String) (schema : Value) : Prop :=
  ∃ result entries, handleToolsList = .ok result ∧
    (result.get "tools").map Subtype.val = some (.array entries) ∧
    ∃ entry ∈ entries, entry.get "name" = some (.str toolName) ∧
      entry.get "input_schema" = some schema

theorem ListedTool.get_toValue (self : ListedTool) :
    self.toValue.val.get "name" = some (.str self.name) ∧
      self.toValue.val.get "input_schema" = some self.inputSchema.val := by
  have hlookup (name : String) : self.toValue.val.get name =
      ([("name", some (Value.str self.name)),
        ("description", some (.str self.description)),
        ("input_schema", some self.inputSchema.val), ("extensions", none),
        ("readOnly", some (.bool self.readOnly)),
        ("returnType", none)].lookup name).join :=
    lookup_record (by simp) name
  exact ⟨hlookup "name", hlookup "input_schema"⟩

theorem lists_iff {toolName : String} {schema : Value} :
    Lists toolName schema ↔
      ∃ tool ∈ tools, tool.name = toolName ∧ tool.inputSchema.val = schema := by
  have htools : (OrderedValue.ofMembers [("tools",
      .ofList (tools.map ListedTool.toValue))]).get "tools" =
        some (.ofList (tools.map ListedTool.toValue)) :=
    OrderedValue.get_ofMembers (by simp) "tools"
  constructor
  · rintro ⟨result, entries, hresult, hentries, entry, hentry, hname,
      hschema⟩
    rw [← Except.ok.inj hresult, htools] at hentries
    obtain rfl := Value.array.inj (Option.some.inj hentries)
    rw [List.map_map] at hentry
    obtain ⟨tool, htool, rfl⟩ := List.mem_map.mp hentry
    obtain ⟨hlisted, hlistedSchema⟩ := tool.get_toValue
    refine ⟨tool, htool, ?_, ?_⟩
    · exact Value.str.inj (Option.some.inj (hlisted.symm.trans hname))
    · exact Option.some.inj (hlistedSchema.symm.trans hschema)
  · rintro ⟨tool, htool, rfl, rfl⟩
    refine ⟨_, (tools.map ListedTool.toValue).map Subtype.val, rfl, ?_,
      tool.toValue.val, ?_, tool.get_toValue⟩
    · rw [htools]
      rfl
    · exact List.mem_map_of_mem (List.mem_map_of_mem htool)

theorem Lists.object {toolName : String} {schema : Value}
    (hlists : Lists toolName schema) : ∃ members, schema = .object members := by
  obtain ⟨tool, htool, _, rfl⟩ := lists_iff.mp hlists
  simp only [tools, List.mem_cons, List.not_mem_nil, or_false] at htool
  rcases htool with rfl | rfl | rfl | rfl
  · exact ⟨_, rfl⟩
  · exact ⟨_, rfl⟩
  · exact ⟨_, rfl⟩
  · exact ⟨_, rfl⟩

/-! ## Calls -/

/-- The parameters name the tool and carry the arguments. -/
def Calls (params : Option OrderedValue) (toolName : String)
    (args : OrderedValue) : Prop :=
  ∃ given, params = some given ∧ textAt given "name" = some toolName ∧
    index given "arguments" = args

theorem handleToolsCall_of_calls {params : Option OrderedValue}
    {toolName : String} {args : OrderedValue}
    (hcalls : Calls params toolName args) :
    handleToolsCall formats llmService params =
      callTool formats llmService toolName args := by
  obtain ⟨given, rfl, hname, rfl⟩ := hcalls
  simp only [handleToolsCall, okOr, hname, bind, Except.bind]

/-- A call that names no tool is refused. -/
theorem handleToolsCall_of_not_calls {params : Option OrderedValue}
    (hnone : ∀ toolName args, ¬ Calls params toolName args) :
    Fails (handleToolsCall formats llmService params) (-32602) := by
  cases params with
  | none => simp [handleToolsCall, okOr, bind, Except.bind]
  | some given =>
      cases hname : textAt given "name" with
      | none => simp [handleToolsCall, okOr, hname, bind, Except.bind]
      | some toolName => exact absurd ⟨given, rfl, hname, rfl⟩ (hnone _ _)

theorem calls_unique {params : Option OrderedValue} {toolName other : String}
    {args others : OrderedValue} (hcalls : Calls params toolName args)
    (hothers : Calls params other others) :
    other = toolName ∧ others = args := by
  obtain ⟨given, rfl, hname, rfl⟩ := hcalls
  obtain ⟨same, hsame, hother, rfl⟩ := hothers
  obtain rfl := Option.some.inj hsame
  exact ⟨Option.some.inj (hother.symm.trans hname), rfl⟩

/-- A call that lists nothing, or that supplies too little once the model is
there, is invalid, and nothing else is. -/
theorem handleToolsCall_invalid_iff {params : Option OrderedValue} :
    Fails (handleToolsCall formats llmService params) (-32602) ↔
      ¬ ∃ toolName schema args, Lists toolName schema ∧
        Calls params toolName args ∧
        (llmService ≠ none → Supplies schema args) := by
  by_cases hcalls : ∃ toolName args, Calls params toolName args
  · obtain ⟨toolName, args, hcalls⟩ := hcalls
    rw [handleToolsCall_of_calls hcalls]
    by_cases hlisted : ∃ tool ∈ tools, tool.name = toolName
    · obtain ⟨tool, htool, rfl⟩ := hlisted
      rw [callTool_invalid_iff htool]
      constructor
      · rintro ⟨hready, hrefused⟩ ⟨other, schema, others, hlists, hothers,
          hsupplies⟩
        obtain ⟨rfl, rfl⟩ := calls_unique hcalls hothers
        obtain ⟨same, hsame, hname, rfl⟩ := lists_iff.mp hlists
        have hnodup : (tools.map ListedTool.name).Nodup := by decide
        obtain rfl := List.inj_on_of_nodup_map hnodup hsame htool hname
        exact hrefused (hsupplies hready)
      · intro hnone
        by_contra hvalid
        rw [not_and_not_right] at hvalid
        exact hnone ⟨tool.name, tool.inputSchema.val, args,
          lists_iff.mpr ⟨tool, htool, rfl, rfl⟩, hcalls, hvalid⟩
    · rw [callTool_of_not_listed fun tool htool hname =>
        hlisted ⟨tool, htool, hname⟩]
      refine iff_of_true (fails_error_iff.mpr rfl) ?_
      rintro ⟨other, schema, others, hlists, hothers, _⟩
      obtain ⟨rfl, rfl⟩ := calls_unique hcalls hothers
      obtain ⟨tool, htool, hname, _⟩ := lists_iff.mp hlists
      exact hlisted ⟨tool, htool, hname⟩
  · refine iff_of_true (handleToolsCall_of_not_calls fun toolName args hboth =>
      hcalls ⟨toolName, args, hboth⟩) ?_
    rintro ⟨toolName, _, args, _, hboth, _⟩
    exact hcalls ⟨toolName, args, hboth⟩

/-! ## Failures of the model -/

/-- A result is an object that nests far less than a parser allows. -/
def Small (result : OrderedValue) : Prop :=
  (∃ members, result.val = .object members) ∧ result.val.fits 126 = true

/-- Results are small, and every error has the code of an invalid call or that
of a failure. -/
def Regular : Handled → Prop
  | .ok result => Small result
  | .error error =>
      (errorOf error).code = -32602 ∨ (errorOf error).code = -32603

theorem regular_invalid (message : String) :
    Regular (.error (errorValue (-32602) message)) := by
  simp [Regular]

theorem regular_failed (message : String) :
    Regular (.error (errorValue (-32603) message)) := by
  simp [Regular]

/-- Where the part is missing the error decides, and the rest where it is
there. -/
theorem Regular.okOr_bind {α : Type} {found : Option α}
    {error : OrderedValue} {rest : α → Handled}
    (hmissing : Regular (.error error))
    (hrest : ∀ value, Regular (rest value)) :
    Regular (okOr found error >>= rest) := by
  cases found with
  | none => exact hmissing
  | some value => exact hrest value

theorem Regular.code {handled : Handled} (hregular : Regular handled)
    {code : Int32} (hfails : Fails handled code) :
    code = -32602 ∨ code = -32603 := by
  obtain ⟨error, rfl, rfl⟩ := hfails
  exact hregular

theorem small_ofMembers {members : List (String × OrderedValue)}
    (hmembers : ∀ member ∈ members, member.2.val.fits 125 = true) :
    Small (.ofMembers members) :=
  ⟨⟨_, rfl⟩, OrderedValue.fits_ofMembers hmembers⟩

theorem fits_textContent (text : String) :
    (textContent text).val.fits 125 = true := by
  refine OrderedValue.fits_ofList (List.forall_mem_singleton.mpr ?_)
  refine OrderedValue.fits_ofMembers ?_
  simp

theorem small_statusResult (formats : Formats) (text : String)
    (status : Llm.ModelStatus) : Small (statusResult formats text status) := by
  apply small_ofMembers
  simp [fits_textContent]

theorem small_predictionResult (formats : Formats)
    (outcome : Llm.ToolPredictor.PredictionOutcome) :
    Small (predictionResult formats outcome) := by
  have hconfidence : (Llm.floatValue outcome.prediction.confidence).fits
      124 = true := by
    unfold Llm.floatValue
    split_ifs
    · rfl
    · rfl
  apply small_ofMembers
  rw [List.forall_mem_cons, List.forall_mem_singleton]
  refine ⟨fits_textContent _, OrderedValue.fits_ofMembers ?_⟩
  simp [hconfidence]

theorem callTool_regular (toolName : String) (args : OrderedValue) :
    Regular (callTool formats llmService toolName args) := by
  unfold callTool
  split_ifs
  · refine .okOr_bind (regular_failed _) fun service => ?_
    refine .okOr_bind (regular_invalid _) fun prompt => ?_
    cases service.startGeneration _ with
    | ok events =>
        exact small_ofMembers
          (List.forall_mem_singleton.mpr (fits_textContent _))
    | error e => exact regular_failed _
  · refine .okOr_bind (regular_failed _) fun service => ?_
    refine .okOr_bind (regular_invalid _) fun query => ?_
    refine .okOr_bind (regular_invalid _) fun available => ?_
    cases service.predictTool _ with
    | ok outcome => exact small_predictionResult formats outcome
    | error e => exact regular_failed _
  · exact .okOr_bind (regular_failed _) fun _ => small_statusResult _ _ _
  · exact .okOr_bind (regular_failed _) fun _ => small_statusResult _ _ _
  · exact regular_invalid _

theorem handleToolsCall_regular (params : Option OrderedValue) :
    Regular (handleToolsCall formats llmService params) :=
  .okOr_bind (regular_invalid _) fun _ =>
    .okOr_bind (regular_invalid _) fun _ => callTool_regular _ _

theorem callTool_of_not_ready (toolName : String) (args : OrderedValue) :
    ∃ error, callTool formats none toolName args = .error error := by
  unfold callTool
  split_ifs
  · exact ⟨_, rfl⟩
  · exact ⟨_, rfl⟩
  · exact ⟨_, rfl⟩
  · exact ⟨_, rfl⟩
  · exact ⟨_, rfl⟩

theorem handleToolsCall_of_not_ready (params : Option OrderedValue) :
    ∃ error, handleToolsCall formats none params = .error error := by
  cases params with
  | none => exact ⟨_, rfl⟩
  | some given =>
      cases hname : textAt given "name" with
      | none =>
          simp only [handleToolsCall, okOr, hname, bind, Except.bind]
          exact ⟨_, rfl⟩
      | some toolName =>
          simp only [handleToolsCall, okOr, hname, bind, Except.bind]
          exact callTool_of_not_ready toolName _

/-! ## Which calls are refused -/

/-- A call is refused as invalid exactly if it names no tool of the list or,
once the model is there, leaves out what the listed schema requires; all other
errors are failures of the model, and without the model every call fails.
Arguments that a validator has passed against the listed schema are never
refused. -/
theorem toolsCall_refused_iff (formats : Formats)
    (llmService : Option LlmService) (params : Option OrderedValue) :
    (Fails (handleToolsCall formats llmService params) (-32602) ↔
      ¬ ∃ toolName schema args, Lists toolName schema ∧
        Calls params toolName args ∧
        (llmService ≠ none → Supplies schema args)) ∧
      (∀ code, Fails (handleToolsCall formats llmService params) code →
        code = -32602 ∨ code = -32603) ∧
      (llmService = none → ∃ error,
        handleToolsCall formats llmService params = .error error) ∧
      ∀ texts (validator : ParameterValidator) toolName
        (schema args : OrderedValue) result,
        Lists toolName schema.val → (∃ members, args.val = .object members) →
        validator.validate texts schema args = some result →
        result.isValid = true →
        Calls params toolName result.validatedParams →
        ¬ Fails (handleToolsCall formats llmService params) (-32602) := by
  refine ⟨handleToolsCall_invalid_iff,
    fun _ hfails => (handleToolsCall_regular params).code hfails, ?_, ?_⟩
  · rintro rfl
    exact handleToolsCall_of_not_ready params
  intro texts validator toolName schema args result hlists hargs hresult hvalid
    hcalls
  have hsupplies : Supplies schema.val result.validatedParams :=
    supplies_of_valid hlists.object hargs hresult hvalid
  rw [handleToolsCall_invalid_iff, not_not]
  exact ⟨toolName, schema.val, result.validatedParams, hlists, hcalls,
    fun _ => hsupplies⟩

end LitertServer
end Transport
end Acdp
