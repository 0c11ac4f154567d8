import Acdp.JsonText
import Acdp.LlmInterceptor
import Acdp.LlmToolPredictor

/-!
# The names of predicted and actual tools

Tools are predicted under names with a dot, while what a request uses is its
method, with a slash.  The two agree for calls whose parameters can be read
back, and for other standard requests only where the text of the request
speaks of a call and a member of the parameters happens to spell the method.
-/

namespace Acdp
namespace Llm

open Auth (DateTime)
open Acdp.Core Json
open LlmInterceptor ToolPredictor

def plainMethods : List String :=
  ["tools/list", "resources/list", "resources/read", "prompts/list",
    "prompts/get"]

/-- The name that the parameters of a request give. -/
def givenName (request : JsonRpcRequest) : Option String :=
  request.params.bind (fun params => params.val.getStr "name")

/-- A plain method, or a call whose parameters name the tool. -/
inductive Standard (request : JsonRpcRequest) : Prop
  | plain (hmethod : request.method ∈ plainMethods)
  | call (hmethod : request.method = "tools/call") (name : String)
      (hname : givenName request = some name)

section Vocabulary

variable (tables : Text.CaseTables) (json : SerdeJson)
  (hashContext : String → String) (request : JsonRpcRequest)

def requestContext : String := extractMcpContext json.floats (.request request)

/-- The row that is entered for the request counts as correct when it is
resolved with the tool. -/
def MarkedCorrect (tool : String) : Prop :=
  ∀ database id now next outcome,
    heuristicPredict tables json hashContext database id
      (requestContext json request) now = some (next, outcome) →
    ∀ record ∈ (next.updatePredictionResult outcome.recordId tool).records,
      record.id = outcome.recordId → record.correct = some true

/-- The tool that is predicted for the request is the one it uses. -/
def SharesName : Prop :=
  ∃ tool, determineActualTool (.request request) = some tool ∧
    (heuristicPrediction tables json (requestContext json request)).toolName =
      tool ∧
    MarkedCorrect tables json hashContext request tool

/-- The parameters are within the recursion limit of the parser, one level
deep in the context. -/
def ParamsFit : Prop := ∀ params ∈ request.params, params.val.fits 126 = true

instance : Decidable (ParamsFit request) :=
  inferInstanceAs (Decidable (∀ params ∈ request.params,
    params.val.fits 126 = true))

/-- A call whose parameters can be read back, or whose tool has the name of
the fallback; or a plain request whose text mentions a call and whose
parameters name its own method. -/
def NamesAgree : Prop :=
  if request.method = "tools/call" then
    ParamsFit request ∨ givenName request = some "tools.call"
  else
    mentionsCall (tables.toLowercase (requestContext json request)) = true ∧
      ParamsFit request ∧ givenName request = some request.method

/-- What the library has written for the request it reads back, and every
floating-point number of it as some number. -/
structure ReadsContext : Prop where
  context : json.parse (requestContext json request) =
    .ok ((contextValue (.request request)).serialize json.floats)
  floats : (contextValue (.request request)).val.FloatsRead json.floats

end Vocabulary

/-! ## Marks -/

section Marks

variable {hashContext : String → String} {database next : PredictionsDatabase}
  {id mcpContext : String} {prediction : ToolPrediction} {now : DateTime}
  {outcome : ToolPredictor.PredictionOutcome}

/-- The row of a persisted prediction is marked by comparing its name. -/
theorem correct_of_persist
    (hpersist : persistPrediction hashContext database id mcpContext prediction
      now = some (next, outcome)) (tool : String) :
    ∀ record ∈ (next.updatePredictionResult outcome.recordId tool).records,
      record.id = outcome.recordId →
        record.correct = some (prediction.toolName == tool) := by
  obtain ⟨inserted, hentered, hpair⟩ := Option.map_eq_some_iff.mp hpersist
  obtain ⟨rfl, rfl⟩ := Prod.mk.inj hpair
  obtain ⟨stored, hinsert⟩ :=
    PredictionsDatabase.insert_of_recordPrediction hentered
  obtain ⟨hkey, hrecords⟩ :=
    PredictionsDatabase.insert_eq_some_iff.mp hinsert
  intro record hrecord hid
  rw [PredictionsDatabase.updatePredictionResult_records] at hrecord
  obtain ⟨before, hbefore, rfl⟩ := List.mem_map.mp hrecord
  split_ifs at hid ⊢ with hsame
  · rw [hrecords, List.mem_append, List.mem_singleton] at hbefore
    obtain hold | rfl := hbefore
    · exact absurd (List.mem_map.mpr ⟨before, hold, hsame⟩) hkey
    · rfl
  · exact absurd hid hsame

end Marks

/-! ## What is read back from the context -/

section Context

variable {tables : Text.CaseTables} {json : SerdeJson}
  {request : JsonRpcRequest}

theorem fits_idValue (depth : ℕ) (id : RequestId) :
    (idValue id).fits depth = true := by
  cases id <;> cases depth <;> rfl

theorem fits_contextValue (request : JsonRpcRequest) :
    ((contextValue (.request request)).serialize json.floats).fits 127 = true ↔
      ParamsFit request := by
  have hmembers : (contextValue (.request request)).val.fits 127 =
      ((idValue request.id).fits 126 && ((Value.str request.method).fits 126 &&
        ((nullable (request.params.map Subtype.val)).fits 126 && true))) := rfl
  rw [OrderedValue.serialize, Value.fits_encode, hmembers, fits_idValue]
  unfold ParamsFit
  cases request.params with
  | none => simp [nullable, Value.fits]
  | some params => simp [nullable, Value.fits]

/-- The name in the parameters is found if they fit. -/
theorem calledTool_eq (hreads : ReadsContext json request) :
    calledTool json (requestContext json request) =
      if ParamsFit request then givenName request else none := by
  have hnormal := (contextValue (.request request)).property
  unfold calledTool SerdeJson.value SerdeJson.read
  rw [hreads.context]
  by_cases hfits : ParamsFit request
  · obtain ⟨read, hread⟩ := Option.isSome_iff_exists.mp
      (Value.isSome_decode_encode hnormal hreads.floats)
    have hvalue : OrderedValue.deserialize json.floats
        ((contextValue (.request request)).serialize json.floats) =
          some ⟨read, Value.decode_normal json.floats _ hread⟩ :=
      (OrderedValue.deserialize_eq_some_iff json.floats _ _).mpr hread
    have hparams := Value.get_decode_encode json.floats hnormal hread "params"
    simp only [bind, Except.bind, (fits_contextValue request).mpr hfits,
      if_true, hvalue, Except.toOption, Option.bind_some, if_pos hfits, hparams]
    unfold givenName
    cases hrequest : request.params with
    | none =>
        have hget : (contextValue (.request request)).val.get "params" =
            some .null := by
          change some (nullable (request.params.map Subtype.val)) = _
          rw [hrequest]
          rfl
        rw [hget]
        rfl
    | some params =>
        have hget : (contextValue (.request request)).val.get "params" =
            some params.val := by
          change some (nullable (request.params.map Subtype.val)) = _
          rw [hrequest]
          rfl
        have hfloats := hreads.floats.get hget
        obtain ⟨kept, hkept⟩ := Option.isSome_iff_exists.mp
          (Value.isSome_decode_encode params.property hfloats)
        rw [hget, Option.bind_some, hkept, Option.bind_some, Option.bind_some]
        exact Value.getStr_decode_encode params.property hfloats hkept "name"
  · have hnot : ((contextValue (.request request)).serialize
        json.floats).fits 127 = false := by
      rw [Bool.eq_false_iff]
      exact fun hall => hfits ((fits_contextValue request).mp hall)
    simp [bind, Except.bind, hnot, if_neg hfits, Except.toOption]

theorem infix_printMembers {members : List (String × Json)}
    {member : String × Json} (hmember : member ∈ members) :
    (print member.2).toList <:+: (printMembers members).toList := by
  induction members with
  | nil => cases hmember
  | cons first rest ih =>
      obtain ⟨name, value⟩ := first
      rw [printMembers_cons]
      have hinner : (print member.2).toList <:+:
          (print value).toList ++ (printMembers rest).toList := by
        obtain rfl | hrest := List.mem_cons.mp hmember
        · exact (List.prefix_append _ _).isInfix
        · exact (ih hrest).trans (List.suffix_append _ _).isInfix
      exact hinner.trans
        ⟨',' :: ((printString name).toList ++ [':']), [], by simp⟩

/-- The text of a member stands in the text of its object. -/
theorem infix_print_obj {members : List (String × Json)}
    {member : String × Json} (hmember : member ∈ members) :
    (print member.2).toList <:+: (print (.obj members)).toList := by
  cases members with
  | nil => cases hmember
  | cons first rest =>
      obtain ⟨name, value⟩ := first
      rw [print_obj_cons]
      have hinner : (print member.2).toList <:+:
          (print value).toList ++ (printMembers rest).toList := by
        obtain rfl | hrest := List.mem_cons.mp hmember
        · exact (List.prefix_append _ _).isInfix
        · exact (infix_printMembers hrest).trans (List.suffix_append _ _).isInfix
      exact hinner.trans
        ⟨'\x7b' :: ((printString name).toList ++ [':']), ['\x7d'],
          by simp⟩

/-- The text of a call mentions it, in whatever case it is looked at. -/
theorem mentionsCall_of_call (hmethod : request.method = "tools/call") :
    mentionsCall (tables.toLowercase (requestContext json request)) = true := by
  have hpart : Text.CaseTables.IsLower "tools/call".toList := by
    simp [Text.CaseTables.IsLower]
  have hstring : "tools/call".toList <:+:
      (print (.str "tools/call")).toList :=
    ⟨['"'], ['"'], rfl⟩
  have hmember : (print (.str request.method)).toList <:+:
      (requestContext json request).toList := by
    exact @infix_print_obj
      [("id", _), ("method", .str request.method), ("params", _)]
      ("method", .str request.method) (by simp)
  rw [hmethod] at hmember
  have hlower := @Text.CaseTables.infix_toLowercase tables _ hpart _
    (hstring.trans hmember)
  unfold mentionsCall Text.contains
  rw [decide_eq_true hlower, Bool.true_or]

/-! ## What is predicted -/

/-- Keywords give names that are no plain method. -/
theorem keywordPrediction_notMem (contextLower : String) :
    (keywordPrediction contextLower).toolName ∉ plainMethods := by
  have hrules : ∀ rule ∈ keywordRules, rule.toolName ∉ plainMethods := by
    simp [keywordRules, plainMethods]
  unfold keywordPrediction
  split
  · next rule hrule =>
      exact hrules rule (List.mem_of_find?_eq_some hrule)
  · simp [toolPrediction, plainMethods]

theorem toolName_of_mentionsCall (hreads : ReadsContext json request)
    (hcall : mentionsCall (tables.toLowercase (requestContext json request)) =
      true) :
    (heuristicPrediction tables json (requestContext json request)).toolName =
      (if ParamsFit request then givenName request else none).getD
        "tools.call" := by
  unfold heuristicPrediction
  dsimp only
  rw [if_pos hcall, calledTool_eq hreads]
  cases (if ParamsFit request then givenName request else none) <;> rfl

theorem toolName_of_keywords
    (hcall : ¬ mentionsCall (tables.toLowercase (requestContext json request)) =
      true) :
    (heuristicPrediction tables json
      (requestContext json request)).toolName ∉ plainMethods := by
  unfold heuristicPrediction
  dsimp only
  rw [if_neg hcall]
  exact keywordPrediction_notMem _

theorem determineActualTool_of_call (hmethod : request.method = "tools/call") :
    determineActualTool (.request request) =
      extractToolName request.params := by
  exact if_pos (Or.inl hmethod)

theorem determineActualTool_of_plain (hmethod : request.method ∈ plainMethods) :
    determineActualTool (.request request) = some request.method := by
  have hother : ∀ method ∈ plainMethods,
      ¬ (method = "tools/call" ∨ method = "tools.call") := by
    simp [plainMethods]
  exact if_neg (hother _ hmethod)

theorem extractToolName_of_givenName {name : String}
    (hname : givenName request = some name) :
    extractToolName request.params = some name := by
  obtain ⟨params, hparams, hgiven⟩ := Option.bind_eq_some_iff.mp hname
  rw [hparams]
  obtain ⟨value, hnormal⟩ := params
  cases value with
  | array items => cases hgiven
  | _ => exact hgiven

end Context

section Vocabulary

variable {tables : Text.CaseTables} {json : SerdeJson}
  {request : JsonRpcRequest} {tool : String}

theorem markedCorrect_of_toolName (hashContext : String → String)
    (hname : (heuristicPrediction tables json
      (requestContext json request)).toolName = tool) :
    MarkedCorrect tables json hashContext request tool := by
  intro database id now next outcome hpredict record hrecord hid
  have hcorrect := correct_of_persist hpredict tool record hrecord hid
  rw [hcorrect, hname, beq_self_eq_true]

/-- A prediction shares the name of the actual tool when the names are the
same. -/
theorem sharesName_iff_toolName (hashContext : String → String)
    (htool : determineActualTool (.request request) = some tool) :
    SharesName tables json hashContext request ↔
      (heuristicPrediction tables json
        (requestContext json request)).toolName = tool := by
  constructor
  · rintro ⟨other, hother, hname, _⟩
    rw [hname]
    exact Option.some.inj (hother.symm.trans htool)
  · intro hname
    exact ⟨tool, htool, hname, markedCorrect_of_toolName hashContext hname⟩

/-- The name that is predicted for a standard request is that of the tool it
uses exactly when the two kinds of names happen to agree. -/
theorem sharesName_iff_namesAgree (hashContext : String → String)
    (hstandard : Standard request) (hreads : ReadsContext json request) :
    SharesName tables json hashContext request ↔
      NamesAgree tables json request := by
  cases hstandard with
  | call hmethod name hname =>
      have hcall := @mentionsCall_of_call tables json request hmethod
      have htool : determineActualTool (.request request) = some name := by
        rw [determineActualTool_of_call hmethod]
        exact extractToolName_of_givenName hname
      rw [sharesName_iff_toolName hashContext htool,
        toolName_of_mentionsCall hreads hcall, NamesAgree, if_pos hmethod,
        hname]
      by_cases hfits : ParamsFit request
      · simp [hfits]
      · simp [hfits, eq_comm]
  | plain hmethod =>
      have hnotcall : request.method ≠ "tools/call" := by
        intro heq
        rw [heq] at hmethod
        simp [plainMethods] at hmethod
      have hnotfallback : request.method ≠ "tools.call" := by
        intro heq
        rw [heq] at hmethod
        simp [plainMethods] at hmethod
      rw [sharesName_iff_toolName hashContext
        (determineActualTool_of_plain hmethod), NamesAgree, if_neg hnotcall]
      by_cases hcall :
          mentionsCall (tables.toLowercase (requestContext json request)) = true
      · rw [toolName_of_mentionsCall hreads hcall]
        by_cases hfits : ParamsFit request
        · cases hgiven : givenName request with
          | none => simp [hcall, hfits, hnotfallback.symm]
          | some name => simp [hcall, hfits]
        · simp [hcall, hfits, hnotfallback.symm]
      · constructor
        · intro hname
          have hkeywords := toolName_of_keywords hcall
          rw [hname] at hkeywords
          exact absurd hmethod hkeywords
        · rintro ⟨hmention, _⟩
          exact absurd hmention hcall

end Vocabulary

/-! ## A call and a plain request -/

/-- No table is looked at for a text in ASCII. -/
def asciiTables : Text.CaseTables where
  toLower char := [char]
  cased _ := false
  caseIgnorable _ := false

def halfFloats : FloatText where
  print _ := "0.5"
  parse _ := some 4602678819172646912

/-- The library, as far as the context of one request goes. -/
def contextJson (request : JsonRpcRequest) : SerdeJson where
  parse text :=
    if text = extractMcpContext halfFloats (.request request) then
      .ok ((contextValue (.request request)).serialize halfFloats)
    else .error "expected value"
  floats := halfFloats
  mismatch _ := "invalid type"

theorem readsContext (request : JsonRpcRequest) :
    ReadsContext (contextJson request) request where
  context := if_pos rfl
  floats _ _ := rfl

def echoRequest : JsonRpcRequest :=
  .new (.number 1) "tools/call"
    ⟨.object [("name", .str "echo")],
      .object (List.pairwise_singleton _ _) (by simp [Value.Normal.str])⟩

theorem sharesName_echoRequest :
    SharesName asciiTables (contextJson echoRequest) (fun _ => "0")
      echoRequest :=
  (sharesName_iff_namesAgree (fun _ => "0") (.call rfl "echo" rfl)
    (readsContext echoRequest)).mpr (Or.inl (by decide))

def listRequest : JsonRpcRequest := .withoutParams (.number 1) "tools/list"

/-- The request uses `tools/list`, and what is predicted has another name. -/
theorem not_sharesName_listRequest :
    ¬ SharesName asciiTables (contextJson listRequest) (fun _ => "0")
      listRequest := by
  rintro ⟨tool, htool, hname, _⟩
  obtain rfl := Option.some.inj htool
  by_cases hcall : mentionsCall (asciiTables.toLowercase
      (requestContext (contextJson listRequest) listRequest)) = true
  · rw [toolName_of_mentionsCall (readsContext listRequest) hcall] at hname
    exact absurd hname (by decide)
  · have hkeywords := toolName_of_keywords hcall
    rw [hname] at hkeywords
    exact hkeywords (by decide)

end Llm
end Acdp
