import Acdp.CoreMessages
import Acdp.JsonReadBack
import Acdp.LlmPredictions
import Acdp.LlmSessions
import Acdp.TextCase
import Acdp.TextOperations

/-!
# The tool predictor

Without a semantic engine a tool is predicted from the text of a message: by
the name in its parameters where the text speaks of a call, and by keywords
otherwise.  Every prediction is entered in the table of predictions.
-/

namespace Acdp
namespace Llm

open Auth (DateTime)
open Acdp.Core (SerdeJson)
open Json

/-! ## Predictions as values -/

/-- `Value::from(f32)`. -/
def floatValue (value : Float32) : Value :=
  if value.isFinite then .number (.float (asF64 value).toBits) else .null

theorem floatValue_normal (value : Float32) : (floatValue value).Normal := by
  unfold floatValue
  split_ifs
  · exact .number _
  · exact .null

/-- `serde_json::to_value`. -/
def ToolPrediction.toValue (self : ToolPrediction) : OrderedValue where
  val := .object
    [("confidence", floatValue self.confidence),
      ("parameters", self.parameters.val),
      ("reasoning", .str self.reasoning),
      ("tool_name", .str self.toolName)]
  property := by
    have hnames : "confidence" < "parameters" ∧ "parameters" < "reasoning" ∧
        "reasoning" < "tool_name" := by decide
    refine .object (List.isChain_iff_pairwise.mp ?_) ?_
    · simpa using hnames
    · simp only [List.forall_mem_cons]
      exact ⟨floatValue_normal _, self.parameters.property, .str _, .str _,
        by simp⟩

namespace ToolPredictor

/-- What is returned for a prediction, with the identifier of its row. -/
structure PredictionOutcome where
  prediction : ToolPrediction
  recordId : String
  contextHash : String

/-! ## Heuristics -/

/-- What a text about a method has in it: the method, or both a verb and a
subject. -/
structure KeywordRule where
  method : String
  verb : String
  subject : String
  toolName : String
  confidence : Float32
  reasoning : String

def KeywordRule.matches (self : KeywordRule) (contextLower : String) : Bool :=
  Text.contains contextLower self.method ||
    (Text.contains contextLower self.verb &&
      Text.contains contextLower self.subject)

def keywordRules : List KeywordRule :=
  [⟨"tools/list", "list", "tool", "tools.list", 0.8,
      "Matched 'tools/list' pattern"⟩,
    ⟨"resources/list", "list", "resource", "resources.list", 0.8,
      "Matched 'resources/list' pattern"⟩,
    ⟨"resources/read", "read", "resource", "resources.read", 0.7,
      "Matched 'resources/read' pattern"⟩,
    ⟨"prompts/list", "list", "prompt", "prompts.list", 0.8,
      "Matched 'prompts/list' pattern"⟩,
    ⟨"prompts/get", "get", "prompt", "prompts.get", 0.7,
      "Matched 'prompts/get' pattern"⟩]

def toolPrediction (toolName : String) (confidence : Float32)
    (reasoning : String) : ToolPrediction where
  toolName := toolName
  confidence := confidence
  reasoning := reasoning
  parameters := ⟨.object [], .object List.Pairwise.nil (by simp)⟩

def keywordPrediction (contextLower : String) : ToolPrediction :=
  match keywordRules.find? (fun rule => rule.matches contextLower) with
  | some rule => toolPrediction rule.toolName rule.confidence rule.reasoning
  | none =>
      toolPrediction "tools.list" 0.5
        "No clear match - defaulting to tools.list"

def mentionsCall (contextLower : String) : Bool :=
  Text.contains contextLower "tools/call" ||
    Text.contains contextLower "tools.call"

section Predictions

variable (tables : Text.CaseTables) (json : SerdeJson)

/-- The name in the parameters of the message that the text is of. -/
def calledTool (mcpContext : String) : Option String :=
  ((json.value mcpContext).toOption.bind
    (fun value => value.val.get "params")).bind
      (fun params => params.getStr "name")

/-- What `heuristic_predict` enters in the table. -/
def heuristicPrediction (mcpContext : String) : ToolPrediction :=
  let contextLower := tables.toLowercase mcpContext
  if mentionsCall contextLower then
    match calledTool json mcpContext with
    | some name =>
        toolPrediction name 0.7
          ("Extracted tool name '" ++ name ++ "' from tools/call params")
    | none =>
        toolPrediction "tools.call" 0.5
          "Matched 'tools/call' pattern but couldn't extract tool name"
  else keywordPrediction contextLower

variable (hashContext : String → String)

/-- The identifier is the one that was drawn for the row. -/
def persistPrediction (database : PredictionsDatabase) (id mcpContext : String)
    (prediction : ToolPrediction) (now : DateTime) :
    Option (PredictionsDatabase × PredictionOutcome) :=
  (database.recordPrediction id (hashContext mcpContext) prediction.toolName
    (asF64 prediction.confidence) prediction.toValue now).map
      (fun next => (next, ⟨prediction, id, hashContext mcpContext⟩))

def heuristicPredict (database : PredictionsDatabase) (id mcpContext : String)
    (now : DateTime) : Option (PredictionsDatabase × PredictionOutcome) :=
  persistPrediction hashContext database id mcpContext
    (heuristicPrediction tables json mcpContext) now

end Predictions

end ToolPredictor

end Llm
end Acdp
