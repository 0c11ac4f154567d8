import Acdp.CoreMessageValues
import Acdp.CoreTypedMessages
import Acdp.CoreValidation
import Acdp.JsonLiterals
import Acdp.LlmModelManager
import Acdp.LlmToolPredictor
import Acdp.TransportHttpServers

/-!
# The LiteRT server

A server of its own that offers a language model as tools.  Messages are
posted to it, and each is answered in the body of its reply as one event of a
stream.  What the language model does during a call is given with the call.
-/

namespace Acdp
namespace Transport
namespace LitertServer

open Acdp.Core Json
open Llm (DownloadProgress ModelStatus)
open Llm.ToolPredictor (PredictionOutcome)

/-! ## The language model -/

structure GenerationRequest where
  prompt : String
  temperature : Option Float32
  maxTokens : Option UInt64

inductive GenerationEvent where
  | token (token : String)
  | completed

/-- What the calls of the service give while one request is handled; an error
is given by its text. -/
structure LlmService where
  startGeneration : GenerationRequest → Except String (List GenerationEvent)
  predictTool : String → Except String PredictionOutcome
  modelStatus : ModelStatus
  downloadProgress : Option DownloadProgress

/-- The formats that depend on floating-point numbers or on the tables of
Unicode: `{:.0}`, `{:.1}` and `{:?}`. -/
structure Formats where
  whole : Float32 → String
  tenth : Float32 → String
  status : ModelStatus → String

def LlmService.accumulate (accumulated : String) :
    List GenerationEvent → String
  | [] => accumulated
  | .token token :: rest => accumulate (accumulated ++ token) rest
  | .completed :: _ => accumulated

/-! ## Errors and parts of arguments -/

/-- What a handler gives: a result, or a value that describes an error. -/
abbrev Handled := Except OrderedValue OrderedValue

/-- `json!` with the members `code` and `message`. -/
def errorValue (code : Int32) (message : String) : OrderedValue :=
  .ofMembers
    [("code", .ofNumber (ProgressToken.numberOfInt64 code.toInt64)),
      ("message", .ofString message)]

/-- `ok_or_else`. -/
def okOr {α : Type} (found : Option α) (error : OrderedValue) :
    Except OrderedValue α :=
  match found with
  | some value => .ok value
  | none => .error error

/-- `value[name]`, which is `null` where there is no such member. -/
def index (value : OrderedValue) (name : String) : OrderedValue :=
  (value.get name).getD ⟨.null, .null⟩

/-- `value[name].as_str()`. -/
def textAt (value : OrderedValue) (name : String) : Option String :=
  (index value name).val.asStr

/-- `Value::as_f64`, as an `f32`. -/
def asF32 : Value → Option Float32
  | .number (.posInt value) => some value.toFloat.toFloat32
  | .number (.negInt value _ _) => some (Float.ofInt value).toFloat32
  | .number (.float bits) => some (Float.ofBits bits).toFloat32
  | _ => none

/-- The content of a result with one text. -/
def textContent (text : String) : OrderedValue :=
  .ofList [.ofMembers [("type", .ofString "text"), ("text", .ofString text)]]

/-! ## Requests that are answered without the language model -/

def handleInitialize : Handled :=
  .ok (.ofMembers
    [("protocolVersion", .ofString "2024-11-05"),
      ("capabilities", .ofMembers [("tools",
        .ofMembers [("list_changed", ⟨.bool false, .bool false⟩)])]),
      ("serverInfo", .ofMembers
        [("name", .ofString "litert-mcp-server"),
          ("version", .ofString "0.2.0")]),
      ("instructions", .ofString
        "LiteRT MCP Server - On-device LLM capabilities via MCP protocol")])

/-- The fields of a listed tool that are not left out. -/
structure ListedTool where
  name : String
  description : String
  inputSchema : OrderedValue
  readOnly : Bool

def ListedTool.tool (self : ListedTool) : Tool :=
  ⟨self.name, self.description, some self.inputSchema.val, none,
    some self.readOnly, none⟩

def ListedTool.toValue (self : ListedTool) : OrderedValue where
  val := self.tool.toValue
  property := by
    refine .object (sorted_record _) ?_
    intro member hmember
    have hgiven := mem_collectMembers hmember
    simp only [ListedTool.tool, List.filterMap_cons, Option.map_some,
      Option.map_none, List.filterMap_nil, List.mem_cons, List.not_mem_nil,
      or_false] at hgiven
    rcases hgiven with rfl | rfl | rfl | rfl
    · exact .str self.name
    · exact .str self.description
    · exact self.inputSchema.property
    · exact .bool self.readOnly

/-- A declared property: its type, its description and what follows. -/
def property (type description : String)
    (others : List (String × OrderedValue)) : OrderedValue :=
  .ofMembers ([("type", .ofString type),
    ("description", .ofString description)] ++ others)

/-- The schema of an object with these properties. -/
def objectSchema (properties : List (String × OrderedValue))
    (others : List (String × OrderedValue)) : OrderedValue :=
  .ofMembers ([("type", .ofString "object"),
    ("properties", .ofMembers properties)] ++ others)

def required (names : List String) : String × OrderedValue :=
  ("required", .ofList (names.map .ofString))

/-- The default temperature, 0.7. -/
def defaultTemperature : UInt64 := 0x3FE6666666666666

def textGeneration : ListedTool where
  name := "text_generation"
  description := "Generate text using on-device LLM (LiteRT)"
  inputSchema := objectSchema
    [("prompt", property "string" "The prompt for text generation" []),
      ("temperature", property "number" "Sampling temperature (0.0-1.0)"
        [("default", .ofNumber (.float defaultTemperature))]),
      ("max_tokens", property "number" "Maximum tokens to generate"
        [("default", .ofNumber (.posInt 512))])]
    [required ["prompt"]]
  readOnly := false

def toolPrediction : ListedTool where
  name := "tool_prediction"
  description := "Predict which tool to use for a query using LiteRT"
  inputSchema := objectSchema
    [("query", property "string" "The user query to predict tool for" []),
      ("available_tools", property "array" "List of available tool names"
        [("items", .ofMembers [("type", .ofString "string")])])]
    [required ["query", "available_tools"]]
  readOnly := true

def modelInfo : ListedTool where
  name := "model_info"
  description := "Get information about the loaded LiteRT model"
  inputSchema := objectSchema [] []
  readOnly := true

def cacheStatus : ListedTool where
  name := "cache_status"
  description := "Check the status of the model cache"
  inputSchema := objectSchema [] []
  readOnly := true

def tools : List ListedTool :=
  [textGeneration, toolPrediction, modelInfo, cacheStatus]

def handleToolsList : Handled :=
  .ok (.ofMembers [("tools", .ofList (tools.map ListedTool.toValue))])

/-! ## Calls of tools -/

section Calls

variable (formats : Formats) (llmService : Option LlmService)

/-- `llm_service.read()`. -/
def readService : Except OrderedValue LlmService :=
  okOr llmService (errorValue (-32603) "LLM service not initialized")

def handleTextGeneration (args : OrderedValue) : Handled := do
  let service ← readService llmService
  let prompt ← okOr (textAt args "prompt")
    (errorValue (-32602) "Missing prompt")
  match service.startGeneration
      ⟨prompt, asF32 (index args "temperature").val,
        (index args "max_tokens").val.asU64⟩ with
  | .ok events =>
      .ok (.ofMembers
        [("content", textContent (LlmService.accumulate "" events))])
  | .error e => .error (errorValue (-32603) ("Generation failed: " ++ e))

/-- The context string with the available tools. -/
def predictionContext (query : String) (available : List Value) : String :=
  "User query: " ++ query ++ "\nAvailable tools: " ++
    ", ".intercalate (available.filterMap Value.asStr)

def predictionText (outcome : PredictionOutcome) : String :=
  "Predicted tool: " ++ outcome.prediction.toolName ++ " (confidence: " ++
    formats.whole (outcome.prediction.confidence * 100.0) ++
    "%)\nReasoning: " ++ outcome.prediction.reasoning

def predictionResult (outcome : PredictionOutcome) : OrderedValue :=
  .ofMembers
    [("content", textContent (predictionText formats outcome)),
      ("prediction", .ofMembers
        [("tool", .ofString outcome.prediction.toolName),
          ("confidence", ⟨Llm.floatValue outcome.prediction.confidence,
            Llm.floatValue_normal _⟩),
          ("record_id", .ofString outcome.recordId)])]

def handleToolPrediction (args : OrderedValue) : Handled := do
  let service ← readService llmService
  let query ← okOr (textAt args "query") (errorValue (-32602) "Missing query")
  let available ← okOr (index args "available_tools").val.asArray
    (errorValue (-32602) "Missing or invalid available_tools")
  match service.predictTool (predictionContext query available) with
  | .ok outcome => .ok (predictionResult formats outcome)
  | .error e => .error (errorValue (-32603) ("Prediction failed: " ++ e))

/-- A result with a text and the status of the model. -/
def statusResult (text : String) (status : ModelStatus) : OrderedValue :=
  .ofMembers [("content", textContent text),
    ("status", .ofString (formats.status status))]

def handleModelInfo : Handled := do
  let service ← readService llmService
  .ok (statusResult formats
    ("Model status: " ++ formats.status service.modelStatus)
    service.modelStatus)

def cacheText : ModelStatus → Option DownloadProgress → String
  | _, some progress =>
      "Model downloading: " ++ progress.modelName ++ " (" ++
        formats.tenth progress.percentage ++ "%)"
  | .ready, none => "Model ready and loaded"
  | .loading, none => "Model loading..."
  | .notLoaded, none => "No model loaded"
  | .error err, none => "Model error: " ++ err

def handleCacheStatus : Handled := do
  let service ← readService llmService
  .ok (statusResult formats
    (cacheText formats service.modelStatus service.downloadProgress)
    service.modelStatus)

/-- The call of a tool by its name. -/
def callTool (toolName : String) (arguments : OrderedValue) : Handled :=
  if toolName = "text_generation" then
    handleTextGeneration llmService arguments
  else if toolName = "tool_prediction" then
    handleToolPrediction formats llmService arguments
  else if toolName = "model_info" then handleModelInfo formats llmService
  else if toolName = "cache_status" then handleCacheStatus formats llmService
  else .error (errorValue (-32602) ("Unknown tool: " ++ toolName))

def handleToolsCall (params : Option OrderedValue) : Handled := do
  let params ← okOr params (errorValue (-32602) "Missing params")
  let toolName ← okOr (textAt params "name")
    (errorValue (-32602) "Missing tool name")
  callTool formats llmService toolName (index params "arguments")

end Calls

/-! ## Requests and notifications -/

section Requests

variable (formats : Formats) (llmService : Option LlmService)

def handleMethod (method : String) (params : Option OrderedValue) : Handled :=
  if method = "initialize" then handleInitialize
  else if method = "tools/list" then handleToolsList
  else if method = "tools/call" then
    handleToolsCall formats llmService params
  else if method = "resources/list" then
    .ok (.ofMembers [("resources", .ofList [])])
  else if method = "prompts/list" then
    .ok (.ofMembers [("prompts", .ofList [])])
  else .error (errorValue (-32601) ("Method not found: " ++ method))

/-- The error of a response, read back from the value that describes it. -/
def errorOf (error : OrderedValue) : JsonRpcError where
  code :=
    match (index error "code").val with
    | .number number => (number.asI64.getD (-32603)).toInt32
    | _ => -32603
  message := (textAt error "message").getD "Internal error"
  data := none

def handleRequest (req : JsonRpcRequest) : JsonRpcResponse :=
  match handleMethod formats llmService req.method req.params with
  | .ok result => ⟨"2.0", req.id, some result, none⟩
  | .error error => ⟨"2.0", req.id, none, some (errorOf error)⟩

end Requests

/-- What a notification is answered with. -/
def okResponse : JsonRpcResponse :=
  ⟨"2.0", .null, some (.ofMembers [("status", .ofString "ok")]), none⟩

/-! ## The body of a reply -/

/-- One event with the text of the response as its data. -/
def sseData (floats : FloatText) (response : JsonRpcResponse) : String :=
  "data: " ++ (response.serialize floats).print ++ "\n\n"

end LitertServer
end Transport
end Acdp
