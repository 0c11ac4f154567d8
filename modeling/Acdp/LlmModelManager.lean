import Acdp.JsonReadBack
import Acdp.RankedChoice
import Acdp.StatefulAttempts
import Acdp.StepMachine
import Acdp.TextCase
import Acdp.TextOperations
import Acdp.TextPrefix

/-!
# The model manager

Downloads and loads write the status, the model and the progress one after the
other, with returns in between; what was written before a return stays.  All
that a call learns from the network, the files and the engine is given with
the call.
-/

namespace Acdp

namespace Json

def Value.asArray : Value → Option (List Value)
  | .array elements => some elements
  | _ => none

def Value.asU64 : Value → Option UInt64
  | .number (.posInt value) => some value
  | _ => none

end Json

namespace Llm

open Attempt
open Json (Value)
open Text (CaseTables)

/-! ## Paths -/

abbrev Path := String

namespace Path

/-- The names of the path backwards, from its last one on. -/
def backwards (path : Path) : List String :=
  (path.splitOn "/").reverse.dropWhile
    (fun part => decide (part = "" ∨ part = "."))

def fileName (path : Path) : Option String :=
  (backwards path).head?.filter (fun name => decide (name ≠ ".."))

/-- The name up to its last point and what follows that; a point at the
beginning does not count. -/
def splitName (name : String) : String × Option String :=
  let reversed := name.toList.reverse
  let suffix := reversed.takeWhile (· ≠ '.')
  match reversed.drop suffix.length with
  | [] => (name, none)
  | [_] => (name, none)
  | _ :: stem =>
      (String.ofList stem.reverse, some (String.ofList suffix.reverse))

def fileStem (path : Path) : Option String :=
  (fileName path).map (fun name => (splitName name).1)

def extension (path : Path) : Option String :=
  (fileName path).bind (fun name => (splitName name).2)

def join (path : Path) (part : String) : Path :=
  if Text.startsWith part "/" then part
  else if path = "" ∨ path.toList.getLast? = some '/' then path ++ part
  else path ++ "/" ++ part

def withExtension (path : Path) (extension : String) : Path :=
  match fileStem path with
  | none => path
  | some stem =>
      "/".intercalate
        ((stem ++ "." ++ extension) :: (backwards path).tail).reverse

end Path

/-! ## Configuration -/

inductive LlmError where
  | bindingError (message : String)
  | runtimeError (message : String)
  | serializationError (message : String)
  | configError (message : String)
  | predictionError (message : String)
  | databaseError (message : String)
deriving DecidableEq

namespace LlmError

def display : LlmError → String
  | .bindingError message => "LiteRT-LM binding error: " ++ message
  | .runtimeError message => "LiteRT-LM runtime error: " ++ message
  | .serializationError message => "Serialization error: " ++ message
  | .configError message => "Invalid configuration: " ++ message
  | .predictionError message => "Prediction error: " ++ message
  | .databaseError message => "Database error: " ++ message

end LlmError

inductive LiteRTBackend where
  | cpu
  | gpu
deriving DecidableEq

structure ModelConfig where
  preferredModel : Option String
  cacheDir : String

structure LlmConfig where
  backend : String
  semanticModelPath : Option String

structure AppConfig where
  model : ModelConfig
  llm : LlmConfig

def expandPath (home : Option Path) (path : String) : Except LlmError Path :=
  if Text.startsWith path "~/" then
    match home with
    | none => .error (.configError "Cannot determine home directory")
    | some home => .ok (Path.join home (String.ofList (path.toList.drop 2)))
  else if Text.startsWith path "~" then
    match home with
    | none => .error (.configError "Cannot determine home directory")
    | some home => .ok (Path.join home (String.ofList (path.toList.drop 1)))
  else .ok path

namespace LlmConfig

def semanticModelPathExpanded (self : LlmConfig) (home : Option Path) :
    Except LlmError (Option Path) :=
  match self.semanticModelPath with
  | some path => (expandPath home path).map some
  | none => .ok none

end LlmConfig

namespace AppConfig

variable (self : AppConfig)

def default : AppConfig where
  model := ⟨none, "~/.litert-lm/models"⟩
  llm := ⟨"gpu", some "~/.litert-lm/models/gemma3-1b-it-int4.litertlm"⟩

def cacheDir (home : Option Path) : Except LlmError Path :=
  expandPath home self.model.cacheDir

def backend (tables : CaseTables) : Except LlmError LiteRTBackend :=
  if tables.toLowercase self.llm.backend = "cpu" then .ok .cpu
  else if tables.toLowercase self.llm.backend = "gpu" then .ok .gpu
  else .error (.configError ("Invalid backend: " ++ self.llm.backend))

end AppConfig

/-! ## What the calls find outside -/

structure ModelInfo where
  name : String
  path : Path
  sizeBytes : UInt64
  isCached : Bool

/-- An entry of the cache directory: for a directory the paths in it and its
size, for a file its length. -/
structure CacheEntry where
  path : Path
  isDir : Bool
  inside : Except String (List (Except String Path))
  directorySize : Except LlmError UInt64
  length : Option UInt64

structure CacheFiles where
  present : Bool
  entries : Except String (List (Except String CacheEntry))

structure HttpStatus where
  code : ℕ
  text : String

def HttpStatus.isSuccess (self : HttpStatus) : Bool :=
  decide (200 ≤ self.code ∧ self.code < 300)

structure ApiReply where
  status : HttpStatus
  json : Except String Value

/-- A part of the body: what comes of receiving it and of writing it. -/
structure DownloadChunk where
  received : Except String UInt64
  written : Except String Unit

structure DownloadReply where
  status : HttpStatus
  contentLength : Option UInt64
  chunks : List DownloadChunk

/-- The answers that one call gets; the cache is listed twice at most. -/
structure ModelWorld (Engine : Type) where
  home : Option Path
  createDirAll : Path → Except String Unit
  send : String → Except String DownloadReply
  createFile : Path → Except String Unit
  flush : Except String Unit
  rename : Path → Path → Except String Unit
  pathExists : Path → Bool
  cache : Path → CacheFiles
  cacheAgain : Path → CacheFiles
  hfToken : Option String
  huggingface : String → Except String ApiReply
  enableKaggleFetch : Bool
  kaggle : Except String ApiReply
  newEngine : Path → LiteRTBackend → Except LlmError Engine

section Listing

variable (tables : CaseTables)

def isModelFile (path : Path) : Bool :=
  let name := (Path.fileName path).getD ""
  if Text.contains name ".litertlm_" && decide (".bin".toList <:+ name.toList)
  then false
  else
    match Path.extension path with
    | some extension =>
        decide (tables.toLowercase extension ∈
          ["gguf", "safetensors", "pt", "pth", "onnx", "litertlm"])
    | none => false

def isModelDirectory : List (Except String Path) → Except LlmError Bool
  | [] => .ok false
  | .error error :: _ =>
      .error (.configError ("Failed to read entry: " ++ error))
  | .ok path :: rest =>
      if isModelFile tables path then .ok true else isModelDirectory rest

namespace CacheEntry

variable (self : CacheEntry)

def modelInfo (name : Option String) (size : UInt64) : ModelInfo where
  name := name.getD "unknown"
  path := self.path
  sizeBytes := size
  isCached := true

def model : Except LlmError (Option ModelInfo) :=
  if self.isDir then
    match self.inside with
    | .error error =>
        .error (.configError ("Failed to read directory: " ++ error))
    | .ok paths => do
        let found ← isModelDirectory tables paths
        if found then
          let size ← self.directorySize
          pure (some (self.modelInfo (Path.fileName self.path) size))
        else pure none
  else if isModelFile tables self.path then
    .ok (some (self.modelInfo (Path.fileStem self.path) (self.length.getD 0)))
  else .ok none

end CacheEntry

def modelsOf : List (Except String CacheEntry) →
    Except LlmError (List ModelInfo)
  | [] => .ok []
  | .error error :: _ =>
      .error (.configError ("Failed to read directory entry: " ++ error))
  | .ok entry :: rest => do
      let found ← entry.model tables
      let models ← modelsOf rest
      pure (found.toList ++ models)

def listCachedModels (config : AppConfig) (home : Option Path)
    (cache : Path → CacheFiles) : Except LlmError (List ModelInfo) := do
  let cacheDir ← config.cacheDir home
  if (cache cacheDir).present then
    match (cache cacheDir).entries with
    | .error error =>
        .error (.configError ("Failed to read cache directory: " ++ error))
    | .ok entries => modelsOf tables entries
  else pure []

def popularModel (name : String) (size : UInt64) : ModelInfo where
  name := name
  path := ""
  sizeBytes := size
  isCached := false

def popularLitertModels : List ModelInfo :=
  [popularModel "gemma3-1b" 584417280,
    popularModel "gemma-3n-E2B" 2500000000,
    popularModel "gemma-3n-E4B" 4500000000,
    popularModel "phi-4-mini" 3800000000,
    popularModel "qwen2.5-1.5b" 1600000000]

def mentionsLitert (tag : Value) : Bool :=
  (tag.asStr).any (fun name =>
    Text.contains name "litert" || Text.contains name "int4" ||
      Text.contains name "tflite")

def huggingfaceModel (item : Value) : Option ModelInfo :=
  ((item.get "id").bind Value.asStr).bind fun modelId =>
    let isLitert :=
      ((item.get "tags").bind Value.asArray).any (List.any · mentionsLitert)
    if isLitert || Text.contains modelId "litert" ||
        Text.contains modelId "int4" then
      some (popularModel modelId 0)
    else none

/-- The reply of a listing, if it is one. -/
def replyJson (service : String) (answer : Except String ApiReply) :
    Except LlmError Value :=
  match answer with
  | .error error =>
      .error (.configError
        ("Failed to fetch " ++ service ++ " models: " ++ error))
  | .ok reply =>
      if reply.status.isSuccess then
        reply.json.mapError (fun error =>
          .configError
            ("Failed to parse " ++ service ++ " response: " ++ error))
      else
        .error (.configError
          (service ++ " API returned status: " ++ reply.status.text))

def fetchHuggingfaceModels (answer : Except String ApiReply) :
    Except LlmError (List ModelInfo) :=
  (replyJson "HuggingFace" answer).map fun json =>
    (json.asArray.getD []).filterMap huggingfaceModel

def kaggleModel (item : Value) : Option ModelInfo :=
  ((item.get "slug").bind Value.asStr).bind fun name =>
    ((item.get "ownerSlug").bind Value.asStr).map fun owner =>
      popularModel (owner ++ "/" ++ name)
        (((item.get "totalBytes").bind Value.asU64).getD 0)

def fetchKaggleModels (answer : Except String ApiReply) :
    Except LlmError (List ModelInfo) :=
  (replyJson "Kaggle" answer).map fun json =>
    (((json.get "models").bind Value.asArray).getD []).filterMap kaggleModel

variable {Engine : Type} (config : AppConfig) (world : ModelWorld Engine)

/-- Models that a service adds, if it is asked and answers. -/
def addedModels (asked : Bool) (answer : Except LlmError (List ModelInfo)) :
    List ModelInfo :=
  if asked then answer.toOption.getD [] else []

def listAvailableModels : Except LlmError (List ModelInfo) := do
  let cached ← listCachedModels tables config world.home world.cacheAgain
  let token := world.hfToken.getD ""
  pure (cached ++ popularLitertModels ++
    addedModels (token ≠ "")
      (fetchHuggingfaceModels (world.huggingface token)) ++
    addedModels world.enableKaggleFetch (fetchKaggleModels world.kaggle))

def getSmallestModel : Except LlmError (Option ModelInfo) := do
  let models ← listAvailableModels tables config world
  pure (Ranked.minByKey (fun model => model.sizeBytes.toNat) models)

end Listing

/-! ## The manager -/

inductive ModelStatus where
  | notLoaded
  | loading
  | ready
  | error (message : String)
deriving DecidableEq

structure DownloadProgress where
  modelName : String
  bytesDownloaded : UInt64
  totalBytes : Option UInt64
  percentage : Float32

inductive ModelStatusUpdate where
  | statusChanged (status : ModelStatus)
  | downloadProgress (progress : DownloadProgress)
  | modelReady (name : String) (path : Path)

/-- `updates` is what has been broadcast. -/
structure ModelManager (Engine : Type) where
  config : AppConfig
  currentModel : Option Engine
  currentModelPath : Option Path
  status : ModelStatus
  downloadProgress : Option DownloadProgress
  updates : List ModelStatusUpdate

namespace ModelManager

variable {Engine : Type}

def new (config : AppConfig) : ModelManager Engine where
  config := config
  currentModel := none
  currentModelPath := none
  status := .notLoaded
  downloadProgress := none
  updates := []

abbrev Managing (Engine Value : Type) :=
  EStateM LlmError (ModelManager Engine) Value

def broadcast (update : ModelStatusUpdate) : Managing Engine Unit :=
  modify fun self => { self with updates := self.updates ++ [update] }

def setStatus (status : ModelStatus) : Managing Engine Unit := do
  modify fun self => { self with status := status }
  broadcast (.statusChanged status)

/-- An operation whose error becomes one of the configuration. -/
def attempt {Value : Type} (failure : String) (answer : Except String Value) :
    Managing Engine Value :=
  fromAnswer (answer.mapError (fun error => .configError (failure ++ error)))

def downloadUrl (modelName : String) : String :=
  if Text.startsWith modelName "google/" then
    "https://www.kaggle.com/models/" ++ modelName ++ "/download"
  else "https://huggingface.co/" ++ modelName ++ "/resolve/main/model.gguf"

def safeName (modelName : String) : String :=
  modelName.map (fun char => if char = '/' then '_' else char)

def modelPath (cacheDir : Path) (modelName : String) : Path :=
  Path.join cacheDir (safeName modelName)

def tempPath (cacheDir : Path) (modelName : String) : Path :=
  Path.withExtension (modelPath cacheDir modelName) "tmp"

def percentage (downloaded : UInt64) : Option UInt64 → Float32
  | some total => downloaded.toFloat32 / total.toFloat32 * 100.0
  | none => 0.0

def receiveChunks (modelName : String) (totalBytes : Option UInt64)
    (downloaded : UInt64) : List DownloadChunk → Managing Engine UInt64
  | [] => pure downloaded
  | chunk :: rest => do
      let length ← attempt "Download stream error: " chunk.received
      attempt "Failed to write chunk: " chunk.written
      let downloaded := downloaded + length
      let progress : DownloadProgress :=
        ⟨modelName, downloaded, totalBytes, percentage downloaded totalBytes⟩
      modify fun self => { self with downloadProgress := some progress }
      broadcast (.downloadProgress progress)
      receiveChunks modelName totalBytes downloaded rest

def checkReply (reply : DownloadReply) : Managing Engine Unit :=
  if reply.status.isSuccess then pure ()
  else
    throw (.configError ("Download failed with status: " ++ reply.status.text))

section Calls

variable (tables : CaseTables) (world : ModelWorld Engine)

/-- What is left of a download once the reply is there. -/
def receiveReply (modelName : String) (cacheDir : Path)
    (reply : DownloadReply) : Managing Engine DownloadProgress := do
  checkReply reply
  attempt "Failed to create temp file: "
    (world.createFile (tempPath cacheDir modelName))
  let downloaded ←
    receiveChunks modelName reply.contentLength 0 reply.chunks
  attempt "Failed to flush file: " world.flush
  attempt "Failed to rename file: "
    (world.rename (tempPath cacheDir modelName) (modelPath cacheDir modelName))
  modify fun self => { self with downloadProgress := none }
  setStatus .ready
  broadcast (.modelReady modelName (modelPath cacheDir modelName))
  pure ⟨modelName, downloaded, reply.contentLength, 100.0⟩

def downloadModel (modelName : String) : Managing Engine DownloadProgress := do
  setStatus .loading
  let self ← get
  let cacheDir ← fromAnswer (self.config.cacheDir world.home)
  attempt "Failed to create cache dir: " (world.createDirAll cacheDir)
  let reply ←
    attempt "Failed to start download: " (world.send (downloadUrl modelName))
  receiveReply world modelName cacheDir reply

/-- The engine on the graphics processor, or else on the processor. -/
def engineResult (path : Path) : LiteRTBackend → Except LlmError Engine
  | .gpu =>
      match world.newEngine path .gpu with
      | .ok engine => .ok engine
      | .error gpuError =>
          (world.newEngine path .cpu).mapError fun cpuError =>
            .runtimeError ("GPU backend failed: " ++ gpuError.display ++
              ". CPU fallback also failed: " ++ cpuError.display)
  | .cpu => world.newEngine path .cpu

def loadModel (path : Path) : Managing Engine Unit := do
  setStatus .loading
  let self ← get
  let backend ← fromAnswer (self.config.backend tables)
  match engineResult world path backend with
  | .ok engine => do
      modify fun self =>
        { self with
          currentModel := some engine
          currentModelPath := some path
          status := .ready }
      broadcast (.statusChanged .ready)
      broadcast (.modelReady ((Path.fileName path).getD "unknown") path)
  | .error error => do
      let message := "Failed to load model: " ++ error.display
      setStatus (.error message)
      throw (.runtimeError message)

/-- The configured path, where it can be expanded and is there. -/
def semanticPath (config : AppConfig) : Option Path :=
  match config.llm.semanticModelPathExpanded world.home with
  | .ok (some path) => if world.pathExists path then some path else none
  | _ => none

def modelToUse (config : AppConfig) (models : List ModelInfo) :
    Option ModelInfo :=
  match config.model.preferredModel with
  | some preferred =>
      (models.find? (fun model => model.name = preferred)).or models.head?
  | none => models.head?

def modelToDownload (config : AppConfig) : Except LlmError String :=
  match config.model.preferredModel with
  | some preferred => .ok preferred
  | none =>
      match getSmallestModel tables config world with
      | .ok (some smallest) => .ok smallest.name
      | .ok none => .error (.configError "No models available")
      | .error error => .error error

def ensureModelAvailable : Managing Engine Unit := do
  let self ← get
  match self.currentModel with
  | some _ => pure ()
  | none =>
      match semanticPath world self.config with
      | some path => loadModel tables world path
      | none => do
          let models ← fromAnswer
            (listCachedModels tables self.config world.home world.cache)
          match modelToUse self.config models with
          | some model => loadModel tables world model.path
          | none => do
              let name ← fromAnswer (modelToDownload tables world self.config)
              let _ ← downloadModel world name
              let cacheDir ← fromAnswer (self.config.cacheDir world.home)
              loadModel tables world (Path.join cacheDir name)

end Calls

inductive ModelCall where
  | downloadModel (modelName : String)
  | loadModel (path : Path)
  | ensureModelAvailable

/-- A call with the answers that it gets. -/
structure CallIn (Engine : Type) where
  call : ModelCall
  world : ModelWorld Engine

def perform (tables : CaseTables) (made : CallIn Engine) :
    Managing Engine Unit :=
  match made.call with
  | .downloadModel modelName =>
      downloadModel made.world modelName >>= fun _ => pure ()
  | .loadModel path => loadModel tables made.world path
  | .ensureModelAvailable => ensureModelAvailable tables made.world

def machine (tables : CaseTables) :
    StepMachine (ModelManager Engine) (CallIn Engine) where
  step self made := some (final (perform tables made) self)

end ModelManager

end Llm
end Acdp
