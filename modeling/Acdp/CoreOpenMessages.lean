import Acdp.CoreClientLifecycle
import Acdp.CoreTypedMessages
import Acdp.JsonFlattening

/-!
# Typed messages that are open to more members

Implementations, capabilities, the messages of the initialization, updates of
resources and requests for a completion.  Beside their own fields they carry a
map of whatever else a caller puts in, and both are written into one object.
-/

namespace Acdp
namespace Core
namespace Messages

open Json

/-- The texts of numbers, and the order in which hash maps are gone
through. -/
structure MessageSerde extends NumberText where
  order : MapOrder

variable (serde : MessageSerde)

/-- `HashMap<String, serde_json::Value>`. -/
abbrev OpenMap := StringMap OrderedValue

def MessageSerde.value : Codec OrderedValue := .value serde.toNumberText

/-! ## Versions of the protocol -/

inductive ProtocolVersion where
  | v20241105
  | v20250326
  | custom (version : String)
  deriving DecidableEq, Repr

namespace ProtocolVersion

def asStr : ProtocolVersion → String
  | .v20241105 => "2024-11-05"
  | .v20250326 => "2025-03-26"
  | .custom version => version

def variants : List (Variant ProtocolVersion) :=
  [.unit "2024-11-05" .v20241105, .unit "2025-03-26" .v20250326]

/-- The named variants are tried first, and any other text is taken as it
is. -/
def read (depth : ℕ) (doc : Json) : Option ProtocolVersion :=
  (readTagged variants depth doc).or ((asString doc).map .custom)

/-- A custom version does not go by the name of a known one. -/
def Proper (self : ProtocolVersion) : Prop :=
  ∀ version, self = .custom version →
    version ≠ "2024-11-05" ∧ version ≠ "2025-03-26"

theorem read_str (depth : ℕ) (text : String) :
    read depth (.str text) =
      if text = "2024-11-05" then some .v20241105
      else if text = "2025-03-26" then some .v20250326
      else some (.custom text) := by
  have hfind : findVariant variants text =
      if text = "2024-11-05" then some (.unit "2024-11-05" .v20241105)
      else if text = "2025-03-26" then some (.unit "2025-03-26" .v20250326)
      else none := by
    unfold findVariant variants
    rw [List.find?_cons, List.find?_cons, List.find?_nil]
    by_cases hfirst : text = "2024-11-05"
    · simp [Variant.unit, hfirst]
    · by_cases hsecond : text = "2025-03-26"
      · simp [Variant.unit, hsecond]
      · simp [Variant.unit, hfirst, hsecond, beq_false_of_ne (Ne.symm hfirst),
          beq_false_of_ne (Ne.symm hsecond)]
  unfold read readTagged
  dsimp only
  rw [hfind]
  split_ifs
  · rfl
  · rfl
  · rfl

theorem read_write_iff (depth : ℕ) (self : ProtocolVersion) :
    read depth (.str self.asStr) = some self ↔ self.Proper := by
  rw [read_str]
  cases self with
  | v20241105 => exact iff_of_true rfl nofun
  | v20250326 => exact iff_of_true rfl nofun
  | custom version =>
      simp only [asStr, Proper, custom.injEq, forall_eq']
      by_cases hfirst : version = "2024-11-05"
      · simp [hfirst]
      · by_cases hsecond : version = "2025-03-26"
        · simp [hsecond]
        · simp [hfirst, hsecond]

def codec : Codec ProtocolVersion where
  write self := .str self.asStr
  read := read
  Kept _ := Proper
  proper _ := .str _
  read_write_iff := read_write_iff

end ProtocolVersion

/-! ## Implementations -/

structure Implementation where
  name : String
  version : String
  metadata : OpenMap

namespace Implementation

def new (name version : String) : Implementation := ⟨name, version, .empty⟩

def withMetadata (self : Implementation) (key : String)
    (value : OrderedValue) : Implementation :=
  { self with metadata := self.metadata.insert key value }

def fields : Fields (String × String) :=
  (Fields.required "name" .string).and (.required "version" .string)

def codec : Codec Implementation :=
  .flattened serde.order fields ⟨by simp [fields]⟩ serde.value
    { toFun := fun ((name, version), metadata) => ⟨name, version, metadata⟩
      invFun := fun self => ((self.name, self.version), self.metadata)
      left_inv := fun _ => rfl
      right_inv := fun _ => rfl }

end Implementation

/-! ## Capabilities -/

/-- Capabilities with one flag, which is left out where it is not set. -/
def flagField (name : String) : Fields (Option Bool) := .skipped name .bool

def ToolCapabilities.codec : Codec ToolCapabilities :=
  .record (flagField "list_changed") ⟨by simp [flagField]⟩
    { toFun := ToolCapabilities.mk
      invFun := ToolCapabilities.listChanged
      left_inv := fun _ => rfl
      right_inv := fun _ => rfl }

def ResourceCapabilities.codec : Codec ResourceCapabilities :=
  .record ((flagField "subscribe").and (flagField "list_changed"))
    ⟨by simp [flagField]⟩
    { toFun := fun (subscribe, listChanged) => ⟨subscribe, listChanged⟩
      invFun := fun self => (self.subscribe, self.listChanged)
      left_inv := fun _ => rfl
      right_inv := fun _ => rfl }

def PromptCapabilities.codec : Codec PromptCapabilities :=
  .record (flagField "list_changed") ⟨by simp [flagField]⟩
    { toFun := PromptCapabilities.mk
      invFun := PromptCapabilities.listChanged
      left_inv := fun _ => rfl
      right_inv := fun _ => rfl }

def SamplingCapabilities.codec : Codec SamplingCapabilities :=
  .record (flagField "enabled") ⟨by simp [flagField]⟩
    { toFun := SamplingCapabilities.mk
      invFun := SamplingCapabilities.enabled
      left_inv := fun _ => rfl
      right_inv := fun _ => rfl }

def LoggingCapabilities.codec : Codec LoggingCapabilities :=
  .record (flagField "level") ⟨by simp [flagField]⟩
    { toFun := LoggingCapabilities.mk
      invFun := LoggingCapabilities.level
      left_inv := fun _ => rfl
      right_inv := fun _ => rfl }

def RootsCapabilities.codec : Codec RootsCapabilities :=
  .record (flagField "list_changed") ⟨by simp [flagField]⟩
    { toFun := RootsCapabilities.mk
      invFun := RootsCapabilities.listChanged
      left_inv := fun _ => rfl
      right_inv := fun _ => rfl }

/-- The fields of the standard capabilities, which are flattened too. -/
def StandardCapabilities.members :
    Fields (Option ToolCapabilities × Option ResourceCapabilities ×
      Option PromptCapabilities × Option SamplingCapabilities ×
      Option LoggingCapabilities × Option RootsCapabilities) :=
  (Fields.skipped "tools" ToolCapabilities.codec).and <|
    (Fields.skipped "resources" ResourceCapabilities.codec).and <|
    (Fields.skipped "prompts" PromptCapabilities.codec).and <|
    (Fields.skipped "sampling" SamplingCapabilities.codec).and <|
    (Fields.skipped "logging" LoggingCapabilities.codec).and <|
    Fields.skipped "roots" RootsCapabilities.codec

structure Capabilities where
  standard : StandardCapabilities
  custom : OpenMap

namespace Capabilities

/-- `Default`. -/
def default : Capabilities := ⟨⟨none, none, none, none, none, none⟩, .empty⟩

/-- With nothing but flattened fields, all members are gathered before any of
them is read. -/
def codec : Codec Capabilities :=
  .buffered serde.toFloatText
    (.flattened serde.order StandardCapabilities.members
      ⟨by simp [StandardCapabilities.members]⟩ serde.value
      { toFun := fun ((tools, resources, prompts, sampling, logging, roots),
            custom) =>
          ⟨⟨tools, resources, prompts, sampling, logging, roots⟩, custom⟩
        invFun := fun self =>
          ((self.standard.tools, self.standard.resources,
            self.standard.prompts, self.standard.sampling,
            self.standard.logging, self.standard.roots), self.custom)
        left_inv := fun _ => rfl
        right_inv := fun _ => rfl })

end Capabilities

/-! ## Initialization -/

structure InitializeRequest where
  protocolVersion : ProtocolVersion
  capabilities : Capabilities
  clientInfo : Implementation

namespace InitializeRequest

def new (protocolVersion : ProtocolVersion) (capabilities : Capabilities)
    (clientInfo : Implementation) : InitializeRequest :=
  ⟨protocolVersion, capabilities, clientInfo⟩

def basic (clientName clientVersion : String) : InitializeRequest :=
  new .v20250326 .default (.new clientName clientVersion)

def withClientMetadata (self : InitializeRequest) (key : String)
    (value : OrderedValue) : InitializeRequest :=
  { self with clientInfo := self.clientInfo.withMetadata key value }

def codec : Codec InitializeRequest :=
  .record
    ((Fields.required "protocolVersion" ProtocolVersion.codec).and <|
      (Fields.required "capabilities" (Capabilities.codec serde)).and <|
      Fields.required "clientInfo" (Implementation.codec serde))
    ⟨by simp⟩
    { toFun := fun (protocolVersion, capabilities, clientInfo) =>
        ⟨protocolVersion, capabilities, clientInfo⟩
      invFun := fun self =>
        (self.protocolVersion, self.capabilities, self.clientInfo)
      left_inv := fun _ => rfl
      right_inv := fun _ => rfl }

end InitializeRequest

abbrev InitializeResponse :=
  Core.InitializeResponse ProtocolVersion Capabilities Implementation

namespace InitializeResponse

def new (protocolVersion : ProtocolVersion) (capabilities : Capabilities)
    (serverInfo : Implementation) (instructions : Option String) :
    InitializeResponse :=
  ⟨protocolVersion, capabilities, serverInfo, instructions⟩

def basic (serverName serverVersion : String) : InitializeResponse :=
  new .v20250326 .default (.new serverName serverVersion) none

def withInstructions (self : InitializeResponse) (instructions : String) :
    InitializeResponse :=
  { self with instructions := some instructions }

def withServerMetadata (self : InitializeResponse) (key : String)
    (value : OrderedValue) : InitializeResponse :=
  { self with serverInfo := self.serverInfo.withMetadata key value }

def codec : Codec InitializeResponse :=
  .record
    ((Fields.required "protocolVersion" ProtocolVersion.codec).and <|
      (Fields.required "capabilities" (Capabilities.codec serde)).and <|
      (Fields.required "serverInfo" (Implementation.codec serde)).and <|
      Fields.skipped "instructions" .string)
    ⟨by simp⟩
    { toFun := fun (protocolVersion, capabilities, serverInfo,
          instructions) =>
        ⟨protocolVersion, capabilities, serverInfo, instructions⟩
      invFun := fun self =>
        (self.protocolVersion, self.capabilities, self.serverInfo,
          self.instructions)
      left_inv := fun _ => rfl
      right_inv := fun _ => rfl }

end InitializeResponse

/-! ## Updates of resources -/

structure ResourceUpdatedNotification where
  uri : String
  metadata : OpenMap

namespace ResourceUpdatedNotification

def new (uri : String) : ResourceUpdatedNotification := ⟨uri, .empty⟩

def withMetadata (self : ResourceUpdatedNotification) (key : String)
    (value : OrderedValue) : ResourceUpdatedNotification :=
  { self with metadata := self.metadata.insert key value }

def codec : Codec ResourceUpdatedNotification :=
  .flattened serde.order (Fields.required "uri" .string) ⟨by simp⟩ serde.value
    { toFun := fun (uri, metadata) => ⟨uri, metadata⟩
      invFun := fun self => (self.uri, self.metadata)
      left_inv := fun _ => rfl
      right_inv := fun _ => rfl }

end ResourceUpdatedNotification

/-! ## Requests for a completion -/

inductive MessageRole where
  | system
  | user
  | assistant
  deriving DecidableEq, Repr

namespace MessageRole

def content : MessageRole → Content
  | .system => .unit "system"
  | .user => .unit "user"
  | .assistant => .unit "assistant"

def variants : List (Variant MessageRole) :=
  [.unit "system" .system, .unit "user" .user, .unit "assistant" .assistant]

theorem reads (value : MessageRole) : Reads variants value value.content := by
  cases value <;> exact .unit rfl

def codec : Codec MessageRole := .tagged variants content reads

end MessageRole

/-- The levels of cost, of speed and of intelligence, which are three types
with the same variants. -/
inductive Priority where
  | low
  | medium
  | high
  deriving DecidableEq, Repr

namespace Priority

def content : Priority → Content
  | .low => .unit "low"
  | .medium => .unit "medium"
  | .high => .unit "high"

def variants : List (Variant Priority) :=
  [.unit "low" .low, .unit "medium" .medium, .unit "high" .high]

theorem reads (value : Priority) : Reads variants value value.content := by
  cases value <;> exact .unit rfl

def codec : Codec Priority := .tagged variants content reads

end Priority

abbrev CostPriority := Priority

abbrev SpeedPriority := Priority

abbrev IntelligencePriority := Priority

inductive SamplingContent where
  | text (text : String)
  | image (data mimeType : String)
  deriving DecidableEq, Repr

namespace SamplingContent

def textFields : Fields String := .required "text" .string

def imageFields : Fields (String × String) :=
  (Fields.required "data" .string).and (.required "mimeType" .string)

/-- The tag is a member of the object itself. -/
def write : SamplingContent → Json
  | .text content => .obj (("type", .str "text") :: textFields.write content)
  | .image data mimeType =>
      .obj (("type", .str "image") :: imageFields.write (data, mimeType))

/-- The variant is read from the other members. -/
def readMembers (tag : String) (depth : ℕ) (members : List (String × Json)) :
    Option SamplingContent :=
  if tag = "text" then (textFields.read depth members).map .text
  else if tag = "image" then
    (imageFields.read depth members).map (fun parts => .image parts.1 parts.2)
  else none

def readElements (tag : String) (depth : ℕ) (elements : List Json) :
    Option SamplingContent :=
  if tag = "text" then
    match textFields.readElements depth elements with
    | some (content, []) => some (.text content)
    | _ => none
  else if tag = "image" then
    match imageFields.readElements depth elements with
    | some (parts, []) => some (.image parts.1 parts.2)
    | _ => none
  else none

def read (depth : ℕ) : Json → Option SamplingContent
  | .obj members =>
      if depth = 0 then none
      else
        (requiredField asString members "type").bind fun tag =>
          readMembers tag (depth - 1)
            (members.filter (fun member => member.1 ≠ "type"))
  | .arr (.str tag :: rest) =>
      if depth = 0 then none else readElements tag (depth - 1) rest
  | _ => none

theorem read_write_iff (depth : ℕ) (self : SamplingContent) :
    read depth self.write = some self ↔ 0 < depth := by
  by_cases hdepth : depth = 0
  · cases self <;> simp [read, write, hdepth]
  · refine iff_of_true ?_ (Nat.pos_of_ne_zero hdepth)
    cases self with
    | text content =>
        simp [read, write, hdepth, requiredField, entries_cons, readMembers,
          textFields, Fields.required, Codec.string]
    | image data mimeType =>
        simp [read, write, hdepth, requiredField, entries_cons, readMembers,
          imageFields, Fields.required, Fields.and, Codec.string]

/-- All members are gathered before the variant is read. -/
def codec : Codec SamplingContent :=
  .buffered serde.toFloatText
    { write := write
      read := read
      Kept := fun depth _ => 0 < depth
      proper := fun self => by
        cases self with
        | text content =>
            refine .obj (List.forall_mem_cons.mpr ⟨.str _, ?_⟩)
            exact textFields.proper content
        | image data mimeType =>
            refine .obj (List.forall_mem_cons.mpr ⟨.str _, ?_⟩)
            exact imageFields.proper (data, mimeType)
      read_write_iff := read_write_iff }

end SamplingContent

structure SamplingMessage where
  role : MessageRole
  content : SamplingContent

def SamplingMessage.codec : Codec SamplingMessage :=
  .record
    ((Fields.required "role" MessageRole.codec).and
      (Fields.required "content" (SamplingContent.codec serde)))
    ⟨by simp⟩
    { toFun := fun (role, content) => ⟨role, content⟩
      invFun := fun self => (self.role, self.content)
      left_inv := fun _ => rfl
      right_inv := fun _ => rfl }

structure ModelPreferences where
  models : Option (List String)
  costPriority : Option CostPriority
  speedPriority : Option SpeedPriority
  intelligencePriority : Option IntelligencePriority

def ModelPreferences.codec : Codec ModelPreferences :=
  .record
    ((Fields.skipped "models" (.list .string)).and <|
      (Fields.skipped "cost_priority" Priority.codec).and <|
      (Fields.skipped "speed_priority" Priority.codec).and <|
      Fields.skipped "intelligence_priority" Priority.codec)
    ⟨by simp⟩
    { toFun := fun (models, cost, speed, intelligence) =>
        ⟨models, cost, speed, intelligence⟩
      invFun := fun self =>
        (self.models, self.costPriority, self.speedPriority,
          self.intelligencePriority)
      left_inv := fun _ => rfl
      right_inv := fun _ => rfl }

/-- The temperature is given by its bits. -/
structure CompletionArgument where
  messages : List SamplingMessage
  modelPreferences : Option ModelPreferences
  systemPrompt : Option String
  includeContext : Option String
  temperature : Option UInt64
  maxTokens : Option Int32
  stopSequences : Option (List String)
  metadata : OpenMap

namespace CompletionArgument

def new (messages : List SamplingMessage) : CompletionArgument :=
  ⟨messages, none, none, none, none, none, none, .empty⟩

def withModelPreferences (self : CompletionArgument)
    (preferences : ModelPreferences) : CompletionArgument :=
  { self with modelPreferences := some preferences }

def withSystemPrompt (self : CompletionArgument) (prompt : String) :
    CompletionArgument :=
  { self with systemPrompt := some prompt }

def withTemperature (self : CompletionArgument) (temperature : UInt64) :
    CompletionArgument :=
  { self with temperature := some temperature }

def withMaxTokens (self : CompletionArgument) (maxTokens : Int32) :
    CompletionArgument :=
  { self with maxTokens := some maxTokens }

def withStopSequences (self : CompletionArgument) (sequences : List String) :
    CompletionArgument :=
  { self with stopSequences := some sequences }

def withMetadata (self : CompletionArgument) (key : String)
    (value : OrderedValue) : CompletionArgument :=
  { self with metadata := self.metadata.insert key value }

def fields :
    Fields (List SamplingMessage × Option ModelPreferences × Option String ×
      Option String × Option UInt64 × Option Int32 × Option (List String)) :=
  (Fields.required "messages" (SamplingMessage.codec serde).list).and <|
    (Fields.skipped "model_preferences" ModelPreferences.codec).and <|
    (Fields.skipped "system_prompt" .string).and <|
    (Fields.skipped "include_context" .string).and <|
    (Fields.skipped "temperature" (.f64 serde.toNumberText)).and <|
    (Fields.skipped "max_tokens" .i32).and <|
    Fields.skipped "stop_sequences" (.list .string)

def codec : Codec CompletionArgument :=
  .flattened serde.order (fields serde) ⟨by simp [fields]⟩ serde.value
    { toFun := fun ((messages, preferences, prompt, context, temperature,
          maxTokens, sequences), metadata) =>
        ⟨messages, preferences, prompt, context, temperature, maxTokens,
          sequences, metadata⟩
      invFun := fun self =>
        ((self.messages, self.modelPreferences, self.systemPrompt,
          self.includeContext, self.temperature, self.maxTokens,
          self.stopSequences), self.metadata)
      left_inv := fun _ => rfl
      right_inv := fun _ => rfl }

end CompletionArgument

end Messages
end Core
end Acdp
