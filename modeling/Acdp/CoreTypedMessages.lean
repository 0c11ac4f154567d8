import Acdp.JsonCodec
import Acdp.JsonRecords

/-!
# Typed messages of the protocol

Lists of tools, resources and prompts, results of tools, capabilities and
notifications of progress, with the names their fields have in JSON.  Most are
written under the names of the fields themselves; a tool is read by a visitor
of its own that knows several names for the same field.
-/

namespace Acdp
namespace Core

open Json

/-! ## Tools -/

structure Tool where
  name : String
  description : String
  inputSchema : Option Value
  extensions : Option Value
  readOnly : Option Bool
  returnType : Option Value

namespace Tool

/-- What the visitor has gathered so far. -/
structure Gathered where
  name : Option String := none
  description : Option String := none
  inputSchema : Option Value := none
  extensions : Option Value := none
  readOnly : Option Bool := none
  returnType : Option Value := none

inductive Field where
  | name
  | description
  | inputSchema
  | parametersSchema
  | extensions
  | readOnly
  | returnType
  | unknown
  deriving DecidableEq, Repr

def Field.ofKey (key : String) : Field :=
  if key = "name" then .name
  else if key = "description" then .description
  else if key = "inputSchema" ∨ key = "input_schema" then .inputSchema
  else if key = "parametersSchema" ∨ key = "parameters_schema" then
    .parametersSchema
  else if key = "extensions" then .extensions
  else if key = "readOnly" ∨ key = "read_only" then .readOnly
  else if key = "returnType" then .returnType
  else .unknown

/-- A field that is there already is an error, but a second schema is passed
over. -/
def visit (gathered : Gathered) (member : String × Value) :
    Option Gathered :=
  match Field.ofKey member.1 with
  | .name =>
      if gathered.name.isSome then none
      else (Wire.string.fromValue member.2).map
        ({ gathered with name := some · })
  | .description =>
      if gathered.description.isSome then none
      else (Wire.string.fromValue member.2).map
        ({ gathered with description := some · })
  | .inputSchema | .parametersSchema =>
      if gathered.inputSchema.isSome then some gathered
      else some { gathered with inputSchema := some member.2 }
  | .extensions =>
      if gathered.extensions.isSome then none
      else some { gathered with extensions := some member.2 }
  | .readOnly =>
      if gathered.readOnly.isSome then none
      else (Wire.bool.fromValue member.2).map
        ({ gathered with readOnly := some · })
  | .returnType =>
      if gathered.returnType.isSome then none
      else some { gathered with returnType := some member.2 }
  | .unknown => some gathered

def ofGathered (gathered : Gathered) : Option Tool := do
  let name ← gathered.name
  let description ← gathered.description
  some ⟨name, description, gathered.inputSchema, gathered.extensions,
    gathered.readOnly, gathered.returnType⟩

def fromValue : Value → Option Tool
  | .object members => (members.foldlM visit {}).bind ofGathered
  | _ => none

def toValue (self : Tool) : Value :=
  .object (record
    [("name", some (.str self.name)),
      ("description", some (.str self.description)),
      ("input_schema", self.inputSchema), ("extensions", self.extensions),
      ("readOnly", self.readOnly.map .bool),
      ("returnType", self.returnType)])

def wire : Wire Tool := ⟨fromValue, toValue⟩

end Tool

structure ListToolsResponse where
  tools : List Tool
  nextCursor : Option String

def ListToolsResponse.fields : WireFields ListToolsResponse :=
  ((WireFields.required "tools" Tool.wire.list).and
    (WireFields.optional "next_cursor" Wire.string)).map
    (fun parts => ⟨parts.1, parts.2⟩)
    (fun self => (self.tools, self.nextCursor))

/-! ## Results of tools -/

structure ResourceReference where
  uri : String
  text : Option String

def ResourceReference.fields : WireFields ResourceReference :=
  ((WireFields.required "uri" Wire.string).and
    (WireFields.optional "text" Wire.string)).map
    (fun parts => ⟨parts.1, parts.2⟩) (fun self => (self.uri, self.text))

inductive ToolResult where
  | text (text : String)
  | image (data mimeType : String)
  | resource (resource : ResourceReference)

namespace ToolResult

def textFields : WireFields String := WireFields.required "text" Wire.string

def imageFields : WireFields (String × String) :=
  (WireFields.required "data" Wire.string).and
    (WireFields.required "mimeType" Wire.string)

def resourceFields : WireFields ResourceReference :=
  WireFields.required "resource" ResourceReference.fields.record

/-- The tag, and the value without it: a member `type`, or the first element
of an array. -/
def tagged : Value → Option (String × Value)
  | .object members =>
      (members.lookup "type").bind fun tag =>
        (Wire.string.fromValue tag).map fun tag =>
          (tag, .object (members.filter (fun member => member.1 ≠ "type")))
  | .array (tag :: rest) =>
      (Wire.string.fromValue tag).map fun tag => (tag, .array rest)
  | _ => none

def fromTagged (tag : String) (value : Value) : Option ToolResult :=
  if tag = "text" then (textFields.record.fromValue value).map .text
  else if tag = "image" then
    (imageFields.record.fromValue value).map fun parts =>
      .image parts.1 parts.2
  else if tag = "resource" then
    (resourceFields.record.fromValue value).map .resource
  else none

def fromValue (value : Value) : Option ToolResult :=
  (tagged value).bind fun parts => fromTagged parts.1 parts.2

def toValue : ToolResult → Value
  | .text content => textFields.writeTagged "text" content
  | .image data mimeType => imageFields.writeTagged "image" (data, mimeType)
  | .resource reference => resourceFields.writeTagged "resource" reference

def wire : Wire ToolResult := ⟨fromValue, toValue⟩

end ToolResult

structure CallToolResponse where
  content : List ToolResult
  isError : Option Bool

def CallToolResponse.fields : WireFields CallToolResponse :=
  ((WireFields.defaulted "content" ToolResult.wire.list []).and
    (WireFields.optional "is_error" Wire.bool)).map
    (fun parts => ⟨parts.1, parts.2⟩)
    (fun self => (self.content, self.isError))

/-! ## Resources and prompts -/

structure Resource where
  uri : String
  name : String
  description : Option String
  mimeType : Option String

def Resource.fields : WireFields Resource :=
  ((WireFields.required "uri" Wire.string).and
    ((WireFields.required "name" Wire.string).and
      ((WireFields.optional "description" Wire.string).and
        (WireFields.optional "mime_type" Wire.string)))).map
    (fun parts => ⟨parts.1, parts.2.1, parts.2.2.1, parts.2.2.2⟩)
    (fun self => (self.uri, self.name, self.description, self.mimeType))

structure ListResourcesResponse where
  resources : List Resource
  nextCursor : Option String

def ListResourcesResponse.fields : WireFields ListResourcesResponse :=
  ((WireFields.required "resources" Resource.fields.record.list).and
    (WireFields.optional "next_cursor" Wire.string)).map
    (fun parts => ⟨parts.1, parts.2⟩)
    (fun self => (self.resources, self.nextCursor))

structure Prompt where
  name : String
  description : String
  arguments : Option Value

def Prompt.fields : WireFields Prompt :=
  ((WireFields.required "name" Wire.string).and
    ((WireFields.required "description" Wire.string).and
      (WireFields.optional "arguments" Wire.value))).map
    (fun parts => ⟨parts.1, parts.2.1, parts.2.2⟩)
    (fun self => (self.name, self.description, self.arguments))

structure ListPromptsResponse where
  prompts : List Prompt
  nextCursor : Option String

def ListPromptsResponse.fields : WireFields ListPromptsResponse :=
  ((WireFields.required "prompts" Prompt.fields.record.list).and
    (WireFields.optional "next_cursor" Wire.string)).map
    (fun parts => ⟨parts.1, parts.2⟩)
    (fun self => (self.prompts, self.nextCursor))

/-! ## Capabilities -/

/-- Capabilities with one flag. -/
def flagFields (name : String) : WireFields (Option Bool) :=
  WireFields.optional name Wire.bool

structure ToolCapabilities where
  listChanged : Option Bool

def ToolCapabilities.fields : WireFields ToolCapabilities :=
  (flagFields "list_changed").map (fun flag => ⟨flag⟩)
    ToolCapabilities.listChanged

structure ResourceCapabilities where
  subscribe : Option Bool
  listChanged : Option Bool

def ResourceCapabilities.fields : WireFields ResourceCapabilities :=
  ((flagFields "subscribe").and (flagFields "list_changed")).map
    (fun parts => ⟨parts.1, parts.2⟩)
    (fun self => (self.subscribe, self.listChanged))

structure PromptCapabilities where
  listChanged : Option Bool

def PromptCapabilities.fields : WireFields PromptCapabilities :=
  (flagFields "list_changed").map (fun flag => ⟨flag⟩)
    PromptCapabilities.listChanged

structure SamplingCapabilities where
  enabled : Option Bool

def SamplingCapabilities.fields : WireFields SamplingCapabilities :=
  (flagFields "enabled").map (fun flag => ⟨flag⟩)
    SamplingCapabilities.enabled

structure LoggingCapabilities where
  level : Option Bool

def LoggingCapabilities.fields : WireFields LoggingCapabilities :=
  (flagFields "level").map (fun flag => ⟨flag⟩) LoggingCapabilities.level

structure RootsCapabilities where
  listChanged : Option Bool

def RootsCapabilities.fields : WireFields RootsCapabilities :=
  (flagFields "list_changed").map (fun flag => ⟨flag⟩)
    RootsCapabilities.listChanged

structure StandardCapabilities where
  tools : Option ToolCapabilities
  resources : Option ResourceCapabilities
  prompts : Option PromptCapabilities
  sampling : Option SamplingCapabilities
  logging : Option LoggingCapabilities
  roots : Option RootsCapabilities

def StandardCapabilities.fields : WireFields StandardCapabilities :=
  ((WireFields.optional "tools" ToolCapabilities.fields.record).and
    ((WireFields.optional "resources" ResourceCapabilities.fields.record).and
      ((WireFields.optional "prompts" PromptCapabilities.fields.record).and
        ((WireFields.optional "sampling" SamplingCapabilities.fields.record).and
          ((WireFields.optional "logging" LoggingCapabilities.fields.record).and
            (WireFields.optional "roots"
              RootsCapabilities.fields.record)))))).map
    (fun parts => ⟨parts.1, parts.2.1, parts.2.2.1, parts.2.2.2.1,
      parts.2.2.2.2.1, parts.2.2.2.2.2⟩)
    (fun self => (self.tools, self.resources, self.prompts, self.sampling,
      self.logging, self.roots))

/-- The standard capabilities, and the custom ones. -/
def capabilitiesWire :
    Wire (StandardCapabilities × List (String × Value)) :=
  StandardCapabilities.fields.flattened

/-! ## Progress -/

inductive ProgressToken where
  | string (text : String)
  | number (value : Int64)

namespace ProgressToken

def numberOfInt64 (value : Int64) : Number :=
  if hnegative : value.toInt < 0 then
    .negInt value.toInt (Int64.le_toInt value) hnegative
  else .posInt (UInt64.ofNat value.toInt.toNat)

/-- The first variant that can be read. -/
def wire : Wire ProgressToken where
  fromValue
    | .str value => some (.string value)
    | .number value => value.asI64.map .number
    | _ => none
  toValue
    | .string value => .str value
    | .number value => .number (numberOfInt64 value)

end ProgressToken

/-- `f64`, by its bits; what is not finite is written as `null`. -/
def doubleWire (doubleOfInt : ℤ → UInt64) : Wire UInt64 where
  fromValue
    | .number (.posInt value) => some (doubleOfInt value.toNat)
    | .number (.negInt value _ _) => some (doubleOfInt value)
    | .number (.float bits) => some bits
    | _ => none
  toValue bits :=
    if isFiniteDouble bits then .number (.float bits) else .null

structure ProgressNotification where
  progressToken : ProgressToken
  progress : UInt64
  total : Option UInt64

def ProgressNotification.fields (doubleOfInt : ℤ → UInt64) :
    WireFields ProgressNotification :=
  ((WireFields.required "progress_token" ProgressToken.wire).and
    ((WireFields.required "progress" (doubleWire doubleOfInt)).and
      (WireFields.optional "total" Wire.u64))).map
    (fun parts => ⟨parts.1, parts.2.1, parts.2.2⟩)
    (fun self => (self.progressToken, self.progress, self.total))

end Core
end Acdp
