import Acdp.CoreTypedMessages

/-!
# What typed messages keep of the protocol's values

The protocol writes its members in camel case, and most of the types here do
not: a cursor, an error flag, a media type or a list of changes is passed over
when it is read.  For each type the values of the protocol that keep all of
their members are told apart from those that do not.
-/

namespace Acdp
namespace Core

open Json

/-! ## Values of the protocol

The members are those of the revisions 2024-11-05 and 2025-03-26. -/

/-- A member that the protocol specifies. -/
structure SpecifiedMember where
  name : String
  required : Bool
  shape : Value → Prop

/-- All members are specified, and those that are required are there. -/
structure Allows (specification : List SpecifiedMember)
    (members : List (String × Value)) : Prop where
  known : ∀ name value, members.lookup name = some value →
    ∃ member ∈ specification, member.name = name ∧ member.shape value
  complete : ∀ member ∈ specification, member.required = true →
    ∃ value, members.lookup member.name = some value

def Conforms (specification : List SpecifiedMember) (value : Value) : Prop :=
  ∃ members, value = .object members ∧ Allows specification members

def IsString (value : Value) : Prop := ∃ text, value = .str text

def IsText (text : String) (value : Value) : Prop := value = .str text

def IsBool (value : Value) : Prop := ∃ flag, value = .bool flag

def IsNumber (value : Value) : Prop := ∃ number, value = .number number

def IsObject (value : Value) : Prop := ∃ members, value = .object members

def IsArrayOf (shape : Value → Prop) (value : Value) : Prop :=
  ∃ elements, value = .array elements ∧ ∀ element ∈ elements, shape element

/-- A page of a list. -/
def listSpecification (name : String) (shape : Value → Prop) :
    List SpecifiedMember :=
  [⟨name, true, IsArrayOf shape⟩, ⟨"nextCursor", false, IsString⟩,
    ⟨"_meta", false, IsObject⟩]

def toolSpecification : List SpecifiedMember :=
  [⟨"name", true, IsString⟩, ⟨"description", false, IsString⟩,
    ⟨"inputSchema", true, IsObject⟩, ⟨"annotations", false, IsObject⟩]

def resourceSpecification : List SpecifiedMember :=
  [⟨"uri", true, IsString⟩, ⟨"name", true, IsString⟩,
    ⟨"description", false, IsString⟩, ⟨"mimeType", false, IsString⟩,
    ⟨"size", false, IsNumber⟩, ⟨"annotations", false, IsObject⟩]

def promptArgumentSpecification : List SpecifiedMember :=
  [⟨"name", true, IsString⟩, ⟨"description", false, IsString⟩,
    ⟨"required", false, IsBool⟩]

def promptSpecification : List SpecifiedMember :=
  [⟨"name", true, IsString⟩, ⟨"description", false, IsString⟩,
    ⟨"arguments", false, IsArrayOf (Conforms promptArgumentSpecification)⟩]

/-- The contents of a resource, as a text or not. -/
def resourceContentsSpecification (name : String) : List SpecifiedMember :=
  [⟨"uri", true, IsString⟩, ⟨"mimeType", false, IsString⟩,
    ⟨name, true, IsString⟩]

def textSpecification : List SpecifiedMember :=
  [⟨"type", true, IsText "text"⟩, ⟨"text", true, IsString⟩,
    ⟨"annotations", false, IsObject⟩]

/-- An image or a sound. -/
def mediaSpecification (tag : String) : List SpecifiedMember :=
  [⟨"type", true, IsText tag⟩, ⟨"data", true, IsString⟩,
    ⟨"mimeType", true, IsString⟩, ⟨"annotations", false, IsObject⟩]

def embeddedSpecification : List SpecifiedMember :=
  [⟨"type", true, IsText "resource"⟩,
    ⟨"resource", true, fun value =>
      Conforms (resourceContentsSpecification "text") value ∨
        Conforms (resourceContentsSpecification "blob") value⟩,
    ⟨"annotations", false, IsObject⟩]

def IsContent (value : Value) : Prop :=
  Conforms textSpecification value ∨
    Conforms (mediaSpecification "image") value ∨
    Conforms (mediaSpecification "audio") value ∨
    Conforms embeddedSpecification value

def callToolSpecification : List SpecifiedMember :=
  [⟨"content", true, IsArrayOf IsContent⟩, ⟨"isError", false, IsBool⟩,
    ⟨"_meta", false, IsObject⟩]

def listChangedSpecification : List SpecifiedMember :=
  [⟨"listChanged", false, IsBool⟩]

def subscribeSpecification : List SpecifiedMember :=
  [⟨"subscribe", false, IsBool⟩, ⟨"listChanged", false, IsBool⟩]

/-- The capabilities of servers and those of clients. -/
def capabilitiesSpecification : List SpecifiedMember :=
  [⟨"experimental", false, IsObject⟩, ⟨"logging", false, IsObject⟩,
    ⟨"completions", false, IsObject⟩,
    ⟨"prompts", false, Conforms listChangedSpecification⟩,
    ⟨"resources", false, Conforms subscribeSpecification⟩,
    ⟨"tools", false, Conforms listChangedSpecification⟩,
    ⟨"roots", false, Conforms listChangedSpecification⟩,
    ⟨"sampling", false, IsObject⟩]

def progressSpecification : List SpecifiedMember :=
  [⟨"progressToken", true, fun value => IsString value ∨ IsNumber value⟩,
    ⟨"progress", true, IsNumber⟩, ⟨"total", false, IsNumber⟩,
    ⟨"message", false, IsString⟩, ⟨"_meta", false, IsObject⟩]

inductive MessageType where
  | listToolsResponse
  | callToolResponse
  | tool
  | listResourcesResponse
  | resource
  | listPromptsResponse
  | capabilities
  | progressNotification
  deriving DecidableEq, Repr

def MessageType.specification : MessageType → List SpecifiedMember
  | .listToolsResponse =>
      listSpecification "tools" (Conforms toolSpecification)
  | .callToolResponse => callToolSpecification
  | .tool => toolSpecification
  | .listResourcesResponse =>
      listSpecification "resources" (Conforms resourceSpecification)
  | .resource => resourceSpecification
  | .listPromptsResponse =>
      listSpecification "prompts" (Conforms promptSpecification)
  | .capabilities => capabilitiesSpecification
  | .progressNotification => progressSpecification

/-- The value is decoded, and encoded again as the same value. -/
def MessageType.Keeps (doubleOfInt : ℤ → UInt64) (value : Value) :
    MessageType → Prop
  | .listToolsResponse => ListToolsResponse.fields.record.Keeps value
  | .callToolResponse => CallToolResponse.fields.record.Keeps value
  | .tool => Tool.wire.Keeps value
  | .listResourcesResponse => ListResourcesResponse.fields.record.Keeps value
  | .resource => Resource.fields.record.Keeps value
  | .listPromptsResponse => ListPromptsResponse.fields.record.Keeps value
  | .capabilities => capabilitiesWire.Keeps value
  | .progressNotification =>
      (ProgressNotification.fields doubleOfInt).record.Keeps value

/-! ## When a value keeps its members -/

/-- The elements of an array under the name. -/
def itemsOf (value : Value) (name : String) : List Value :=
  match value.get name with
  | some (.array elements) => elements
  | _ => []

def IsLastPage (value : Value) : Prop :=
  value.get "nextCursor" = none ∧ value.get "_meta" = none

def IsPlainResource (value : Value) : Prop :=
  value.get "mimeType" = none ∧ value.get "size" = none ∧
    value.get "annotations" = none

/-- No annotations, no sound, and a resource only as a text without a media
type. -/
def IsPlainContent (value : Value) : Prop :=
  value.get "annotations" = none ∧ value.get "type" ≠ some (.str "audio") ∧
    ∀ resource, value.get "resource" = some resource →
      resource.get "mimeType" = none ∧ resource.get "blob" = none

def HasOnlyFlag (name : String) (value : Value) : Prop :=
  ∀ other member, value.get other = some member →
    other = name ∧ IsBool member

def IsPlainCapabilities (value : Value) : Prop :=
  (∀ name ∈ ["tools", "resources", "prompts", "roots"], ∀ capability,
      value.get name = some capability →
        capability.get "listChanged" = none) ∧
    (∀ capability, value.get "sampling" = some capability →
      HasOnlyFlag "enabled" capability) ∧
    ∀ capability, value.get "logging" = some capability →
      HasOnlyFlag "level" capability

def MessageType.KeptWhen (value : Value) : MessageType → Prop
  | .listToolsResponse => IsLastPage value ∧ itemsOf value "tools" = []
  | .callToolResponse =>
      value.get "isError" = none ∧ value.get "_meta" = none ∧
        ∀ content ∈ itemsOf value "content", IsPlainContent content
  | .tool => False
  | .listResourcesResponse =>
      IsLastPage value ∧
        ∀ resource ∈ itemsOf value "resources", IsPlainResource resource
  | .resource => IsPlainResource value
  | .listPromptsResponse =>
      IsLastPage value ∧
        ∀ prompt ∈ itemsOf value "prompts", prompt.get "description" ≠ none
  | .capabilities => IsPlainCapabilities value
  | .progressNotification => False

/-! ## Specified members -/

namespace Allows

variable {specification : List SpecifiedMember}
  {members : List (String × Value)}

theorem shape (hallows : Allows specification members)
    (hnames : (specification.map SpecifiedMember.name).Nodup)
    {member : SpecifiedMember} (hmember : member ∈ specification)
    {value : Value} (hvalue : members.lookup member.name = some value) :
    member.shape value := by
  obtain ⟨found, hfound, hname, hshape⟩ := hallows.known _ _ hvalue
  rw [← List.inj_on_of_nodup_map hnames hfound hmember hname]
  exact hshape

theorem required (hallows : Allows specification members)
    (hnames : (specification.map SpecifiedMember.name).Nodup)
    {member : SpecifiedMember} (hmember : member ∈ specification)
    (hrequired : member.required = true) :
    ∃ value, members.lookup member.name = some value ∧ member.shape value := by
  obtain ⟨value, hvalue⟩ := hallows.complete member hmember hrequired
  exact ⟨value, hvalue, hallows.shape hnames hmember hvalue⟩

theorem absent (hallows : Allows specification members) {name : String}
    (hname : name ∉ specification.map SpecifiedMember.name) :
    members.lookup name = none := by
  cases hvalue : members.lookup name with
  | none => rfl
  | some value =>
      obtain ⟨member, hmember, rfl, _⟩ := hallows.known _ _ hvalue
      exact absurd (List.mem_map_of_mem hmember) hname

theorem keptIn_required {α : Type} {wire : Wire α}
    (hallows : Allows specification members)
    (hnames : (specification.map SpecifiedMember.name).Nodup)
    {name : String} {shape : Value → Prop}
    (hmember : ⟨name, true, shape⟩ ∈ specification)
    (hwire : ∀ value, shape value → wire.Keeps value) :
    (WireFields.required name wire).KeptIn members := by
  obtain ⟨value, hvalue, hshape⟩ := hallows.required hnames hmember rfl
  rw [WireFields.keptIn_required_iff]
  exact ⟨value, hvalue, hwire value hshape⟩

theorem keptIn_optional {α : Type} {wire : Wire α}
    (hallows : Allows specification members)
    (hnames : (specification.map SpecifiedMember.name).Nodup)
    {name : String} {shape : Value → Prop}
    (hmember : ⟨name, false, shape⟩ ∈ specification)
    (hwire : ∀ value, shape value → value ≠ .null ∧ wire.Keeps value) :
    (WireFields.optional name wire).KeptIn members := by
  rw [WireFields.keptIn_optional_iff]
  intro value hvalue
  exact hwire value (hallows.shape hnames hmember hvalue)

/-- A field whose name is not specified has nothing to keep. -/
theorem keptIn_absent {α : Type} {wire : Wire α}
    (hallows : Allows specification members) {name : String}
    (hname : name ∉ specification.map SpecifiedMember.name) :
    (WireFields.optional name wire).KeptIn members := by
  rw [WireFields.keptIn_optional_iff, hallows.absent hname]
  simp

/-- Only specified members can stand in the way. -/
theorem others_absent_iff (hallows : Allows specification members)
    (names : List String) :
    (∀ name, name ∉ names → members.lookup name = none) ↔
      ∀ member ∈ specification, member.name ∉ names →
        members.lookup member.name = none := by
  constructor
  · intro hothers member _ hname
    exact hothers member.name hname
  · intro hspecified name hname
    cases hvalue : members.lookup name with
    | none => rfl
    | some value =>
        obtain ⟨member, hmember, rfl, _⟩ := hallows.known _ _ hvalue
        rw [hspecified member hmember hname] at hvalue
        cases hvalue

end Allows

theorem keeps_of_isString {value : Value} (hvalue : IsString value) :
    value ≠ .null ∧ Wire.string.Keeps value := by
  obtain ⟨text, rfl⟩ := hvalue
  exact ⟨by simp, Wire.keeps_string text⟩

theorem isBool_of_keeps {value : Value} (hvalue : Wire.bool.Keeps value) :
    IsBool value := by
  obtain ⟨flag, _, hwrite⟩ := hvalue
  exact ⟨flag, hwrite.symm⟩

theorem sorted_of_normal {members : List (String × Value)}
    (hnormal : (Value.object members).Normal) : Sorted members := by
  cases hnormal with
  | object hsorted _ => exact hsorted

variable {members : List (String × Value)}

/-! ## Pages of lists -/

theorem nodup_listSpecification {name : String} {shape : Value → Prop}
    (hcursor : name ≠ "nextCursor") (hmeta : name ≠ "_meta") :
    ((listSpecification name shape).map SpecifiedMember.name).Nodup := by
  simp [listSpecification, hcursor, hmeta]

theorem itemsOf_eq {name : String} {elements : List Value}
    (hitems : members.lookup name = some (.array elements)) :
    itemsOf (.object members) name = elements := by
  have hget : (Value.object members).get name = some (.array elements) :=
    hitems
  unfold itemsOf
  rw [hget]

/-- The elements of a page are of the specified shape. -/
theorem exists_items {name : String} {shape : Value → Prop}
    (hcursor : name ≠ "nextCursor") (hmeta : name ≠ "_meta")
    (hallows : Allows (listSpecification name shape) members) :
    ∃ elements, members.lookup name = some (.array elements) ∧
      ∀ element ∈ elements, shape element := by
  have hmember : ⟨name, true, IsArrayOf shape⟩ ∈
      listSpecification name shape := List.mem_cons_self
  obtain ⟨_, hitems, elements, rfl, helements⟩ := hallows.required
    (nodup_listSpecification hcursor hmeta) hmember rfl
  exact ⟨elements, hitems, helements⟩

/-- A page keeps when it is the last and its elements keep. -/
theorem keptIn_page_iff {α : Type} {wire : Wire α} {name : String}
    {shape : Value → Prop} (hnext : name ≠ "next_cursor")
    (hcursor : name ≠ "nextCursor") (hmeta : name ≠ "_meta")
    (hallows : Allows (listSpecification name shape) members) :
    (((WireFields.required name wire.list).and
        (WireFields.optional "next_cursor" Wire.string)).KeptIn members ∧
      ∀ other, other ∉ [name, "next_cursor"] →
        members.lookup other = none) ↔
      IsLastPage (.object members) ∧
        ∀ element ∈ itemsOf (.object members) name, wire.Keeps element := by
  have hapart : ∀ other ∈
      (WireFields.optional "next_cursor" Wire.string).names,
      other ∉ (WireFields.required name wire.list).names := by
    simp [WireFields.optional, WireFields.required, Ne.symm hnext]
  obtain ⟨elements, hitems, _⟩ := exists_items hcursor hmeta hallows
  have hrequired : (WireFields.required name wire.list).KeptIn members ↔
      ∀ element ∈ elements, wire.Keeps element := by
    rw [WireFields.keptIn_required_iff, hitems, ← Wire.keeps_list_iff]
    simp
  have hoptional : (WireFields.optional "next_cursor"
      Wire.string).KeptIn members := by
    rw [WireFields.keptIn_optional_iff, hallows.absent (by
      simp [listSpecification, Ne.symm hnext])]
    simp
  have hothers : (∀ member ∈ listSpecification name shape,
      member.name ∉ [name, "next_cursor"] →
        members.lookup member.name = none) ↔
      IsLastPage (.object members) := by
    simp [listSpecification, IsLastPage, Value.get, Ne.symm hcursor,
      Ne.symm hmeta]
  rw [WireFields.keptIn_and_iff hapart, hallows.others_absent_iff, hothers,
    hrequired, itemsOf_eq hitems, and_iff_left hoptional, and_comm]

/-- The elements of a page are of the specified shape, and normal. -/
theorem shape_of_mem_itemsOf {name : String} {shape : Value → Prop}
    (hnormal : (Value.object members).Normal)
    (hcursor : name ≠ "nextCursor") (hmeta : name ≠ "_meta")
    (hallows : Allows (listSpecification name shape) members) :
    ∀ element ∈ itemsOf (.object members) name,
      shape element ∧ element.Normal := by
  obtain ⟨elements, hitems, hshape⟩ := exists_items hcursor hmeta hallows
  rw [itemsOf_eq hitems]
  intro element helement
  cases hnormal.get hitems with
  | array helements =>
      exact ⟨hshape element helement, helements element helement⟩

/-! ## Tools, resources and prompts -/

/-- What is written for a tool has no `inputSchema`. -/
theorem not_keeps_tool (hallows : Allows toolSpecification members) :
    ¬ Tool.wire.Keeps (.object members) := by
  rintro ⟨tool, _, hwrite⟩
  obtain ⟨value, hvalue⟩ := hallows.complete
    ⟨"inputSchema", true, IsObject⟩ (by simp [toolSpecification]) rfl
  have hmembers := Value.object.inj hwrite
  rw [← hmembers, lookup_record (by simp)] at hvalue
  simp [List.lookup] at hvalue

theorem keeps_listTools_iff (hnormal : (Value.object members).Normal)
    (hallows : Allows (listSpecification "tools"
      (Conforms toolSpecification)) members) :
    ListToolsResponse.fields.record.Keeps (.object members) ↔
      IsLastPage (.object members) ∧
        itemsOf (.object members) "tools" = [] := by
  rw [WireFields.keeps_record_iff (by
      simp [ListToolsResponse.fields, WireFields.map, WireFields.and,
        WireFields.required, WireFields.optional])
      (sorted_of_normal hnormal), ListToolsResponse.fields,
    WireFields.keptIn_map_iff (fun _ => rfl)]
  refine (keptIn_page_iff (by simp) (by simp) (by simp) hallows).trans
    (and_congr_right' ?_)
  have hshape := shape_of_mem_itemsOf hnormal (by simp) (by simp) hallows
  constructor
  · intro hkeeps
    rw [List.eq_nil_iff_forall_not_mem]
    intro tool htool
    obtain ⟨⟨_, rfl, htoolAllows⟩, _⟩ := hshape tool htool
    exact not_keeps_tool htoolAllows (hkeeps _ htool)
  · intro hempty
    simp [hempty]

theorem keeps_resource_iff (hsorted : Sorted members)
    (hallows : Allows resourceSpecification members) :
    Resource.fields.record.Keeps (.object members) ↔
      IsPlainResource (.object members) := by
  have hnames : (resourceSpecification.map SpecifiedMember.name).Nodup := by
    simp [resourceSpecification]
  have hkept : Resource.fields.KeptIn members := by
    rw [Resource.fields, WireFields.keptIn_map_iff (fun _ => rfl),
      WireFields.keptIn_and_iff (by
        simp [WireFields.and, WireFields.required, WireFields.optional]),
      WireFields.keptIn_and_iff (by
        simp [WireFields.and, WireFields.required, WireFields.optional]),
      WireFields.keptIn_and_iff (by simp [WireFields.optional])]
    exact ⟨hallows.keptIn_required hnames (by simp [resourceSpecification])
        (fun _ hshape => (keeps_of_isString hshape).2),
      hallows.keptIn_required hnames (by simp [resourceSpecification])
        (fun _ hshape => (keeps_of_isString hshape).2),
      hallows.keptIn_optional hnames (by simp [resourceSpecification])
        (fun _ hshape => keeps_of_isString hshape),
      hallows.keptIn_absent (by simp [resourceSpecification])⟩
  rw [WireFields.keeps_record_iff (by
      simp [Resource.fields, WireFields.map, WireFields.and,
        WireFields.required, WireFields.optional]) hsorted,
    hallows.others_absent_iff]
  have hothers : (∀ member ∈ resourceSpecification,
      member.name ∉ Resource.fields.names →
        members.lookup member.name = none) ↔
      IsPlainResource (.object members) := by
    simp [resourceSpecification, Resource.fields, WireFields.map,
      WireFields.and, WireFields.required, WireFields.optional,
      IsPlainResource, Value.get]
  rw [hothers]
  exact and_iff_right hkept

theorem keeps_listResources_iff (hnormal : (Value.object members).Normal)
    (hallows : Allows (listSpecification "resources"
      (Conforms resourceSpecification)) members) :
    ListResourcesResponse.fields.record.Keeps (.object members) ↔
      IsLastPage (.object members) ∧
        ∀ resource ∈ itemsOf (.object members) "resources",
          IsPlainResource resource := by
  rw [WireFields.keeps_record_iff (by
      simp [ListResourcesResponse.fields, WireFields.map, WireFields.and,
        WireFields.required, WireFields.optional])
      (sorted_of_normal hnormal), ListResourcesResponse.fields,
    WireFields.keptIn_map_iff (fun _ => rfl)]
  refine (keptIn_page_iff (by simp) (by simp) (by simp) hallows).trans
    (and_congr_right' (forall₂_congr ?_))
  intro resource hresource
  obtain ⟨⟨_, rfl, hresourceAllows⟩, hresourceNormal⟩ :=
    shape_of_mem_itemsOf hnormal (by simp) (by simp) hallows resource
      hresource
  exact keeps_resource_iff (sorted_of_normal hresourceNormal) hresourceAllows

theorem keeps_prompt_iff (hsorted : Sorted members)
    (hallows : Allows promptSpecification members) :
    Prompt.fields.record.Keeps (.object members) ↔
      (Value.object members).get "description" ≠ none := by
  have hnames : (promptSpecification.map SpecifiedMember.name).Nodup := by
    simp [promptSpecification]
  have hdescribed : (WireFields.required "description"
      Wire.string).KeptIn members ↔
        (Value.object members).get "description" ≠ none := by
    rw [WireFields.keptIn_required_iff, Option.ne_none_iff_exists']
    refine exists_congr fun value => and_iff_left_of_imp fun hvalue => ?_
    have hmember : ⟨"description", false, IsString⟩ ∈
        promptSpecification := by
      simp [promptSpecification]
    exact (keeps_of_isString (hallows.shape hnames hmember hvalue)).2
  have hkept : Prompt.fields.KeptIn members ↔
      (Value.object members).get "description" ≠ none := by
    rw [Prompt.fields, WireFields.keptIn_map_iff (fun _ => rfl),
      WireFields.keptIn_and_iff (by
        simp [WireFields.and, WireFields.required, WireFields.optional]),
      WireFields.keptIn_and_iff (by
        simp [WireFields.required, WireFields.optional]), hdescribed,
      and_iff_right (hallows.keptIn_required hnames
        (by simp [promptSpecification])
        (fun _ hshape => (keeps_of_isString hshape).2))]
    have harguments : ⟨"arguments", false,
        IsArrayOf (Conforms promptArgumentSpecification)⟩ ∈
          promptSpecification := by
      simp [promptSpecification]
    refine and_iff_left (hallows.keptIn_optional hnames harguments ?_)
    rintro _ ⟨elements, rfl, _⟩
    exact ⟨by simp, Wire.keeps_value _⟩
  rw [WireFields.keeps_record_iff (by
      simp [Prompt.fields, WireFields.map, WireFields.and,
        WireFields.required, WireFields.optional]) hsorted,
    hallows.others_absent_iff, hkept]
  refine and_iff_left ?_
  simp [promptSpecification, Prompt.fields, WireFields.map, WireFields.and,
    WireFields.required, WireFields.optional]

theorem keeps_listPrompts_iff (hnormal : (Value.object members).Normal)
    (hallows : Allows (listSpecification "prompts"
      (Conforms promptSpecification)) members) :
    ListPromptsResponse.fields.record.Keeps (.object members) ↔
      IsLastPage (.object members) ∧
        ∀ prompt ∈ itemsOf (.object members) "prompts",
          prompt.get "description" ≠ none := by
  rw [WireFields.keeps_record_iff (by
      simp [ListPromptsResponse.fields, WireFields.map, WireFields.and,
        WireFields.required, WireFields.optional])
      (sorted_of_normal hnormal), ListPromptsResponse.fields,
    WireFields.keptIn_map_iff (fun _ => rfl)]
  refine (keptIn_page_iff (by simp) (by simp) (by simp) hallows).trans
    (and_congr_right' (forall₂_congr ?_))
  intro prompt hprompt
  obtain ⟨⟨_, rfl, hpromptAllows⟩, hpromptNormal⟩ :=
    shape_of_mem_itemsOf hnormal (by simp) (by simp) hallows prompt hprompt
  exact keeps_prompt_iff (sorted_of_normal hpromptNormal) hpromptAllows

/-! ## Results of tools -/

theorem keeps_toolResult_iff {α : Type} (fields : WireFields α)
    {make : α → ToolResult} {tag : String} (hnames : fields.names.Nodup)
    (htype : "type" ∉ fields.names) (hsorted : Sorted members)
    (htag : members.lookup "type" = some (.str tag))
    (hfrom : ∀ value, ToolResult.fromTagged tag value =
      (fields.record.fromValue value).map make)
    (hto : ∀ value, (make value).toValue = fields.writeTagged tag value) :
    ToolResult.wire.Keeps (.object members) ↔
      fields.KeptIn members ∧
        ∀ name, name ≠ "type" → name ∉ fields.names →
          members.lookup name = none := by
  rw [← WireFields.keeps_tagged_iff hnames htype hsorted htag]
  have hread : ToolResult.fromValue (.object members) =
      (fields.record.fromValue (.object
        (members.filter (fun member => member.1 ≠ "type")))).map make := by
    rw [← hfrom, ToolResult.fromValue, ToolResult.tagged, htag]
    rfl
  constructor
  · rintro ⟨read, hvalue, hwrite⟩
    dsimp only [ToolResult.wire] at hvalue hwrite
    rw [hread] at hvalue
    obtain ⟨value, hfound, rfl⟩ := Option.map_eq_some_iff.mp hvalue
    exact ⟨value, hfound, (hto value).symm.trans hwrite⟩
  · rintro ⟨value, hvalue, hwrite⟩
    refine ⟨make value, ?_, (hto value).trans hwrite⟩
    dsimp only [ToolResult.wire]
    rw [hread, hvalue]
    rfl

/-- The tag that the specification requires. -/
theorem Allows.tag {specification : List SpecifiedMember}
    (hallows : Allows specification members)
    (hnames : (specification.map SpecifiedMember.name).Nodup) {tag : String}
    (hmember : ⟨"type", true, IsText tag⟩ ∈ specification) :
    members.lookup "type" = some (.str tag) := by
  obtain ⟨value, hvalue, hshape⟩ := hallows.required hnames hmember rfl
  rw [hvalue, hshape]

/-- Besides the tag, only specified members can stand in the way. -/
theorem Allows.untagged_absent_iff {specification : List SpecifiedMember}
    (hallows : Allows specification members) (names : List String) :
    (∀ name, name ≠ "type" → name ∉ names → members.lookup name = none) ↔
      ∀ member ∈ specification, member.name ∉ "type" :: names →
        members.lookup member.name = none := by
  rw [← hallows.others_absent_iff]
  simp [and_imp]

theorem keeps_text_iff (hsorted : Sorted members)
    (hallows : Allows textSpecification members) :
    ToolResult.wire.Keeps (.object members) ↔
      IsPlainContent (.object members) := by
  have hnames : (textSpecification.map SpecifiedMember.name).Nodup := by
    simp [textSpecification]
  have htag : members.lookup "type" = some (.str "text") :=
    hallows.tag hnames (by simp [textSpecification])
  have hresource : members.lookup "resource" = none :=
    hallows.absent (by simp [textSpecification])
  have hkept : ToolResult.textFields.KeptIn members :=
    hallows.keptIn_required hnames (by simp [textSpecification])
      (fun _ hshape => (keeps_of_isString hshape).2)
  rw [keeps_toolResult_iff ToolResult.textFields
      (by simp [ToolResult.textFields, WireFields.required])
      (by simp [ToolResult.textFields, WireFields.required]) hsorted htag
      (fun _ => rfl) (fun _ => rfl), hallows.untagged_absent_iff,
    and_iff_right hkept]
  simp [textSpecification, ToolResult.textFields, WireFields.required,
    IsPlainContent, Value.get, htag, hresource]

theorem keeps_image_iff (hsorted : Sorted members)
    (hallows : Allows (mediaSpecification "image") members) :
    ToolResult.wire.Keeps (.object members) ↔
      IsPlainContent (.object members) := by
  have hnames : ((mediaSpecification "image").map
      SpecifiedMember.name).Nodup := by
    simp [mediaSpecification]
  have htag : members.lookup "type" = some (.str "image") :=
    hallows.tag hnames (by simp [mediaSpecification])
  have hresource : members.lookup "resource" = none :=
    hallows.absent (by simp [mediaSpecification])
  have hkept : ToolResult.imageFields.KeptIn members := by
    rw [ToolResult.imageFields, WireFields.keptIn_and_iff (by
      simp [WireFields.required])]
    exact ⟨hallows.keptIn_required hnames (by simp [mediaSpecification])
        (fun _ hshape => (keeps_of_isString hshape).2),
      hallows.keptIn_required hnames (by simp [mediaSpecification])
        (fun _ hshape => (keeps_of_isString hshape).2)⟩
  rw [keeps_toolResult_iff ToolResult.imageFields
      (by simp [ToolResult.imageFields, WireFields.and, WireFields.required])
      (by simp [ToolResult.imageFields, WireFields.and, WireFields.required])
      hsorted htag (fun _ => rfl) (fun _ => rfl),
    hallows.untagged_absent_iff, and_iff_right hkept]
  simp [mediaSpecification, ToolResult.imageFields, WireFields.and,
    WireFields.required, IsPlainContent, Value.get, htag, hresource]

/-- No variant is read from a sound. -/
theorem keeps_audio_iff (hallows : Allows (mediaSpecification "audio")
    members) :
    ToolResult.wire.Keeps (.object members) ↔
      IsPlainContent (.object members) := by
  have htag : members.lookup "type" = some (.str "audio") :=
    hallows.tag (by simp [mediaSpecification]) (by simp [mediaSpecification])
  constructor
  · rintro ⟨read, hvalue, _⟩
    dsimp only [ToolResult.wire] at hvalue
    rw [ToolResult.fromValue, ToolResult.tagged, htag] at hvalue
    simp [Wire.string, ToolResult.fromTagged] at hvalue
  · rintro ⟨_, hsound, _⟩
    exact absurd htag hsound

theorem keeps_resourceReference_iff {name : String}
    (hname : name = "text" ∨ name = "blob") (hsorted : Sorted members)
    (hallows : Allows (resourceContentsSpecification name) members) :
    ResourceReference.fields.record.Keeps (.object members) ↔
      (Value.object members).get "mimeType" = none ∧
        (Value.object members).get "blob" = none := by
  have hnames : ((resourceContentsSpecification name).map
      SpecifiedMember.name).Nodup := by
    rcases hname with rfl | rfl
    · simp [resourceContentsSpecification]
    · simp [resourceContentsSpecification]
  have htext : (WireFields.optional "text" Wire.string).KeptIn members := by
    rcases hname with rfl | rfl
    · rw [WireFields.keptIn_optional_iff]
      intro value hvalue
      have hmember : ⟨"text", true, IsString⟩ ∈
          resourceContentsSpecification "text" := by
        simp [resourceContentsSpecification]
      exact keeps_of_isString (hallows.shape hnames hmember hvalue)
    · exact hallows.keptIn_absent (by simp [resourceContentsSpecification])
  have hkept : ResourceReference.fields.KeptIn members := by
    rw [ResourceReference.fields, WireFields.keptIn_map_iff (fun _ => rfl),
      WireFields.keptIn_and_iff (by
        simp [WireFields.required, WireFields.optional])]
    exact ⟨hallows.keptIn_required hnames
      (by simp [resourceContentsSpecification])
      (fun _ hshape => (keeps_of_isString hshape).2), htext⟩
  rw [WireFields.keeps_record_iff (by
      simp [ResourceReference.fields, WireFields.map, WireFields.and,
        WireFields.required, WireFields.optional]) hsorted,
    hallows.others_absent_iff, and_iff_right hkept]
  rcases hname with rfl | rfl
  · have hblob : members.lookup "blob" = none :=
      hallows.absent (by simp [resourceContentsSpecification])
    simp [resourceContentsSpecification, ResourceReference.fields,
      WireFields.map, WireFields.and, WireFields.required,
      WireFields.optional, Value.get, hblob]
  · simp [resourceContentsSpecification, ResourceReference.fields,
      WireFields.map, WireFields.and, WireFields.required,
      WireFields.optional, Value.get]

theorem keeps_embedded_iff (hnormal : (Value.object members).Normal)
    (hallows : Allows embeddedSpecification members) :
    ToolResult.wire.Keeps (.object members) ↔
      IsPlainContent (.object members) := by
  have hnames : (embeddedSpecification.map SpecifiedMember.name).Nodup := by
    simp [embeddedSpecification]
  have htag : members.lookup "type" = some (.str "resource") :=
    hallows.tag hnames (by simp [embeddedSpecification])
  have hmember : ⟨"resource", true, fun value =>
      Conforms (resourceContentsSpecification "text") value ∨
        Conforms (resourceContentsSpecification "blob") value⟩ ∈
          embeddedSpecification := by
    simp [embeddedSpecification]
  obtain ⟨resource, hfound, hshape⟩ :=
    hallows.required hnames hmember rfl
  have hresource : members.lookup "resource" = some resource := hfound
  have hreference : ResourceReference.fields.record.Keeps resource ↔
      resource.get "mimeType" = none ∧ resource.get "blob" = none := by
    have hresourceNormal := hnormal.get hresource
    rcases hshape with ⟨_, rfl, hcontents⟩ | ⟨_, rfl, hcontents⟩
    · exact keeps_resourceReference_iff (.inl rfl)
        (sorted_of_normal hresourceNormal) hcontents
    · exact keeps_resourceReference_iff (.inr rfl)
        (sorted_of_normal hresourceNormal) hcontents
  have hkept : ToolResult.resourceFields.KeptIn members ↔
      resource.get "mimeType" = none ∧ resource.get "blob" = none := by
    rw [ToolResult.resourceFields, WireFields.keptIn_required_iff,
      ← hreference, hresource]
    simp
  rw [keeps_toolResult_iff ToolResult.resourceFields
      (by simp [ToolResult.resourceFields, WireFields.required])
      (by simp [ToolResult.resourceFields, WireFields.required])
      (sorted_of_normal hnormal) htag (fun _ => rfl) (fun _ => rfl),
    hallows.untagged_absent_iff, hkept]
  simp [embeddedSpecification, ToolResult.resourceFields,
    WireFields.required, IsPlainContent, Value.get, htag, hresource,
    and_comm]

theorem keeps_content_iff {value : Value} (hnormal : value.Normal)
    (hcontent : IsContent value) :
    ToolResult.wire.Keeps value ↔ IsPlainContent value := by
  rcases hcontent with ⟨_, rfl, hallows⟩ | ⟨_, rfl, hallows⟩ |
    ⟨_, rfl, hallows⟩ | ⟨_, rfl, hallows⟩
  · exact keeps_text_iff (sorted_of_normal hnormal) hallows
  · exact keeps_image_iff (sorted_of_normal hnormal) hallows
  · exact keeps_audio_iff hallows
  · exact keeps_embedded_iff hnormal hallows

theorem keeps_callTool_iff (hnormal : (Value.object members).Normal)
    (hallows : Allows callToolSpecification members) :
    CallToolResponse.fields.record.Keeps (.object members) ↔
      (Value.object members).get "isError" = none ∧
        (Value.object members).get "_meta" = none ∧
        ∀ content ∈ itemsOf (.object members) "content",
          IsPlainContent content := by
  have hnames : (callToolSpecification.map SpecifiedMember.name).Nodup := by
    simp [callToolSpecification]
  have hmember : ⟨"content", true, IsArrayOf IsContent⟩ ∈
      callToolSpecification := by
    simp [callToolSpecification]
  obtain ⟨_, hitems, elements, rfl, hshape⟩ :=
    hallows.required hnames hmember rfl
  have hcontents : (WireFields.defaulted "content" ToolResult.wire.list
      []).KeptIn members ↔ ∀ content ∈ elements, IsPlainContent content := by
    rw [WireFields.keptIn_defaulted_iff, hitems]
    simp only [Option.some.injEq, exists_eq_left', Wire.keeps_list_iff]
    refine forall₂_congr fun content hcontent => ?_
    cases hnormal.get hitems with
    | array helements =>
        exact keeps_content_iff (helements content hcontent)
          (hshape content hcontent)
  have hkept : CallToolResponse.fields.KeptIn members ↔
      ∀ content ∈ elements, IsPlainContent content := by
    rw [CallToolResponse.fields, WireFields.keptIn_map_iff (fun _ => rfl),
      WireFields.keptIn_and_iff (by
        simp [WireFields.defaulted, WireFields.optional]), hcontents]
    exact and_iff_left
      (hallows.keptIn_absent (by simp [callToolSpecification]))
  rw [WireFields.keeps_record_iff (by
      simp [CallToolResponse.fields, WireFields.map, WireFields.and,
        WireFields.defaulted, WireFields.optional])
      (sorted_of_normal hnormal),
    hallows.others_absent_iff, hkept, itemsOf_eq hitems]
  simp [callToolSpecification, CallToolResponse.fields, WireFields.map,
    WireFields.and, WireFields.defaulted, WireFields.optional, Value.get,
    and_comm, and_assoc]

/-! ## Capabilities -/

/-- A record of one flag keeps when there is nothing else. -/
theorem keeps_flag_iff {α : Type} {make : Option Bool → α}
    {parts : α → Option Bool} (hparts : ∀ flag, parts (make flag) = flag)
    (name : String) (hsorted : Sorted members) :
    ((flagFields name).map make parts).record.Keeps (.object members) ↔
      HasOnlyFlag name (.object members) := by
  rw [WireFields.keeps_record_iff (by
      simp [flagFields, WireFields.map, WireFields.optional]) hsorted,
    WireFields.keptIn_map_iff hparts, flagFields,
    WireFields.keptIn_optional_iff]
  have hnamesEq : ((WireFields.optional name Wire.bool).map make
      parts).names = [name] := rfl
  constructor
  · rintro ⟨hflag, hothers⟩ other member hmember
    have hsame : other = name := by
      by_contra hne
      have habsent := hothers other (by simpa [hnamesEq] using hne)
      rw [show members.lookup other = some member from hmember] at habsent
      cases habsent
    subst hsame
    exact ⟨rfl, isBool_of_keeps (hflag member hmember).2⟩
  · intro honly
    refine ⟨?_, ?_⟩
    · intro value hvalue
      obtain ⟨_, flag, rfl⟩ := honly name value hvalue
      exact ⟨by simp, Wire.keeps_bool flag⟩
    · intro other hother
      cases hvalue : members.lookup other with
      | none => rfl
      | some value =>
          obtain ⟨rfl, _⟩ := honly other value hvalue
          exact absurd (List.mem_singleton_self _) hother

/-- Of a list of changes nothing is read. -/
theorem keeps_listChanged_iff {α : Type} {make : Option Bool → α}
    {parts : α → Option Bool} (hparts : ∀ flag, parts (make flag) = flag)
    (hsorted : Sorted members)
    (hallows : Allows listChangedSpecification members) :
    ((flagFields "list_changed").map make parts).record.Keeps
        (.object members) ↔
      (Value.object members).get "listChanged" = none := by
  rw [WireFields.keeps_record_iff (by
      simp [flagFields, WireFields.map, WireFields.optional]) hsorted,
    WireFields.keptIn_map_iff hparts, hallows.others_absent_iff,
    and_iff_right (show (flagFields "list_changed").KeptIn members from
      hallows.keptIn_absent (by simp [listChangedSpecification]))]
  simp [listChangedSpecification, flagFields, WireFields.map,
    WireFields.optional, Value.get]

theorem keeps_resourceCapabilities_iff (hsorted : Sorted members)
    (hallows : Allows subscribeSpecification members) :
    ResourceCapabilities.fields.record.Keeps (.object members) ↔
      (Value.object members).get "listChanged" = none := by
  have hnames : (subscribeSpecification.map SpecifiedMember.name).Nodup := by
    simp [subscribeSpecification]
  have hsubscribe : (flagFields "subscribe").KeptIn members := by
    have hmember : ⟨"subscribe", false, IsBool⟩ ∈ subscribeSpecification := by
      simp [subscribeSpecification]
    refine hallows.keptIn_optional hnames hmember ?_
    rintro _ ⟨flag, rfl⟩
    exact ⟨by simp, Wire.keeps_bool flag⟩
  have hkept : ResourceCapabilities.fields.KeptIn members := by
    rw [ResourceCapabilities.fields, WireFields.keptIn_map_iff (fun _ => rfl),
      WireFields.keptIn_and_iff (by
        simp [flagFields, WireFields.optional])]
    exact ⟨hsubscribe,
      hallows.keptIn_absent (by simp [subscribeSpecification])⟩
  rw [WireFields.keeps_record_iff (by
      simp [ResourceCapabilities.fields, flagFields, WireFields.map,
        WireFields.and, WireFields.optional]) hsorted,
    hallows.others_absent_iff, and_iff_right hkept]
  simp [subscribeSpecification, ResourceCapabilities.fields, flagFields,
    WireFields.map, WireFields.and, WireFields.optional, Value.get]

/-- A capability keeps when it is not there or is kept itself. -/
theorem keptIn_capability_iff {α : Type} {wire : Wire α} {name : String}
    {shape : Value → Prop} {kept : Value → Prop}
    (hnormal : (Value.object members).Normal)
    (hallows : Allows capabilitiesSpecification members)
    (hmember : ⟨name, false, shape⟩ ∈ capabilitiesSpecification)
    (hobject : ∀ value, shape value → IsObject value)
    (hwire : ∀ capability : List (String × Value), Sorted capability →
      shape (.object capability) →
        (wire.Keeps (.object capability) ↔ kept (.object capability))) :
    (WireFields.optional name wire).KeptIn members ↔
      ∀ capability, (Value.object members).get name = some capability →
        kept capability := by
  have hnames : (capabilitiesSpecification.map
      SpecifiedMember.name).Nodup := by
    simp [capabilitiesSpecification]
  rw [WireFields.keptIn_optional_iff]
  refine forall₂_congr fun capability hcapability => ?_
  have hshape := hallows.shape hnames hmember hcapability
  have hcapabilityNormal := hnormal.get hcapability
  obtain ⟨inner, rfl⟩ := hobject capability hshape
  rw [hwire inner (sorted_of_normal hcapabilityNormal) hshape]
  simp

theorem isObject_of_conforms {specification : List SpecifiedMember}
    {value : Value} (hconforms : Conforms specification value) :
    IsObject value := by
  obtain ⟨inner, rfl, _⟩ := hconforms
  exact ⟨inner, rfl⟩

theorem allows_of_conforms {specification : List SpecifiedMember}
    (hconforms : Conforms specification (.object members)) :
    Allows specification members := by
  obtain ⟨_, hsame, hallows⟩ := hconforms
  rw [Value.object.inj hsame]
  exact hallows

/-- Capabilities of a list: the changes are the only member. -/
theorem keptIn_listCapability_iff {α : Type} {make : Option Bool → α}
    {parts : α → Option Bool} (hparts : ∀ flag, parts (make flag) = flag)
    {name : String} (hnormal : (Value.object members).Normal)
    (hallows : Allows capabilitiesSpecification members)
    (hmember : ⟨name, false, Conforms listChangedSpecification⟩ ∈
      capabilitiesSpecification) :
    (WireFields.optional name
        ((flagFields "list_changed").map make parts).record).KeptIn members ↔
      ∀ capability, (Value.object members).get name = some capability →
        capability.get "listChanged" = none :=
  keptIn_capability_iff hnormal hallows hmember
    (fun _ => isObject_of_conforms)
    (fun _ hsorted hshape =>
      keeps_listChanged_iff hparts hsorted (allows_of_conforms hshape))

/-- A capability that is any object to the protocol, and one flag here. -/
theorem keptIn_flagCapability_iff {α : Type} {make : Option Bool → α}
    {parts : α → Option Bool} (hparts : ∀ flag, parts (make flag) = flag)
    {name : String} (flag : String) (hnormal : (Value.object members).Normal)
    (hallows : Allows capabilitiesSpecification members)
    (hmember : ⟨name, false, IsObject⟩ ∈ capabilitiesSpecification) :
    (WireFields.optional name
        ((flagFields flag).map make parts).record).KeptIn members ↔
      ∀ capability, (Value.object members).get name = some capability →
        HasOnlyFlag flag capability :=
  keptIn_capability_iff hnormal hallows hmember (fun _ hobject => hobject)
    (fun _ hsorted _ => keeps_flag_iff hparts flag hsorted)

theorem keptIn_capabilities_iff (hnormal : (Value.object members).Normal)
    (hallows : Allows capabilitiesSpecification members) :
    StandardCapabilities.fields.KeptIn members ↔
      IsPlainCapabilities (.object members) := by
  have hsubscribe : ⟨"resources", false, Conforms subscribeSpecification⟩ ∈
      capabilitiesSpecification := by
    simp [capabilitiesSpecification]
  have hresources : (WireFields.optional "resources"
      ResourceCapabilities.fields.record).KeptIn members ↔
      ∀ capability, (Value.object members).get "resources" =
        some capability → capability.get "listChanged" = none :=
    keptIn_capability_iff hnormal hallows hsubscribe
      (fun _ => isObject_of_conforms)
      (fun _ hsorted hshape => keeps_resourceCapabilities_iff hsorted
        (allows_of_conforms hshape))
  rw [StandardCapabilities.fields, WireFields.keptIn_map_iff (fun _ => rfl),
    WireFields.keptIn_and_iff (by
      simp [WireFields.and, WireFields.optional]),
    WireFields.keptIn_and_iff (by
      simp [WireFields.and, WireFields.optional]),
    WireFields.keptIn_and_iff (by
      simp [WireFields.and, WireFields.optional]),
    WireFields.keptIn_and_iff (by
      simp [WireFields.and, WireFields.optional]),
    WireFields.keptIn_and_iff (by simp [WireFields.optional]), hresources,
    ToolCapabilities.fields, PromptCapabilities.fields,
    SamplingCapabilities.fields, LoggingCapabilities.fields,
    RootsCapabilities.fields,
    keptIn_listCapability_iff (fun _ => rfl) hnormal hallows
      (by simp [capabilitiesSpecification]),
    keptIn_listCapability_iff (fun _ => rfl) hnormal hallows
      (by simp [capabilitiesSpecification]),
    keptIn_listCapability_iff (fun _ => rfl) hnormal hallows
      (by simp [capabilitiesSpecification]),
    keptIn_flagCapability_iff (fun _ => rfl) "enabled" hnormal hallows
      (by simp [capabilitiesSpecification]),
    keptIn_flagCapability_iff (fun _ => rfl) "level" hnormal hallows
      (by simp [capabilitiesSpecification])]
  simp only [IsPlainCapabilities, List.forall_mem_cons]
  constructor
  · rintro ⟨htools, hlist, hprompts, hsampling, hlogging, hroots⟩
    exact ⟨⟨htools, hlist, hprompts, hroots, by simp⟩, hsampling, hlogging⟩
  · rintro ⟨⟨htools, hlist, hprompts, hroots, _⟩, hsampling, hlogging⟩
    exact ⟨htools, hlist, hprompts, hsampling, hlogging, hroots⟩

theorem keeps_capabilities_iff (hnormal : (Value.object members).Normal)
    (hallows : Allows capabilitiesSpecification members) :
    capabilitiesWire.Keeps (.object members) ↔
      IsPlainCapabilities (.object members) := by
  rw [capabilitiesWire, WireFields.keeps_flattened_iff (by
      simp [StandardCapabilities.fields, WireFields.map, WireFields.and,
        WireFields.optional]) (sorted_of_normal hnormal)]
  exact keptIn_capabilities_iff hnormal hallows

/-! ## Progress -/

/-- The token is read under a name that the protocol does not have. -/
theorem fromValue_progress_eq_none (doubleOfInt : ℤ → UInt64)
    (hallows : Allows progressSpecification members) :
    (ProgressNotification.fields doubleOfInt).record.fromValue
      (.object members) = none := by
  have htoken : members.lookup "progress_token" = none :=
    hallows.absent (by simp [progressSpecification])
  simp [WireFields.record, Value.asRecord, ProgressNotification.fields,
    WireFields.map, WireFields.and, WireFields.required, htoken]

theorem not_keeps_progress (doubleOfInt : ℤ → UInt64)
    (hallows : Allows progressSpecification members) :
    ¬ (ProgressNotification.fields doubleOfInt).record.Keeps
      (.object members) := by
  rintro ⟨_, hread, _⟩
  rw [fromValue_progress_eq_none doubleOfInt hallows] at hread
  cases hread

/-! ## Messages -/

theorem MessageType.keeps_iff (doubleOfInt : ℤ → UInt64) (kind : MessageType)
    (value : OrderedValue) (hconforms : Conforms kind.specification value.val) :
    kind.Keeps doubleOfInt value.val ↔ kind.KeptWhen value.val := by
  obtain ⟨value, hnormal⟩ := value
  obtain ⟨members, rfl, hallows⟩ := hconforms
  have hsorted := sorted_of_normal hnormal
  cases kind with
  | listToolsResponse => exact keeps_listTools_iff hnormal hallows
  | callToolResponse => exact keeps_callTool_iff hnormal hallows
  | tool => exact iff_of_false (not_keeps_tool hallows) id
  | listResourcesResponse => exact keeps_listResources_iff hnormal hallows
  | resource => exact keeps_resource_iff hsorted hallows
  | listPromptsResponse => exact keeps_listPrompts_iff hnormal hallows
  | capabilities => exact keeps_capabilities_iff hnormal hallows
  | progressNotification =>
      exact iff_of_false (not_keeps_progress doubleOfInt hallows) id

def namedResource : OrderedValue where
  val := .object [("name", .str "log"), ("uri", .str "file:///log")]
  property := .object (by unfold Sorted; decide +kernel) (by
    intro member hmember
    simp only [List.mem_cons, List.not_mem_nil, or_false] at hmember
    rcases hmember with rfl | rfl
    · exact .str _
    · exact .str _)

theorem namedResource_keeps :
    Conforms MessageType.resource.specification namedResource.val ∧
      MessageType.resource.Keeps (fun _ => 0) namedResource.val := by
  have hconforms : Conforms MessageType.resource.specification
      namedResource.val := by
    refine ⟨_, rfl, ?_, ?_⟩
    · intro name value hvalue
      rw [lookup_cons_eq_if, lookup_cons_eq_if] at hvalue
      split_ifs at hvalue with hname huri
      · exact ⟨⟨"name", true, IsString⟩, by
          simp [MessageType.specification, resourceSpecification],
          hname.symm, _, (Option.some.inj hvalue).symm⟩
      · exact ⟨⟨"uri", true, IsString⟩, by
          simp [MessageType.specification, resourceSpecification],
          huri.symm, _, (Option.some.inj hvalue).symm⟩
      · cases hvalue
    · simp [MessageType.specification, resourceSpecification, List.lookup]
  exact ⟨hconforms, (MessageType.keeps_iff _ _ namedResource hconforms).mpr
    (by simp [MessageType.KeptWhen, IsPlainResource, namedResource,
      Value.get, List.lookup])⟩

/-- The result of a tool that failed. -/
def failedResult : OrderedValue where
  val := .object [("content", .array []), ("isError", .bool true)]
  property := .object (by unfold Sorted; decide +kernel) (by
    intro member hmember
    simp only [List.mem_cons, List.not_mem_nil, or_false] at hmember
    rcases hmember with rfl | rfl
    · exact .array (by simp)
    · exact .bool _)

/-- The error is read as no error. -/
theorem failedResult_not_keeps :
    Conforms MessageType.callToolResponse.specification failedResult.val ∧
      CallToolResponse.fields.record.fromValue failedResult.val =
        some ⟨[], none⟩ ∧
      ¬ MessageType.callToolResponse.Keeps (fun _ => 0) failedResult.val := by
  have hread : CallToolResponse.fields.record.fromValue failedResult.val =
      some ⟨[], none⟩ := rfl
  refine ⟨⟨_, rfl, ?_, ?_⟩, hread, ?_⟩
  · intro name value hvalue
    rw [lookup_cons_eq_if, lookup_cons_eq_if] at hvalue
    split_ifs at hvalue with hcontent herror
    · exact ⟨⟨"content", true, IsArrayOf IsContent⟩, by
        simp [MessageType.specification, callToolSpecification],
        hcontent.symm, [], (Option.some.inj hvalue).symm, by simp⟩
    · exact ⟨⟨"isError", false, IsBool⟩, by
        simp [MessageType.specification, callToolSpecification],
        herror.symm, true, (Option.some.inj hvalue).symm⟩
    · cases hvalue
  · simp [MessageType.specification, callToolSpecification, List.lookup]
  · rintro ⟨found, hfound, hwrite⟩
    cases hread.symm.trans hfound
    have hmember := congrArg (fun value => value.get "isError") hwrite
    simp [failedResult, CallToolResponse.fields, WireFields.record,
      WireFields.map, WireFields.and, WireFields.defaulted,
      WireFields.optional, Value.get, lookup_record, List.lookup] at hmember

end Core
end Acdp
