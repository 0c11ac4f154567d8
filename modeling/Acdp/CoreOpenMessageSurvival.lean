import Acdp.CommonIpc
import Acdp.CoreOpenMessages

/-!
# Open messages survive their own text

A message with an open map comes back from its text exactly if no key of the
map is the name of a field, and what the map and the fields hold survives the
text.  The names of the fields are the same whether a field has been written
or not: an entry under the name of one that is left out is taken for it.
-/

namespace Acdp
namespace Core
namespace Messages

open Json

variable {serde : MessageSerde}

/-- `serde_json::from_str(&serde_json::to_string(self)?)`. -/
def reload {α : Type} (codec : Codec α) (self : α) : Option α :=
  codec.read 127 (codec.write self)

theorem reload_eq_self_iff {α : Type} (codec : Codec α) (self : α) :
    reload codec self = some self ↔ codec.Kept 127 self :=
  codec.read_write_iff 127 self

/-! ## Capabilities -/

/-- An object with flags alone is read whatever stands around it. -/
theorem legible_flags {floats : FloatText} {depth : ℕ}
    {members : List (String × Json)}
    (hflags : ∀ member ∈ members, ∃ flag, member.2 = .bool flag) :
    Legible floats (depth + 1) (.obj members) := by
  rw [legible_obj_iff]
  intro member hmember
  obtain ⟨flag, hflag⟩ := hflags member hmember
  rw [hflag]
  exact legible_bool floats depth flag

theorem exists_flag_of_mem {name : String} {slot : Option Bool}
    {member : String × Json}
    (hmember : member ∈ optionalMember name Json.bool slot) :
    ∃ flag, member.2 = .bool flag := by
  cases slot with
  | none => cases hmember
  | some flag => exact ⟨flag, by rw [List.mem_singleton.mp hmember]⟩

theorem legible_standard {floats : FloatText} (depth : ℕ)
    (standard : Option ToolCapabilities × Option ResourceCapabilities ×
      Option PromptCapabilities × Option SamplingCapabilities ×
      Option LoggingCapabilities × Option RootsCapabilities) :
    ∀ member ∈ StandardCapabilities.members.write standard,
      Legible floats (depth + 1) member.2 := by
  have hslot : ∀ {α : Type} (name : String) (codec : Codec α)
      (slot : Option α),
      (∀ value, Legible floats (depth + 1) (codec.write value)) →
        ∀ member ∈ optionalMember name codec.write slot,
          Legible floats (depth + 1) member.2 := by
    intro α name codec slot hlegible
    rw [legible_optionalMember_iff]
    exact fun value _ => hlegible value
  obtain ⟨tools, resources, prompts, sampling, logging, roots⟩ := standard
  refine List.forall_mem_append.mpr ⟨hslot _ _ tools ?_,
    List.forall_mem_append.mpr ⟨hslot _ _ resources ?_,
      List.forall_mem_append.mpr ⟨hslot _ _ prompts ?_,
        List.forall_mem_append.mpr ⟨hslot _ _ sampling ?_,
          List.forall_mem_append.mpr ⟨hslot _ _ logging ?_,
            hslot _ _ roots ?_⟩⟩⟩⟩⟩
  · exact fun _ => legible_flags fun _ => exists_flag_of_mem
  · intro value
    refine legible_flags fun member hmember => ?_
    rcases List.mem_append.mp hmember with hsubscribe | hlistChanged
    · exact exists_flag_of_mem hsubscribe
    · exact exists_flag_of_mem hlistChanged
  · exact fun _ => legible_flags fun _ => exists_flag_of_mem
  · exact fun _ => legible_flags fun _ => exists_flag_of_mem
  · exact fun _ => legible_flags fun _ => exists_flag_of_mem
  · exact fun _ => legible_flags fun _ => exists_flag_of_mem

/-- Values that come back can be gathered before they are read. -/
theorem legible_writeRest {depth : ℕ} {names : List String} {map : OpenMap}
    (hclear : map.Clear serde.value names depth) :
    ∀ member ∈ writeRest serde.value serde.order map,
      Legible serde.toFloatText depth member.2 := by
  intro member hmember
  obtain ⟨entry, hentry, rfl⟩ := List.mem_map.mp hmember
  obtain ⟨_, hfits, hstable⟩ :=
    hclear entry ((serde.order.perm _).mem_iff.mp hentry)
  exact Value.legible_encode _ entry.2.property hfits hstable

def Capabilities.names : List String :=
  ["tools", "resources", "prompts", "sampling", "logging", "roots"]

theorem Capabilities.kept_iff (depth : ℕ) (self : Capabilities) :
    (Capabilities.codec serde).Kept (depth + 3) self ↔
      self.custom.Clear serde.value Capabilities.names (depth + 2) := by
  have hstandard : StandardCapabilities.members.Kept (depth + 2)
      (self.standard.tools, self.standard.resources, self.standard.prompts,
        self.standard.sampling, self.standard.logging,
        self.standard.roots) := by
    simp [StandardCapabilities.members, ToolCapabilities.codec,
      ResourceCapabilities.codec, PromptCapabilities.codec,
      SamplingCapabilities.codec, LoggingCapabilities.codec,
      RootsCapabilities.codec, flagField]
  unfold Capabilities.codec
  rw [Codec.kept_buffered, Codec.kept_flattened]
  constructor
  · rintro ⟨_, _, _, hclear⟩
    exact hclear
  · intro hclear
    refine ⟨?_, Nat.succ_pos _, hstandard, hclear⟩
    exact (legible_obj_iff _ (depth + 2) _).mpr
      (List.forall_mem_append.mpr ⟨legible_standard (depth + 1) _,
        legible_writeRest hclear⟩)

/-! ## Implementations -/

def Implementation.names : List String := ["name", "version"]

theorem Implementation.kept_iff (depth : ℕ) (self : Implementation) :
    (Implementation.codec serde).Kept (depth + 1) self ↔
      self.metadata.Clear serde.value Implementation.names depth := by
  unfold Implementation.codec
  rw [Codec.kept_flattened]
  constructor
  · rintro ⟨_, _, hclear⟩
    exact hclear
  · intro hclear
    exact ⟨Nat.succ_pos depth, ⟨trivial, trivial⟩, hclear⟩

/-! ## Initialization -/

theorem InitializeRequest.kept_iff (depth : ℕ) (self : InitializeRequest) :
    (InitializeRequest.codec serde).Kept (depth + 4) self ↔
      self.protocolVersion.Proper ∧
        self.capabilities.custom.Clear serde.value Capabilities.names
          (depth + 2) ∧
        self.clientInfo.metadata.Clear serde.value Implementation.names
          (depth + 2) := by
  unfold InitializeRequest.codec
  rw [Codec.kept_record, and_iff_right (Nat.succ_pos _), Fields.kept_and,
    Fields.kept_and, Fields.kept_required, Fields.kept_required,
    Fields.kept_required]
  exact and_congr_right' (and_congr
    (Capabilities.kept_iff depth self.capabilities)
    (Implementation.kept_iff (depth + 2) self.clientInfo))

theorem InitializeResponse.kept_iff (depth : ℕ)
    (self : InitializeResponse) :
    (InitializeResponse.codec serde).Kept (depth + 4) self ↔
      self.protocolVersion.Proper ∧
        self.capabilities.custom.Clear serde.value Capabilities.names
          (depth + 2) ∧
        self.serverInfo.metadata.Clear serde.value Implementation.names
          (depth + 2) := by
  have hinstructions : (Fields.skipped "instructions" Codec.string).Kept
      (depth + 3) self.instructions :=
    fun _ _ => ⟨Json.noConfusion, trivial⟩
  unfold InitializeResponse.codec
  rw [Codec.kept_record, and_iff_right (Nat.succ_pos _), Fields.kept_and,
    Fields.kept_and, Fields.kept_and, Fields.kept_required,
    Fields.kept_required, Fields.kept_required]
  exact and_congr_right' (and_congr
    (Capabilities.kept_iff depth self.capabilities)
    ((and_iff_left hinstructions).trans
      (Implementation.kept_iff (depth + 2) self.serverInfo)))

/-! ## Updates of resources -/

theorem ResourceUpdatedNotification.kept_iff (depth : ℕ)
    (self : ResourceUpdatedNotification) :
    (ResourceUpdatedNotification.codec serde).Kept (depth + 1) self ↔
      self.metadata.Clear serde.value ["uri"] depth := by
  unfold ResourceUpdatedNotification.codec
  rw [Codec.kept_flattened]
  constructor
  · rintro ⟨_, _, hclear⟩
    exact hclear
  · intro hclear
    exact ⟨Nat.succ_pos depth, trivial, hclear⟩

/-! ## Requests for a completion -/

theorem MessageRole.kept (depth : ℕ) (self : MessageRole) :
    MessageRole.codec.Kept depth self := by
  cases self <;> trivial

theorem Priority.kept (depth : ℕ) (self : Priority) :
    Priority.codec.Kept depth self := by
  cases self <;> trivial

theorem ModelPreferences.kept (depth : ℕ) (self : ModelPreferences) :
    ModelPreferences.codec.Kept (depth + 2) self := by
  have hpriority : ∀ value, Priority.codec.write value ≠ .null := by
    intro value
    cases value <;> exact Json.noConfusion
  have hmodels : ∀ models, (Codec.list .string).write models ≠ .null :=
    fun _ => Json.noConfusion
  simp [ModelPreferences.codec, Priority.kept, hpriority, hmodels]

theorem SamplingContent.kept (depth : ℕ) (self : SamplingContent) :
    (SamplingContent.codec serde).Kept (depth + 1) self := by
  refine ⟨?_, Nat.succ_pos depth⟩
  cases self with
  | text content =>
      refine (legible_obj_iff _ depth _).mpr (List.forall_mem_cons.mpr
        ⟨legible_str _ depth _, List.forall_mem_singleton.mpr ?_⟩)
      exact legible_str _ depth content
  | image data mimeType =>
      refine (legible_obj_iff _ depth _).mpr (List.forall_mem_cons.mpr
        ⟨legible_str _ depth _, List.forall_mem_cons.mpr
          ⟨legible_str _ depth data, List.forall_mem_singleton.mpr ?_⟩⟩)
      exact legible_str _ depth mimeType

theorem SamplingMessage.kept (depth : ℕ) (self : SamplingMessage) :
    (SamplingMessage.codec serde).Kept (depth + 2) self :=
  ⟨Nat.succ_pos _, MessageRole.kept _ self.role,
    SamplingContent.kept depth self.content⟩

def CompletionArgument.names : List String :=
  ["messages", "model_preferences", "system_prompt", "include_context",
    "temperature", "max_tokens", "stop_sequences"]

theorem CompletionArgument.kept_iff (depth : ℕ) (self : CompletionArgument) :
    (CompletionArgument.codec serde).Kept (depth + 4) self ↔
      (∀ bits, self.temperature = some bits →
        serde.DoubleKept bits) ∧
      self.metadata.Clear serde.value CompletionArgument.names
        (depth + 3) := by
  have hfields : (CompletionArgument.fields serde).Kept (depth + 3)
      (self.messages, self.modelPreferences, self.systemPrompt,
        self.includeContext, self.temperature, self.maxTokens,
        self.stopSequences) ↔
      ∀ bits, self.temperature = some bits → serde.DoubleKept bits := by
    have hmessages : (SamplingMessage.codec serde).list.Kept (depth + 3)
        self.messages :=
      ⟨Nat.succ_pos _, fun message _ => SamplingMessage.kept depth message⟩
    have hpreferences : ∀ preferences,
        ModelPreferences.codec.write preferences ≠ .null ∧
          ModelPreferences.codec.Kept (depth + 3) preferences :=
      fun preferences => ⟨Json.noConfusion,
        ModelPreferences.kept (depth + 1) preferences⟩
    have hsequences : ∀ sequences : List String,
        (Codec.list .string).write sequences ≠ .null ∧
          (Codec.list .string).Kept (depth + 3) sequences :=
      fun sequences => ⟨Json.noConfusion, Nat.succ_pos _,
        fun _ _ => trivial⟩
    have hmax : ∀ tokens, Codec.i32.write tokens ≠ .null :=
      fun _ => Json.noConfusion
    -- A number that is not finite is written as `null`, which is nothing.
    have hfinite : ∀ bits, (isFiniteDouble bits = true ∧
        serde.DoubleKept bits) ↔ serde.DoubleKept bits :=
      fun bits => and_iff_right_of_imp And.left
    unfold CompletionArgument.fields
    rw [Fields.kept_and, Fields.kept_required, and_iff_right hmessages]
    simp [hpreferences, hsequences, hmax, hfinite]
  unfold CompletionArgument.codec
  rw [Codec.kept_flattened, ← hfields]
  constructor
  · rintro ⟨_, hkept, hclear⟩
    exact ⟨hkept, hclear⟩
  · rintro ⟨hkept, hclear⟩
    exact ⟨Nat.succ_pos _, hkept, hclear⟩

/-! ## What survives -/

/-- An open message comes back from its text exactly if no key of its map is
the name of a field, whether that field is written or not, and its values
survive the text; a version exactly if it is not a known one in disguise, and
a temperature if it is finite and its text is read as the same number. -/
theorem messages_survive_iff (serde : MessageSerde) :
    (∀ self : Implementation,
      reload (Implementation.codec serde) self = some self ↔
        self.metadata.Clear serde.value ["name", "version"] 126) ∧
      (∀ self : Capabilities,
        reload (Capabilities.codec serde) self = some self ↔
          self.custom.Clear serde.value ["tools", "resources", "prompts",
            "sampling", "logging", "roots"] 126) ∧
      (∀ self : InitializeRequest,
        reload (InitializeRequest.codec serde) self = some self ↔
          self.protocolVersion.Proper ∧
            self.capabilities.custom.Clear serde.value ["tools", "resources",
              "prompts", "sampling", "logging", "roots"] 125 ∧
            self.clientInfo.metadata.Clear serde.value
              ["name", "version"] 125) ∧
      (∀ self : InitializeResponse,
        reload (InitializeResponse.codec serde) self = some self ↔
          self.protocolVersion.Proper ∧
            self.capabilities.custom.Clear serde.value ["tools", "resources",
              "prompts", "sampling", "logging", "roots"] 125 ∧
            self.serverInfo.metadata.Clear serde.value
              ["name", "version"] 125) ∧
      (∀ self : ResourceUpdatedNotification,
        reload (ResourceUpdatedNotification.codec serde) self = some self ↔
          self.metadata.Clear serde.value ["uri"] 126) ∧
      (∀ self : CompletionArgument,
        reload (CompletionArgument.codec serde) self = some self ↔
          (∀ bits, self.temperature = some bits → serde.DoubleKept bits) ∧
            self.metadata.Clear serde.value ["messages", "model_preferences",
              "system_prompt", "include_context", "temperature",
              "max_tokens", "stop_sequences"] 126) := by
  refine ⟨?_, ?_, ?_, ?_, ?_, ?_⟩ <;> intro self <;> rw [reload_eq_self_iff]
  · exact Implementation.kept_iff 126 self
  · exact Capabilities.kept_iff 124 self
  · exact InitializeRequest.kept_iff 123 self
  · exact InitializeResponse.kept_iff 123 self
  · exact ResourceUpdatedNotification.kept_iff 126 self
  · exact CompletionArgument.kept_iff 123 self

/-- An implementation that names itself once more in its metadata. -/
def renamedImplementation : Implementation :=
  (Implementation.new "mcp-probe" "0.1.0").withMetadata "name"
    ⟨.str "rust", .str "rust"⟩

/-- Custom capabilities that say there are no tools. -/
def toollessCapabilities : Capabilities :=
  { Capabilities.default with
    custom := StringMap.empty.insert "tools" ⟨.null, .null⟩ }

def tableMessages : MessageSerde where
  toNumberText := Common.IpcConnection.tableNumbers
  order := Common.IpcConnection.tableSerde.order

/-- The text of the first has two members of one name, which is an error; in
the second the custom entry is taken for the standard one. -/
theorem renamed_and_toolless_lost :
    reload (Implementation.codec tableMessages) renamedImplementation =
        none ∧
      reload (Capabilities.codec tableMessages) toollessCapabilities =
        some Capabilities.default ∧
      Capabilities.default ≠ toollessCapabilities := by
  refine ⟨rfl, rfl, ?_⟩
  intro hsame
  have hcustom := congrArg (fun self => self.custom.members) hsame
  cases hcustom

/-- Of messages that come back, those with one more entry do exactly if the
key is not the name of a field and the value survives. -/
theorem builders_survive_iff (serde : MessageSerde) :
    (∀ (self : Implementation) key value,
      reload (Implementation.codec serde) self = some self →
        (reload (Implementation.codec serde) (self.withMetadata key value) =
            some (self.withMetadata key value) ↔
          key ∉ ["name", "version"] ∧ serde.value.Kept 126 value)) ∧
      (∀ (self : InitializeRequest) key value,
        reload (InitializeRequest.codec serde) self = some self →
          (reload (InitializeRequest.codec serde)
              (self.withClientMetadata key value) =
              some (self.withClientMetadata key value) ↔
            key ∉ ["name", "version"] ∧ serde.value.Kept 125 value)) ∧
      (∀ (self : InitializeResponse) key value,
        reload (InitializeResponse.codec serde) self = some self →
          (reload (InitializeResponse.codec serde)
              (InitializeResponse.withServerMetadata self key value) =
              some (InitializeResponse.withServerMetadata self key value) ↔
            key ∉ ["name", "version"] ∧ serde.value.Kept 125 value)) ∧
      (∀ (self : ResourceUpdatedNotification) key value,
        reload (ResourceUpdatedNotification.codec serde) self = some self →
          (reload (ResourceUpdatedNotification.codec serde)
              (self.withMetadata key value) =
              some (self.withMetadata key value) ↔
            key ∉ ["uri"] ∧ serde.value.Kept 126 value)) ∧
      (∀ (self : CompletionArgument) key value,
        reload (CompletionArgument.codec serde) self = some self →
          (reload (CompletionArgument.codec serde)
              (self.withMetadata key value) =
              some (self.withMetadata key value) ↔
            key ∉ CompletionArgument.names ∧
              serde.value.Kept 126 value)) := by
  refine ⟨?_, ?_, ?_, ?_, ?_⟩ <;> intro self key value <;>
    rw [reload_eq_self_iff, reload_eq_self_iff]
  · rw [Implementation.kept_iff 126, Implementation.kept_iff 126]
    intro hclear
    exact hclear.insert_iff key value
  · rw [InitializeRequest.kept_iff 123, InitializeRequest.kept_iff 123]
    rintro ⟨hversion, hcustom, hclear⟩
    exact (and_iff_right hversion).trans ((and_iff_right hcustom).trans
      (hclear.insert_iff key value))
  · rw [InitializeResponse.kept_iff 123, InitializeResponse.kept_iff 123]
    rintro ⟨hversion, hcustom, hclear⟩
    exact (and_iff_right hversion).trans ((and_iff_right hcustom).trans
      (hclear.insert_iff key value))
  · rw [ResourceUpdatedNotification.kept_iff 126,
      ResourceUpdatedNotification.kept_iff 126]
    intro hclear
    exact hclear.insert_iff key value
  · rw [CompletionArgument.kept_iff 123, CompletionArgument.kept_iff 123]
    rintro ⟨htemperature, hclear⟩
    exact (and_iff_right htemperature).trans (hclear.insert_iff key value)

end Messages
end Core
end Acdp
