import Acdp.CoreTypedMessages
import Acdp.JsonReadBack
import Acdp.MemberSlots

/-!
# The decoder of tools

A tool is read by a visitor that goes through the members of an object once.
The visitor keeps six slots that do not see each other: a name, a description,
extensions, a flag and a return type that are there at most once, and a schema
that has four names, of which the first member counts.  From this follow the
objects that are tools, what they are read as, and what is read of a tool that
has been written.
-/

namespace Acdp
namespace Core

open Json MemberSlots

namespace Tool

variable {β : Type}

/-! ## The visitor over any kind of document -/

/-- What the visitor does with one member, given how a string, a flag and any
value are read. -/
def visitWith (string : β → Option String) (bool : β → Option Bool)
    (value : β → Option Value) (gathered : Gathered) (member : String × β) :
    Option Gathered :=
  match Field.ofKey member.1 with
  | .name =>
      if gathered.name.isSome then none
      else (string member.2).map ({ gathered with name := some · })
  | .description =>
      if gathered.description.isSome then none
      else (string member.2).map ({ gathered with description := some · })
  | .inputSchema | .parametersSchema =>
      if gathered.inputSchema.isNone then
        (value member.2).map ({ gathered with inputSchema := some · })
      else (value member.2).map (fun _ => gathered)
  | .extensions =>
      if gathered.extensions.isSome then none
      else (value member.2).map ({ gathered with extensions := some · })
  | .readOnly =>
      if gathered.readOnly.isSome then none
      else (bool member.2).map ({ gathered with readOnly := some · })
  | .returnType =>
      if gathered.returnType.isSome then none
      else (value member.2).map ({ gathered with returnType := some · })
  | .unknown => (value member.2).map (fun _ => gathered)

/-- Over values it is the visitor of `fromValue`. -/
theorem visit_eq_visitWith :
    visit = visitWith Wire.string.fromValue Wire.bool.fromValue some := by
  funext gathered member
  unfold visit visitWith
  cases Field.ofKey member.1 with
  | inputSchema => cases hschema : gathered.inputSchema <;> simp
  | parametersSchema => cases hschema : gathered.inputSchema <;> simp
  | _ => rfl

/-- `Tool::deserialize` over a document. -/
def deserialize (floats : FloatText) : Json → Option Tool
  | .obj members =>
      (members.foldlM
        (visitWith asString asBool (Value.decode floats)) {}).bind ofGathered
  | _ => none

/-- `serde_json::from_str` on the text of a document: the parser gives up at
its recursion limit. -/
def ofDocument (floats : FloatText) (doc : Json) : Option Tool :=
  if doc.fits 127 then deserialize floats doc else none

/-- The members a tool is written with, in the order of its fields. -/
def written (floats : FloatText) (self : Tool) : List (String × Json) :=
  [("name", .str self.name), ("description", .str self.description)] ++
    optionalMember "input_schema" (Value.encode floats) self.inputSchema ++
    optionalMember "extensions" (Value.encode floats) self.extensions ++
    optionalMember "readOnly" .bool self.readOnly ++
    optionalMember "returnType" (Value.encode floats) self.returnType

def serialize (floats : FloatText) (self : Tool) : Json :=
  .obj (self.written floats)

/-! ## The visitor as six slots -/

def schemaNames : List String :=
  ["inputSchema", "input_schema", "parametersSchema", "parameters_schema"]

def readOnlyNames : List String := ["readOnly", "read_only"]

def knownNames : List String :=
  ["name", "description"] ++ schemaNames ++ ["extensions"] ++ readOnlyNames ++
    ["returnType"]

def slots (string : β → Option String) (bool : β → Option Bool)
    (value : β → Option Value) :
    Option String × Option String × Option Value × Option Value ×
        Option Bool × Option Value × Unit → String × β →
      Option (Option String × Option String × Option Value × Option Value ×
        Option Bool × Option Value × Unit) :=
  both (once string ["name"])
    (both (once string ["description"])
      (both (first value schemaNames)
        (both (once value ["extensions"])
          (both (once bool readOnlyNames)
            (both (once value ["returnType"]) (others value knownNames))))))

def Gathered.parts (gathered : Gathered) :
    Option String × Option String × Option Value × Option Value ×
      Option Bool × Option Value × Unit :=
  (gathered.name, gathered.description, gathered.inputSchema,
    gathered.extensions, gathered.readOnly, gathered.returnType, ())

theorem Gathered.parts_injective : Function.Injective Gathered.parts := by
  rintro ⟨name, description, inputSchema, extensions, readOnly, returnType⟩
    ⟨name', description', inputSchema', extensions', readOnly', returnType'⟩
    hsame
  cases hsame
  rfl

/-- Which field a name stands for. -/
theorem ofKey_cases (key : String) :
    (Field.ofKey key = .name ∧ key = "name") ∨
    (Field.ofKey key = .description ∧ key = "description") ∨
    ((Field.ofKey key = .inputSchema ∨ Field.ofKey key = .parametersSchema) ∧
      key ∈ schemaNames) ∨
    (Field.ofKey key = .extensions ∧ key = "extensions") ∨
    (Field.ofKey key = .readOnly ∧ key ∈ readOnlyNames) ∨
    (Field.ofKey key = .returnType ∧ key = "returnType") ∨
    (Field.ofKey key = .unknown ∧ key ∉ knownNames) := by
  unfold Field.ofKey
  split_ifs with hname hdescription hinput hparameters hextensions hreadOnly
    hreturnType
  · exact Or.inl ⟨rfl, hname⟩
  · exact Or.inr (Or.inl ⟨rfl, hdescription⟩)
  · refine Or.inr (Or.inr (Or.inl ⟨Or.inl rfl, ?_⟩))
    rcases hinput with rfl | rfl <;> decide
  · refine Or.inr (Or.inr (Or.inl ⟨Or.inr rfl, ?_⟩))
    rcases hparameters with rfl | rfl <;> decide
  · exact Or.inr (Or.inr (Or.inr (Or.inl ⟨rfl, hextensions⟩)))
  · refine Or.inr (Or.inr (Or.inr (Or.inr (Or.inl ⟨rfl, ?_⟩))))
    rcases hreadOnly with rfl | rfl <;> decide
  · exact Or.inr (Or.inr (Or.inr (Or.inr (Or.inr (Or.inl
      ⟨rfl, hreturnType⟩)))))
  · refine Or.inr (Or.inr (Or.inr (Or.inr (Or.inr (Or.inr ⟨rfl, ?_⟩)))))
    simp [knownNames, schemaNames, readOnlyNames, hname, hdescription,
      not_or.mp hinput, not_or.mp hparameters, hextensions,
      not_or.mp hreadOnly, hreturnType]

theorem apart_of_mem_schemaNames : ∀ key ∈ schemaNames,
    key ≠ "name" ∧ key ≠ "description" ∧ key ≠ "extensions" ∧
      key ∉ readOnlyNames ∧ key ≠ "returnType" ∧ key ∈ knownNames := by
  decide

theorem apart_of_mem_readOnlyNames : ∀ key ∈ readOnlyNames,
    key ≠ "name" ∧ key ≠ "description" ∧ key ∉ schemaNames ∧
      key ≠ "extensions" ∧ key ≠ "returnType" ∧ key ∈ knownNames := by
  decide

theorem apart_of_notMem_knownNames {key : String} (hkey : key ∉ knownNames) :
    key ≠ "name" ∧ key ≠ "description" ∧ key ∉ schemaNames ∧
      key ≠ "extensions" ∧ key ∉ readOnlyNames ∧ key ≠ "returnType" := by
  simpa [knownNames, not_or, and_assoc] using hkey

/-- Each member is the business of one slot. -/
theorem map_parts_visitWith (string : β → Option String)
    (bool : β → Option Bool) (value : β → Option Value)
    (gathered : Gathered) (member : String × β) :
    (visitWith string bool value gathered member).map Gathered.parts =
      slots string bool value gathered.parts member := by
  obtain ⟨key, doc⟩ := member
  unfold visitWith
  rcases ofKey_cases key with ⟨hfield, rfl⟩ | ⟨hfield, rfl⟩ |
      ⟨hfield, hkey⟩ | ⟨hfield, rfl⟩ | ⟨hfield, hkey⟩ | ⟨hfield, rfl⟩ |
      ⟨hfield, hkey⟩
  · rw [hfield]
    cases hread : string doc <;> cases hslot : gathered.name <;>
      simp [slots, both, once, first, others, Gathered.parts, hread, hslot,
        knownNames, schemaNames, readOnlyNames]
  · rw [hfield]
    cases hread : string doc <;> cases hslot : gathered.description <;>
      simp [slots, both, once, first, others, Gathered.parts, hread, hslot,
        knownNames, schemaNames, readOnlyNames]
  · have hapart := apart_of_mem_schemaNames key hkey
    rcases hfield with hfield | hfield <;> rw [hfield] <;>
      cases hread : value doc <;> cases hslot : gathered.inputSchema <;>
      simp [slots, both, once, first, others, Gathered.parts, hread, hslot,
        hkey, hapart]
  · rw [hfield]
    cases hread : value doc <;> cases hslot : gathered.extensions <;>
      simp [slots, both, once, first, others, Gathered.parts, hread, hslot,
        knownNames, schemaNames, readOnlyNames]
  · have hapart := apart_of_mem_readOnlyNames key hkey
    rw [hfield]
    cases hread : bool doc <;> cases hslot : gathered.readOnly <;>
      simp [slots, both, once, first, others, Gathered.parts, hread, hslot,
        hkey, hapart]
  · rw [hfield]
    cases hread : value doc <;> cases hslot : gathered.returnType <;>
      simp [slots, both, once, first, others, Gathered.parts, hread, hslot,
        knownNames, schemaNames, readOnlyNames]
  · have hapart := apart_of_notMem_knownNames hkey
    rw [hfield]
    cases hread : value doc <;>
      simp [slots, both, once, first, others, Gathered.parts, hread, hkey,
        hapart]

/-- What the slots hold in the end. -/
structure Filled (string : β → Option String) (bool : β → Option Bool)
    (value : β → Option Value) (members : List (String × β))
    (gathered : Gathered) : Prop where
  name :
    (valuesOf ["name"] members).map string = gathered.name.toList.map some
  description :
    (valuesOf ["description"] members).map string =
      gathered.description.toList.map some
  inputSchema : ∃ values : List Value,
    (valuesOf schemaNames members).map value = values.map some ∧
      gathered.inputSchema = values.head?
  extensions :
    (valuesOf ["extensions"] members).map value =
      gathered.extensions.toList.map some
  readOnly :
    (valuesOf readOnlyNames members).map bool =
      gathered.readOnly.toList.map some
  returnType :
    (valuesOf ["returnType"] members).map value =
      gathered.returnType.toList.map some
  unknown : ∀ member ∈ members, member.1 ∉ knownNames →
    (value member.2).isSome = true

theorem foldlM_visitWith_iff (string : β → Option String)
    (bool : β → Option Bool) (value : β → Option Value)
    (members : List (String × β)) (gathered : Gathered) :
    members.foldlM (visitWith string bool value) {} = some gathered ↔
      Filled string bool value members gathered := by
  have hview : members.foldlM (visitWith string bool value) {} =
        some gathered ↔
      members.foldlM (slots string bool value) (Gathered.parts {}) =
        some gathered.parts := by
    rw [← foldlM_map (map_parts_visitWith string bool value) members {}]
    exact (Option.map_injective Gathered.parts_injective).eq_iff'
      rfl |>.symm
  rw [hview]
  unfold slots
  simp only [foldlM_both_iff, Gathered.parts, foldlM_once_none_iff,
    foldlM_first_iff, foldlM_others_iff, Option.none_or, mapM_eq_some_iff]
  constructor
  · rintro ⟨hname, hdescription, hschema, hextensions, hreadOnly, hreturnType,
      hunknown⟩
    exact ⟨hname, hdescription, hschema, hextensions, hreadOnly, hreturnType,
      hunknown⟩
  · rintro ⟨hname, hdescription, hschema, hextensions, hreadOnly, hreturnType,
      hunknown⟩
    exact ⟨hname, hdescription, hschema, hextensions, hreadOnly, hreturnType,
      hunknown⟩

/-! ## The objects that are tools -/

/-- The objects that are tools, their members in any order. -/
structure Grammar (members : List (String × Json)) : Prop where
  name : ∃ text, valuesOf ["name"] members = [.str text]
  description : ∃ text, valuesOf ["description"] members = [.str text]
  extensions : (valuesOf ["extensions"] members).length ≤ 1
  readOnly : valuesOf readOnlyNames members = [] ∨
    ∃ flag, valuesOf readOnlyNames members = [.bool flag]
  returnType : (valuesOf ["returnType"] members).length ≤ 1

/-- The fields are the members under their names, and the schema is the first
of its members. -/
structure DecodedFrom (floats : FloatText) (members : List (String × Json))
    (tool : Tool) : Prop where
  name : valuesOf ["name"] members = [.str tool.name]
  description : valuesOf ["description"] members = [.str tool.description]
  inputSchema :
    (valuesOf schemaNames members).head?.map (Value.decode floats) =
      tool.inputSchema.map some
  extensions :
    (valuesOf ["extensions"] members).map (Value.decode floats) =
      tool.extensions.toList.map some
  readOnly :
    valuesOf readOnlyNames members = tool.readOnly.toList.map Json.bool
  returnType :
    (valuesOf ["returnType"] members).map (Value.decode floats) =
      tool.returnType.toList.map some

variable {floats : FloatText} {members : List (String × Json)} {tool : Tool}

theorem map_asString_eq_iff (docs : List Json) (texts : List String) :
    docs.map asString = texts.map some ↔ docs = texts.map Json.str := by
  induction docs generalizing texts with
  | nil => cases texts <;> simp
  | cons doc rest ih =>
      cases texts with
      | nil => simp
      | cons text others =>
          rw [List.map_cons, List.map_cons, List.map_cons, List.cons_eq_cons,
            List.cons_eq_cons, ih others]
          refine and_congr_left' ?_
          cases doc <;> simp [asString]

theorem map_asBool_eq_iff (docs : List Json) (flags : List Bool) :
    docs.map asBool = flags.map some ↔ docs = flags.map Json.bool := by
  induction docs generalizing flags with
  | nil => cases flags <;> simp
  | cons doc rest ih =>
      cases flags with
      | nil => simp
      | cons flag others =>
          rw [List.map_cons, List.map_cons, List.map_cons, List.cons_eq_cons,
            List.cons_eq_cons, ih others]
          refine and_congr_left' ?_
          cases doc <;> simp [asBool]

def gatheredOf (tool : Tool) : Gathered :=
  ⟨some tool.name, some tool.description, tool.inputSchema, tool.extensions,
    tool.readOnly, tool.returnType⟩

theorem ofGathered_eq_some_iff (gathered : Gathered) (tool : Tool) :
    ofGathered gathered = some tool ↔ gathered = gatheredOf tool := by
  obtain ⟨name, description, inputSchema, extensions, readOnly, returnType⟩ :=
    gathered
  obtain ⟨name', description', inputSchema', extensions', readOnly',
    returnType'⟩ := tool
  cases name <;> cases description <;> simp [ofGathered, gatheredOf]

theorem deserialize_obj_iff :
    deserialize floats (.obj members) = some tool ↔
      Filled asString asBool (Value.decode floats) members
        (gatheredOf tool) := by
  rw [← foldlM_visitWith_iff]
  unfold deserialize
  constructor
  · intro hread
    obtain ⟨gathered, hgathered, htool⟩ := Option.bind_eq_some_iff.mp hread
    rw [hgathered, (ofGathered_eq_some_iff gathered tool).mp htool]
  · intro hgathered
    dsimp only
    rw [hgathered]
    exact (ofGathered_eq_some_iff _ tool).mpr rfl

/-- Every member is read by the slot it belongs to, so every value is one that
can be read. -/
theorem Filled.legible {gathered : Gathered}
    (hfilled : Filled asString asBool (Value.decode floats) members gathered) :
    ∀ member ∈ members, (Value.decode floats member.2).isSome = true := by
  rintro ⟨key, doc⟩ hmember
  have hof : ∀ names, key ∈ names → doc ∈ valuesOf names members :=
    fun names hkey => mem_valuesOf_iff.mpr ⟨key, hkey, hmember⟩
  have hstring : ∀ texts : List String, doc ∈ texts.map Json.str →
      (Value.decode floats doc).isSome = true := by
    intro texts hdoc
    obtain ⟨text, _, rfl⟩ := List.mem_map.mp hdoc
    rfl
  rcases ofKey_cases key with ⟨_, rfl⟩ | ⟨_, rfl⟩ | ⟨_, hkey⟩ | ⟨_, rfl⟩ |
      ⟨_, hkey⟩ | ⟨_, rfl⟩ | ⟨_, hkey⟩
  · apply hstring gathered.name.toList
    rw [← (map_asString_eq_iff _ _).mp hfilled.name]
    exact hof _ (List.mem_singleton_self _)
  · apply hstring gathered.description.toList
    rw [← (map_asString_eq_iff _ _).mp hfilled.description]
    exact hof _ (List.mem_singleton_self _)
  · obtain ⟨values, hvalues, _⟩ := hfilled.inputSchema
    exact isSome_of_map_eq_some hvalues (hof _ hkey)
  · exact isSome_of_map_eq_some hfilled.extensions
      (hof _ (List.mem_singleton_self _))
  · have hflag : doc ∈ gathered.readOnly.toList.map Json.bool := by
      rw [← (map_asBool_eq_iff _ _).mp hfilled.readOnly]
      exact hof _ hkey
    obtain ⟨flag, _, rfl⟩ := List.mem_map.mp hflag
    rfl
  · exact isSome_of_map_eq_some hfilled.returnType
      (hof _ (List.mem_singleton_self _))
  · exact hfilled.unknown (key, doc) hmember hkey

/-- The first value of those that are read, read alone. -/
theorem head?_map_eq_iff {read : Json → Option Value} {docs : List Json}
    {values : List Value} (hvalues : docs.map read = values.map some)
    (slot : Option Value) :
    slot = values.head? ↔ docs.head?.map read = slot.map some := by
  have hhead : docs.head?.map read = values.head?.map some := by
    rw [← List.head?_map, ← List.head?_map, hvalues]
  rw [hhead]
  exact ⟨fun hslot => by rw [hslot], fun hslot =>
    Option.map_injective (Option.some_injective Value) hslot.symm⟩

theorem filled_gatheredOf_iff :
    Filled asString asBool (Value.decode floats) members (gatheredOf tool) ↔
      (∀ member ∈ members, (Value.decode floats member.2).isSome = true) ∧
        DecodedFrom floats members tool := by
  constructor
  · intro hfilled
    obtain ⟨values, hvalues, hschema⟩ := hfilled.inputSchema
    refine ⟨hfilled.legible, ?_, ?_, ?_, hfilled.extensions, ?_,
      hfilled.returnType⟩
    · exact (map_asString_eq_iff _ _).mp hfilled.name
    · exact (map_asString_eq_iff _ _).mp hfilled.description
    · exact (head?_map_eq_iff hvalues tool.inputSchema).mp hschema
    · exact (map_asBool_eq_iff _ _).mp hfilled.readOnly
  · rintro ⟨hlegible, hdecoded⟩
    have hschemas : ∀ doc ∈ valuesOf schemaNames members,
        (Value.decode floats doc).isSome = true := by
      intro doc hdoc
      obtain ⟨key, _, hmember⟩ := mem_valuesOf_iff.mp hdoc
      exact hlegible (key, doc) hmember
    obtain ⟨values, hvalues⟩ := exists_map_eq_some hschemas
    refine ⟨?_, ?_, ⟨values, hvalues, ?_⟩, hdecoded.extensions, ?_,
      hdecoded.returnType, fun member hmember _ => hlegible member hmember⟩
    · exact (map_asString_eq_iff _ [tool.name]).mpr hdecoded.name
    · exact (map_asString_eq_iff _ [tool.description]).mpr
        hdecoded.description
    · exact (head?_map_eq_iff hvalues tool.inputSchema).mpr
        hdecoded.inputSchema
    · exact (map_asBool_eq_iff _ _).mpr hdecoded.readOnly

/-- What a document is read as. -/
theorem ofDocument_obj_iff :
    ofDocument floats (.obj members) = some tool ↔
      (∀ member ∈ members, Legible floats 126 member.2) ∧
        DecodedFrom floats members tool := by
  unfold ofDocument
  rw [fits_obj_succ]
  by_cases hfits : members.all (fun member => member.2.fits 126) = true
  · rw [if_pos hfits, deserialize_obj_iff, filled_gatheredOf_iff]
    rw [List.all_eq_true] at hfits
    refine and_congr_left' ⟨?_, ?_⟩
    · intro hread member hmember
      exact ⟨hfits member hmember, hread member hmember⟩
    · intro hlegible member hmember
      exact (hlegible member hmember).2
  · rw [if_neg hfits]
    refine iff_of_false nofun ?_
    rintro ⟨hlegible, _⟩
    exact hfits (List.all_eq_true.mpr fun member hmember =>
      (hlegible member hmember).1)

theorem DecodedFrom.grammar (hdecoded : DecodedFrom floats members tool) :
    Grammar members := by
  refine ⟨⟨tool.name, hdecoded.name⟩, ⟨tool.description,
    hdecoded.description⟩, ?_, ?_, ?_⟩
  · have hlength := congrArg List.length hdecoded.extensions
    rw [List.length_map, List.length_map] at hlength
    rw [hlength]
    cases tool.extensions <;> simp
  · rw [hdecoded.readOnly]
    cases tool.readOnly with
    | none => exact Or.inl rfl
    | some flag => exact Or.inr ⟨flag, rfl⟩
  · have hlength := congrArg List.length hdecoded.returnType
    rw [List.length_map, List.length_map] at hlength
    rw [hlength]
    cases tool.returnType <;> simp

/-- A value that is there at most once fills its slot. -/
theorem exists_slot {docs : List Json} (hlength : docs.length ≤ 1)
    (hlegible : ∀ doc ∈ docs, (Value.decode floats doc).isSome = true) :
    ∃ slot : Option Value,
      docs.map (Value.decode floats) = slot.toList.map some := by
  obtain ⟨values, hvalues⟩ := exists_map_eq_some hlegible
  have hsame := congrArg List.length hvalues
  rw [List.length_map, List.length_map] at hsame
  cases values with
  | nil => exact ⟨none, hvalues⟩
  | cons value rest =>
      have hrest : rest = [] := by
        rw [List.length_cons] at hsame
        exact List.eq_nil_of_length_eq_zero (by omega)
      exact ⟨some value, by rw [hvalues, hrest]; rfl⟩

theorem Grammar.exists_decodedFrom (hgrammar : Grammar members)
    (hlegible : ∀ member ∈ members, Legible floats 126 member.2) :
    ∃ tool, DecodedFrom floats members tool := by
  have hread : ∀ names, ∀ doc ∈ valuesOf names members,
      (Value.decode floats doc).isSome = true := by
    intro names doc hdoc
    obtain ⟨key, _, hmember⟩ := mem_valuesOf_iff.mp hdoc
    exact (hlegible (key, doc) hmember).2
  obtain ⟨name, hname⟩ := hgrammar.name
  obtain ⟨description, hdescription⟩ := hgrammar.description
  obtain ⟨extensions, hextensions⟩ :=
    exists_slot hgrammar.extensions (hread _)
  obtain ⟨returnType, hreturnType⟩ :=
    exists_slot hgrammar.returnType (hread _)
  obtain ⟨readOnly, hreadOnly⟩ : ∃ flag : Option Bool,
      valuesOf readOnlyNames members = flag.toList.map Json.bool := by
    rcases hgrammar.readOnly with hnone | ⟨flag, hflag⟩
    · exact ⟨none, hnone⟩
    · exact ⟨some flag, hflag⟩
  obtain ⟨schemas, hschemas⟩ := exists_map_eq_some (hread schemaNames)
  exact ⟨⟨name, description, schemas.head?, extensions, readOnly, returnType⟩,
    hname, hdescription, (head?_map_eq_iff hschemas _).mp rfl, hextensions,
    hreadOnly, hreturnType⟩

/-- A member nobody asks for, or a schema after the first, has to be one that
can be read and changes nothing. -/
theorem ofDocument_insert {before after : List (String × Json)} {key : String}
    {doc : Json} (hdoc : Legible floats 126 doc)
    (hkey : key ∉ knownNames ∨
      key ∈ schemaNames ∧ valuesOf schemaNames before ≠ []) :
    ofDocument floats (.obj (before ++ (key, doc) :: after)) =
      ofDocument floats (.obj (before ++ after)) := by
  have hlegible : (∀ member ∈ before ++ (key, doc) :: after,
        Legible floats 126 member.2) ↔
      ∀ member ∈ before ++ after, Legible floats 126 member.2 := by
    rw [List.forall_mem_append, List.forall_mem_append, List.forall_mem_cons]
    exact and_congr_right' (and_iff_right hdoc)
  have hapart : key ≠ "name" ∧ key ≠ "description" ∧ key ≠ "extensions" ∧
      key ∉ readOnlyNames ∧ key ≠ "returnType" := by
    rcases hkey with hunknown | ⟨hschema, _⟩
    · obtain ⟨hname, hdescription, _, hextensions, hreadOnly, hreturnType⟩ :=
        apart_of_notMem_knownNames hunknown
      exact ⟨hname, hdescription, hextensions, hreadOnly, hreturnType⟩
    · obtain ⟨hname, hdescription, hextensions, hreadOnly, hreturnType, _⟩ :=
        apart_of_mem_schemaNames key hschema
      exact ⟨hname, hdescription, hextensions, hreadOnly, hreturnType⟩
  obtain ⟨hname, hdescription, hextensions, hreadOnly, hreturnType⟩ := hapart
  have hschema :
      (valuesOf schemaNames (before ++ (key, doc) :: after)).head? =
        (valuesOf schemaNames (before ++ after)).head? := by
    rcases hkey with hunknown | ⟨hschema, hbefore⟩
    · obtain ⟨_, _, hnot, _⟩ := apart_of_notMem_knownNames hunknown
      rw [valuesOf_insert hnot]
    · rw [valuesOf_append, valuesOf_append, List.head?_append_of_ne_nil _ hbefore,
        List.head?_append_of_ne_nil _ hbefore]
  have hdecoded : ∀ tool,
      DecodedFrom floats (before ++ (key, doc) :: after) tool ↔
        DecodedFrom floats (before ++ after) tool := by
    intro tool
    have hone : ∀ name, key ≠ name →
        valuesOf [name] (before ++ (key, doc) :: after) =
          valuesOf [name] (before ++ after) :=
      fun name hne => valuesOf_insert (by simpa using hne) _ _ _
    constructor
    · rintro ⟨hn, hd, hs, he, hr, ht⟩
      rw [hone _ hname] at hn
      rw [hone _ hdescription] at hd
      rw [hschema] at hs
      rw [hone _ hextensions] at he
      rw [valuesOf_insert hreadOnly] at hr
      rw [hone _ hreturnType] at ht
      exact ⟨hn, hd, hs, he, hr, ht⟩
    · rintro ⟨hn, hd, hs, he, hr, ht⟩
      rw [← hone _ hname] at hn
      rw [← hone _ hdescription] at hd
      rw [← hschema] at hs
      rw [← hone _ hextensions] at he
      rw [← valuesOf_insert hreadOnly doc] at hr
      rw [← hone _ hreturnType] at ht
      exact ⟨hn, hd, hs, he, hr, ht⟩
  apply Option.ext
  intro tool
  rw [ofDocument_obj_iff, ofDocument_obj_iff, hlegible, hdecoded]

/-! ## Tools that have been written -/

/-- The values a tool holds. -/
def values (self : Tool) : List Value :=
  self.inputSchema.toList ++ self.extensions.toList ++ self.returnType.toList

theorem valuesOf_optionalMember {γ : Type} (names : List String)
    (name : String) (encode : γ → Json) (slot : Option γ) :
    valuesOf names (optionalMember name encode slot) =
      if name ∈ names then slot.toList.map encode else [] := by
  cases slot <;> by_cases hname : name ∈ names <;>
    simp [optionalMember, valuesOf, hname]

theorem map_decode_encode_iff (slot : Option Value) :
    (slot.toList.map (Value.encode floats)).map (Value.decode floats) =
        slot.toList.map some ↔
      ∀ value ∈ slot.toList,
        Value.decode floats (value.encode floats) = some value := by
  cases slot <;> simp

theorem valuesOf_written (names : List String) :
    valuesOf names (tool.written floats) =
      valuesOf names [("name", Json.str tool.name),
          ("description", .str tool.description)] ++
        (if "input_schema" ∈ names then
          tool.inputSchema.toList.map (Value.encode floats) else []) ++
        (if "extensions" ∈ names then
          tool.extensions.toList.map (Value.encode floats) else []) ++
        (if "readOnly" ∈ names then tool.readOnly.toList.map Json.bool
          else []) ++
        (if "returnType" ∈ names then
          tool.returnType.toList.map (Value.encode floats) else []) := by
  rw [written, valuesOf_append, valuesOf_append, valuesOf_append,
    valuesOf_append, valuesOf_optionalMember, valuesOf_optionalMember,
    valuesOf_optionalMember, valuesOf_optionalMember]

theorem decodedFrom_written_iff :
    DecodedFrom floats (tool.written floats) tool ↔
      ∀ value ∈ tool.values,
        Value.decode floats (value.encode floats) = some value := by
  have hname : valuesOf ["name"] (tool.written floats) =
      [.str tool.name] := by
    rw [valuesOf_written]
    simp [valuesOf]
  have hdescription : valuesOf ["description"] (tool.written floats) =
      [.str tool.description] := by
    rw [valuesOf_written]
    simp [valuesOf]
  have hschema : valuesOf schemaNames (tool.written floats) =
      tool.inputSchema.toList.map (Value.encode floats) := by
    rw [valuesOf_written]
    simp [valuesOf, schemaNames]
  have hextensions : valuesOf ["extensions"] (tool.written floats) =
      tool.extensions.toList.map (Value.encode floats) := by
    rw [valuesOf_written]
    simp [valuesOf]
  have hreadOnly : valuesOf readOnlyNames (tool.written floats) =
      tool.readOnly.toList.map Json.bool := by
    rw [valuesOf_written]
    simp [valuesOf, readOnlyNames]
  have hreturnType : valuesOf ["returnType"] (tool.written floats) =
      tool.returnType.toList.map (Value.encode floats) := by
    rw [valuesOf_written]
    simp [valuesOf]
  have hfirst : (valuesOf schemaNames (tool.written floats)).head?.map
        (Value.decode floats) = tool.inputSchema.map some ↔
      ∀ value ∈ tool.inputSchema.toList,
        Value.decode floats (value.encode floats) = some value := by
    rw [hschema]
    cases tool.inputSchema <;> simp
  rw [values, List.forall_mem_append, List.forall_mem_append, ← hfirst,
    ← map_decode_encode_iff tool.extensions,
    ← map_decode_encode_iff tool.returnType]
  constructor
  · rintro ⟨_, _, hs, he, _, ht⟩
    rw [hextensions] at he
    rw [hreturnType] at ht
    exact ⟨⟨hs, he⟩, ht⟩
  · rintro ⟨⟨hs, he⟩, ht⟩
    refine ⟨hname, hdescription, hs, ?_, hreadOnly, ?_⟩
    · rw [hextensions]
      exact he
    · rw [hreturnType]
      exact ht

theorem legible_written_iff :
    (∀ member ∈ tool.written floats, Legible floats 126 member.2) ↔
      ∀ value ∈ tool.values, Legible floats 126 (value.encode floats) := by
  have hflag : ∀ flag ∈ tool.readOnly.toList, Legible floats 126 (.bool flag) :=
    fun flag _ => legible_bool floats 126 flag
  have hstring : ∀ text, Legible floats 126 (.str text) :=
    legible_str floats 126
  rw [written, values]
  simp only [List.forall_mem_append, legible_optionalMember_iff]
  constructor
  · rintro ⟨⟨⟨⟨_, hs⟩, he⟩, _⟩, ht⟩
    exact ⟨⟨hs, he⟩, ht⟩
  · rintro ⟨⟨hs, he⟩, ht⟩
    refine ⟨⟨⟨⟨?_, hs⟩, he⟩, hflag⟩, ht⟩
    intro member hmember
    rcases List.mem_pair.mp hmember with rfl | rfl
    · exact hstring _
    · exact hstring _

/-- A tool that has been written is read back if the values it holds are. -/
theorem ofDocument_serialize_iff
    (hnormal : ∀ value ∈ tool.values, value.Normal) :
    ofDocument floats (tool.serialize floats) = some tool ↔
      ∀ value ∈ tool.values,
        value.fits 126 = true ∧ value.FloatsStable floats := by
  rw [serialize, ofDocument_obj_iff, legible_written_iff,
    decodedFrom_written_iff]
  constructor
  · rintro ⟨hlegible, hread⟩ value hvalue
    refine ⟨?_, ?_⟩
    · rw [← Value.fits_encode floats]
      exact (hlegible value hvalue).1
    · exact (Value.decode_encode_iff floats (hnormal value hvalue)).mp
        (hread value hvalue)
  · intro hkept
    have hread : ∀ value ∈ tool.values,
        Value.decode floats (value.encode floats) = some value :=
      fun value hvalue => (Value.decode_encode_iff floats
        (hnormal value hvalue)).mpr (hkept value hvalue).2
    refine ⟨?_, hread⟩
    intro value hvalue
    refine ⟨?_, ?_⟩
    · rw [Value.fits_encode floats]
      exact (hkept value hvalue).1
    · rw [hread value hvalue]
      rfl

/-! ## Tools kept as values -/

theorem perm_valuesOf {γ : Type} {names : List String}
    {entries others : List (String × γ)} (hperm : entries.Perm others) :
    (valuesOf names entries).Perm (valuesOf names others) :=
  (hperm.filter _).map _

theorem eq_toList_of_perm {γ : Type} {items : List γ} {slot : Option γ}
    (hperm : items.Perm slot.toList) : items = slot.toList := by
  cases slot with
  | none => exact List.perm_nil.mp hperm
  | some value => exact List.perm_singleton.mp hperm

/-- The one member of a record under a choice of names. -/
theorem valuesOf_record {fields : List (String × Option Value)}
    (hnodup : (fields.map Prod.fst).Nodup) {names : List String}
    {slot : Option Value}
    (hslot : valuesOf names
        (fields.filterMap (fun field => field.2.map (fun value =>
          (field.1, value)))) = slot.toList) :
    valuesOf names (record fields) = slot.toList := by
  apply eq_toList_of_perm
  rw [← hslot]
  exact perm_valuesOf (perm_collectMembers
    ((names_filterMap_subset fields).nodup hnodup))

/-- The members of a tool that is written as a value. -/
def valueFields (self : Tool) : List (String × Option Value) :=
  [("name", some (.str self.name)),
    ("description", some (.str self.description)),
    ("input_schema", self.inputSchema), ("extensions", self.extensions),
    ("readOnly", self.readOnly.map .bool), ("returnType", self.returnType)]

theorem nodup_valueFields (self : Tool) :
    (self.valueFields.map Prod.fst).Nodup := by
  have hnames : self.valueFields.map Prod.fst = ["name", "description",
      "input_schema", "extensions", "readOnly", "returnType"] := rfl
  rw [hnames]
  decide

theorem valuesOf_valueFields (names : List String) (self : Tool) :
    valuesOf names (self.valueFields.filterMap (fun field =>
        field.2.map (fun value => (field.1, value)))) =
      (if "name" ∈ names then [.str self.name] else []) ++
        ((if "description" ∈ names then [.str self.description] else []) ++
          ((if "input_schema" ∈ names then self.inputSchema.toList else []) ++
            ((if "extensions" ∈ names then self.extensions.toList else []) ++
              ((if "readOnly" ∈ names then
                (self.readOnly.map Value.bool).toList else []) ++
                (if "returnType" ∈ names then self.returnType.toList
                  else []))))) := by
  have hcons : ∀ (name : String) (slot : Option Value)
      (rest : List (String × Option Value)),
      valuesOf names (((name, slot) :: rest).filterMap (fun field =>
          field.2.map (fun value => (field.1, value)))) =
        (if name ∈ names then slot.toList else []) ++
          valuesOf names (rest.filterMap (fun field =>
            field.2.map (fun value => (field.1, value)))) := by
    intro name slot rest
    by_cases hname : name ∈ names <;> cases slot <;>
      simp [valuesOf, hname]
  rw [valueFields, hcons, hcons, hcons, hcons, hcons, hcons,
    List.filterMap_nil, valuesOf_nil, List.append_nil]
  rfl

theorem fromValue_toValue (tool : Tool) :
    fromValue tool.toValue = some tool := by
  have hslots : ∀ names (slot : Option Value),
      valuesOf names (tool.valueFields.filterMap (fun field =>
          field.2.map (fun value => (field.1, value)))) = slot.toList →
        valuesOf names (record tool.valueFields) = slot.toList :=
    fun names slot => valuesOf_record tool.nodup_valueFields
  have hname := hslots ["name"] (some (.str tool.name))
    (by rw [valuesOf_valueFields]; simp)
  have hdescription := hslots ["description"] (some (.str tool.description))
    (by rw [valuesOf_valueFields]; simp)
  have hschema := hslots schemaNames tool.inputSchema
    (by rw [valuesOf_valueFields]; simp [schemaNames])
  have hextensions := hslots ["extensions"] tool.extensions
    (by rw [valuesOf_valueFields]; simp)
  have hreadOnly := hslots readOnlyNames (tool.readOnly.map .bool)
    (by rw [valuesOf_valueFields]; simp [readOnlyNames])
  have hreturnType := hslots ["returnType"] tool.returnType
    (by rw [valuesOf_valueFields]; simp)
  have hfilled : Filled Wire.string.fromValue Wire.bool.fromValue some
      (record tool.valueFields) (gatheredOf tool) := by
    refine ⟨?_, ?_, ⟨tool.inputSchema.toList, ?_, ?_⟩, ?_, ?_, ?_,
      fun _ _ _ => rfl⟩
    · rw [hname]
      rfl
    · rw [hdescription]
      rfl
    · rw [hschema]
    · cases hslot : tool.inputSchema <;> simp [gatheredOf, hslot]
    · rw [hextensions]
      rfl
    · rw [hreadOnly]
      cases hslot : tool.readOnly <;> simp [gatheredOf, hslot, Wire.bool]
    · rw [hreturnType]
      rfl
  have hgathered : (record tool.valueFields).foldlM visit {} =
      some (gatheredOf tool) := by
    rw [visit_eq_visitWith, foldlM_visitWith_iff]
    exact hfilled
  have hvalue : tool.toValue = .object (record tool.valueFields) := rfl
  rw [hvalue, fromValue, hgathered]
  exact (ofGathered_eq_some_iff _ tool).mpr rfl

/-! ## The decoder follows its grammar -/

/-- As far as values can be read at all, an object is a tool exactly if it
follows the grammar, and the tool is what its members say; what else is in the
object makes no difference.  A tool comes back from a value always, and from
its text if the values it holds do. -/
theorem decoder_follows_grammar (floats : FloatText) :
    (∀ members, (∃ tool, ofDocument floats (.obj members) = some tool) ↔
        (∀ member ∈ members, Legible floats 126 member.2) ∧ Grammar members) ∧
      (∀ members tool, ofDocument floats (.obj members) = some tool →
        DecodedFrom floats members tool) ∧
      (∀ before key doc after, Legible floats 126 doc →
        (key ∉ knownNames ∨
          key ∈ schemaNames ∧ valuesOf schemaNames before ≠ []) →
        ofDocument floats (.obj (before ++ (key, doc) :: after)) =
          ofDocument floats (.obj (before ++ after))) ∧
      (∀ tool : Tool, (∀ value ∈ tool.values, value.Normal) →
        (ofDocument floats (tool.serialize floats) = some tool ↔
          ∀ value ∈ tool.values,
            value.fits 126 = true ∧ value.FloatsStable floats)) ∧
      (∀ tool : Tool, fromValue tool.toValue = some tool) := by
  refine ⟨?_, ?_, ?_, ?_, fromValue_toValue⟩
  · intro members
    constructor
    · rintro ⟨tool, hread⟩
      obtain ⟨hlegible, hdecoded⟩ := ofDocument_obj_iff.mp hread
      exact ⟨hlegible, hdecoded.grammar⟩
    · rintro ⟨hlegible, hgrammar⟩
      obtain ⟨tool, hdecoded⟩ := hgrammar.exists_decodedFrom hlegible
      exact ⟨tool, ofDocument_obj_iff.mpr ⟨hlegible, hdecoded⟩⟩
  · intro members tool hread
    exact (ofDocument_obj_iff.mp hread).2
  · intro before key doc after hdoc hkey
    exact ofDocument_insert hdoc hkey
  · intro tool hnormal
    exact ofDocument_serialize_iff hnormal

/-- A decimal that is read back as the one before it, and none out of
range. -/
def unevenFloats : FloatText where
  print bits :=
    if bits = 0x4056924924924925 then "90.28571428571429" else "0.0"
  parse text :=
    if text = "90.28571428571429" then some 0x4056924924924924
    else if text = "0.0" then some 0
    else none

def fractionTool : Tool :=
  ⟨"scale", "Scales", some (.number (.float 0x4056924924924925)), none, none,
    none⟩

theorem fractionTool_normal : ∀ value ∈ fractionTool.values, value.Normal := by
  intro value hvalue
  rw [List.mem_singleton.mp hvalue]
  exact .number _

/-- A note beside the members of a tool makes no difference, and the tool
comes back from a value, though not from its text. -/
theorem fractionTool_follows_grammar :
    ofDocument unevenFloats (.obj ([("name", .str "scale")] ++
        ("note", .null) :: [("description", .str "Scales")])) =
      ofDocument unevenFloats (.obj ([("name", .str "scale")] ++
        [("description", .str "Scales")])) ∧
      ¬ (∀ value ∈ fractionTool.values,
        value.fits 126 = true ∧ value.FloatsStable unevenFloats) ∧
      (ofDocument unevenFloats (fractionTool.serialize unevenFloats) =
          some fractionTool ↔
        ∀ value ∈ fractionTool.values,
          value.fits 126 = true ∧ value.FloatsStable unevenFloats) ∧
      fromValue fractionTool.toValue = some fractionTool := by
  obtain ⟨_, _, hinsert, htext, hvalue⟩ :=
    decoder_follows_grammar unevenFloats
  refine ⟨hinsert _ "note" .null _ (legible_null _ 126) (Or.inl (by decide)),
    ?_, htext fractionTool fractionTool_normal, hvalue fractionTool⟩
  intro hkept
  obtain ⟨_, hstable⟩ := hkept _ List.mem_cons_self
  have hsame := hstable _ .number
  revert hsame
  unfold FloatText.Stable
  decide

/-- A member nobody asks for can be in the way: a number out of range, or too
many brackets. -/
def crowdedMembers (doc : Json) : List (String × Json) :=
  [("name", .str "scale"), ("description", .str "Scales"), ("note", doc)]

def nestedBrackets : ℕ → Json
  | 0 => .null
  | depth + 1 => .arr [nestedBrackets depth]

theorem grammar_crowdedMembers (doc : Json) :
    Grammar (crowdedMembers doc) :=
  ⟨⟨"scale", rfl⟩, ⟨"Scales", rfl⟩, Nat.zero_le 1, Or.inl rfl,
    Nat.zero_le 1⟩

theorem grammar_not_enough :
    (Grammar (crowdedMembers (.decimal "1e999")) ∧
        ofDocument unevenFloats
          (.obj (crowdedMembers (.decimal "1e999"))) = none) ∧
      (Grammar (crowdedMembers (nestedBrackets 127)) ∧
        ofDocument unevenFloats
          (.obj (crowdedMembers (nestedBrackets 127))) = none) ∧
      ofDocument unevenFloats (fractionTool.serialize unevenFloats) ≠
        some fractionTool := by
  refine ⟨⟨grammar_crowdedMembers _, ?_⟩, ⟨grammar_crowdedMembers _, ?_⟩, ?_⟩
  · rfl
  · have hdeep : (Json.obj (crowdedMembers (nestedBrackets 127))).fits 127 =
        false := by
      decide +kernel
    rw [ofDocument, hdeep]
    rfl
  · rw [Ne, ofDocument_serialize_iff fractionTool_normal]
    intro hkept
    obtain ⟨_, hstable⟩ := hkept _ List.mem_cons_self
    have hsame := hstable _ .number
    revert hsame
    unfold FloatText.Stable
    decide

end Tool
end Core
end Acdp
