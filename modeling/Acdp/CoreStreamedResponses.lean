import Acdp.CoreMessageCodec
import Acdp.CoreResponseIdentity
import Acdp.EventStreams
import Acdp.JsonEquivalence
import Acdp.JsonPaths
import Acdp.JsonReadBack

/-!
# Responses in the body of a reply

The streaming transport reads a body by itself: a document is a response if it
has a result, and a stream is searched line by line for the first data line
that is a document with an identifier.  What follows says which responses come
out of the bodies that carry them.
-/

namespace Acdp
namespace Core

open Json EventStream

/-! ## Texts that carry a message -/

/-- The text is a document with the members of the message, in any order. -/
def Carries (json : SerdeJson) (message : JsonRpcMessage) (text : String) :
    Prop :=
  ∃ members others, json.parse text = .ok (.obj members) ∧
    message.serialize json.floats = .obj others ∧
    ∀ name, entries members name = entries others name

/-- A line that begins with the name of a field is not part of any JSON
text. -/
def SerdeJson.RejectsStreams (json : SerdeJson) : Prop :=
  ∀ text, (∃ line ∈ Text.lines text, "data:".toList <+: line.toList) →
    ∃ e, json.parse text = .error e

variable {json : SerdeJson}

theorem forall_mem_iff_of_entries {members others : List (String × Json)}
    (hentries : ∀ name, entries members name = entries others name)
    (holds : Json → Prop) :
    (∀ member ∈ members, holds member.2) ↔
      ∀ member ∈ others, holds member.2 := by
  have hnamed : ∀ members : List (String × Json),
      (∀ member ∈ members, holds member.2) ↔
        ∀ name, ∀ doc ∈ entries members name, holds doc := by
    intro members
    constructor
    · intro hall name doc hdoc
      obtain ⟨member, hmember, rfl⟩ := List.mem_map.mp hdoc
      exact hall member (List.mem_of_mem_filter hmember)
    · intro hall member hmember
      apply hall member.1
      exact List.mem_map.mpr ⟨member, List.mem_filter.mpr
        ⟨hmember, beq_self_eq_true member.1⟩, rfl⟩
  rw [hnamed, hnamed]
  simp only [hentries]

theorem SerdeJson.read_eq_ok_iff {α : Type} {text : String} {doc : Json}
    (hparse : json.parse text = .ok doc) (decode : Json → Option α)
    (value : α) :
    json.read decode text = .ok value ↔ decode doc = some value := by
  cases hdecode : decode doc with
  | none => simp [SerdeJson.read, hparse, hdecode, bind, Except.bind]
  | some read => simp [SerdeJson.read, hparse, hdecode, bind, Except.bind]

theorem SerdeJson.value_eq_ok_iff {text : String}
    {members : List (String × Json)}
    (hparse : json.parse text = .ok (.obj members))
    (document : OrderedValue) :
    json.value text = .ok document ↔
      (∀ member ∈ members, member.2.fits 126 = true) ∧
        Value.decode json.floats (.obj members) = some document.val := by
  have hfits : (Json.obj members).fits 127 = true ↔
      ∀ member ∈ members, member.2.fits 126 = true := by
    rw [fits_obj_succ, List.all_eq_true]
  rw [SerdeJson.value, read_eq_ok_iff hparse, ← hfits,
    ← OrderedValue.deserialize_eq_some_iff]
  by_cases hdeep : (Json.obj members).fits 127 = true
  · rw [if_pos hdeep, and_iff_right hdeep]
  · rw [if_neg hdeep]
    exact iff_of_false nofun (fun hboth => hdeep hboth.1)

/-- A document can be read if each of its members can. -/
theorem SerdeJson.exists_value_iff {text : String}
    {members : List (String × Json)}
    (hparse : json.parse text = .ok (.obj members)) :
    (∃ document, json.value text = .ok document) ↔
      ∀ member ∈ members, Legible json.floats 126 member.2 := by
  rw [← legible_obj_iff]
  simp only [value_eq_ok_iff hparse]
  constructor
  · rintro ⟨document, hfits, hdecode⟩
    refine ⟨?_, ?_⟩
    · rw [fits_obj_succ, List.all_eq_true]
      exact hfits
    · rw [hdecode]
      rfl
  · rintro ⟨hfits, hdecode⟩
    obtain ⟨value, hvalue⟩ := Option.isSome_iff_exists.mp hdecode
    rw [fits_obj_succ, List.all_eq_true] at hfits
    exact ⟨⟨value, Value.decode_normal _ _ hvalue⟩, hfits, hvalue⟩

/-- A member of what is read is the last of its name. -/
theorem SerdeJson.map_val_get {text : String}
    {members : List (String × Json)}
    (hparse : json.parse text = .ok (.obj members))
    {document : OrderedValue} (hvalue : json.value text = .ok document)
    (name : String) :
    (document.get name).map Subtype.val =
      (entries members name).getLast?.bind (Value.decode json.floats) := by
  obtain ⟨_, hdecode⟩ := (value_eq_ok_iff hparse document).mp hvalue
  rw [Value.decode] at hdecode
  obtain ⟨decoded, hdecoded, hobject⟩ := Option.map_eq_some_iff.mp hdecode
  have hlast := congrArg List.getLast?
    (map_some_named_decodeMembers json.floats hdecoded name)
  rw [List.getLast?_map, List.getLast?_map] at hlast
  rw [OrderedValue.map_val_get, ← hobject, Value.get, lookup_eq_head?_named,
    named_collectMembers]
  cases hentry : (entries members name).getLast? with
  | none =>
      rw [hentry] at hlast
      have hnone := Option.map_eq_none_iff.mp hlast
      rw [hnone]
      rfl
  | some doc =>
      rw [hentry] at hlast
      obtain ⟨value, hlastValue, hread⟩ := Option.map_eq_some_iff.mp hlast
      rw [hlastValue, Option.bind_some, ← hread]
      rfl

/-! ## Identifiers that are read back -/

theorem asI64_ofInt (floats : FloatText) (value : Int64) {number : Number}
    (hread : Number.ofInt floats value.toInt = some number) :
    number.asI64 = some value := by
  have hlower := value.le_toInt
  have hupper := value.toInt_lt
  unfold Number.ofInt at hread
  split_ifs at hread with hnonnegative hnegative
  · obtain rfl := Option.some.inj hread
    have hword : (UInt64.ofNat value.toInt.toNat).toNat =
        value.toInt.toNat := by
      rw [UInt64.toNat_ofNat']
      omega
    have hsmall : value.toInt.toNat < 2 ^ 63 := by omega
    have hcast : Int64.ofNat value.toInt.toNat = value := by
      rw [← Int64.ofInt_eq_ofNat, Int.toNat_of_nonneg hnonnegative.1,
        Int64.ofInt_toInt]
    rw [Number.asI64, hword, if_pos hsmall, hcast]
  · obtain rfl := Option.some.inj hread
    rw [Number.asI64, Int64.ofInt_toInt]
  · omega

namespace HttpStreamTransport

theorem names_of_serialize {document : OrderedValue} {id : RequestId}
    (hid : (document.get "id").map Subtype.val =
      Value.decode json.floats id.serialize) : Names document id := by
  cases id with
  | string text => exact hid
  | number value =>
      obtain ⟨number, hnumber⟩ : ∃ number,
          Number.ofInt json.floats value.toInt = some number := by
        have hsome := isSome_decode_int64 json.floats value
        rw [Value.decode, Option.isSome_map, Number.decode] at hsome
        exact Option.isSome_iff_exists.mp hsome
      refine ⟨number, ?_, asI64_ofInt json.floats value hnumber⟩
      rw [hid, RequestId.serialize, Value.decode, Number.decode, hnumber]
      rfl
  | null =>
      intro member hmember
      rw [hmember] at hid
      have hnull : member.val = .null := Option.some.inj hid
      simp [hnull]

/-! ## The response of a document -/

/-- The response is the one that is put together from the document. -/
structure Answered (response : JsonRpcResponse) (document : OrderedValue) :
    Prop where
  version : response.jsonrpc = "2.0"
  error : response.error = none
  result : document.get "result" = response.result
  present : response.result.isSome = true
  id : Names document response.id

theorem parseJsonResponse_eq_ok_iff (document : OrderedValue)
    (response : JsonRpcResponse) :
    parseJsonResponse json document = .ok response ↔
      Answered response document := by
  unfold parseJsonResponse
  cases hresult : document.get "result" with
  | some result =>
      constructor
      · intro hparse
        obtain rfl := Except.ok.inj hparse
        exact ⟨rfl, rfl, hresult, rfl,
          (extractRequestId_eq_iff document _).mp rfl⟩
      · rintro ⟨hversion, herror, hsame, _, hid⟩
        rw [hresult] at hsame
        rw [← extractRequestId_eq_iff] at hid
        obtain ⟨jsonrpc, id, found, error⟩ := response
        dsimp only at hversion herror hsame hid
        rw [hversion, herror, ← hsame, ← hid]
  | none =>
      refine iff_of_false ?_ ?_
      · cases document.get "error" <;> exact nofun
      · intro hanswered
        have hpresent := hanswered.present
        rw [← hanswered.result, hresult] at hpresent
        cases hpresent

/-- A success of version 2.0 whose result survives its text. -/
structure Plain (json : SerdeJson) (response : JsonRpcResponse) : Prop where
  version : response.jsonrpc = "2.0"
  error : response.error = none
  result : ∃ result, response.result = some result ∧
    result.val.fits 126 = true ∧ result.val.FloatsStable json.floats

/-- The members of a response, as the fields of its type write them. -/
def responseMembers (json : SerdeJson) (response : JsonRpcResponse) :
    List (String × Json) :=
  [("jsonrpc", .str response.jsonrpc), ("id", response.id.serialize)] ++
    optionalMember "result" (OrderedValue.serialize json.floats)
      response.result ++
    optionalMember "error" (JsonRpcError.serialize json.floats)
      response.error

theorem exists_members_of_carries {response : JsonRpcResponse} {text : String}
    (hcarries : Carries json (.response response) text) :
    ∃ members, json.parse text = .ok (.obj members) ∧
      ∀ name, entries members name =
        entries (responseMembers json response) name := by
  obtain ⟨members, others, hparse, hserialize, hentries⟩ := hcarries
  obtain rfl := Json.obj.inj hserialize
  exact ⟨members, hparse, hentries⟩

theorem entries_id_response (response : JsonRpcResponse) :
    entries (responseMembers json response) "id" =
      [response.id.serialize] := by
  simp [responseMembers, entries_cons, entries_optionalMember_ne]

theorem entries_result_response (response : JsonRpcResponse) :
    entries (responseMembers json response) "result" =
      (response.result.map (OrderedValue.serialize json.floats)).toList := by
  simp [responseMembers, entries_cons, entries_optionalMember_ne]

section Carried

variable {response : JsonRpcResponse} {text : String}
  (hcarries : Carries json (.response response) text)

include hcarries

/-- A text that carries a plain success can be read. -/
theorem Plain.exists_value (hplain : Plain json response) :
    ∃ document, json.value text = .ok document := by
  obtain ⟨members, hparse, hentries⟩ := exists_members_of_carries hcarries
  obtain ⟨result, hresult, hfits, hstable⟩ := hplain.result
  rw [SerdeJson.exists_value_iff hparse,
    forall_mem_iff_of_entries hentries (Legible json.floats 126),
    responseMembers, hplain.error, hresult]
  refine List.forall_mem_append.mpr ⟨List.forall_mem_append.mpr
    ⟨?_, ?_⟩, nofun⟩
  · refine List.forall_mem_cons.mpr ⟨legible_str _ 126 _,
      List.forall_mem_singleton.mpr ⟨?_, ?_⟩⟩
    · exact RequestId.fits_serialize 126 response.id
    · exact RequestId.isSome_decode_serialize json.floats response.id
  · exact List.forall_mem_singleton.mpr
      (Value.legible_encode _ result.property hfits hstable)

/-- What is put together from a text that carries a response is that response
exactly if it is a plain success. -/
theorem answered_iff_plain {document : OrderedValue}
    (hvalue : json.value text = .ok document) :
    Answered response document ↔ Plain json response := by
  obtain ⟨members, hparse, hentries⟩ := exists_members_of_carries hcarries
  have hid := SerdeJson.map_val_get hparse hvalue "id"
  have hget := SerdeJson.map_val_get hparse hvalue "result"
  rw [hentries, entries_id_response] at hid
  rw [hentries, entries_result_response] at hget
  have hnames : Names document response.id := names_of_serialize hid
  constructor
  · rintro ⟨hversion, herror, hresult, hpresent, _⟩
    obtain ⟨result, hsome⟩ := Option.isSome_iff_exists.mp hpresent
    rw [hresult, hsome] at hget
    refine ⟨hversion, herror, result, hsome, ?_, ?_⟩
    · obtain ⟨hfits, _⟩ := (SerdeJson.value_eq_ok_iff hparse document).mp hvalue
      rw [forall_mem_iff_of_entries hentries
        (fun doc => doc.fits 126 = true), responseMembers, hsome] at hfits
      have hmember := hfits ("result", OrderedValue.serialize json.floats
        result) (by simp [optionalMember])
      rw [← Value.fits_encode json.floats]
      exact hmember
    · exact (Value.decode_encode_iff json.floats result.property).mp hget.symm
  · rintro ⟨hversion, herror, result, hsome, _, hstable⟩
    refine ⟨hversion, herror, ?_, by rw [hsome]; rfl, hnames⟩
    rw [hsome] at hget ⊢
    apply Option.map_injective Subtype.val_injective
    rw [hget]
    exact (Value.decode_encode_iff json.floats result.property).mpr hstable

end Carried

/-! ## One document -/

/-- A JSON text is not searched for data lines with success. -/
theorem findSome_eq_none_of_parse (hrejects : json.RejectsStreams)
    {text : String} {doc : Json} (hparse : json.parse text = .ok doc) :
    (Text.lines text).findSome? (sseDocument json) = none := by
  rw [List.findSome?_eq_none_iff]
  intro line hline
  have hnot : ¬ "data: ".toList <+: line.toList := by
    intro hlead
    obtain ⟨e, herror⟩ := hrejects text
      ⟨line, hline, List.IsPrefix.trans (by decide) hlead⟩
    rw [hparse] at herror
    cases herror
  have hstrip : Text.stripPrefix "data: " line = none := if_neg hnot
  rw [sseDocument, hstrip]

theorem parseResponse_document_iff (hrejects : json.RejectsStreams)
    {response : JsonRpcResponse} {text : String}
    (hcarries : Carries json (.response response) text) :
    parseResponse json text = .ok response ↔ Plain json response := by
  unfold parseResponse
  cases hvalue : json.value text with
  | ok document =>
      exact (parseJsonResponse_eq_ok_iff document response).trans
        (answered_iff_plain hcarries hvalue)
  | error e =>
      refine iff_of_false ?_ ?_
      · obtain ⟨members, hparse, _⟩ := exists_members_of_carries hcarries
        dsimp only
        rw [parseSseResponse, findSome_eq_none_of_parse hrejects hparse]
        split_ifs <;> simp
      · intro hplain
        obtain ⟨document, hdocument⟩ := hplain.exists_value hcarries
        rw [hvalue] at hdocument
        cases hdocument

/-! ## A stream -/

/-- A message of the server that is no response. -/
def CarriesOther (json : SerdeJson) (text : String) : Prop :=
  (∃ request, Carries json (.request request) text) ∨
    ∃ notification, Carries json (.notification notification) text

/-- One event of the stream carries the response, and the others carry
notifications and requests. -/
def Delivers (json : SerdeJson) (stream : Stream)
    (response : JsonRpcResponse) : Prop :=
  ∃ before payload after, stream.payloads = before ++ payload :: after ∧
    Carries json (.response response) payload ∧
    ∀ other ∈ before ++ after, CarriesOther json other

/-- The document with an identifier on a data line with the space. -/
def lineDocument (json : SerdeJson) (line : Bool × String) :
    Option OrderedValue :=
  if line.1 then
    match json.value line.2 with
    | .error _ => none
    | .ok document =>
        if (document.get "id").isSome then some document else none
  else none

theorem sseDocument_text {line : Line} (hline : line.WellFormed) :
    sseDocument json line.text =
      line.spacedContent.bind (fun content =>
        lineDocument json (true, content)) := by
  rw [sseDocument, Line.stripPrefix_text hline]
  cases line.spacedContent <;> rfl

theorem findSome_lines (stream : Stream) :
    (Text.lines stream.text).findSome? (sseDocument json) =
      stream.dataLines.findSome? (lineDocument json) := by
  have hlines : ∀ lines : List Line, (∀ line ∈ lines, line.WellFormed) →
      (lines.map Line.text).findSome? (sseDocument json) =
        (EventStream.dataLines lines).findSome? (lineDocument json) := by
    intro lines hformed
    induction lines with
    | nil => rfl
    | cons line rest ih =>
        obtain ⟨hline, hrest⟩ := List.forall_mem_cons.mp hformed
        rw [List.map_cons, List.findSome?_cons, sseDocument_text hline,
          ih hrest]
        cases line with
        | blank => rfl
        | other text => rfl
        | data spaced content =>
            cases spaced with
            | true =>
                rw [EventStream.dataLines, List.findSome?_cons]
                rfl
            | false => rfl
  rw [Stream.lines_text, Stream.dataLines,
    ← hlines (stream.lines.map Prod.fst) (by simpa using stream.wellFormed),
    List.map_map]
  rfl

theorem dataLines_ne_nil {stream : Stream} {response : JsonRpcResponse}
    (hdelivers : Delivers json stream response) : stream.dataLines ≠ [] := by
  obtain ⟨before, payload, after, hpayloads, _⟩ := hdelivers
  apply dataLines_ne_nil_of_gather
  have hsome : stream.payloads ≠ [] := by
    rw [hpayloads]
    exact List.append_ne_nil_of_right_ne_nil _ (List.cons_ne_nil _ _)
  exact hsome

/-- A stream is no JSON text. -/
theorem exists_value_error (hrejects : json.RejectsStreams) {stream : Stream}
    (hdata : stream.dataLines ≠ []) :
    ∃ e, json.value stream.text = .error e := by
  obtain ⟨⟨spaced, content⟩, hline⟩ := List.exists_mem_of_ne_nil _ hdata
  obtain ⟨line, hmember, hsame⟩ :=
    List.mem_map.mp (mem_dataLines_iff.mp hline)
  have hformed := stream.wellFormed line hmember
  have hfield : "data:".toList <+: line.1.text.toList := by
    rw [Line.data_prefix_iff hformed, hsame]
    rfl
  obtain ⟨e, herror⟩ := hrejects stream.text ⟨line.1.text, by
    rw [Stream.lines_text]
    exact List.mem_map_of_mem hmember, hfield⟩
  refine ⟨e, ?_⟩
  rw [SerdeJson.value, SerdeJson.read, herror]
  rfl

/-- The search of a stream takes the first line that is a document with an
identifier, or fails. -/
theorem parseResponse_stream_iff (hrejects : json.RejectsStreams)
    {stream : Stream} (hdata : stream.dataLines ≠ [])
    (response : JsonRpcResponse) :
    parseResponse json stream.text = .ok response ↔
      ∃ document, stream.dataLines.findSome? (lineDocument json) =
        some document ∧ Answered response document := by
  obtain ⟨e, herror⟩ := exists_value_error hrejects hdata
  unfold parseResponse
  rw [herror]
  dsimp only
  rw [parseSseResponse, findSome_lines]
  cases hfound : stream.dataLines.findSome? (lineDocument json) with
  | none =>
      refine iff_of_false ?_ (by simp)
      split_ifs <;> simp
  | some document =>
      -- A line that was found shows that there is one with the space.
      obtain ⟨before, ⟨spaced, content⟩, after, hsplit, hline, _⟩ :=
        List.findSome?_eq_some_iff.mp hfound
      have hspaced : spaced = true := by
        unfold lineDocument at hline
        by_contra hnot
        rw [if_neg hnot] at hline
        cases hline
      have hmember : (true, content) ∈ stream.dataLines := by
        rw [hsplit, ← hspaced]
        exact List.mem_append_right _ List.mem_cons_self
      obtain ⟨line, hline, hsame⟩ :=
        List.mem_map.mp (mem_dataLines_iff.mp hmember)
      have hshown : Text.contains stream.text "data: " = true := by
        refine stream.contains_text hline ?_
        rw [hsame]
        simp [Line.text]
      rw [if_pos hshown]
      exact (parseJsonResponse_eq_ok_iff document response).trans
        (by simp)

/-- The first data line with the space that is by itself a document with an
identifier has the identifier and the result of the response. -/
def FirstAnswer (json : SerdeJson) (stream : Stream)
    (response : JsonRpcResponse) : Prop :=
  ∃ before content after document,
    stream.dataLines = before ++ (true, content) :: after ∧
      (∀ line ∈ before, lineDocument json line = none) ∧
      lineDocument json (true, content) = some document ∧
      Answered response document

theorem parseResponse_firstAnswer_iff (hrejects : json.RejectsStreams)
    {stream : Stream} {response : JsonRpcResponse}
    (hdelivers : Delivers json stream response) :
    parseResponse json stream.text = .ok response ↔
      FirstAnswer json stream response := by
  rw [parseResponse_stream_iff hrejects (dataLines_ne_nil hdelivers)]
  constructor
  · rintro ⟨document, hfound, hanswered⟩
    obtain ⟨before, ⟨spaced, content⟩, after, hsplit, hline, hbefore⟩ :=
      List.findSome?_eq_some_iff.mp hfound
    cases spaced with
    | false => cases hline
    | true =>
        exact ⟨before, content, after, document, hsplit, hbefore, hline,
          hanswered⟩
  · rintro ⟨before, content, after, document, hsplit, hbefore, hline,
      hanswered⟩
    exact ⟨document, List.findSome?_eq_some_iff.mpr
      ⟨before, (true, content), after, hsplit, hline, hbefore⟩, hanswered⟩

/-! ## Events on one line each -/

theorem lineDocument_eq_some_iff {content : String}
    {document : OrderedValue} :
    lineDocument json (true, content) = some document ↔
      json.value content = .ok document ∧
        (document.get "id").isSome = true := by
  unfold lineDocument
  rw [if_pos rfl]
  dsimp only
  cases json.value content with
  | error e => simp
  | ok found =>
      by_cases hid : (found.get "id").isSome = true
      · simp only [hid, if_true, Option.some.injEq, Except.ok.injEq]
        refine ⟨?_, And.left⟩
        rintro rfl
        exact ⟨rfl, hid⟩
      · simp only [hid, Except.ok.injEq]
        refine iff_of_false nofun ?_
        rintro ⟨rfl, hsome⟩
        exact hid hsome

/-- What the members of a text are not, its document has not. -/
theorem get_eq_none {text name : String} {members : List (String × Json)}
    (hparse : json.parse text = .ok (.obj members))
    (habsent : entries members name = []) {document : OrderedValue}
    (hvalue : json.value text = .ok document) : document.get name = none := by
  have hget := SerdeJson.map_val_get hparse hvalue name
  rw [habsent] at hget
  exact Option.map_eq_none_iff.mp hget

/-- A request has no result, and a notification no identifier. -/
theorem CarriesOther.not_answered {content : String}
    (hother : CarriesOther json content) {document : OrderedValue}
    (hline : lineDocument json (true, content) = some document)
    (response : JsonRpcResponse) : ¬ Answered response document := by
  obtain ⟨hvalue, hid⟩ := lineDocument_eq_some_iff.mp hline
  intro hanswered
  rcases hother with ⟨request, members, others, hparse, hserialize, hentries⟩ |
      ⟨notification, members, others, hparse, hserialize, hentries⟩
  · obtain rfl := Json.obj.inj hserialize
    have habsent : entries members "result" = [] := by
      rw [hentries]
      simp [entries_cons, entries_optionalMember_ne]
    have hpresent := hanswered.present
    rw [← hanswered.result, get_eq_none hparse habsent hvalue] at hpresent
    cases hpresent
  · obtain rfl := Json.obj.inj hserialize
    have habsent : entries members "id" = [] := by
      rw [hentries]
      simp [entries_cons, entries_optionalMember_ne]
    rw [get_eq_none hparse habsent hvalue] at hid
    cases hid

/-- A data line with a message that is passed over is no request that can be
read. -/
theorem CarriesOther.passed_iff {content : String}
    (hother : CarriesOther json content) :
    lineDocument json (true, content) = none ↔
      ((∃ request, Carries json (.request request) content) →
        ∃ e, json.value content = .error e) := by
  constructor
  · rintro hnone ⟨request, members, others, hparse, hserialize, hentries⟩
    cases hvalue : json.value content with
    | error e => exact ⟨e, rfl⟩
    | ok document =>
        obtain rfl := Json.obj.inj hserialize
        have hget := SerdeJson.map_val_get hparse hvalue "id"
        have hid : entries members "id" = [request.id.serialize] := by
          rw [hentries]
          simp [entries_cons, entries_optionalMember_ne]
        rw [hid] at hget
        have hsome : (document.get "id").isSome = true := by
          rw [← Option.isSome_map, hget]
          exact RequestId.isSome_decode_serialize json.floats request.id
        have hfound := lineDocument_eq_some_iff.mpr ⟨hvalue, hsome⟩
        rw [hnone] at hfound
        cases hfound
  · intro hunread
    rw [Option.eq_none_iff_forall_not_mem]
    intro document hline
    obtain ⟨hvalue, hid⟩ := lineDocument_eq_some_iff.mp hline
    rcases hother with hrequest |
        ⟨notification, members, others, hparse, hserialize, hentries⟩
    · obtain ⟨e, herror⟩ := hunread hrequest
      rw [hvalue] at herror
      cases herror
    · obtain rfl := Json.obj.inj hserialize
      have habsent : entries members "id" = [] := by
        rw [hentries]
        simp [entries_cons, entries_optionalMember_ne]
      rw [get_eq_none hparse habsent hvalue] at hid
      cases hid

theorem Delivers.carried {stream : Stream} {response : JsonRpcResponse}
    (hdelivers : Delivers json stream response) {payload : String}
    (hpayload : payload ∈ stream.payloads) :
    Carries json (.response response) payload ∨ CarriesOther json payload := by
  obtain ⟨before, carried, after, hpayloads, hcarries, hothers⟩ := hdelivers
  rw [hpayloads, List.mem_append, List.mem_cons] at hpayload
  rcases hpayload with hbefore | rfl | hafter
  · exact Or.inr (hothers payload (List.mem_append_left _ hbefore))
  · exact Or.inl hcarries
  · exact Or.inr (hothers payload (List.mem_append_right _ hafter))

/-- The line of the response has the space, and no request that can be read
is before it on such a line. -/
def AnswersFirst (json : SerdeJson) (stream : Stream)
    (response : JsonRpcResponse) : Prop :=
  ∃ before content after,
    stream.dataLines = before ++ (true, content) :: after ∧
      Carries json (.response response) content ∧
      ∀ line ∈ before, line.1 = true →
        (∃ request, Carries json (.request request) line.2) →
        ∃ e, json.value line.2 = .error e

theorem Plain.lineDocument_isSome {response : JsonRpcResponse}
    (hplain : Plain json response) {content : String}
    (hcarries : Carries json (.response response) content) :
    ∃ document, lineDocument json (true, content) = some document := by
  obtain ⟨document, hvalue⟩ := hplain.exists_value hcarries
  obtain ⟨members, hparse, hentries⟩ := exists_members_of_carries hcarries
  have hget := SerdeJson.map_val_get hparse hvalue "id"
  rw [hentries, entries_id_response] at hget
  refine ⟨document, lineDocument_eq_some_iff.mpr ⟨hvalue, ?_⟩⟩
  rw [← Option.isSome_map, hget]
  exact RequestId.isSome_decode_serialize json.floats response.id

theorem parseResponse_answersFirst_iff (hrejects : json.RejectsStreams)
    {stream : Stream} {response : JsonRpcResponse}
    (hdelivers : Delivers json stream response) (hone : stream.OneLineEach) :
    parseResponse json stream.text = .ok response ↔
      Plain json response ∧ AnswersFirst json stream response := by
  have hcarried : ∀ line ∈ stream.dataLines,
      Carries json (.response response) line.2 ∨
        CarriesOther json line.2 := by
    intro line hline
    apply hdelivers.carried
    rw [hone]
    exact List.mem_map_of_mem hline
  constructor
  · intro hparse
    obtain ⟨before, content, after, document, hsplit, hbefore, hline,
      hanswered⟩ := (parseResponse_firstAnswer_iff hrejects hdelivers).mp
        hparse
    have hcontent : Carries json (.response response) content := by
      rcases hcarried (true, content) (by simp [hsplit]) with
        hresponse | hother
      · exact hresponse
      · exact absurd hanswered (hother.not_answered hline response)
    obtain ⟨hvalue, _⟩ := lineDocument_eq_some_iff.mp hline
    refine ⟨(answered_iff_plain hcontent hvalue).mp hanswered, before, content,
      after, hsplit, hcontent, ?_⟩
    rintro ⟨spaced, text⟩ hmember rfl hrequest
    exact (CarriesOther.passed_iff (Or.inl hrequest)).mp
      (hbefore (true, text) hmember) hrequest
  · rintro ⟨hplain, before, content, after, hsplit, hcontent, hbefore⟩
    rw [parseResponse_stream_iff hrejects (dataLines_ne_nil hdelivers), hsplit,
      List.findSome?_append]
    cases hfound : before.findSome? (lineDocument json) with
    | none =>
        obtain ⟨document, hline⟩ := hplain.lineDocument_isSome hcontent
        obtain ⟨hvalue, _⟩ := lineDocument_eq_some_iff.mp hline
        refine ⟨document, ?_, (answered_iff_plain hcontent hvalue).mpr hplain⟩
        rw [List.findSome?_cons, hline]
        rfl
    | some document =>
        -- Whatever is found before is no request, so it is the response.
        obtain ⟨⟨spaced, text⟩, hmember, hline⟩ :=
          List.exists_of_findSome?_eq_some hfound
        refine ⟨document, rfl, ?_⟩
        cases spaced with
        | false => cases hline
        | true =>
            obtain ⟨hvalue, _⟩ := lineDocument_eq_some_iff.mp hline
            rcases hcarried (true, text) (by simp [hsplit, hmember]) with
              hresponse | hother
            · exact (answered_iff_plain hresponse hvalue).mpr hplain
            · have hpassed := hother.passed_iff.mpr
                (hbefore (true, text) hmember rfl)
              rw [hline] at hpassed
              cases hpassed

/-! ## The derived reader -/

/-- `serde_json::from_str` on a text that carries a response. -/
theorem response_eq_ok_iff {response : JsonRpcResponse} {text : String}
    (hcarries : Carries json (.response response) text) :
    json.response text = .ok response ↔
      (JsonRpcMessage.response response).Lossless json.floats := by
  obtain ⟨members, hparse, hentries⟩ := exists_members_of_carries hcarries
  have hobject : response.serialize json.floats =
      .obj (responseMembers json response) := rfl
  have hsame : JsonRpcResponse.ofDocument json.floats (.obj members) =
      JsonRpcResponse.ofDocument json.floats
        (response.serialize json.floats) := by
    simp only [hobject, JsonRpcResponse.ofDocument, JsonRpcResponse.fitsKnown,
      JsonRpcResponse.deserialize, JsonRpcResponse.ofMembers, requiredField,
      optionalField, hentries]
  have hfits : JsonRpcResponse.fitsKnown (response.serialize json.floats) =
      (payloadFits 126 response.result &&
        payloadFits 125 (response.error.bind JsonRpcError.data)) := by
    have herror : entries (responseMembers json response) "error" =
        (response.error.map (JsonRpcError.serialize json.floats)).toList := by
      simp [responseMembers, entries_cons, entries_optionalMember_ne]
    rw [hobject, JsonRpcResponse.fitsKnown, entries_result_response, herror]
    congr 1
    · cases response.result <;>
        simp [payloadFits, OrderedValue.serialize, Value.fits_encode]
    · cases response.error with
      | none => rfl
      | some error =>
          cases hdata : error.data <;>
            simp [payloadFits, JsonRpcError.serialize, JsonRpcError.fitsKnown,
              entries_cons, hdata, OrderedValue.serialize, Value.fits_encode]
  have herror : (∀ error, response.error = some error →
        Kept json.floats error.data) ↔
      Kept json.floats (response.error.bind JsonRpcError.data) := by
    cases response.error with
    | none => simp [Kept]
    | some error => simp
  rw [SerdeJson.response, SerdeJson.read_eq_ok_iff hparse, hsame,
    JsonRpcResponse.ofDocument, JsonRpcMessage.Lossless,
    JsonRpcMessage.payloads, List.forall_mem_append,
    JsonRpcMessage.forall_payload_iff, JsonRpcMessage.forall_payload_iff]
  by_cases hknown : JsonRpcResponse.fitsKnown
      (response.serialize json.floats) = true
  · rw [if_pos hknown, JsonRpcResponse.deserialize_serialize_iff, herror]
    rw [hfits, Bool.and_eq_true] at hknown
    rw [and_iff_left hknown.1, and_iff_left hknown.2]
  · rw [if_neg hknown]
    rw [hfits, Bool.and_eq_true] at hknown
    refine iff_of_false (by simp) ?_
    rintro ⟨⟨_, hresult⟩, _, hdata⟩
    exact hknown ⟨hresult, hdata⟩

/-! ## Which bodies are parsed -/

/-- A document comes out as the response it carries exactly if that is a plain
success, and a stream exactly if its first data line with the space that is by
itself a document with an identifier answers like the response.  With one data
line for each event this is the line of a plain success, with the space and
before any request on such a line.  The derived reader gives the response that
a document carries whenever that is lossless. -/
theorem parseResponse_carried_iff (json : SerdeJson)
    (hrejects : json.RejectsStreams) :
    (∀ response text, Carries json (.response response) text →
      (parseResponse json text = .ok response ↔ Plain json response)) ∧
      (∀ response stream, Delivers json stream response →
        (parseResponse json stream.text = .ok response ↔
          FirstAnswer json stream response)) ∧
      (∀ response stream, Delivers json stream response →
        stream.OneLineEach →
        (parseResponse json stream.text = .ok response ↔
          Plain json response ∧ AnswersFirst json stream response)) ∧
      (∀ response text, Carries json (.response response) text →
        (json.response text = .ok response ↔
          (JsonRpcMessage.response response).Lossless json.floats)) := by
  refine ⟨?_, ?_, ?_, ?_⟩
  · intro response text hcarries
    exact parseResponse_document_iff hrejects hcarries
  · intro response stream hdelivers
    exact parseResponse_firstAnswer_iff hrejects hdelivers
  · intro response stream hdelivers hone
    exact parseResponse_answersFirst_iff hrejects hdelivers hone
  · intro response text hcarries
    exact response_eq_ok_iff hcarries

def doneResponse : JsonRpcResponse :=
  .success (.number 1) ⟨.str "done", .str "done"⟩

def failedResponse : JsonRpcResponse :=
  .failure (.number 1) ⟨-32601, "Method not found", none⟩

def doneText : String :=
  "\x7b\"jsonrpc\":\"2.0\",\"id\":1,\"result\":\"done\"\x7d"

def failedText : String :=
  "\x7b\"jsonrpc\":\"2.0\",\"id\":1,\"error\":" ++
    "\x7b\"code\":-32601,\"message\":\"Method not found\"\x7d\x7d"

def replyJson : SerdeJson where
  parse text :=
    if text = doneText then .ok (doneResponse.serialize tableFloats)
    else if text = failedText then .ok (failedResponse.serialize tableFloats)
    else .error "expected value at line 1 column 1"
  floats := tableFloats
  mismatch _ := "invalid type"

theorem replyJson_rejectsStreams : replyJson.RejectsStreams := by
  have hlines : ∀ text ∈ [doneText, failedText], ∀ line ∈ Text.lines text,
      ¬ "data:".toList <+: line.toList := by
    decide +kernel
  rintro text ⟨line, hline, hlead⟩
  have hnot : text ∉ [doneText, failedText] :=
    fun htext => hlines text htext line hline hlead
  rw [List.mem_cons, List.mem_singleton, not_or] at hnot
  refine ⟨"expected value at line 1 column 1", ?_⟩
  simp only [replyJson, if_neg hnot.1, if_neg hnot.2]

theorem carries_doneText : Carries replyJson (.response doneResponse)
    doneText :=
  ⟨_, _, rfl, rfl, fun _ => rfl⟩

theorem carries_failedText : Carries replyJson (.response failedResponse)
    failedText := by
  have hne : failedText ≠ doneText := by decide
  refine ⟨responseMembers replyJson failedResponse, _, ?_, rfl, fun _ => rfl⟩
  simp only [replyJson, if_neg hne, if_true]
  rfl

/-- One event, with its data on a line with the space or without. -/
def doneStream (spaced : Bool) : Stream where
  lines := [(.other "event: message", .lineFeed),
    (.data spaced doneText, .lineFeed), (.blank, .lineFeed)]
  wellFormed := by
    cases spaced <;> decide +kernel

theorem doneStream_delivers (spaced : Bool) :
    Delivers replyJson (doneStream spaced) doneResponse :=
  ⟨[], doneText, [], rfl, carries_doneText, nofun⟩

theorem doneResponse_plain : Plain replyJson doneResponse :=
  ⟨rfl, rfl, _, rfl, rfl, nofun⟩

/-- The response comes out of its text and of the stream with the space. -/
theorem doneResponse_parsed :
    parseResponse replyJson doneText = .ok doneResponse ∧
      parseResponse replyJson (doneStream true).text = .ok doneResponse := by
  obtain ⟨hdocument, _, hstream, _⟩ :=
    parseResponse_carried_iff replyJson replyJson_rejectsStreams
  refine ⟨(hdocument doneResponse doneText carries_doneText).mpr
    doneResponse_plain, (hstream doneResponse (doneStream true)
      (doneStream_delivers true) rfl).mpr ⟨doneResponse_plain, ?_⟩⟩
  exact ⟨[], doneText, [], rfl, carries_doneText, nofun⟩

/-- An error response is none at all, and a stream without the space is
passed over. -/
theorem failed_and_unspaced_not_parsed :
    (Carries replyJson (.response failedResponse) failedText ∧
        parseResponse replyJson failedText ≠ .ok failedResponse) ∧
      Delivers replyJson (doneStream false) doneResponse ∧
        parseResponse replyJson (doneStream false).text ≠
          .ok doneResponse := by
  refine ⟨⟨carries_failedText, ?_⟩, doneStream_delivers false, ?_⟩
  · rw [Ne, parseResponse_document_iff replyJson_rejectsStreams
      carries_failedText]
    intro hplain
    cases hplain.error
  · rw [Ne, parseResponse_firstAnswer_iff replyJson_rejectsStreams
      (doneStream_delivers false)]
    rintro ⟨before, content, after, document, hsplit, _⟩
    have hmember : (true, content) ∈ (doneStream false).dataLines := by
      rw [hsplit]
      exact List.mem_append_right _ List.mem_cons_self
    cases List.mem_singleton.mp hmember

end HttpStreamTransport

end Core
end Acdp
