import Acdp.CoreMessageCodec
import Acdp.JsonEquivalence

/-!
# Documents that survive the message types

A document that can be read as a message is written again from what the
message types hold.  The new document has the same value exactly when the old
one is an object with no members but those of its kind, no optional member of
it is `null`, and the payloads are read without loss.
-/

namespace Acdp
namespace Core

open Json

variable (floats : FloatText)

/-! ## Members -/

section Members

variable {members : List (String × Json)}

def OnlyNames (members : List (String × Json)) (names : List String) : Prop :=
  ∀ member ∈ members, member.1 ∈ names

def KeptMember (members : List (String × Json)) (name : String) : Prop :=
  ∀ value ∈ entries members name, value ≠ .null ∧ Exact floats value

theorem onlyNames_iff (names : List String) :
    OnlyNames members names ↔
      ∀ name, name ∉ names → entries members name = [] := by
  constructor
  · intro honly name hname
    apply entries_eq_nil
    intro member hmember hequal
    rw [← hequal] at hname
    exact hname (honly member hmember)
  · intro habsent member hmember
    by_contra hname
    have hentry : member.2 ∈ entries members member.1 :=
      List.mem_map.mpr ⟨member, List.mem_filter.mpr ⟨hmember, by simp⟩, rfl⟩
    rw [habsent member.1 hname] at hentry
    exact List.not_mem_nil hentry

theorem same_obj_iff (others : List (String × Json)) :
    Same floats (.obj members) (.obj others) ↔
      ∀ name, List.Forall₂ (Same floats) (entries members name)
        (entries others name) := by
  constructor
  · intro hsame name
    cases hsame with
    | obj hcount hmembers =>
        exact List.forall₂_iff_zip.mpr
          ⟨hcount name, fun hpair => hmembers name _ hpair⟩
  · intro hsame
    refine .obj (fun name => (hsame name).length_eq) ?_
    intro name pair hpair
    exact (List.forall₂_iff_zip.mp (hsame name)).2 hpair

/-- Where only known names are written, nothing else may have been read. -/
theorem same_known_iff {others : List (String × Json)} (names : List String)
    (hothers : ∀ name, name ∉ names → entries others name = []) :
    Same floats (.obj members) (.obj others) ↔
      OnlyNames members names ∧ ∀ name ∈ names,
        List.Forall₂ (Same floats) (entries members name)
          (entries others name) := by
  rw [same_obj_iff, onlyNames_iff]
  constructor
  · intro hsame
    refine ⟨?_, fun name _ => hsame name⟩
    intro name hname
    have hnone := hsame name
    rw [hothers name hname, List.forall₂_nil_right_iff] at hnone
    exact hnone
  · rintro ⟨honly, hknown⟩ name
    by_cases hname : name ∈ names
    · exact hknown name hname
    · rw [hothers name hname, honly name hname]
      exact .nil

theorem RequestId.eq_serialize {value : Json} {id : RequestId}
    (hread : RequestId.deserialize value = some id) : value = id.serialize := by
  cases value with
  | null =>
      simp only [deserialize, asString, asInt64, asSigned, Option.map_none,
        Option.none_or, Option.some.injEq] at hread
      rw [← hread]
      rfl
  | str text =>
      simp only [deserialize, asString, Option.map_some, Option.some_or,
        Option.some.injEq] at hread
      rw [← hread]
      rfl
  | int value =>
      simp only [deserialize, asString, asInt64, asSigned, Option.map_none,
        Option.none_or, Option.or_none] at hread
      split_ifs at hread with hrange
      · simp only [Option.map_some, Option.some.injEq] at hread
        rw [← hread, serialize, Int64.toInt_ofInt_of_le hrange.1 hrange.2]
      · simp at hread
  | bool value => simp [deserialize, asString, asInt64, asSigned] at hread
  | decimal text => simp [deserialize, asString, asInt64, asSigned] at hread
  | arr elements => simp [deserialize, asString, asInt64, asSigned] at hread
  | obj members => simp [deserialize, asString, asInt64, asSigned] at hread

theorem asString_eq {doc : Json} {text : String}
    (hread : asString doc = some text) : doc = .str text := by
  cases doc with
  | str stored =>
      rw [asString_str, Option.some.injEq] at hread
      rw [hread]
  | _ => simp [asString] at hread

theorem asInt32_eq {doc : Json} {value : Int32}
    (hread : asInt32 doc = some value) : doc = .int value.toInt := by
  cases doc with
  | int stored =>
      simp only [asInt32, asSigned] at hread
      split_ifs at hread with hrange
      · rw [Option.map_some, Option.some.injEq] at hread
        rw [← hread, Int32.toInt_ofInt_of_le hrange.1 hrange.2]
      · simp at hread
  | _ => simp [asInt32, asSigned] at hread

/-- A required member that is written as it was read. -/
theorem entries_of_required {α : Type} {decode : Json → Option α}
    (encode : α → Json) {name : String} {value : α}
    (hexact : ∀ doc, decode doc = some value → doc = encode value)
    (hread : requiredField decode members name = some value) :
    entries members name = [encode value] := by
  unfold requiredField at hread
  cases hentries : entries members name with
  | nil => simp [hentries, readRequired] at hread
  | cons doc rest =>
      cases rest with
      | cons other rest => simp [hentries, readRequired] at hread
      | nil =>
          rw [hentries, readRequired_singleton] at hread
          rw [hexact doc hread]

theorem forall₂_required {α : Type} {decode : Json → Option α}
    (encode : α → Json) {name : String} {value : α}
    (hexact : ∀ doc, decode doc = some value → doc = encode value)
    (hread : requiredField decode members name = some value) :
    List.Forall₂ (Same floats) (entries members name) [encode value] := by
  rw [entries_of_required encode hexact hread]
  exact .cons (Same.refl floats (encode value)) .nil

/-- An optional member is written as it was read, unless it is `null`. -/
theorem forall₂_optional_iff {α : Type} {decode : Json → Option α}
    {encode : α → Json} {kept : Json → Prop} {name : String}
    {value : Option α}
    (hkept : ∀ doc present, decode doc = some present →
      (Same floats doc (encode present) ↔ kept doc))
    (hread : optionalField decode members name = some value) :
    List.Forall₂ (Same floats) (entries members name)
        (value.map encode).toList ↔
      ∀ doc ∈ entries members name, doc ≠ .null ∧ kept doc := by
  unfold optionalField at hread
  cases hentries : entries members name with
  | nil =>
      rw [hentries, readOptional_nil, Option.some.injEq] at hread
      simp [← hread]
  | cons doc rest =>
      cases rest with
      | cons other rest => simp [hentries, readOptional] at hread
      | nil =>
          rw [hentries] at hread
          by_cases hnull : doc = .null
          · subst hnull
            simp only [readOptional, Option.some.injEq] at hread
            simp [← hread]
          · rw [readOptional_singleton _ hnull, Option.map_eq_some_iff] at hread
            obtain ⟨present, hdecode, rfl⟩ := hread
            have hsame := hkept doc present hdecode
            simp [hnull, hsame]

theorem forall₂_payload_iff {name : String} {payload : Option OrderedValue}
    (hread : optionalField (OrderedValue.deserialize floats) members name =
      some payload) :
    List.Forall₂ (Same floats) (entries members name)
        (payload.map (OrderedValue.serialize floats)).toList ↔
      KeptMember floats members name := by
  apply forall₂_optional_iff floats _ hread
  intro doc present hdecode
  rw [OrderedValue.deserialize_eq_some_iff] at hdecode
  exact same_encode_iff floats hdecode

end Members

/-! ## Errors -/

def JsonRpcError.memberNames : List String := ["code", "message", "data"]

def CarriedError (doc : Json) : Prop :=
  ∃ members, doc = .obj members ∧
    OnlyNames members JsonRpcError.memberNames ∧
    KeptMember floats members "data"

theorem not_same_arr_obj (elements : List Json)
    (members : List (String × Json)) :
    ¬ Same floats (.arr elements) (.obj members) := by
  intro hsame
  cases hsame

theorem JsonRpcError.same_serialize_iff {doc : Json} {error : JsonRpcError}
    (hread : deserialize floats doc = some error) :
    Same floats doc (error.serialize floats) ↔ CarriedError floats doc := by
  cases doc with
  | obj members =>
      simp only [deserialize, ofMembers, Option.bind_eq_bind,
        Option.bind_eq_some_iff, Option.some.injEq] at hread
      obtain ⟨code, hcode, message, hmessage, data, hdata, rfl⟩ := hread
      have hcodeSame := forall₂_required floats
        (fun code : Int32 => .int code.toInt) (fun doc => asInt32_eq) hcode
      have hmessageSame :=
        forall₂_required floats .str (fun doc => asString_eq) hmessage
      have hdataSame := forall₂_payload_iff floats hdata
      rw [serialize, same_known_iff floats memberNames]
      · simp [CarriedError, memberNames, entries_cons,
          entries_optionalMember_ne, hcodeSame, hmessageSame, hdataSame]
      · intro name hname
        simp only [memberNames, List.mem_cons, List.not_mem_nil, or_false,
          not_or] at hname
        simp [entries_cons, Ne.symm hname.1, Ne.symm hname.2.1,
          entries_optionalMember_ne (Ne.symm hname.2.2)]
  | arr elements =>
      refine iff_of_false (not_same_arr_obj floats elements _) ?_
      rintro ⟨members, hobj, _⟩
      cases hobj
  | _ => simp [deserialize] at hread

/-! ## Requests, responses and notifications -/

def JsonRpcRequest.memberNames : List String :=
  ["jsonrpc", "id", "method", "params"]

def JsonRpcResponse.memberNames : List String :=
  ["jsonrpc", "id", "result", "error"]

def JsonRpcNotification.memberNames : List String :=
  ["jsonrpc", "method", "params"]

theorem JsonRpcRequest.same_serialize_iff {members : List (String × Json)}
    {request : JsonRpcRequest}
    (hread : deserialize floats (.obj members) = some request) :
    Same floats (.obj members) (request.serialize floats) ↔
      OnlyNames members memberNames ∧ KeptMember floats members "params" := by
  simp only [deserialize, ofMembers, Option.bind_eq_bind,
    Option.bind_eq_some_iff, Option.some.injEq] at hread
  obtain ⟨jsonrpc, hjsonrpc, id, hid, method, hmethod, params, hparams, rfl⟩ :=
    hread
  have hjsonrpcSame :=
    forall₂_required floats .str (fun doc => asString_eq) hjsonrpc
  have hidSame := forall₂_required floats RequestId.serialize
    (fun doc => RequestId.eq_serialize) hid
  have hmethodSame :=
    forall₂_required floats .str (fun doc => asString_eq) hmethod
  have hparamsSame := forall₂_payload_iff floats hparams
  rw [serialize, same_known_iff floats memberNames]
  · simp [memberNames, entries_cons, entries_optionalMember_ne, hjsonrpcSame,
      hidSame, hmethodSame, hparamsSame]
  · intro name hname
    simp only [memberNames, List.mem_cons, List.not_mem_nil, or_false,
      not_or] at hname
    obtain ⟨hjsonrpc, hid, hmethod, hparams⟩ := hname
    simp [entries_cons, Ne.symm hjsonrpc, Ne.symm hid, Ne.symm hmethod,
      entries_optionalMember_ne (Ne.symm hparams)]

theorem JsonRpcResponse.same_serialize_iff {members : List (String × Json)}
    {response : JsonRpcResponse}
    (hread : deserialize floats (.obj members) = some response) :
    Same floats (.obj members) (response.serialize floats) ↔
      OnlyNames members memberNames ∧ KeptMember floats members "result" ∧
        ∀ doc ∈ entries members "error", doc ≠ .null ∧ CarriedError floats doc := by
  simp only [deserialize, ofMembers, Option.bind_eq_bind,
    Option.bind_eq_some_iff, Option.some.injEq] at hread
  obtain ⟨jsonrpc, hjsonrpc, id, hid, result, hresult, error, herror, rfl⟩ :=
    hread
  have hjsonrpcSame :=
    forall₂_required floats .str (fun doc => asString_eq) hjsonrpc
  have hidSame := forall₂_required floats RequestId.serialize
    (fun doc => RequestId.eq_serialize) hid
  have hresultSame := forall₂_payload_iff floats hresult
  have herrorSame := forall₂_optional_iff floats
    (fun doc error => JsonRpcError.same_serialize_iff floats) herror
  rw [serialize, same_known_iff floats memberNames]
  · simp [memberNames, entries_cons, entries_optionalMember_ne, hjsonrpcSame,
      hidSame, hresultSame, herrorSame]
  · intro name hname
    simp only [memberNames, List.mem_cons, List.not_mem_nil, or_false,
      not_or] at hname
    obtain ⟨hjsonrpc, hid, hresult, herror⟩ := hname
    simp [entries_cons, Ne.symm hjsonrpc, Ne.symm hid,
      entries_optionalMember_ne (Ne.symm hresult),
      entries_optionalMember_ne (Ne.symm herror)]

theorem JsonRpcNotification.same_serialize_iff
    {members : List (String × Json)} {notification : JsonRpcNotification}
    (hread : deserialize floats (.obj members) = some notification) :
    Same floats (.obj members) (notification.serialize floats) ↔
      OnlyNames members memberNames ∧ KeptMember floats members "params" := by
  simp only [deserialize, ofMembers, Option.bind_eq_bind,
    Option.bind_eq_some_iff, Option.some.injEq] at hread
  obtain ⟨jsonrpc, hjsonrpc, method, hmethod, params, hparams, rfl⟩ := hread
  have hjsonrpcSame :=
    forall₂_required floats .str (fun doc => asString_eq) hjsonrpc
  have hmethodSame :=
    forall₂_required floats .str (fun doc => asString_eq) hmethod
  have hparamsSame := forall₂_payload_iff floats hparams
  rw [serialize, same_known_iff floats memberNames]
  · simp [memberNames, entries_cons, entries_optionalMember_ne, hjsonrpcSame,
      hmethodSame, hparamsSame]
  · intro name hname
    simp only [memberNames, List.mem_cons, List.not_mem_nil, or_false,
      not_or] at hname
    obtain ⟨hjsonrpc, hmethod, hparams⟩ := hname
    simp [entries_cons, Ne.symm hjsonrpc, Ne.symm hmethod,
      entries_optionalMember_ne (Ne.symm hparams)]

/-! ## Messages -/

inductive Carried : Json → Prop
  | request {members : List (String × Json)} (hid : ReadsId members)
      (hmethod : ReadsString members "method")
      (hparams : AtMostOne members "params")
      (hnames : OnlyNames members JsonRpcRequest.memberNames)
      (hkept : KeptMember floats members "params") : Carried (.obj members)
  | response {members : List (String × Json)}
      (hnames : OnlyNames members JsonRpcResponse.memberNames)
      (hresult : KeptMember floats members "result")
      (herror : ∀ doc ∈ entries members "error",
        doc ≠ .null ∧ CarriedError floats doc) : Carried (.obj members)
  | notification {members : List (String × Json)}
      (hnames : OnlyNames members JsonRpcNotification.memberNames)
      (hkept : KeptMember floats members "params") : Carried (.obj members)

theorem OnlyNames.entries_eq_nil {members : List (String × Json)}
    {names : List String} (honly : OnlyNames members names) {name : String}
    (hname : name ∉ names) : entries members name = [] :=
  (onlyNames_iff names).mp honly name hname

theorem ReadsString.not_onlyNames {members : List (String × Json)}
    {name : String} (hread : ReadsString members name) {names : List String}
    (hname : name ∉ names) : ¬ OnlyNames members names := by
  intro honly
  obtain ⟨text, htext⟩ := hread
  rw [honly.entries_eq_nil hname] at htext
  exact List.cons_ne_nil _ _ htext.symm

theorem ReadsId.not_onlyNames {members : List (String × Json)}
    (hid : ReadsId members) {names : List String} (hname : "id" ∉ names) :
    ¬ OnlyNames members names := by
  intro honly
  exact hid.entries_ne_nil (honly.entries_eq_nil hname)

namespace JsonRpcMessage

theorem exists_serialize_obj (message : JsonRpcMessage) :
    ∃ members, message.serialize floats = .obj members := by
  cases message with
  | request request => exact ⟨_, rfl⟩
  | response response => exact ⟨_, rfl⟩
  | notification notification => exact ⟨_, rfl⟩

theorem same_serialize_iff {doc : Json} {message : JsonRpcMessage}
    (hread : ofDocument floats doc = some message) :
    Same floats doc (message.serialize floats) ↔ Carried floats doc := by
  have hparsable := ((ofDocument_eq_some_iff floats doc message).mp hread).1
  cases doc with
  | obj members =>
      have hrequest := isSome_request_iff floats hparsable
      have hresponse := isSome_response_iff floats hparsable
      have hnotification := isSome_notification_iff floats hparsable
      cases message with
      | request request =>
          rw [ofDocument_eq_request_iff] at hread
          rw [hread.2] at hrequest
          obtain ⟨_, hid, hmethod, hparams⟩ := hrequest.mp rfl
          rw [serialize, JsonRpcRequest.same_serialize_iff floats hread.2]
          constructor
          · rintro ⟨hnames, hkept⟩
            exact .request hid hmethod hparams hnames hkept
          · intro hcarried
            cases hcarried with
            | request _ _ _ hnames hkept => exact ⟨hnames, hkept⟩
            | response hnames _ _ =>
                exact (hmethod.not_onlyNames (by decide) hnames).elim
            | notification hnames _ =>
                exact (hid.not_onlyNames (by decide) hnames).elim
      | response response =>
          rw [ofDocument_eq_response_iff] at hread
          rw [hread.2.1] at hrequest
          rw [hread.2.2] at hresponse
          obtain ⟨hversion, hid, _, _⟩ := hresponse.mp rfl
          rw [serialize, JsonRpcResponse.same_serialize_iff floats hread.2.2]
          constructor
          · rintro ⟨hnames, hresult, herror⟩
            exact .response hnames hresult herror
          · intro hcarried
            cases hcarried with
            | request hid hmethod hparams _ _ =>
                exact absurd
                  (hrequest.mpr ⟨hversion, hid, hmethod, hparams⟩) (by simp)
            | response hnames hresult herror => exact ⟨hnames, hresult, herror⟩
            | notification hnames _ =>
                exact (hid.not_onlyNames (by decide) hnames).elim
      | notification notification =>
          rw [ofDocument_eq_notification_iff] at hread
          rw [hread.2.1] at hrequest
          rw [hread.2.2.2] at hnotification
          obtain ⟨hversion, hmethod, _⟩ := hnotification.mp rfl
          rw [serialize,
            JsonRpcNotification.same_serialize_iff floats hread.2.2.2]
          constructor
          · rintro ⟨hnames, hkept⟩
            exact .notification hnames hkept
          · intro hcarried
            cases hcarried with
            | request hid hmethod hparams _ _ =>
                exact absurd
                  (hrequest.mpr ⟨hversion, hid, hmethod, hparams⟩) (by simp)
            | response hnames _ _ =>
                exact (hmethod.not_onlyNames (by decide) hnames).elim
            | notification hnames hkept => exact ⟨hnames, hkept⟩
  | arr elements =>
      obtain ⟨members, hmembers⟩ := message.exists_serialize_obj floats
      rw [hmembers]
      refine iff_of_false (not_same_arr_obj floats elements members) ?_
      intro hcarried
      cases hcarried
  | _ =>
      rw [ofDocument_eq_some_iff] at hread
      simp [JsonRpcRequest.deserialize, JsonRpcResponse.deserialize,
        JsonRpcNotification.deserialize] at hread

end JsonRpcMessage

/-! ## The text of a message -/

theorem RequestId.proper_serialize (id : RequestId) : Proper id.serialize := by
  cases id with
  | string text => exact .str text
  | number value => exact .int value.toInt
  | null => exact .null

section Proper

variable {floats} (hfloats : ∀ bits, DecimalText (floats.print bits))

include hfloats

theorem proper_payload (name : String) (payload : Option OrderedValue) :
    ∀ member ∈ optionalMember name (OrderedValue.serialize floats) payload,
      Proper member.2 :=
  proper_optionalMember
    (fun present _ => present.property.proper_encode hfloats)

theorem JsonRpcError.proper_serialize (error : JsonRpcError) :
    Proper (error.serialize floats) := by
  rw [serialize, proper_obj_iff]
  simp only [List.forall_mem_append, List.forall_mem_cons]
  exact ⟨⟨.int _, .str _, List.forall_mem_nil _⟩,
    proper_payload hfloats "data" error.data⟩

theorem JsonRpcMessage.proper_serialize (message : JsonRpcMessage) :
    Proper (message.serialize floats) := by
  cases message with
  | request request =>
      rw [serialize, JsonRpcRequest.serialize, proper_obj_iff]
      simp only [List.forall_mem_append, List.forall_mem_cons]
      exact ⟨⟨.str _, request.id.proper_serialize, .str _,
        List.forall_mem_nil _⟩, proper_payload hfloats "params" request.params⟩
  | response response =>
      rw [serialize, JsonRpcResponse.serialize, proper_obj_iff]
      simp only [List.forall_mem_append, List.forall_mem_cons]
      exact ⟨⟨⟨.str _, response.id.proper_serialize, List.forall_mem_nil _⟩,
        proper_payload hfloats "result" response.result⟩,
        proper_optionalMember (fun error _ => error.proper_serialize hfloats)⟩
  | notification notification =>
      rw [serialize, JsonRpcNotification.serialize, proper_obj_iff]
      simp only [List.forall_mem_append, List.forall_mem_cons]
      exact ⟨⟨.str _, .str _, List.forall_mem_nil _⟩,
        proper_payload hfloats "params" notification.params⟩

end Proper

end Core
end Acdp
