import Acdp.JsonValue

/-!
# Reading values back

A value that has been written can be read if its floating-point numbers can.
Reading back goes member by member, and texts are kept as they are.
-/

namespace Acdp
namespace Json

variable (floats : FloatText)

/-- `Value::as_str`. -/
def Value.asStr : Value → Option String
  | .str text => some text
  | _ => none

/-- `value.get(name).and_then(Value::as_str)`. -/
def Value.getStr (value : Value) (name : String) : Option String :=
  (value.get name).bind Value.asStr

theorem Value.decode_encode_number (number : Number) :
    Value.decode floats ((Value.number number).encode floats) =
      (Number.decode floats (number.encode floats)).map .number := by
  cases number <;> rfl

theorem Value.asStr_decode_encode {value read : Value}
    (hread : Value.decode floats (value.encode floats) = some read) :
    read.asStr = value.asStr := by
  cases value with
  | null => cases hread; rfl
  | bool flag => cases hread; rfl
  | str text => cases hread; rfl
  | number number =>
      rw [Value.decode_encode_number] at hread
      obtain ⟨other, _, rfl⟩ := Option.map_eq_some_iff.mp hread
      rfl
  | array elements =>
      obtain ⟨other, _, rfl⟩ := Option.map_eq_some_iff.mp hread
      rfl
  | object members =>
      obtain ⟨other, _, rfl⟩ := Option.map_eq_some_iff.mp hread
      rfl

theorem Value.lookup_decodeMembers {members decoded : List (String × Value)}
    (hdecode : Value.decodeMembers floats (Value.encodeMembers floats members) =
      some decoded) (name : String) :
    decoded.lookup name = (members.lookup name).bind
      (fun value => Value.decode floats (value.encode floats)) := by
  induction members generalizing decoded with
  | nil =>
      cases hdecode
      rfl
  | cons member rest ih =>
      obtain ⟨key, value⟩ := member
      simp only [Value.encodeMembers, Value.encodeMember, Value.decodeMembers,
        Value.decodeMember, Option.bind_eq_bind, Option.bind_eq_some_iff,
        Option.some.injEq] at hdecode
      obtain ⟨_, ⟨head, hhead, rfl⟩, tail, htail, rfl⟩ := hdecode
      rw [List.lookup_cons, List.lookup_cons]
      cases name == key with
      | true => exact hhead.symm
      | false => exact ih htail

/-- A member of what is read back is the member read back. -/
theorem Value.get_decode_encode {value read : Value} (hnormal : value.Normal)
    (hread : Value.decode floats (value.encode floats) = some read)
    (name : String) :
    read.get name = (value.get name).bind
      (fun found => Value.decode floats (found.encode floats)) := by
  cases hnormal with
  | null => cases hread; rfl
  | bool flag => cases hread; rfl
  | str text => cases hread; rfl
  | number number =>
      rw [Value.decode_encode_number] at hread
      obtain ⟨other, _, rfl⟩ := Option.map_eq_some_iff.mp hread
      rfl
  | array helements =>
      obtain ⟨other, _, rfl⟩ := Option.map_eq_some_iff.mp hread
      rfl
  | object hsorted hmembers =>
      obtain ⟨decoded, hdecoded, rfl⟩ := Option.map_eq_some_iff.mp hread
      rw [collectMembers_of_sorted
        (Value.sorted_of_decodeMembers floats hsorted hdecoded)]
      exact Value.lookup_decodeMembers floats hdecoded name

/-- Every floating-point number in the value is read back as some number. -/
def Value.FloatsRead (value : Value) : Prop :=
  ∀ bits, value.HasFloat bits →
    (floats.parse (floats.print bits)).isSome = true

variable {floats}

theorem Value.FloatsRead.element {elements : List Value}
    (hfloats : (Value.array elements).FloatsRead floats) {element : Value}
    (helement : element ∈ elements) : element.FloatsRead floats :=
  fun bits hfloat => hfloats bits (.array helement hfloat)

theorem Value.FloatsRead.member {members : List (String × Value)}
    (hfloats : (Value.object members).FloatsRead floats)
    {member : String × Value} (hmember : member ∈ members) :
    member.2.FloatsRead floats :=
  fun bits hfloat => hfloats bits (.object hmember hfloat)

theorem Value.FloatsRead.get {value found : Value}
    (hfloats : value.FloatsRead floats) {name : String}
    (hget : value.get name = some found) : found.FloatsRead floats := by
  cases value with
  | object members =>
      obtain ⟨before, after, hsplit, _⟩ := List.lookup_eq_some_iff.mp hget
      have hmember : (name, found) ∈ members := by
        rw [hsplit]
        exact List.mem_append_right _ List.mem_cons_self
      exact hfloats.member hmember
  | _ => cases hget

/-- What has been written can be read, if that is so for the floating-point
numbers. -/
theorem Value.isSome_decode_encode {value : Value} (hnormal : value.Normal)
    (hfloats : value.FloatsRead floats) :
    (Value.decode floats (value.encode floats)).isSome = true := by
  induction hnormal with
  | null => rfl
  | bool flag => rfl
  | str text => rfl
  | number number =>
      rw [Value.decode_encode_number, Option.isSome_map]
      cases number with
      | posInt value =>
          rw [(Number.decode_encode_iff floats _).mpr (by simp)]
          rfl
      | negInt value lower negative =>
          rw [(Number.decode_encode_iff floats _).mpr (by simp)]
          rfl
      | float bits =>
          rw [Number.encode, Number.decode, Option.isSome_map]
          exact hfloats bits .number
  | @array elements helements ih =>
      rw [Value.encode, Value.decode, Option.isSome_map]
      have hall : ∀ element ∈ elements,
          (Value.decode floats (element.encode floats)).isSome = true :=
        fun element helement => ih element helement (hfloats.element helement)
      clear helements ih hfloats
      induction elements with
      | nil => rfl
      | cons element rest irest =>
          obtain ⟨hhead, htail⟩ := List.forall_mem_cons.mp hall
          obtain ⟨first, hfirst⟩ := Option.isSome_iff_exists.mp hhead
          obtain ⟨others, hothers⟩ := Option.isSome_iff_exists.mp
            (irest htail)
          simp [Value.encodeElements, Value.decodeElements, hfirst, hothers]
  | @object members hsorted _ ih =>
      rw [Value.encode, Value.isSome_decode_obj_iff, Value.encodeMembers_eq_map]
      intro member hmember
      obtain ⟨original, horiginal, rfl⟩ := List.mem_map.mp hmember
      exact ih original horiginal (hfloats.member horiginal)

/-- The texts among the members are read back as they are. -/
theorem Value.getStr_decode_encode {value read : Value}
    (hnormal : value.Normal) (hfloats : value.FloatsRead floats)
    (hread : Value.decode floats (value.encode floats) = some read)
    (name : String) : read.getStr name = value.getStr name := by
  unfold Value.getStr
  rw [Value.get_decode_encode floats hnormal hread]
  cases hget : value.get name with
  | none => rfl
  | some found =>
      obtain ⟨kept, hkept⟩ := Option.isSome_iff_exists.mp
        (Value.isSome_decode_encode (hnormal.get hget) (hfloats.get hget))
      rw [Option.bind_some, hkept, Option.bind_some, Option.bind_some,
        Value.asStr_decode_encode floats hkept]

variable (floats)

/-! ## Documents that can be read -/

/-- A parser that goes down a number of levels reads the document as a
value: it nests within them, and its numbers are in range. -/
def Legible (depth : ℕ) (doc : Json) : Prop :=
  doc.fits depth = true ∧ (Value.decode floats doc).isSome = true

instance (depth : ℕ) (doc : Json) : Decidable (Legible floats depth doc) :=
  inferInstanceAs (Decidable (_ ∧ _))

theorem legible_null (depth : ℕ) : Legible floats depth .null :=
  ⟨fits_null depth, rfl⟩

theorem legible_bool (depth : ℕ) (flag : Bool) :
    Legible floats depth (.bool flag) :=
  ⟨fits_bool depth flag, rfl⟩

theorem legible_str (depth : ℕ) (text : String) :
    Legible floats depth (.str text) :=
  ⟨fits_str depth text, rfl⟩

theorem legible_obj_iff (depth : ℕ) (members : List (String × Json)) :
    Legible floats (depth + 1) (.obj members) ↔
      ∀ member ∈ members, Legible floats depth member.2 := by
  rw [Legible, fits_obj_succ, List.all_eq_true, Value.isSome_decode_obj_iff]
  constructor
  · rintro ⟨hfits, hread⟩ member hmember
    exact ⟨hfits member hmember, hread member hmember⟩
  · intro hlegible
    exact ⟨fun member hmember => (hlegible member hmember).1,
      fun member hmember => (hlegible member hmember).2⟩

theorem legible_optionalMember_iff {α : Type*} (depth : ℕ) (name : String)
    (encode : α → Json) (slot : Option α) :
    (∀ member ∈ optionalMember name encode slot,
        Legible floats depth member.2) ↔
      ∀ value ∈ slot.toList, Legible floats depth (encode value) := by
  cases slot <;> simp [optionalMember]

theorem Value.legible_encode {depth : ℕ} {value : Value}
    (hnormal : value.Normal) (hfits : value.fits depth = true)
    (hstable : value.FloatsStable floats) :
    Legible floats depth (value.encode floats) := by
  refine ⟨by rw [Value.fits_encode, hfits], ?_⟩
  rw [(Value.decode_encode_iff floats hnormal).mpr hstable]
  rfl

end Json
end Acdp
