import Acdp.ByteStrings

/-!
# Records of fixed-width fields

A field of fixed width has an exact codec: every value has one encoding and
every accepted field is the encoding of its value.  Fields that follow each
other without gap or length make up a record whose codec is exact again, and
a reader that cuts the fields out at fixed offsets reads the record.
-/

namespace Acdp

structure ExactCodec (n : ℕ) (α : Type) where
  encode : α → FixedBytes n
  decode : FixedBytes n → Option α
  decode_encode : ∀ value, decode (encode value) = some value
  encode_of_decode : ∀ field value,
    decode field = some value → encode value = field

namespace FixedFields

variable {n m : ℕ}

def front (field : FixedBytes (n + m)) : FixedBytes n :=
  ⟨field.val.take n, by simp [field.property]⟩

def back (field : FixedBytes (n + m)) : FixedBytes m :=
  ⟨field.val.drop n, by simp [field.property]⟩

def joined (first : FixedBytes n) (second : FixedBytes m) :
    FixedBytes (n + m) :=
  ⟨first.val ++ second.val, by simp [first.property, second.property]⟩

@[simp] theorem front_joined (first : FixedBytes n) (second : FixedBytes m) :
    front (joined first second) = first := by
  apply Subtype.ext
  simp [front, joined, first.property]

@[simp] theorem back_joined (first : FixedBytes n) (second : FixedBytes m) :
    back (joined first second) = second := by
  apply Subtype.ext
  simp [back, joined, first.property]

theorem joined_front_back (field : FixedBytes (n + m)) :
    joined (front field) (back field) = field := by
  apply Subtype.ext
  simp [front, back, joined]

/-- `array_ref![bytes, offset, n]`; `none` where the slice panics. -/
def arrayRef (n : ℕ) (bytes : Bytes) (offset : ℕ) : Option (FixedBytes n) :=
  FixedBytes.ofSlice? n ((bytes.drop offset).take n)

theorem arrayRef_eq_some_iff {bytes : Bytes} {offset : ℕ}
    {field : FixedBytes n} :
    arrayRef n bytes offset = some field ↔
      field.val = (bytes.drop offset).take n := by
  unfold arrayRef FixedBytes.ofSlice?
  split_ifs with hlength
  · rw [Option.some.injEq]
    constructor
    · intro hfield
      rw [← hfield]
    · intro hfield
      exact Subtype.ext hfield.symm
  · constructor
    · intro hfield
      cases hfield
    · intro hfield
      exact absurd (hfield ▸ field.property) hlength

/-! The field at the start of a record, a field further on, and the last
one. -/

theorem arrayRef_front (field : FixedBytes (n + m)) :
    arrayRef n field.val 0 = some (front field) :=
  arrayRef_eq_some_iff.mpr rfl

theorem arrayRef_add (k offset : ℕ) (field : FixedBytes (n + m)) :
    arrayRef k field.val (n + offset) = arrayRef k (back field).val offset := by
  rw [arrayRef, arrayRef, back, List.drop_drop]

theorem arrayRef_self (field : FixedBytes n) :
    arrayRef n field.val 0 = some field := by
  rw [arrayRef_eq_some_iff, List.drop_zero]
  exact (List.take_of_length_le field.property.le).symm

end FixedFields

namespace ExactCodec

open FixedFields

variable {n m : ℕ} {α β : Type}

/-- Two fields one after the other. -/
def pair (first : ExactCodec n α) (second : ExactCodec m β) :
    ExactCodec (n + m) (α × β) where
  encode value := joined (first.encode value.1) (second.encode value.2)
  decode field := do
    let left ← first.decode (front field)
    let right ← second.decode (back field)
    some (left, right)
  decode_encode := by
    intro value
    simp [first.decode_encode, second.decode_encode]
  encode_of_decode := by
    intro field value hdecode
    simp only [Option.bind_eq_bind, Option.bind_eq_some_iff,
      Option.some.injEq] at hdecode
    obtain ⟨left, hleft, right, hright, rfl⟩ := hdecode
    rw [first.encode_of_decode _ _ hleft, second.encode_of_decode _ _ hright]
    exact joined_front_back field

/-- The codec of a type with the same values. -/
def ofEquiv (codec : ExactCodec n α) (values : α ≃ β) : ExactCodec n β where
  encode value := codec.encode (values.symm value)
  decode field := (codec.decode field).map values
  decode_encode := by
    intro value
    simp [codec.decode_encode]
  encode_of_decode := by
    intro field value hdecode
    obtain ⟨found, hfound, rfl⟩ := Option.map_eq_some_iff.mp hdecode
    rw [values.symm_apply_apply]
    exact codec.encode_of_decode field found hfound

end ExactCodec
end Acdp
