import Acdp.AuthSerdeRoundTrip
import Acdp.FixedFields

/-!
# The encodings of the server keys

A private key is four scalars of 32 bytes, a public key three compressed
points of 33.  The writer runs the fields together and the reader cuts them
out at fixed offsets.  Both are compared with the record of the exact field
codecs, so that every key has one accepted encoding and every other string
is refused.
-/

namespace Acdp
namespace Auth

open FixedFields

variable {F G Coins : Type}

/-- The field is cut out, then decoded or refused by name.  The outer `none`
is a panic. -/
def readField {α : Type} {n : ℕ} (decode : FixedBytes n → Option α)
    (bytes : Bytes) (offset : ℕ) (message : String) :
    ExceptT ACDPError Option α := do
  let field ← ExceptT.lift (arrayRef n bytes offset)
  match decode field with
  | some value => pure value
  | none => throw (.arcVerificationFailed message)

namespace ServerPrivateKey

def toBytes (serde : SerdeBackend F G Coins) (self : ServerPrivateKey F) :
    Bytes :=
  (serde.scalarToBytes self.x0).val ++ (serde.scalarToBytes self.x1).val ++
    (serde.scalarToBytes self.x2).val ++
    (serde.scalarToBytes self.x0Blinding).val

def fromBytes (serde : SerdeBackend F G Coins) (bytes : Bytes) :
    ExceptT ACDPError Option (ServerPrivateKey F) :=
  if bytes.length ≠ 128 then
    throw (.arcVerificationFailed "Invalid server private key length")
  else do
    let x0 ← readField serde.scalarFromRepr bytes 0 "Invalid x0 scalar"
    let x1 ← readField serde.scalarFromRepr bytes 32 "Invalid x1 scalar"
    let x2 ← readField serde.scalarFromRepr bytes 64 "Invalid x2 scalar"
    let x0Blinding ← readField serde.scalarFromRepr bytes 96
      "Invalid x0_blinding scalar"
    pure ⟨x0, x1, x2, x0Blinding⟩

end ServerPrivateKey

namespace ServerPublicKey

def toBytes (serde : SerdeBackend F G Coins) (self : ServerPublicKey G) :
    Bytes :=
  serde.pointToBytes self.x0 ++ serde.pointToBytes self.x1 ++
    serde.pointToBytes self.x2

def fromBytes (serde : SerdeBackend F G Coins) (bytes : Bytes) :
    ExceptT ACDPError Option (ServerPublicKey G) :=
  if bytes.length ≠ 99 then
    throw (.arcVerificationFailed "Invalid server public key length")
  else do
    let x0 ← readField (n := 33) (serde.pointFromBytes ·.val) bytes 0
      "Invalid X0 point"
    let x1 ← readField (n := 33) (serde.pointFromBytes ·.val) bytes 33
      "Invalid X1 point"
    let x2 ← readField (n := 33) (serde.pointFromBytes ·.val) bytes 66
      "Invalid X2 point"
    pure ⟨x0, x1, x2⟩

end ServerPublicKey

/-- What the curve library promises of its encodings: scalars in 32 bytes and
points in 33, each with one accepted encoding. -/
structure SerdeBackend.ExactKeys (serde : SerdeBackend F G Coins) : Prop where
  scalar : ∀ scalar,
    serde.scalarFromRepr (serde.scalarToBytes scalar) = some scalar
  scalarCanonical : ∀ repr scalar,
    serde.scalarFromRepr repr = some scalar → serde.scalarToBytes scalar = repr
  point : serde.toArcBackend.PointsRoundTrip
  pointCanonical : ∀ bytes point, bytes.length = 33 →
    serde.pointFromBytes bytes = some point → serde.pointToBytes point = bytes

namespace SerdeBackend

variable {serde : SerdeBackend F G Coins}

def scalarCodec (hexact : serde.ExactKeys) : ExactCodec 32 F where
  encode := serde.scalarToBytes
  decode := serde.scalarFromRepr
  decode_encode := hexact.scalar
  encode_of_decode := hexact.scalarCanonical

def pointCodec (hexact : serde.ExactKeys) : ExactCodec 33 G where
  encode point := ⟨serde.pointToBytes point, (hexact.point point).1⟩
  decode field := serde.pointFromBytes field.val
  decode_encode point := (hexact.point point).2
  encode_of_decode := by
    intro field point hdecode
    exact Subtype.ext
      (hexact.pointCanonical field.val point field.property hdecode)

end SerdeBackend

/-! ## Reading field by field -/

section Fields

variable {α β κ : Type} {n : ℕ}

theorem throw_ne_pure {e : ACDPError} {value : α} :
    (throw e : ExceptT ACDPError Option α) ≠ pure value := by
  intro hsame
  have hrun : some (Except.error e) = some (Except.ok value) := hsame
  cases Option.some.inj hrun

/-- The reader returns what was decoded, and an error where nothing was. -/
def Settles (reader : ExceptT ACDPError Option α) (decoded : Option α) :
    Prop :=
  match decoded with
  | none => ∃ e, reader = throw e
  | some value => reader = pure value

theorem Settles.pure_iff {reader : ExceptT ACDPError Option α}
    {decoded : Option α} (hsettles : Settles reader decoded) {value : α} :
    reader = pure value ↔ decoded = some value := by
  cases decoded with
  | none =>
      obtain ⟨e, herror⟩ := hsettles
      rw [herror]
      exact iff_of_false throw_ne_pure (by simp)
  | some found =>
      have hfound : reader = pure found := hsettles
      rw [hfound, Option.some.injEq]
      constructor
      · intro hsame
        have hrun : some (Except.ok found) =
            (some (Except.ok value) : Option (Except ACDPError α)) := hsame
        exact Except.ok.inj (Option.some.inj hrun)
      · intro hsame
        rw [hsame]

theorem settles_readField {decode : FixedBytes n → Option α} {bytes : Bytes}
    {offset : ℕ} {field : FixedBytes n}
    (hfield : arrayRef n bytes offset = some field) (message : String) :
    Settles (readField decode bytes offset message) (decode field) := by
  have hlift : (ExceptT.lift (some field) :
      ExceptT ACDPError Option (FixedBytes n)) = pure field := rfl
  unfold readField
  rw [hfield, hlift, pure_bind]
  cases decode field with
  | none => exact ⟨_, rfl⟩
  | some value => exact rfl

theorem Settles.bind {reader : ExceptT ACDPError Option α}
    {decoded : Option α} (hsettles : Settles reader decoded)
    {next : α → ExceptT ACDPError Option β} {decodeNext : α → Option β}
    (hnext : ∀ value, Settles (next value) (decodeNext value)) :
    Settles (reader >>= next) (decoded.bind decodeNext) := by
  cases decoded with
  | none =>
      obtain ⟨e, herror⟩ := hsettles
      rw [herror]
      exact ⟨e, rfl⟩
  | some value =>
      have hvalue : reader = pure value := hsettles
      rw [hvalue, pure_bind]
      exact hnext value

/-- A reader and a writer of one exact encoding: what is written is read
back, what is accepted is written again, and every other string is refused
with an error. -/
structure ExactKeyCodec (width : ℕ) (toBytes : κ → Bytes)
    (fromBytes : Bytes → ExceptT ACDPError Option κ) : Prop where
  width_eq : ∀ key, (toBytes key).length = width
  readBack : ∀ key, fromBytes (toBytes key) = pure key
  canonical : ∀ bytes key, fromBytes bytes = pure key → toBytes key = bytes
  refused : ∀ bytes, (∀ key, toBytes key ≠ bytes) →
    ∃ e, fromBytes bytes = throw e

/-- The reader settles strings of the codec's width as the codec does, and
refuses all others. -/
theorem exactKeyCodec_of_settles (codec : ExactCodec n κ)
    {toBytes : κ → Bytes} {fromBytes : Bytes → ExceptT ACDPError Option κ}
    (hwrite : ∀ key, toBytes key = (codec.encode key).val)
    (hread : ∀ field : FixedBytes n,
      Settles (fromBytes field.val) (codec.decode field))
    (hwidth : ∀ bytes : Bytes, bytes.length ≠ n →
      ∃ e, fromBytes bytes = throw e) :
    ExactKeyCodec n toBytes fromBytes := by
  have hcanonical : ∀ bytes key, fromBytes bytes = pure key →
      toBytes key = bytes := by
    intro bytes key hkey
    by_cases hlength : bytes.length = n
    · have hdecode := (hread ⟨bytes, hlength⟩).pure_iff.mp hkey
      rw [hwrite, codec.encode_of_decode _ _ hdecode]
    · obtain ⟨e, herror⟩ := hwidth bytes hlength
      rw [herror] at hkey
      exact absurd hkey throw_ne_pure
  refine ⟨?_, ?_, hcanonical, ?_⟩
  · intro key
    rw [hwrite]
    exact (codec.encode key).property
  · intro key
    rw [hwrite]
    exact (hread (codec.encode key)).pure_iff.mpr (codec.decode_encode key)
  · intro bytes hnone
    by_cases hlength : bytes.length = n
    · have hsettles := hread ⟨bytes, hlength⟩
      cases hdecode : codec.decode ⟨bytes, hlength⟩ with
      | none =>
          rw [hdecode] at hsettles
          exact hsettles
      | some key =>
          have hkey := hsettles.pure_iff.mpr hdecode
          exact absurd (hcanonical bytes key hkey) (hnone key)
    · exact hwidth bytes hlength

end Fields

/-! ## The two keys -/

namespace ServerPrivateKey

variable {serde : SerdeBackend F G Coins}

def codec (hexact : serde.ExactKeys) :
    ExactCodec (32 + (32 + (32 + 32))) (ServerPrivateKey F) :=
  let scalar := SerdeBackend.scalarCodec hexact
  (scalar.pair (scalar.pair (scalar.pair scalar))).ofEquiv
    { toFun := fun (x0, x1, x2, x0Blinding) => ⟨x0, x1, x2, x0Blinding⟩
      invFun := fun key => (key.x0, key.x1, key.x2, key.x0Blinding)
      left_inv := fun _ => rfl
      right_inv := fun _ => rfl }

/-- The four offsets are those of the record. -/
theorem fromBytes_settles (hexact : serde.ExactKeys)
    (field : FixedBytes (32 + (32 + (32 + 32)))) :
    Settles (fromBytes serde field.val) ((codec hexact).decode field) := by
  have hlength := field.property
  have hx0 : arrayRef 32 field.val 0 = some (front field) :=
    arrayRef_front field
  have hx1 : arrayRef 32 field.val 32 = some (front (back field)) := by
    rw [arrayRef_add 32 0 field, arrayRef_front]
  have hx2 : arrayRef 32 field.val 64 =
      some (front (back (back field))) := by
    rw [arrayRef_add 32 32 field, arrayRef_add 32 0 (back field),
      arrayRef_front]
  have hx0Blinding : arrayRef 32 field.val 96 =
      some (back (back (back field))) := by
    rw [arrayRef_add 32 64 field, arrayRef_add 32 32 (back field),
      arrayRef_add 32 0 (back (back field)), arrayRef_self]
  have hdecode : (codec hexact).decode field =
      (serde.scalarFromRepr (front field)).bind fun x0 =>
        (serde.scalarFromRepr (front (back field))).bind fun x1 =>
          (serde.scalarFromRepr (front (back (back field)))).bind fun x2 =>
            (serde.scalarFromRepr (back (back (back field)))).bind
              fun x0Blinding => some ⟨x0, x1, x2, x0Blinding⟩ := by
    simp only [codec, ExactCodec.ofEquiv, ExactCodec.pair,
      SerdeBackend.scalarCodec, Option.bind_eq_bind, Option.map_bind,
      Option.bind_assoc, Option.bind_some, Option.map_some,
      Function.comp_def, Equiv.coe_fn_mk]
  unfold fromBytes
  rw [if_neg (not_not.mpr hlength), hdecode]
  apply (settles_readField hx0 _).bind
  intro x0
  apply (settles_readField hx1 _).bind
  intro x1
  apply (settles_readField hx2 _).bind
  intro x2
  apply (settles_readField hx0Blinding _).bind
  intro x0Blinding
  rfl

theorem exactKeyCodec (hexact : serde.ExactKeys) :
    ExactKeyCodec 128 (toBytes serde) (fromBytes serde) := by
  apply exactKeyCodec_of_settles (codec hexact)
  · intro key
    simp only [toBytes, List.append_assoc]
    rfl
  · exact fromBytes_settles hexact
  · intro bytes hlength
    exact ⟨_, if_pos hlength⟩

end ServerPrivateKey

namespace ServerPublicKey

variable {serde : SerdeBackend F G Coins}

def codec (hexact : serde.ExactKeys) :
    ExactCodec (33 + (33 + 33)) (ServerPublicKey G) :=
  let point := SerdeBackend.pointCodec hexact
  (point.pair (point.pair point)).ofEquiv
    { toFun := fun (x0, x1, x2) => ⟨x0, x1, x2⟩
      invFun := fun key => (key.x0, key.x1, key.x2)
      left_inv := fun _ => rfl
      right_inv := fun _ => rfl }

theorem fromBytes_settles (hexact : serde.ExactKeys)
    (field : FixedBytes (33 + (33 + 33))) :
    Settles (fromBytes serde field.val) ((codec hexact).decode field) := by
  have hlength := field.property
  have hx0 : arrayRef 33 field.val 0 = some (front field) :=
    arrayRef_front field
  have hx1 : arrayRef 33 field.val 33 = some (front (back field)) := by
    rw [arrayRef_add 33 0 field, arrayRef_front]
  have hx2 : arrayRef 33 field.val 66 = some (back (back field)) := by
    rw [arrayRef_add 33 33 field, arrayRef_add 33 0 (back field),
      arrayRef_self]
  have hdecode : (codec hexact).decode field =
      (serde.pointFromBytes (front field).val).bind fun x0 =>
        (serde.pointFromBytes (front (back field)).val).bind fun x1 =>
          (serde.pointFromBytes (back (back field)).val).bind
            fun x2 => some ⟨x0, x1, x2⟩ := by
    simp only [codec, ExactCodec.ofEquiv, ExactCodec.pair,
      SerdeBackend.pointCodec, Option.bind_eq_bind, Option.map_bind,
      Option.bind_assoc, Option.bind_some, Option.map_some,
      Function.comp_def, Equiv.coe_fn_mk]
  unfold fromBytes
  rw [if_neg (not_not.mpr hlength), hdecode]
  apply (settles_readField hx0 _).bind
  intro x0
  apply (settles_readField hx1 _).bind
  intro x1
  apply (settles_readField hx2 _).bind
  intro x2
  rfl

theorem exactKeyCodec (hexact : serde.ExactKeys) :
    ExactKeyCodec 99 (toBytes serde) (fromBytes serde) := by
  apply exactKeyCodec_of_settles (codec hexact)
  · intro key
    simp only [toBytes, List.append_assoc]
    rfl
  · exact fromBytes_settles hexact
  · intro bytes hlength
    exact ⟨_, if_pos hlength⟩

end ServerPublicKey

/-- Both keys have exactly one accepted encoding, of 128 and of 99 bytes. -/
theorem serverKeys_exact {serde : SerdeBackend F G Coins}
    (hexact : serde.ExactKeys) :
    ExactKeyCodec 128 (ServerPrivateKey.toBytes serde)
        (ServerPrivateKey.fromBytes serde) ∧
      ExactKeyCodec 99 (ServerPublicKey.toBytes serde)
        (ServerPublicKey.fromBytes serde) :=
  ⟨ServerPrivateKey.exactKeyCodec hexact,
    ServerPublicKey.exactKeyCodec hexact⟩

/-! ## A small instance -/

/-- One significant byte below eleven. -/
def exactDigit (byte : UInt8) (padding : Bytes) (zeros : ℕ) :
    Option (ZMod 11) :=
  if padding = List.replicate zeros 0 ∧ byte.toNat < 11 then
    some (byte.toNat : ZMod 11)
  else none

/-- The small backend, refusing encodings that are not canonical. -/
def exactSerde : SerdeBackend (ZMod 11) (ZMod 11) Unit :=
  { smallSerde with
    pointFromBytes := fun bytes =>
      match bytes with
      | [] => none
      | byte :: padding => exactDigit byte padding 32
    scalarFromRepr := fun repr =>
      match repr.val.reverse with
      | [] => none
      | byte :: padding => exactDigit byte padding 31 }

theorem exactDigit_eq_some {byte : UInt8} {padding : Bytes} {zeros : ℕ}
    {value : ZMod 11} (hvalue : exactDigit byte padding zeros = some value) :
    padding = List.replicate zeros 0 ∧ byte = UInt8.ofNat value.val := by
  unfold exactDigit at hvalue
  split_ifs at hvalue with hexact
  obtain ⟨hpadding, hsmall⟩ := hexact
  refine ⟨hpadding, ?_⟩
  rw [← Option.some.inj hvalue, ZMod.val_natCast_of_lt hsmall,
    UInt8.ofNat_toNat]

theorem exactSerde_exactKeys : exactSerde.ExactKeys where
  scalar := by decide
  scalarCanonical := by
    intro repr scalar hrepr
    change (match repr.val.reverse with
      | [] => none
      | byte :: padding => exactDigit byte padding 31) = some scalar at hrepr
    cases hreverse : repr.val.reverse with
    | nil =>
        rw [hreverse] at hrepr
        cases hrepr
    | cons byte padding =>
        rw [hreverse] at hrepr
        obtain ⟨hpadding, hbyte⟩ := exactDigit_eq_some hrepr
        apply Subtype.ext
        rw [← List.reverse_reverse repr.val, hreverse, hpadding, hbyte]
        rfl
  point := by
    unfold ArcBackend.PointsRoundTrip
    decide
  pointCanonical := by
    intro bytes point _ hbytes
    cases bytes with
    | nil => cases hbytes
    | cons byte padding =>
        obtain ⟨hpadding, hbyte⟩ := exactDigit_eq_some hbytes
        rw [hpadding, hbyte]
        rfl

/-- The instance encodes the identity as 33 zero bytes, as the curve library
does. -/
theorem serverKeys_exact_small :
    exactSerde.pointToBytes 0 = List.replicate 33 0 ∧
      ExactKeyCodec 128 (ServerPrivateKey.toBytes exactSerde)
        (ServerPrivateKey.fromBytes exactSerde) ∧
      ExactKeyCodec 99 (ServerPublicKey.toBytes exactSerde)
        (ServerPublicKey.fromBytes exactSerde) :=
  ⟨by decide, serverKeys_exact exactSerde_exactKeys⟩

end Auth
end Acdp
