import Acdp.ByteStrings

/-!
# Instants, identifiers and signatures

Values the credential types are made of.  Keys and signatures are byte
strings of fixed length; the signature algorithm itself is a parameter.
-/

namespace Acdp
namespace Auth

/-- `chrono::DateTime<Utc>`: seconds since the epoch within the range the
library represents, and a fraction that exceeds a second in a leap second,
the one after the last second of a minute. -/
structure DateTime where
  secs : ℤ
  nanos : ℕ
  secs_lower : -8334601228800 ≤ secs
  secs_upper : secs ≤ 8210266876799
  nanos_lt : nanos < 2000000000
  leap_second : 1000000000 ≤ nanos → secs % 60 = 59
  deriving DecidableEq, Repr

namespace DateTime

def timestamp (self : DateTime) : ℤ := self.secs

instance : LT DateTime where
  lt left right :=
    left.secs < right.secs ∨
      left.secs = right.secs ∧ left.nanos < right.nanos

instance (left right : DateTime) : Decidable (left < right) :=
  inferInstanceAs (Decidable (_ ∨ _))

theorem timestamp_inI64 (self : DateTime) : InI64 self.timestamp := by
  have hlower := self.secs_lower
  have hupper := self.secs_upper
  unfold InI64 timestamp
  omega

theorem addDays_nanos_lt (self : DateTime) (days : ℤ) :
    (if 1000000000 ≤ self.nanos ∧ days ≠ 0 then self.nanos - 1000000000
      else self.nanos) < 2000000000 := by
  have hnanos := self.nanos_lt
  split <;> omega

theorem addDays_leap_second (self : DateTime) (days : ℤ) :
    1000000000 ≤
        (if 1000000000 ≤ self.nanos ∧ days ≠ 0 then self.nanos - 1000000000
          else self.nanos) →
      (self.secs +
          (if (1000000000 ≤ self.nanos ∧ days ≠ 0) ∧ days < 0 then 1 else 0) +
          days * 86400) % 60 = 59 := by
  have hnanos := self.nanos_lt
  by_cases hleaves : 1000000000 ≤ self.nanos ∧ days ≠ 0
  · rw [if_pos hleaves]
    omega
  · rw [if_neg hleaves, if_neg (fun hboth => hleaves hboth.1)]
    intro hleap
    have hdays : days = 0 := by
      by_contra hdays
      exact hleaves ⟨hleap, hdays⟩
    have hsecs := self.leap_second hleap
    rw [hdays]
    omega

/-- `self + Duration::days(days)`; `none` where the library panics.  Leaving
a leap second folds its fraction back. -/
def addDays? (self : DateTime) (days : ℤ) : Option DateTime :=
  if days * 86400 < -9223372036854775 ∨ 9223372036854775 < days * 86400 then
    none
  else
    let leaves := 1000000000 ≤ self.nanos ∧ days ≠ 0
    let nanos := if leaves then self.nanos - 1000000000 else self.nanos
    let carry := if leaves ∧ days < 0 then 1 else 0
    let secs := self.secs + carry + days * 86400
    if hrange : -8334601228800 ≤ secs ∧ secs ≤ 8210266876799 then
      some ⟨secs, nanos, hrange.1, hrange.2,
        addDays_nanos_lt self days, addDays_leap_second self days⟩
    else none

end DateTime

abbrev Uuid := FixedBytes 16

abbrev PublicKey := FixedBytes 32

abbrev Signature := FixedBytes 64

/-- The Ed25519 library: signing, verification and the texts of its errors. -/
structure Ed25519 (SecretKey : Type) where
  sign : SecretKey → Bytes → Signature
  verify : PublicKey → Bytes → Signature → Except String Unit
  invalidPublicKey : String

def Ed25519.publicKeyFromSlice {SecretKey : Type}
    (ed25519 : Ed25519 SecretKey) (bytes : Bytes) :
    Except String PublicKey :=
  match FixedBytes.ofSlice? 32 bytes with
  | some key => .ok key
  | none => .error ed25519.invalidPublicKey

structure KeyPair (SecretKey : Type) where
  pk : PublicKey
  sk : SecretKey

/-- The signature is accepted for these bytes and for no others. -/
def Ed25519.SignatureOf {SecretKey : Type} (ed25519 : Ed25519 SecretKey)
    (key : PublicKey) (signature : Signature) (message : Bytes) : Prop :=
  ∀ other, ed25519.verify key other signature = .ok () ↔ other = message

/-! ## A small signature scheme

The signature of a message of sixteen bytes spells the message out; any other
message is represented by a polynomial digest. -/

def smallInstant : DateTime :=
  ⟨1700000000, 0, by decide, by decide, by decide, by decide⟩

def smallDigest (message : Bytes) : ℕ :=
  message.foldl (fun digest byte => (digest * 257 + byte.toNat + 1) % 2 ^ 248) 0

def smallSignature (key : PublicKey) (message : Bytes) : Signature :=
  ⟨key.val ++
      (if message.length = 16 then 1 :: (message ++ List.replicate 15 0)
      else 0 :: leBytes 31 (smallDigest message)), by
    have hkey := key.property
    split <;> simp_all⟩

def smallEd25519 : Ed25519 PublicKey where
  sign := smallSignature
  verify key message signature :=
    if signature = smallSignature key message then .ok ()
    else .error "signature does not match"
  invalidPublicKey := "invalid public key"

theorem smallSignature_eq_iff (key : PublicKey) {message other : Bytes}
    (hlength : message.length = 16) :
    smallSignature key message = smallSignature key other ↔
      other = message := by
  constructor
  · intro hsame
    have htails := List.append_cancel_left (congrArg Subtype.val hsame)
    rw [if_pos hlength] at htails
    by_cases hother : other.length = 16
    · rw [if_pos hother, List.cons.injEq] at htails
      exact (List.append_cancel_right htails.2).symm
    · rw [if_neg hother, List.cons.injEq] at htails
      exact absurd htails.1 (by decide)
  · intro hsame
    rw [hsame]

theorem smallEd25519_verify_sign (key : PublicKey) (message : Bytes) :
    smallEd25519.verify key message (smallEd25519.sign key message) =
      .ok () :=
  if_pos rfl

theorem smallEd25519_signatureOf (key : PublicKey) {message : Bytes}
    (hlength : message.length = 16) :
    smallEd25519.SignatureOf key (smallEd25519.sign key message) message := by
  intro other
  rw [← smallSignature_eq_iff key hlength]
  simp only [smallEd25519]
  by_cases hsame : smallSignature key message = smallSignature key other
  · simp [hsame]
  · simp [hsame]

end Auth
end Acdp
