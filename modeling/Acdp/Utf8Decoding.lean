import Acdp.ByteStrings

/-!
# Reading bytes as text

A decoder that never fails: each longest piece of the input that begins a
character without completing it, and each byte that begins none, becomes one
replacement character.
-/

namespace Acdp

def replacementChar : Char := '\uFFFD'

/-- Between two characters, or within one: how many bytes are still to come,
the bits so far, and the bounds of the next byte. -/
inductive Utf8State where
  | between
  | within (remaining code : ℕ) (lower upper : UInt8)

namespace Utf8State

def first (byte : UInt8) : List Char × Utf8State :=
  if byte < 0x80 then ([Char.ofNat byte.toNat], .between)
  else if byte < 0xC2 then ([replacementChar], .between)
  else if byte < 0xE0 then ([], .within 1 (byte.toNat - 0xC0) 0x80 0xBF)
  else if byte = 0xE0 then ([], .within 2 0 0xA0 0xBF)
  else if byte = 0xED then ([], .within 2 0xD 0x80 0x9F)
  else if byte < 0xF0 then ([], .within 2 (byte.toNat - 0xE0) 0x80 0xBF)
  else if byte = 0xF0 then ([], .within 3 0 0x90 0xBF)
  else if byte < 0xF4 then ([], .within 3 (byte.toNat - 0xF0) 0x80 0xBF)
  else if byte = 0xF4 then ([], .within 3 4 0x80 0x8F)
  else ([replacementChar], .between)

def feed (byte : UInt8) : Utf8State → List Char × Utf8State
  | .between => first byte
  | .within remaining code lower upper =>
      if lower ≤ byte ∧ byte ≤ upper then
        let code := code * 64 + (byte.toNat - 0x80)
        if remaining ≤ 1 then ([Char.ofNat code], .between)
        else ([], .within (remaining - 1) code 0x80 0xBF)
      else
        -- the byte is read again, as the first one of a character
        (replacementChar :: (first byte).1, (first byte).2)

def finish : Utf8State → List Char
  | .between => []
  | .within _ _ _ _ => [replacementChar]

def decode : Utf8State → Bytes → List Char
  | state, [] => state.finish
  | state, byte :: rest =>
      (state.feed byte).1 ++ decode (state.feed byte).2 rest

/-! ### Decoding what was encoded -/

section Encoded

variable {byte : UInt8}

theorem first_of_ascii (hbyte : byte.toNat < 0x80) :
    first byte = ([Char.ofNat byte.toNat], .between) := by
  rw [first, if_pos (UInt8.lt_iff_toNat_lt.mpr hbyte)]

theorem first_of_two (hlower : 0xC2 ≤ byte.toNat) (hupper : byte.toNat < 0xE0) :
    first byte = ([], .within 1 (byte.toNat - 0xC0) 0x80 0xBF) := by
  simp only [first, UInt8.lt_iff_toNat_lt, UInt8.reduceToNat]
  rw [if_neg (by omega), if_neg (by omega), if_pos hupper]

/-- The bounds of the second byte rule out long encodings and surrogates. -/
theorem first_of_three (hlower : 0xE0 ≤ byte.toNat)
    (hupper : byte.toNat < 0xF0) :
    first byte = ([], .within 2 (byte.toNat - 0xE0)
      (if byte.toNat = 0xE0 then 0xA0 else 0x80)
      (if byte.toNat = 0xED then 0x9F else 0xBF)) := by
  simp only [first, UInt8.lt_iff_toNat_lt, ← UInt8.toNat_inj, UInt8.reduceToNat]
  rw [if_neg (by omega), if_neg (by omega), if_neg (by omega)]
  by_cases hlong : byte.toNat = 0xE0
  · simp [hlong]
  · by_cases hsurrogate : byte.toNat = 0xED
    · simp [hsurrogate]
    · simp [hlong, hsurrogate, hupper]

theorem first_of_four (hlower : 0xF0 ≤ byte.toNat)
    (hupper : byte.toNat ≤ 0xF4) :
    first byte = ([], .within 3 (byte.toNat - 0xF0)
      (if byte.toNat = 0xF0 then 0x90 else 0x80)
      (if byte.toNat = 0xF4 then 0x8F else 0xBF)) := by
  simp only [first, UInt8.lt_iff_toNat_lt, ← UInt8.toNat_inj, UInt8.reduceToNat]
  rw [if_neg (by omega), if_neg (by omega), if_neg (by omega),
    if_neg (by omega), if_neg (by omega), if_neg (by omega)]
  by_cases hlong : byte.toNat = 0xF0
  · simp [hlong]
  · by_cases hlast : byte.toNat = 0xF4
    · simp [hlast]
    · rw [if_neg hlong, if_pos (by omega), if_neg hlong, if_neg hlast]

variable {code : ℕ} {lower upper : UInt8}

theorem feed_last (hlower : lower.toNat ≤ byte.toNat)
    (hupper : byte.toNat ≤ upper.toNat) :
    feed byte (.within 1 code lower upper) =
      ([Char.ofNat (code * 64 + (byte.toNat - 0x80))], .between) := by
  rw [feed, if_pos ⟨UInt8.le_iff_toNat_le.mpr hlower,
    UInt8.le_iff_toNat_le.mpr hupper⟩]
  rfl

theorem feed_more {remaining : ℕ} (hremaining : 1 < remaining)
    (hlower : lower.toNat ≤ byte.toNat) (hupper : byte.toNat ≤ upper.toNat) :
    feed byte (.within remaining code lower upper) =
      ([], .within (remaining - 1) (code * 64 + (byte.toNat - 0x80))
        0x80 0xBF) := by
  rw [feed, if_pos ⟨UInt8.le_iff_toNat_le.mpr hlower,
    UInt8.le_iff_toNat_le.mpr hupper⟩]
  dsimp only
  rw [if_neg (by omega)]

end Encoded

theorem toNat_ofNat_of_lt {value : ℕ} (hvalue : value < 256) :
    (UInt8.ofNat value).toNat = value := by
  rw [UInt8.toNat_ofNat', Nat.mod_eq_of_lt hvalue]

theorem toNat_continuation (value : ℕ) :
    (UInt8.ofNat (value % 64 + 128)).toNat = value % 64 + 128 :=
  toNat_ofNat_of_lt (by omega)

theorem le_continuation (value : ℕ) :
    (0x80 : UInt8).toNat ≤ (UInt8.ofNat (value % 64 + 128)).toNat := by
  rw [toNat_continuation]
  exact Nat.le_add_left _ _

theorem continuation_le (value : ℕ) :
    (UInt8.ofNat (value % 64 + 128)).toNat ≤ (0xBF : UInt8).toNat := by
  rw [toNat_continuation]
  simp only [UInt8.reduceToNat]
  omega

/-- The decoder reads back every character, whatever follows it. -/
theorem decode_utf8EncodeChar (char : Char) (rest : Bytes) :
    between.decode (String.utf8EncodeChar char ++ rest) =
      char :: between.decode rest := by
  have hchar : Char.ofNat char.val.toNat = char := Char.ofNat_toNat char
  have hvalid : char.val.toNat < 0xD800 ∨
      0xDFFF < char.val.toNat ∧ char.val.toNat < 0x110000 := char.valid
  unfold String.utf8EncodeChar
  dsimp only
  generalize char.val.toNat = value at hchar hvalid
  split_ifs with hone htwo hthree
  · have hbyte := toNat_ofNat_of_lt (show value < 256 by omega)
    simp only [List.singleton_append, decode, feed]
    rw [first_of_ascii (by omega), hbyte, hchar]
    rfl
  · have hlead := toNat_ofNat_of_lt (show value / 64 % 32 + 192 < 256 by omega)
    have hcode : (value / 64 % 32 + 192 - 192) * 64 +
        (value % 64 + 128 - 128) = value := by omega
    simp only [List.cons_append, List.nil_append, decode]
    rw [feed, first_of_two (by omega) (by omega),
      feed_last (le_continuation value) (continuation_le value), hlead,
      toNat_continuation, hcode, hchar]
    rfl
  · have hlead := toNat_ofNat_of_lt
      (show value / 4096 % 16 + 224 < 256 by omega)
    have hsecond := toNat_continuation (value / 64)
    have hcode : ((value / 4096 % 16 + 224 - 224) * 64 +
        (value / 64 % 64 + 128 - 128)) * 64 + (value % 64 + 128 - 128) =
          value := by omega
    simp only [List.cons_append, List.nil_append, decode]
    rw [feed, first_of_three (by omega) (by omega), feed_more (by omega),
      feed_last (le_continuation value) (continuation_le value), hlead,
      hsecond, toNat_continuation, hcode, hchar]
    · rfl
    · -- a value this large needs the second byte that it has
      rw [hlead]
      split_ifs with hlong
      · simp only [hsecond, UInt8.reduceToNat]
        omega
      · exact le_continuation _
    · rw [hlead]
      split_ifs with hsurrogate
      · simp only [hsecond, UInt8.reduceToNat]
        omega
      · exact continuation_le _
  · have hlead := toNat_ofNat_of_lt
      (show value / 262144 % 8 + 240 < 256 by omega)
    have hsecond := toNat_continuation (value / 4096)
    have hthird := toNat_continuation (value / 64)
    have hcode : (((value / 262144 % 8 + 240 - 240) * 64 +
        (value / 4096 % 64 + 128 - 128)) * 64 +
          (value / 64 % 64 + 128 - 128)) * 64 + (value % 64 + 128 - 128) =
            value := by omega
    simp only [List.cons_append, List.nil_append, decode]
    rw [feed, first_of_four (by omega) (by omega), feed_more (by omega),
      feed_more (by omega) (le_continuation _) (continuation_le _),
      feed_last (le_continuation value) (continuation_le value), hlead,
      hsecond, hthird, toNat_continuation, hcode, hchar]
    · rfl
    · rw [hlead]
      split_ifs with hlong
      · simp only [hsecond, UInt8.reduceToNat]
        omega
      · exact le_continuation _
    · rw [hlead]
      split_ifs with hlast
      · simp only [hsecond, UInt8.reduceToNat]
        omega
      · exact continuation_le _

theorem decode_flatMap (chars : List Char) :
    between.decode (chars.flatMap String.utf8EncodeChar) = chars := by
  induction chars with
  | nil => rfl
  | cons char rest ih => rw [List.flatMap_cons, decode_utf8EncodeChar, ih]

end Utf8State

/-- `String::from_utf8_lossy`. -/
def fromUtf8Lossy (bytes : Bytes) : String :=
  String.ofList (Utf8State.between.decode bytes)

@[simp] theorem fromUtf8Lossy_asBytes (text : String) :
    fromUtf8Lossy (asBytes text) = text := by
  rw [fromUtf8Lossy, asBytes, Utf8State.decode_flatMap, String.ofList_toList]

end Acdp
