import Mathlib.Data.String.Basic
import Mathlib.Tactic

/-!
# Byte strings

Encodings a program puts into byte strings: the UTF-8 bytes of a text,
fixed-width integers in little-endian order and lower-case hexadecimal text.
Each encoding comes with the fact that its output determines its input.
-/

namespace Acdp

abbrev Bytes := List UInt8

abbrev FixedBytes (n : ℕ) := { bytes : Bytes // bytes.length = n }

/-- `[byte; n]`. -/
def FixedBytes.filled (n : ℕ) (byte : UInt8) : FixedBytes n :=
  ⟨List.replicate n byte, by simp⟩

/-- A slice of the right length, as by `try_into` or `from_slice`. -/
def FixedBytes.ofSlice? (n : ℕ) (bytes : Bytes) : Option (FixedBytes n) :=
  if hlength : bytes.length = n then some ⟨bytes, hlength⟩ else none

@[simp] theorem FixedBytes.ofSlice?_val {n : ℕ} (bytes : FixedBytes n) :
    FixedBytes.ofSlice? n bytes.val = some bytes := by
  simp [FixedBytes.ofSlice?, bytes.property]

/-! ## UTF-8 -/

/-- `text.as_bytes()`. -/
def asBytes (text : String) : Bytes :=
  text.toList.flatMap String.utf8EncodeChar

@[simp] theorem asBytes_append (left right : String) :
    asBytes (left ++ right) = asBytes left ++ asBytes right := by
  simp [asBytes]

theorem length_le_asBytes (text : String) :
    text.toList.length ≤ (asBytes text).length := by
  unfold asBytes
  induction text.toList with
  | nil => simp
  | cons char rest ih =>
      have hsize := char.utf8Size_pos
      simp only [List.length_cons, List.flatMap_cons, List.length_append,
        String.length_utf8EncodeChar]
      omega

theorem asBytes_injective : Function.Injective asBytes := by
  intro left right hbytes
  have hencode : left.toList.utf8Encode = right.toList.utf8Encode := by
    simp only [List.utf8Encode]
    exact congrArg List.toByteArray hbytes
  rw [String.utf8Encode_toList, String.utf8Encode_toList] at hencode
  exact String.toByteArray_inj.mp hencode

/-- `String::from_utf8`. -/
def fromUtf8 (bytes : Bytes) : Option String :=
  String.fromUTF8? bytes.toByteArray

@[simp] theorem fromUtf8_asBytes (text : String) :
    fromUtf8 (asBytes text) = some text := by
  have hbytes : (asBytes text).toByteArray = text.toByteArray :=
    String.utf8Encode_toList
  rw [fromUtf8, hbytes, String.fromUTF8?, dif_pos text.isValidUTF8]
  rfl

/-- A byte below 128 is a character of its own, and part of no other. -/
theorem utf8EncodeChar_of_mem {char : Char} {byte : UInt8}
    (hascii : byte.toNat < 128) (hmem : byte ∈ String.utf8EncodeChar char) :
    String.utf8EncodeChar char = [byte] := by
  have hbound : ∀ value : ℕ, byte = UInt8.ofNat value →
      value % 256 < 128 := by
    intro value hvalue
    rwa [hvalue, UInt8.toNat_ofNat'] at hascii
  unfold String.utf8EncodeChar at hmem ⊢
  dsimp only at hmem ⊢
  split_ifs at hmem ⊢ with hone htwo hthree
  · rw [List.mem_singleton.mp hmem]
  all_goals
    simp only [List.mem_cons, List.not_mem_nil, or_false] at hmem
  · rcases hmem with hbyte | hbyte
    all_goals
      have hvalue := hbound _ hbyte
      omega
  · rcases hmem with hbyte | hbyte | hbyte
    all_goals
      have hvalue := hbound _ hbyte
      omega
  · rcases hmem with hbyte | hbyte | hbyte | hbyte
    all_goals
      have hvalue := hbound _ hbyte
      omega

/-- The byte of a line break is part of no other character. -/
theorem eq_newline_of_mem_utf8EncodeChar {char : Char}
    (hmem : (10 : UInt8) ∈ String.utf8EncodeChar char) : char = '\n' := by
  have hbytes : String.utf8EncodeChar char = String.utf8EncodeChar '\n' :=
    utf8EncodeChar_of_mem (by decide) hmem
  have hstrings : asBytes (String.ofList [char]) =
      asBytes (String.ofList ['\n']) := by
    simpa [asBytes] using hbytes
  have hchars := congrArg String.toList (asBytes_injective hstrings)
  rw [String.toList_ofList, String.toList_ofList] at hchars
  exact List.singleton_inj.mp hchars

/-- The bytes on both sides of such a byte are texts where the whole is
one. -/
theorem exists_texts_of_asBytes {text : String} {front rest : Bytes}
    {byte : UInt8} (hascii : byte.toNat < 128)
    (hbytes : asBytes text = front ++ byte :: rest) :
    ∃ before after, asBytes before = front ∧ asBytes after = rest := by
  suffices hchars : ∀ (chars : List Char) (front : Bytes),
      chars.flatMap String.utf8EncodeChar = front ++ byte :: rest →
      ∃ before after : List Char,
        before.flatMap String.utf8EncodeChar = front ∧
          after.flatMap String.utf8EncodeChar = rest by
    obtain ⟨before, after, hbefore, hafter⟩ := hchars text.toList front hbytes
    exact ⟨String.ofList before, String.ofList after,
      by simpa [asBytes] using hbefore, by simpa [asBytes] using hafter⟩
  intro chars
  induction chars with
  | nil =>
      intro front hsame
      simp at hsame
  | cons char chars ih =>
      intro front hsame
      rw [List.flatMap_cons, List.append_eq_append_iff] at hsame
      rcases hsame with ⟨later, hfront, hlater⟩ | ⟨within, hchar, hwithin⟩
      · obtain ⟨before, after, hbefore, hafter⟩ := ih later hlater
        exact ⟨char :: before, after, by simp [hbefore, hfront], hafter⟩
      · cases within with
        | nil =>
            obtain ⟨before, after, hbefore, hafter⟩ := ih [] hwithin.symm
            refine ⟨[char], after, ?_, hafter⟩
            simpa using hchar
        | cons other within =>
            rw [List.cons_append, List.cons.injEq] at hwithin
            obtain ⟨rfl, hrest⟩ := hwithin
            have hone : front ++ byte :: within = [byte] := by
              rw [← hchar]
              apply utf8EncodeChar_of_mem hascii
              rw [hchar]
              simp
            have hlength := congrArg List.length hone
            simp only [List.length_append, List.length_cons,
              List.length_nil] at hlength
            have hfront := List.eq_nil_of_length_eq_zero
              (show front.length = 0 by omega)
            have hwithin := List.eq_nil_of_length_eq_zero
              (show within.length = 0 by omega)
            refine ⟨[], chars, hfront.symm, ?_⟩
            rw [hrest, hwithin]
            rfl

theorem newline_notMem_asBytes {text : String} (htext : '\n' ∉ text.toList) :
    (10 : UInt8) ∉ asBytes text := by
  intro hmem
  obtain ⟨char, hchar, hbyte⟩ := List.mem_flatMap.mp hmem
  rw [eq_newline_of_mem_utf8EncodeChar hbyte] at hchar
  exact htext hchar

theorem exists_head_utf8EncodeChar (char : Char) :
    ∃ byte rest, String.utf8EncodeChar char = byte :: rest ∧
      byte.IsUTF8FirstByte := by
  obtain ⟨byte, rest, hbytes⟩ :=
    List.exists_cons_of_ne_nil (@String.utf8EncodeChar_ne_nil char)
  have hlength : 0 < (String.utf8EncodeChar char).length := by
    simp [hbytes]
  have hfirst :=
    (@UInt8.isUTF8FirstByte_getElem_utf8EncodeChar char 0 hlength).mpr rfl
  exact ⟨byte, rest, hbytes, by simpa [hbytes] using hfirst⟩

theorem not_isUTF8FirstByte_of_split {char : Char} {front rest : Bytes}
    {byte : UInt8} (hfront : front ≠ [])
    (hbytes : String.utf8EncodeChar char = front ++ byte :: rest) :
    ¬ byte.IsUTF8FirstByte := by
  intro hfirst
  have hlength : front.length < (String.utf8EncodeChar char).length := by
    simp [hbytes]
  have hposition :=
    (@UInt8.isUTF8FirstByte_getElem_utf8EncodeChar char front.length
      hlength).mp (by simpa [hbytes] using hfirst)
  exact hfront (List.eq_nil_of_length_eq_zero hposition)

theorem exists_lead_of_bytes {whole part : List Char} {front : Bytes}
    (hsame : whole.flatMap String.utf8EncodeChar =
      front ++ part.flatMap String.utf8EncodeChar) :
    ∃ lead, whole = lead ++ part := by
  induction whole generalizing front with
  | nil =>
      cases part with
      | nil => exact ⟨[], rfl⟩
      | cons first part =>
          obtain ⟨byte, rest, hbytes, _⟩ := exists_head_utf8EncodeChar first
          simp [hbytes] at hsame
  | cons char whole ih =>
      by_cases hfront : front = []
      · refine ⟨[], ?_⟩
        have hstrings : asBytes (String.ofList (char :: whole)) =
            asBytes (String.ofList part) := by
          simpa [asBytes, hfront] using hsame
        have hchars := congrArg String.toList (asBytes_injective hstrings)
        rwa [String.toList_ofList, String.toList_ofList] at hchars
      · rw [List.flatMap_cons, List.append_eq_append_iff] at hsame
        have hsplit : ∃ after, whole.flatMap String.utf8EncodeChar =
            after ++ part.flatMap String.utf8EncodeChar := by
          rcases hsame with ⟨after, _, hafter⟩ | ⟨within, hchar, hpart⟩
          · exact ⟨after, hafter⟩
          · cases within with
            | nil => exact ⟨[], by simpa using hpart.symm⟩
            | cons start within =>
                -- The part would start in the middle of a character.
                cases part with
                | nil => simp at hpart
                | cons first part =>
                    obtain ⟨byte, rest, hbytes, hfirst⟩ :=
                      exists_head_utf8EncodeChar first
                    rw [List.flatMap_cons, hbytes, List.cons_append,
                      List.cons_append, List.cons.injEq] at hpart
                    rw [hpart.1] at hfirst
                    exact absurd hfirst
                      (not_isUTF8FirstByte_of_split hfront hchar)
        obtain ⟨after, hafter⟩ := hsplit
        obtain ⟨lead, hlead⟩ := ih hafter
        exact ⟨char :: lead, by rw [hlead, List.cons_append]⟩

/-- A text that ends the bytes of another one ends its characters. -/
theorem exists_lead_of_asBytes {whole part : String} {front : Bytes}
    (hsame : asBytes whole = front ++ asBytes part) :
    ∃ lead, whole.toList = lead ++ part.toList :=
  exists_lead_of_bytes hsame

/-! ## Little-endian integers -/

/-- The low `count` bytes of a natural number, least significant first. -/
def leBytes : ℕ → ℕ → Bytes
  | 0, _ => []
  | count + 1, value =>
      UInt8.ofNat (value % 256) :: leBytes count (value / 256)

def ofLeBytes : Bytes → ℕ
  | [] => 0
  | byte :: rest => byte.toNat + 256 * ofLeBytes rest

@[simp] theorem length_leBytes (count value : ℕ) :
    (leBytes count value).length = count := by
  induction count generalizing value with
  | zero => rfl
  | succ count ih => simp [leBytes, ih]

theorem ofLeBytes_leBytes (count value : ℕ) :
    ofLeBytes (leBytes count value) = value % 256 ^ count := by
  induction count generalizing value with
  | zero => simp [leBytes, ofLeBytes, Nat.mod_one]
  | succ count ih =>
      have hbyte : (UInt8.ofNat (value % 256)).toNat = value % 256 := by
        simp
      rw [leBytes, ofLeBytes, ih, hbyte, pow_succ', Nat.mod_mul]

/-- `x.to_le_bytes()` of a signed 64-bit integer. -/
def i64ToLeBytes (value : ℤ) : Bytes :=
  leBytes 8 (value % 2 ^ 64).toNat

@[simp] theorem length_i64ToLeBytes (value : ℤ) :
    (i64ToLeBytes value).length = 8 :=
  length_leBytes 8 _

def InI64 (value : ℤ) : Prop := -2 ^ 63 ≤ value ∧ value < 2 ^ 63

instance (value : ℤ) : Decidable (InI64 value) :=
  inferInstanceAs (Decidable (_ ∧ _))

theorem i64ToLeBytes_injOn {left right : ℤ}
    (hleft : InI64 left) (hright : InI64 right)
    (hbytes : i64ToLeBytes left = i64ToLeBytes right) :
    left = right := by
  have hdecode := congrArg ofLeBytes hbytes
  simp only [i64ToLeBytes, ofLeBytes_leBytes] at hdecode
  unfold InI64 at hleft hright
  omega

/-! ## Hexadecimal text -/

def hexDigit (value : ℕ) : Char :=
  if value < 10 then Char.ofNat ('0'.toNat + value)
  else Char.ofNat ('a'.toNat + (value - 10))

def hexPair (byte : UInt8) : List Char :=
  [hexDigit (byte.toNat / 16), hexDigit (byte.toNat % 16)]

/-- `hex::encode`. -/
def hexEncode (bytes : Bytes) : String :=
  String.ofList (bytes.flatMap hexPair)

inductive FromHexError where
  | invalidHexCharacter (byte : UInt8) (index : ℕ)
  | oddLength
  deriving DecidableEq, Repr

/-- The character of a byte as a quoted literal, with its escapes. -/
def debugByte (byte : UInt8) : String :=
  let code := byte.toNat
  let text :=
    if code = 0 then "\\0"
    else if code = 9 then "\\t"
    else if code = 10 then "\\n"
    else if code = 13 then "\\r"
    else if code = 39 then "\\'"
    else if code = 92 then "\\\\"
    else if code < 32 ∨ 127 ≤ code ∧ code < 160 ∨ code = 173 then
      "\\u\x7b" ++ String.ofList (Nat.toDigits 16 code) ++ "\x7d"
    else String.singleton (Char.ofNat code)
  "'" ++ text ++ "'"

def FromHexError.display : FromHexError → String
  | .invalidHexCharacter byte index =>
      "Invalid character " ++ debugByte byte ++ " at position " ++
        toString index
  | .oddLength => "Odd number of digits"

/-- The value of one digit byte, which stands at `index` of the input. -/
def hexValue (byte : UInt8) (index : ℕ) : Except FromHexError ℕ :=
  if 65 ≤ byte.toNat ∧ byte.toNat ≤ 70 then .ok (byte.toNat - 65 + 10)
  else if 97 ≤ byte.toNat ∧ byte.toNat ≤ 102 then .ok (byte.toNat - 97 + 10)
  else if 48 ≤ byte.toNat ∧ byte.toNat ≤ 57 then .ok (byte.toNat - 48)
  else .error (.invalidHexCharacter byte index)

def hexDecodePairs : ℕ → Bytes → Except FromHexError Bytes
  | index, high :: low :: rest => do
      let highValue ← hexValue high index
      let lowValue ← hexValue low (index + 1)
      let tail ← hexDecodePairs (index + 2) rest
      .ok (UInt8.ofNat (highValue * 16 + lowValue) :: tail)
  | _, _ => .ok []

/-- `hex::decode`: an odd number of digits is reported before any digit. -/
def hexDecode (text : String) : Except FromHexError Bytes :=
  if (asBytes text).length % 2 ≠ 0 then .error .oddLength
  else hexDecodePairs 0 (asBytes text)

private theorem utf8EncodeChar_hexDigit {value : ℕ} (hvalue : value < 16) :
    ∃ byte, String.utf8EncodeChar (hexDigit value) = [byte] ∧
      ∀ index, hexValue byte index = .ok value := by
  interval_cases value <;> exact ⟨_, rfl, fun _ => rfl⟩

private theorem flatMap_hexPair (bytes : Bytes) :
    ∃ digits : Bytes,
      (bytes.flatMap hexPair).flatMap String.utf8EncodeChar = digits ∧
        digits.length % 2 = 0 ∧
        ∀ index, hexDecodePairs index digits = .ok bytes := by
  induction bytes with
  | nil => exact ⟨[], rfl, rfl, fun _ => rfl⟩
  | cons byte rest ih =>
      obtain ⟨digits, hdigits, heven, hdecode⟩ := ih
      have hhighLt : byte.toNat / 16 < 16 := by
        have := byte.toNat_lt
        omega
      have hlowLt : byte.toNat % 16 < 16 := by omega
      obtain ⟨high, hhigh, hhighValue⟩ := utf8EncodeChar_hexDigit hhighLt
      obtain ⟨low, hlow, hlowValue⟩ := utf8EncodeChar_hexDigit hlowLt
      refine ⟨high :: low :: digits, ?_, ?_, ?_⟩
      · simp only [List.flatMap_cons, hexPair, List.flatMap_append,
          List.flatMap_nil, hhigh, hlow, hdigits]
        rfl
      · simp only [List.length_cons]
        omega
      · intro index
        have hjoin : byte.toNat / 16 * 16 + byte.toNat % 16 = byte.toNat := by
          omega
        simp only [hexDecodePairs, hhighValue, hlowValue, hdecode,
          Bind.bind, Except.bind, hjoin, UInt8.ofNat_toNat]

@[simp] theorem hexDecode_hexEncode (bytes : Bytes) :
    hexDecode (hexEncode bytes) = .ok bytes := by
  obtain ⟨digits, hdigits, heven, hdecode⟩ := flatMap_hexPair bytes
  have htext : asBytes (hexEncode bytes) = digits := by
    simpa [asBytes, hexEncode] using hdigits
  simp [hexDecode, htext, heven, hdecode]

end Acdp
