import Acdp.Base64

/-!
# Building transports: the credentials of basic authentication

The encoder of the factory walks over the input three bytes at a time, packs
them into 24 bits with zeros for the bytes that are missing, and reads the
four groups of six bits off again.
-/

namespace Acdp
namespace Core

def CHARSET : List Char :=
  "ABCDEFGHIJKLMNOPQRSTUVWXYZabcdefghijklmnopqrstuvwxyz0123456789+/".toList

/-- Three bytes side by side. -/
def combined (byte1 byte2 byte3 : UInt8) : UInt32 :=
  byte1.toUInt32 <<< 16 ||| byte2.toUInt32 <<< 8 ||| byte3.toUInt32

/-- The body of the loop, with the four characters it pushes; `none` where an
index is out of range. -/
def base64Group (input : Bytes) (i : ℕ) : Option (List Char) := do
  let byte1 ← input[i]?
  let byte2 ← if i + 1 < input.length then input[i + 1]? else some 0
  let byte3 ← if i + 2 < input.length then input[i + 2]? else some 0
  let combined := combined byte1 byte2 byte3
  let char1 ← CHARSET[(combined >>> 18 &&& 0x3F).toNat]?
  let char2 ← CHARSET[(combined >>> 12 &&& 0x3F).toNat]?
  let char3 ←
    if i + 1 < input.length then CHARSET[(combined >>> 6 &&& 0x3F).toNat]?
    else some '='
  let char4 ←
    if i + 2 < input.length then CHARSET[(combined &&& 0x3F).toNat]?
    else some '='
  some [char1, char2, char3, char4]

def base64EncodeFrom (input : Bytes) (result : List Char) (i : ℕ) :
    Option (List Char) :=
  if hi : i < input.length then do
    let group ← base64Group input i
    base64EncodeFrom input (result ++ group) (i + 3)
  else some result
  termination_by input.length - i

def base64Encode (input : Bytes) : Option String :=
  (base64EncodeFrom input [] 0).map String.ofList

/-! ## The loop is the encoding -/

theorem charset_eq_alphabet : CHARSET = Base64.alphabet := by decide

theorem toNat_combined (a b c : UInt8) :
    (combined a b c).toNat = a.toNat * 65536 + b.toNat * 256 + c.toNat := by
  have ha := a.toNat_lt
  have hb := b.toNat_lt
  have hc := c.toNat_lt
  have hhigh : (a.toUInt32 <<< 16).toNat = a.toNat <<< 16 := by
    rw [UInt32.toNat_shiftLeft, UInt8.toNat_toUInt32]
    change a.toNat <<< 16 % 2 ^ 32 = _
    rw [Nat.shiftLeft_eq]
    omega
  have hmiddle : (b.toUInt32 <<< 8).toNat = b.toNat <<< 8 := by
    rw [UInt32.toNat_shiftLeft, UInt8.toNat_toUInt32]
    change b.toNat <<< 8 % 2 ^ 32 = _
    rw [Nat.shiftLeft_eq]
    omega
  have hlow : b.toNat <<< 8 ||| c.toNat = b.toNat <<< 8 + c.toNat := by
    exact (Nat.shiftLeft_add_eq_or_of_lt hc b.toNat).symm
  have hbelow : b.toNat <<< 8 + c.toNat < 2 ^ 16 := by
    rw [Nat.shiftLeft_eq]
    omega
  rw [combined, UInt32.toNat_or, UInt32.toNat_or, hhigh, hmiddle,
    UInt8.toNat_toUInt32, Nat.or_assoc, hlow,
    ← Nat.shiftLeft_add_eq_or_of_lt hbelow, Nat.shiftLeft_eq,
    Nat.shiftLeft_eq]
  omega

theorem toNat_and_sextet (word : UInt32) :
    (word &&& 0x3F).toNat = word.toNat % 64 := by
  rw [UInt32.toNat_and]
  exact Nat.and_two_pow_sub_one_eq_mod word.toNat 6

section Groups

variable (a b c : UInt8)

theorem group1_eq :
    (combined a b c >>> 18 &&& 0x3F).toNat = a.toNat / 4 := by
  have ha := a.toNat_lt
  have hb := b.toNat_lt
  have hc := c.toNat_lt
  rw [toNat_and_sextet, UInt32.toNat_shiftRight, toNat_combined]
  change _ >>> 18 % 64 = _
  rw [Nat.shiftRight_eq_div_pow]
  omega

theorem group2_eq :
    (combined a b c >>> 12 &&& 0x3F).toNat =
      a.toNat % 4 * 16 + b.toNat / 16 := by
  have hb := b.toNat_lt
  have hc := c.toNat_lt
  rw [toNat_and_sextet, UInt32.toNat_shiftRight, toNat_combined]
  change _ >>> 12 % 64 = _
  rw [Nat.shiftRight_eq_div_pow]
  omega

theorem group3_eq :
    (combined a b c >>> 6 &&& 0x3F).toNat =
      b.toNat % 16 * 4 + c.toNat / 64 := by
  have hc := c.toNat_lt
  rw [toNat_and_sextet, UInt32.toNat_shiftRight, toNat_combined]
  change _ >>> 6 % 64 = _
  rw [Nat.shiftRight_eq_div_pow]
  omega

theorem group4_eq : (combined a b c &&& 0x3F).toNat = c.toNat % 64 := by
  rw [toNat_and_sextet, toNat_combined]
  omega

end Groups

theorem getElem?_charset {n : ℕ} (hn : n < 64) :
    CHARSET[n]? = some (Base64.symbol n) := by
  rw [charset_eq_alphabet]
  exact Base64.getElem?_alphabet hn

/-- What is left of the input from `i` on, against the bytes of the turn. -/
theorem getElem?_of_drop_eq {input rest : Bytes} {i : ℕ}
    (hrest : input.drop i = rest) (j : ℕ) : input[i + j]? = rest[j]? := by
  rw [← hrest, List.getElem?_drop]

theorem lt_length_iff_of_drop_eq {input rest : Bytes} {i : ℕ}
    (hrest : input.drop i = rest) (j : ℕ) :
    i + j < input.length ↔ j < rest.length := by
  rw [← hrest, List.length_drop]
  omega

/-! What one turn pushes, by how much of the input is left. -/

section Turn

variable {input rest : Bytes} {i : ℕ} (a b c : UInt8)

theorem base64Group_one (hrest : input.drop i = [a]) :
    base64Group input i = some (Base64.encode [a]) := by
  have hat : input[i]? = some a := getElem?_of_drop_eq hrest 0
  have hone : ¬ i + 1 < input.length := by
    simp [lt_length_iff_of_drop_eq hrest 1]
  have htwo : ¬ i + 2 < input.length := by
    simp [lt_length_iff_of_drop_eq hrest 2]
  simp only [base64Group, hat, Option.bind_eq_bind, Option.bind_some,
    if_neg hone, if_neg htwo, group1_eq, group2_eq, UInt8.toNat_zero,
    Nat.zero_div, Nat.add_zero, getElem?_charset (Base64.first_lt a),
    getElem?_charset (Base64.secondLast_lt a)]
  rfl

theorem base64Group_two (hrest : input.drop i = [a, b]) :
    base64Group input i = some (Base64.encode [a, b]) := by
  have hat : input[i]? = some a := getElem?_of_drop_eq hrest 0
  have hat1 : input[i + 1]? = some b := getElem?_of_drop_eq hrest 1
  have hone : i + 1 < input.length := by
    simp [lt_length_iff_of_drop_eq hrest 1]
  have htwo : ¬ i + 2 < input.length := by
    simp [lt_length_iff_of_drop_eq hrest 2]
  simp only [base64Group, hat, hat1, Option.bind_eq_bind, Option.bind_some,
    if_pos hone, if_neg htwo, group1_eq, group2_eq, group3_eq,
    UInt8.toNat_zero, Nat.zero_div, Nat.add_zero,
    getElem?_charset (Base64.first_lt a),
    getElem?_charset (Base64.second_lt a b),
    getElem?_charset (Base64.thirdLast_lt b)]
  rfl

theorem base64Group_three (hrest : input.drop i = a :: b :: c :: rest) :
    base64Group input i =
      some [Base64.symbol (a.toNat / 4),
        Base64.symbol (a.toNat % 4 * 16 + b.toNat / 16),
        Base64.symbol (b.toNat % 16 * 4 + c.toNat / 64),
        Base64.symbol (c.toNat % 64)] := by
  have hat : input[i]? = some a := getElem?_of_drop_eq hrest 0
  have hat1 : input[i + 1]? = some b := getElem?_of_drop_eq hrest 1
  have hat2 : input[i + 2]? = some c := getElem?_of_drop_eq hrest 2
  have hone : i + 1 < input.length := by
    simp [lt_length_iff_of_drop_eq hrest 1]
  have htwo : i + 2 < input.length := by
    simp [lt_length_iff_of_drop_eq hrest 2]
  simp only [base64Group, hat, hat1, hat2, Option.bind_eq_bind,
    Option.bind_some, if_pos hone, if_pos htwo, group1_eq, group2_eq,
    group3_eq, group4_eq, getElem?_charset (Base64.first_lt a),
    getElem?_charset (Base64.second_lt a b),
    getElem?_charset (Base64.third_lt b c),
    getElem?_charset (Base64.fourth_lt c)]

end Turn

theorem base64EncodeFrom_of_le {input : Bytes} {result : List Char} {i : ℕ}
    (hi : input.length ≤ i) :
    base64EncodeFrom input result i = some result := by
  rw [base64EncodeFrom, dif_neg (Nat.not_lt.mpr hi)]

theorem base64EncodeFrom_eq_of_group {input : Bytes} {result group : List Char}
    {i : ℕ} (hi : i < input.length) (hgroup : base64Group input i = some group) :
    base64EncodeFrom input result i =
      base64EncodeFrom input (result ++ group) (i + 3) := by
  rw [base64EncodeFrom, dif_pos hi, hgroup, Option.bind_eq_bind,
    Option.bind_some]

theorem base64EncodeFrom_eq (input : Bytes) (result : List Char) (i : ℕ) :
    base64EncodeFrom input result i =
      some (result ++ Base64.encode (input.drop i)) := by
  generalize hrest : input.drop i = rest
  have hlength : input.length - i = rest.length := by
    rw [← hrest, List.length_drop]
  induction rest using Base64.encode.induct generalizing result i with
  | case1 =>
      have hi : input.length ≤ i := Nat.sub_eq_zero_iff_le.mp hlength
      rw [base64EncodeFrom_of_le hi, Base64.encode, List.append_nil]
  | case2 a =>
      rw [List.length_singleton] at hlength
      rw [base64EncodeFrom_eq_of_group (by omega) (base64Group_one a hrest),
        base64EncodeFrom_of_le (by omega)]
  | case3 a b =>
      rw [List.length_cons, List.length_singleton] at hlength
      rw [base64EncodeFrom_eq_of_group (by omega) (base64Group_two a b hrest),
        base64EncodeFrom_of_le (by omega)]
  | case4 a b c rest ih =>
      simp only [List.length_cons] at hlength
      have hnext : input.drop (i + 3) = rest := by
        rw [← List.drop_drop, hrest]
        rfl
      rw [base64EncodeFrom_eq_of_group (by omega)
        (base64Group_three a b c hrest), ih _ _ hnext (by omega)]
      simp [Base64.encode]

theorem base64Encode_eq (input : Bytes) :
    base64Encode input = some (String.ofList (Base64.encode input)) := by
  rw [base64Encode, base64EncodeFrom_eq, List.drop_zero]
  rfl

/-- The text has four characters for every three bytes begun, the last of
them padding where bytes are missing, and it is decoded to the input, so that
no two inputs have the same text. -/
theorem base64_encode_follows_rfc4648 (input : Bytes) :
    ∃ text, base64Encode input = some text ∧
      text.length = 4 * ((input.length + 2) / 3) ∧
      (∃ body, (∀ char ∈ body, char ∈ Base64.alphabet) ∧
        text.toList = body ++
          List.replicate (Base64.paddingLength input.length) '=') ∧
      Base64.decode text.toList = some input ∧
      ∀ other, base64Encode other = some text → other = input := by
  refine ⟨_, base64Encode_eq input, ?_, ?_, ?_, ?_⟩
  · rw [String.length_ofList, Base64.length_encode]
  · rw [String.toList_ofList]
    exact Base64.exists_encode_eq_append input
  · rw [String.toList_ofList]
    exact Base64.decode_encode input
  · intro other hother
    rw [base64Encode_eq, Option.some.injEq] at hother
    exact Base64.encode_injective (String.ofList_injective hother)

end Core
end Acdp
