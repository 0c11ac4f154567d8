import Acdp.ByteStrings

/-!
# Base64

The standard alphabet of RFC 4648 and its two directions.  Three bytes are
four groups of six bits; a last group of one or two bytes is filled up with
zero bits and marked by padding.  The decoder takes padded text only, with the
padding at the end and the filled bits zero.
-/

namespace Acdp
namespace Base64

def alphabet : List Char :=
  ['A', 'B', 'C', 'D', 'E', 'F', 'G', 'H', 'I', 'J', 'K', 'L', 'M', 'N', 'O',
    'P', 'Q', 'R', 'S', 'T', 'U', 'V', 'W', 'X', 'Y', 'Z', 'a', 'b', 'c', 'd',
    'e', 'f', 'g', 'h', 'i', 'j', 'k', 'l', 'm', 'n', 'o', 'p', 'q', 'r', 's',
    't', 'u', 'v', 'w', 'x', 'y', 'z', '0', '1', '2', '3', '4', '5', '6', '7',
    '8', '9', '+', '/']

def symbol (sextet : ℕ) : Char := alphabet.getD sextet '='

def sextet (char : Char) : Option ℕ := alphabet.idxOf? char

theorem getElem?_alphabet {n : ℕ} (hn : n < 64) :
    alphabet[n]? = some (symbol n) := by
  have hlength : n < alphabet.length := hn
  simp [symbol, List.getD, List.getElem?_eq_getElem hlength]

theorem symbol_mem {n : ℕ} (hn : n < 64) : symbol n ∈ alphabet :=
  List.mem_of_getElem? (getElem?_alphabet hn)

theorem sextet_symbol {n : ℕ} (hn : n < 64) :
    sextet (symbol n) = some n := by
  have hall : ∀ k : Fin 64, sextet (symbol k) = some k.val := by decide
  exact hall ⟨n, hn⟩

theorem symbol_ne_padding {n : ℕ} (hn : n < 64) : symbol n ≠ '=' := by
  have habsent : '=' ∉ alphabet := by decide
  exact fun hpadding => habsent (hpadding ▸ symbol_mem hn)

/-! ## Encoding -/

def encode : Bytes → List Char
  | [] => []
  | [a] => [symbol (a.toNat / 4), symbol (a.toNat % 4 * 16), '=', '=']
  | [a, b] =>
      [symbol (a.toNat / 4), symbol (a.toNat % 4 * 16 + b.toNat / 16),
        symbol (b.toNat % 16 * 4), '=']
  | a :: b :: c :: rest =>
      symbol (a.toNat / 4) :: symbol (a.toNat % 4 * 16 + b.toNat / 16) ::
        symbol (b.toNat % 16 * 4 + c.toNat / 64) :: symbol (c.toNat % 64) ::
        encode rest

/-- How many characters of padding end the text of `n` bytes. -/
def paddingLength (n : ℕ) : ℕ := (3 - n % 3) % 3

theorem length_encode (bytes : Bytes) :
    (encode bytes).length = 4 * ((bytes.length + 2) / 3) := by
  induction bytes using encode.induct with
  | case1 => rfl
  | case2 a => simp [encode]
  | case3 a b => simp [encode]
  | case4 a b c rest ih =>
      simp only [encode, List.length_cons, ih]
      omega

section Shape

variable (a b c : UInt8)

/-! The six-bit groups are below 64. -/

theorem first_lt : a.toNat / 4 < 64 := by
  have ha := a.toNat_lt
  omega

theorem second_lt : a.toNat % 4 * 16 + b.toNat / 16 < 64 := by
  have hb := b.toNat_lt
  omega

theorem secondLast_lt : a.toNat % 4 * 16 < 64 := by omega

theorem third_lt : b.toNat % 16 * 4 + c.toNat / 64 < 64 := by
  have hc := c.toNat_lt
  omega

theorem thirdLast_lt : b.toNat % 16 * 4 < 64 := by omega

theorem fourth_lt : c.toNat % 64 < 64 := Nat.mod_lt _ (by omega)

end Shape

theorem exists_encode_eq_append (bytes : Bytes) :
    ∃ body, (∀ char ∈ body, char ∈ alphabet) ∧
      encode bytes =
        body ++ List.replicate (paddingLength bytes.length) '=' := by
  induction bytes using encode.induct with
  | case1 => exact ⟨[], by simp, rfl⟩
  | case2 a =>
      refine ⟨[symbol (a.toNat / 4), symbol (a.toNat % 4 * 16)], ?_, rfl⟩
      simp [symbol_mem (first_lt a), symbol_mem (secondLast_lt a)]
  | case3 a b =>
      refine ⟨[symbol (a.toNat / 4),
        symbol (a.toNat % 4 * 16 + b.toNat / 16),
        symbol (b.toNat % 16 * 4)], ?_, rfl⟩
      simp [symbol_mem (first_lt a), symbol_mem (second_lt a b),
        symbol_mem (thirdLast_lt b)]
  | case4 a b c rest ih =>
      obtain ⟨body, hbody, hrest⟩ := ih
      refine ⟨symbol (a.toNat / 4) ::
        symbol (a.toNat % 4 * 16 + b.toNat / 16) ::
        symbol (b.toNat % 16 * 4 + c.toNat / 64) ::
        symbol (c.toNat % 64) :: body, ?_, ?_⟩
      · simp only [List.mem_cons, forall_eq_or_imp]
        exact ⟨symbol_mem (first_lt a), symbol_mem (second_lt a b),
          symbol_mem (third_lt b c), symbol_mem (fourth_lt c), hbody⟩
      · have hpadding : paddingLength (a :: b :: c :: rest).length =
            paddingLength rest.length := by
          simp only [paddingLength, List.length_cons]
          omega
        rw [hpadding, encode, hrest]
        rfl

/-! ## Decoding -/

/-- Four characters of text, the last ones if nothing follows them. -/
def decode : List Char → Option Bytes
  | [] => some []
  | w :: x :: y :: z :: rest =>
      if z = '=' then
        if rest.isEmpty then
          if y = '=' then do
            let first ← sextet w
            let second ← sextet x
            if second % 16 = 0 then
              some [UInt8.ofNat (first * 4 + second / 16)]
            else none
          else do
            let first ← sextet w
            let second ← sextet x
            let third ← sextet y
            if third % 4 = 0 then
              some [UInt8.ofNat (first * 4 + second / 16),
                UInt8.ofNat (second % 16 * 16 + third / 4)]
            else none
        else none
      else do
        let first ← sextet w
        let second ← sextet x
        let third ← sextet y
        let fourth ← sextet z
        let bytes ← decode rest
        some (UInt8.ofNat (first * 4 + second / 16) ::
          UInt8.ofNat (second % 16 * 16 + third / 4) ::
          UInt8.ofNat (third % 4 * 64 + fourth) :: bytes)
  | _ => none

theorem ofNat_eq {n : ℕ} {byte : UInt8} (hn : n = byte.toNat) :
    UInt8.ofNat n = byte := by
  rw [hn]
  exact UInt8.ofNat_toNat

theorem decode_encode (bytes : Bytes) :
    decode (encode bytes) = some bytes := by
  induction bytes using encode.induct with
  | case1 => rfl
  | case2 a =>
      have hfirst : a.toNat / 4 * 4 + a.toNat % 4 * 16 / 16 = a.toNat := by
        omega
      have hzero : a.toNat % 4 * 16 % 16 = 0 := by omega
      simp only [encode, decode, List.isEmpty_nil, if_true,
        sextet_symbol (first_lt a), sextet_symbol (secondLast_lt a),
        Option.bind_eq_bind, Option.bind_some, hzero, ofNat_eq hfirst]
  | case3 a b =>
      have hsecond := second_lt a b
      have hfirst : a.toNat / 4 * 4 +
          (a.toNat % 4 * 16 + b.toNat / 16) / 16 = a.toNat := by
        have hb := b.toNat_lt
        omega
      have hlast : (a.toNat % 4 * 16 + b.toNat / 16) % 16 * 16 +
          b.toNat % 16 * 4 / 4 = b.toNat := by
        have hb := b.toNat_lt
        omega
      have hzero : b.toNat % 16 * 4 % 4 = 0 := by omega
      simp only [encode, decode, List.isEmpty_nil, if_true,
        if_neg (symbol_ne_padding (thirdLast_lt b)),
        sextet_symbol (first_lt a), sextet_symbol hsecond,
        sextet_symbol (thirdLast_lt b), Option.bind_eq_bind,
        Option.bind_some, hzero, ofNat_eq hfirst, ofNat_eq hlast]
  | case4 a b c rest ih =>
      have hb := b.toNat_lt
      have hc := c.toNat_lt
      have hfirst : a.toNat / 4 * 4 +
          (a.toNat % 4 * 16 + b.toNat / 16) / 16 = a.toNat := by omega
      have hsecond : (a.toNat % 4 * 16 + b.toNat / 16) % 16 * 16 +
          (b.toNat % 16 * 4 + c.toNat / 64) / 4 = b.toNat := by omega
      have hthird : (b.toNat % 16 * 4 + c.toNat / 64) % 4 * 64 +
          c.toNat % 64 = c.toNat := by omega
      simp only [encode, decode, if_neg (symbol_ne_padding (fourth_lt c)),
        sextet_symbol (first_lt a), sextet_symbol (second_lt a b),
        sextet_symbol (third_lt b c), sextet_symbol (fourth_lt c), ih,
        Option.bind_eq_bind, Option.bind_some, ofNat_eq hfirst,
        ofNat_eq hsecond, ofNat_eq hthird]

theorem encode_injective : Function.Injective encode := by
  intro left right htext
  have hdecoded := decode_encode left
  rw [htext, decode_encode] at hdecoded
  exact (Option.some.inj hdecoded).symm

end Base64
end Acdp
