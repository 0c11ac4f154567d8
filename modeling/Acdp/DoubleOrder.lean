import Acdp.BinaryDoubles

/-!
# The order of binary floating-point numbers

Among numbers of one sign the order is that of their bits.  The key of a
number puts all of them, and the infinities, in one order; on finite numbers
it is the order of the values.
-/

namespace Acdp
namespace Double

def isNaN (bits : UInt64) : Bool :=
  exponent bits = 2047 && fraction bits ≠ 0

/-- The bits but for the sign, with the sign of the number. -/
def key (bits : UInt64) : ℤ :=
  if bits.toNat < 2 ^ 63 then bits.toNat else -(bits.toNat - 2 ^ 63 : ℤ)

/-- The absolute value of the number of an exponent and a fraction. -/
def magnitudeOf (exponent fraction : ℕ) : ℚ :=
  if exponent = 0 then (fraction : ℚ) / 2 ^ 1074
  else (2 ^ 52 + fraction : ℚ) * 2 ^ exponent / 2 ^ 1075

theorem magnitude_eq (bits : UInt64) :
    magnitude bits = magnitudeOf (exponent bits) (fraction bits) := by
  unfold magnitude magnitudeOf
  split_ifs with hzero hsmall
  · rfl
  · have hpow : (2 : ℚ) ^ 1075 =
        2 ^ (1075 - exponent bits) * 2 ^ exponent bits := by
      rw [← pow_add, Nat.sub_add_cancel hsmall.le]
    rw [hpow, mul_div_mul_right _ _ (by positivity)]
  · have hpow : (2 : ℚ) ^ exponent bits =
        2 ^ (exponent bits - 1075) * 2 ^ 1075 := by
      rw [← pow_add, Nat.sub_add_cancel (by omega)]
    rw [hpow, ← mul_assoc, mul_div_cancel_right₀ _ (by positivity)]

/-- The absolute value goes up with the bits. -/
theorem magnitudeOf_strictMono :
    StrictMono (fun n : ℕ => magnitudeOf (n / 2 ^ 52) (n % 2 ^ 52)) := by
  apply strictMono_nat_of_lt_succ
  intro n
  have hlt : n % 2 ^ 52 < 2 ^ 52 := Nat.mod_lt _ (by positivity)
  by_cases hcarry : n % 2 ^ 52 = 2 ^ 52 - 1
  · have hexponent : (n + 1) / 2 ^ 52 = n / 2 ^ 52 + 1 := by omega
    have hfraction : (n + 1) % 2 ^ 52 = 0 := by omega
    have hcast : ((n % 2 ^ 52 : ℕ) : ℚ) = 2 ^ 52 - 1 := by
      rw [hcarry]
      norm_num
    simp only [hexponent, hfraction, magnitudeOf, hcast,
      Nat.add_eq_zero_iff, one_ne_zero, and_false, if_false, Nat.cast_zero,
      add_zero]
    split_ifs with hzero
    · have hbig : (0 : ℚ) < 2 ^ 1074 := by positivity
      rw [hzero, zero_add, pow_one, pow_succ (2 : ℚ) 1074,
        mul_div_mul_right _ _ two_ne_zero,
        div_lt_div_iff_of_pos_right hbig]
      linarith
    · rw [pow_succ (2 : ℚ) (n / 2 ^ 52),
        div_lt_div_iff_of_pos_right (by positivity)]
      have hpos : (0 : ℚ) < 2 ^ (n / 2 ^ 52) := by positivity
      linarith
  · have hexponent : (n + 1) / 2 ^ 52 = n / 2 ^ 52 := by omega
    have hfraction : (n + 1) % 2 ^ 52 = n % 2 ^ 52 + 1 := by omega
    simp only [hexponent, hfraction, magnitudeOf, Nat.cast_add, Nat.cast_one]
    split_ifs with hzero
    · exact div_lt_div_of_pos_right (lt_add_one _) (by positivity)
    · rw [div_lt_div_iff_of_pos_right (by positivity),
        mul_lt_mul_iff_left₀ (by positivity)]
      linarith

theorem magnitude_eq_of_lt {bits : UInt64} (hsign : bits.toNat < 2 ^ 63) :
    magnitude bits =
      magnitudeOf (bits.toNat / 2 ^ 52) (bits.toNat % 2 ^ 52) := by
  have hexponent : exponent bits = bits.toNat / 2 ^ 52 := by
    unfold exponent
    omega
  rw [magnitude_eq, hexponent]
  rfl

theorem magnitude_eq_of_le {bits : UInt64} (hsign : 2 ^ 63 ≤ bits.toNat) :
    magnitude bits =
      magnitudeOf ((bits.toNat - 2 ^ 63) / 2 ^ 52)
        ((bits.toNat - 2 ^ 63) % 2 ^ 52) := by
  have hbound : bits.toNat < 2 ^ 64 := bits.toNat_lt
  have hexponent : exponent bits = (bits.toNat - 2 ^ 63) / 2 ^ 52 := by
    unfold exponent
    omega
  have hfraction : fraction bits = (bits.toNat - 2 ^ 63) % 2 ^ 52 := by
    unfold fraction
    omega
  rw [magnitude_eq, hexponent, hfraction]

/-- The value is a strictly increasing function of the key. -/
def valueOf (key : ℤ) : ℚ :=
  key.sign * magnitudeOf (key.natAbs / 2 ^ 52) (key.natAbs % 2 ^ 52)

theorem toRat?_eq_valueOf {bits : UInt64} {value : ℚ}
    (hvalue : toRat? bits = some value) : value = valueOf (key bits) := by
  have hzero : magnitudeOf 0 0 = 0 := by simp [magnitudeOf]
  unfold toRat? at hvalue
  split_ifs at hvalue with hfinite hsign
  · rw [Option.some.injEq] at hvalue
    rw [← hvalue, magnitude_eq_of_lt hsign, valueOf, key, if_pos hsign,
      Int.natAbs_natCast]
    rcases Nat.eq_zero_or_pos bits.toNat with hbits | hbits
    · rw [hbits, Nat.zero_div, Nat.zero_mod, hzero, mul_zero]
    · rw [Int.sign_natCast_of_ne_zero hbits.ne', Int.cast_one, one_mul]
  · rw [Option.some.injEq] at hvalue
    have hle : 2 ^ 63 ≤ bits.toNat := by omega
    have hkey : key bits = -((bits.toNat - 2 ^ 63 : ℕ) : ℤ) := by
      rw [key, if_neg hsign]
      omega
    rw [← hvalue, magnitude_eq_of_le hle, valueOf, hkey, Int.natAbs_neg,
      Int.natAbs_natCast, Int.sign_neg]
    rcases Nat.eq_zero_or_pos (bits.toNat - 2 ^ 63) with hbits | hbits
    · rw [hbits, Nat.zero_div, Nat.zero_mod, hzero, neg_zero, mul_zero]
    · rw [Int.sign_natCast_of_ne_zero hbits.ne']
      simp

theorem magnitudeOf_pos {n : ℕ} (hpos : 0 < n) :
    0 < magnitudeOf (n / 2 ^ 52) (n % 2 ^ 52) := by
  have hless := magnitudeOf_strictMono hpos
  simpa [magnitudeOf] using hless

theorem valueOf_strictMono : StrictMono valueOf := by
  intro left right hless
  have hmono : ∀ {m n : ℕ}, m < n →
      magnitudeOf (m / 2 ^ 52) (m % 2 ^ 52) <
        magnitudeOf (n / 2 ^ 52) (n % 2 ^ 52) :=
    fun hlt => magnitudeOf_strictMono hlt
  have hpositive : ∀ {n : ℤ}, 0 < n →
      valueOf n = magnitudeOf (n.natAbs / 2 ^ 52) (n.natAbs % 2 ^ 52) := by
    intro n hn
    rw [valueOf, Int.sign_eq_one_of_pos hn, Int.cast_one, one_mul]
  have hnegative : ∀ {n : ℤ}, n < 0 →
      valueOf n = -magnitudeOf (n.natAbs / 2 ^ 52) (n.natAbs % 2 ^ 52) := by
    intro n hn
    rw [valueOf, Int.sign_eq_neg_one_of_neg hn]
    simp
  have hnone : valueOf 0 = 0 := by simp [valueOf]
  rcases lt_trichotomy left 0 with hleft | rfl | hleft
  · rw [hnegative hleft]
    have hsize := magnitudeOf_pos (Int.natAbs_pos.mpr hleft.ne)
    rcases lt_trichotomy right 0 with hright | rfl | hright
    · rw [hnegative hright]
      exact neg_lt_neg (hmono (by omega))
    · rw [hnone]
      exact neg_neg_of_pos hsize
    · rw [hpositive hright]
      have hother := magnitudeOf_pos (Int.natAbs_pos.mpr hright.ne')
      linarith
  · rw [hnone, hpositive hless]
    exact magnitudeOf_pos (Int.natAbs_pos.mpr hless.ne')
  · rw [hpositive hleft, hpositive (hleft.trans hless)]
    exact hmono (by omega)

/-- On finite numbers the keys are ordered as the values. -/
theorem key_le_key_iff {left right : UInt64} {first second : ℚ}
    (hleft : toRat? left = some first) (hright : toRat? right = some second) :
    key left ≤ key right ↔ first ≤ second := by
  rw [toRat?_eq_valueOf hleft, toRat?_eq_valueOf hright,
    valueOf_strictMono.le_iff_le]

end Double
end Acdp
