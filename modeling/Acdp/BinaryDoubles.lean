import Mathlib.Data.Rat.Floor
import Mathlib.Tactic

/-!
# The values of binary floating-point numbers

A finite number of 64 bits stands for a rational number, and an integer is
rounded to the nearest number of 53 significant bits.  A finite number has no
fractional part exactly when its value is an integer.
-/

namespace Acdp
namespace Double

def fraction (bits : UInt64) : ℕ := bits.toNat % 2 ^ 52

def exponent (bits : UInt64) : ℕ := bits.toNat / 2 ^ 52 % 2 ^ 11

/-- The absolute value; numbers of the least exponent have no leading one. -/
def magnitude (bits : UInt64) : ℚ :=
  if exponent bits = 0 then (fraction bits : ℚ) / 2 ^ 1074
  else if exponent bits < 1075 then
    (2 ^ 52 + fraction bits : ℚ) / 2 ^ (1075 - exponent bits)
  else (2 ^ 52 + fraction bits : ℚ) * 2 ^ (exponent bits - 1075)

/-- The value; `none` where the bits stand for no number or an infinity. -/
def toRat? (bits : UInt64) : Option ℚ :=
  if exponent bits = 2047 then none
  else if bits.toNat < 2 ^ 63 then some (magnitude bits)
  else some (-magnitude bits)

/-- The nearest number of 53 significant bits; of two, the even one. -/
def roundNat (n : ℕ) : ℕ :=
  let unit := 2 ^ (n.log2 - 52)
  let below := n / unit
  let rest := n % unit
  if unit < 2 * rest ∨ (unit = 2 * rest ∧ below % 2 = 1) then
    (below + 1) * unit
  else below * unit

/-- An integer as a floating-point number. -/
def roundInt (n : ℤ) : ℤ := n.sign * roundNat n.natAbs

/-- `f64::trunc`. -/
def trunc (value : ℚ) : ℤ := if 0 ≤ value then ⌊value⌋ else ⌈value⌉

/-- `f64::fract`. -/
def fract (value : ℚ) : ℚ := value - trunc value

theorem fract_intCast (n : ℤ) : fract n = 0 := by
  unfold fract trunc
  split_ifs <;> simp

theorem fract_eq_zero_iff {value : ℚ} :
    fract value = 0 ↔ ∃ n : ℤ, value = n := by
  constructor
  · intro hzero
    exact ⟨trunc value, sub_eq_zero.mp hzero⟩
  · rintro ⟨n, rfl⟩
    exact fract_intCast n

/-- One and a half, and the least odd integer that is no such number. -/
example : toRat? 0x3FF8000000000000 = some (3 / 2) ∧
    roundInt (-(2 ^ 53 + 1)) = -2 ^ 53 := by decide +kernel

end Double
end Acdp
