import Mathlib

/-!
# Decimal texts of integers

The text of an integer consists of decimal digits behind an optional minus
sign.
-/

namespace Acdp
namespace IntegerText

def isNumeral (char : Char) : Bool := char.isDigit || char == '-'

theorem isNumeral_of_mem_nat {n : ℕ} {char : Char}
    (hmem : char ∈ n.repr.toList) : isNumeral char = true := by
  rw [Nat.toList_repr] at hmem
  have hdigit : char.isDigit = true :=
    Nat.isDigit_of_mem_toDigits (by decide) (by decide) hmem
  simp [isNumeral, hdigit]

theorem isNumeral_of_mem {value : ℤ} {char : Char}
    (hmem : char ∈ value.repr.toList) : isNumeral char = true := by
  rw [Int.repr_eq_if] at hmem
  by_cases hnonneg : 0 ≤ value
  · rw [if_pos hnonneg] at hmem
    exact isNumeral_of_mem_nat hmem
  · rw [if_neg hnonneg, String.toList_append, List.mem_append] at hmem
    rcases hmem with hsign | hdigit
    · have hminus : char = '-' := by simpa using hsign
      simp [isNumeral, hminus]
    · exact isNumeral_of_mem_nat hdigit

theorem repr_ne (value : ℤ) {text : String} (char : Char)
    (hmem : char ∈ text.toList) (hchar : isNumeral char = false) :
    value.repr ≠ text := by
  intro heq
  rw [← heq] at hmem
  rw [isNumeral_of_mem hmem] at hchar
  exact Bool.noConfusion hchar

end IntegerText
end Acdp
