import Mathlib.Data.String.Basic
import Mathlib.Tactic

/-!
# Prefixes and last characters of texts

The text operations a program uses to compare names by prefix, with the
order facts about them.  A text is compared character by character, so a
prefix test on texts is the prefix order on their character lists.
-/

namespace Acdp
namespace Text

/-- `text.starts_with(lead)`. -/
def startsWith (text lead : String) : Bool :=
  lead.toList.isPrefixOf text.toList

/-- `text.ends_with(last)` for a single character. -/
def endsWith (text : String) (last : Char) : Bool :=
  text.toList.getLast? == some last

def dropLast (text : String) : String :=
  String.ofList text.toList.dropLast

@[simp] theorem startsWith_iff {text lead : String} :
    startsWith text lead = true ↔ lead.toList <+: text.toList := by
  simp [startsWith]

@[simp] theorem endsWith_iff {text : String} {last : Char} :
    endsWith text last = true ↔ text.toList.getLast? = some last := by
  simp [endsWith]

@[simp] theorem toList_dropLast (text : String) :
    (dropLast text).toList = text.toList.dropLast := by
  simp [dropLast]

theorem startsWith_refl (text : String) : startsWith text text = true := by
  simp

theorem startsWith_trans {text middle lead : String}
    (htext : startsWith text middle = true)
    (hmiddle : startsWith middle lead = true) :
    startsWith text lead = true := by
  rw [startsWith_iff] at htext hmiddle ⊢
  exact hmiddle.trans htext

theorem dropLast_append_of_endsWith {text : String} {last : Char}
    (hends : endsWith text last = true) :
    text.toList = (dropLast text).toList ++ [last] := by
  rw [endsWith_iff] at hends
  rw [toList_dropLast]
  exact (List.dropLast_append_getLast? last hends).symm

/-- A lead of a text that ends in `last` is a lead of its stem, unless it is
the whole text. -/
theorem startsWith_dropLast_or_eq {text lead : String}
    (hstarts : startsWith text lead = true) :
    startsWith (dropLast text) lead = true ∨ lead = text := by
  rw [startsWith_iff] at hstarts
  by_cases heq : lead = text
  · exact Or.inr heq
  · left
    rw [startsWith_iff, toList_dropLast]
    have hlength : lead.toList.length < text.toList.length := by
      apply lt_of_le_of_ne hstarts.length_le
      intro hsame
      exact heq (String.ext (hstarts.eq_of_length hsame))
    apply List.prefix_of_prefix_length_le hstarts
      (List.dropLast_prefix text.toList)
    rw [List.length_dropLast]
    omega

/-- The leads of a text without its last character are the leads of the text,
the whole text apart. -/
theorem startsWith_dropLast_iff {text lead : String} {last : Char}
    (hends : endsWith text last = true) :
    startsWith (dropLast text) lead = true ↔
      startsWith text lead = true ∧ lead ≠ text := by
  have hwhole : startsWith text (dropLast text) = true := by
    rw [startsWith_iff, toList_dropLast]
    exact List.dropLast_prefix text.toList
  constructor
  · intro hstem
    refine ⟨startsWith_trans hwhole hstem, ?_⟩
    rintro rfl
    rw [startsWith_iff, toList_dropLast] at hstem
    have hlength := hstem.length_le
    rw [endsWith_iff] at hends
    cases hcharacters : lead.toList with
    | nil => simp [hcharacters] at hends
    | cons first rest =>
        rw [List.length_dropLast, hcharacters, List.length_cons] at hlength
        omega
  · rintro ⟨hstarts, hne⟩
    rcases startsWith_dropLast_or_eq hstarts with hstem | hsame
    · exact hstem
    · exact absurd hsame hne

theorem endsWith_unique {text : String} {first second : Char}
    (hfirst : endsWith text first = true) (hne : first ≠ second) :
    endsWith text second = false := by
  rw [Bool.eq_false_iff]
  intro hsecond
  rw [endsWith_iff] at hfirst hsecond
  rw [hfirst, Option.some.injEq] at hsecond
  exact hne hsecond

end Text
end Acdp
