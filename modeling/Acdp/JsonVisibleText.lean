import Acdp.JsonLines

/-!
# Documents without control characters

The compact text of a document has no control character at all, since those
inside strings are escaped.  It can be written wherever some of them have a
meaning, as on the lines of an event stream.
-/

namespace Acdp
namespace Json

def Visible (text : List Char) : Prop := ∀ char ∈ text, 32 ≤ char.toNat

theorem visible_nil : Visible [] := List.forall_mem_nil _

theorem visible_cons {char : Char} {text : List Char}
    (hchar : 32 ≤ char.toNat) (htext : Visible text) :
    Visible (char :: text) :=
  List.forall_mem_cons.mpr ⟨hchar, htext⟩

theorem visible_append {text other : List Char} (htext : Visible text)
    (hother : Visible other) : Visible (text ++ other) :=
  List.forall_mem_append.mpr ⟨htext, hother⟩

theorem visible_number {digits : List Char}
    (hdigits : ∀ char ∈ digits, isNumberChar char = true) :
    Visible digits := by
  intro char hmem
  have hnumber := hdigits char hmem
  unfold isNumberChar IntegerText.isNumeral at hnumber
  simp only [Bool.or_eq_true, beq_iff_eq] at hnumber
  rcases hnumber with ((((hdigit | rfl) | rfl) | rfl) | rfl) | rfl
  · unfold Char.isDigit at hdigit
    simp only [Bool.and_eq_true, decide_eq_true_eq] at hdigit
    have hlower : 48 ≤ char.toNat := hdigit.1
    omega
  · decide
  · decide
  · decide
  · decide
  · decide

theorem visible_escapeChar (char : Char) : Visible (escapeChar char) := by
  have hdigit : ∀ value, value < 16 → 32 ≤ (hexDigit value).toNat := by
    intro value hvalue
    interval_cases value <;> decide
  unfold escapeChar
  split_ifs with hquote hbackslash hback hfeed hline hreturn htab hcontrol
  · simp [Visible]
  · simp [Visible]
  · simp [Visible]
  · simp [Visible]
  · simp [Visible]
  · simp [Visible]
  · simp [Visible]
  · have hhigh := hdigit (char.toNat / 16) (by omega)
    have hlow := hdigit (char.toNat % 16) (by omega)
    simp [Visible, hhigh, hlow]
  · exact visible_cons (by omega) visible_nil

theorem visible_printString (text : String) :
    Visible (printString text).toList := by
  rw [printString_toList]
  apply visible_cons (by decide)
  apply visible_append
  · intro char hmem
    obtain ⟨given, _, hescaped⟩ := List.mem_flatMap.mp hmem
    exact visible_escapeChar given char hescaped
  · exact visible_cons (by decide) visible_nil

theorem visible_printElements {elements : List Json}
    (helements : ∀ element ∈ elements, Visible (print element).toList) :
    Visible (printElements elements).toList := by
  induction elements with
  | nil => exact visible_nil
  | cons element rest ih =>
      rw [List.forall_mem_cons] at helements
      rw [printElements_cons]
      exact visible_cons (by decide)
        (visible_append helements.1 (ih helements.2))

theorem visible_printMembers {members : List (String × Json)}
    (hmembers : ∀ member ∈ members, Visible (print member.2).toList) :
    Visible (printMembers members).toList := by
  induction members with
  | nil => exact visible_nil
  | cons member rest ih =>
      obtain ⟨name, value⟩ := member
      rw [List.forall_mem_cons] at hmembers
      rw [printMembers_cons]
      have hrest := visible_append hmembers.1 (ih hmembers.2)
      exact visible_cons (by decide) (visible_append (visible_printString name)
        (visible_cons (by decide) hrest))

/-- The elements or members of a document are in brackets. -/
theorem Proper.visible {doc : Json} (hproper : Proper doc) :
    Visible (print doc).toList := by
  induction hproper with
  | null => simp [Visible, print]
  | bool value => cases value <;> simp [Visible, print]
  | int value =>
      exact visible_number (fun char hmem => isNumberChar_of_mem_int hmem)
  | decimal htext => exact visible_number htext.number
  | str text => exact visible_printString text
  | @arr elements _ ih =>
      cases elements with
      | nil => simp [Visible, print_arr_nil]
      | cons element rest =>
          rw [List.forall_mem_cons] at ih
          rw [print_arr_cons]
          have hclosed := visible_append (visible_printElements ih.2)
            (visible_cons (show 32 ≤ ']'.toNat by decide) visible_nil)
          exact visible_cons (by decide) (visible_append ih.1 hclosed)
  | @obj members _ ih =>
      cases members with
      | nil => simp [Visible, print]
      | cons member rest =>
          obtain ⟨name, value⟩ := member
          rw [List.forall_mem_cons] at ih
          rw [print_obj_cons]
          have hclosed := visible_append (visible_printMembers ih.2)
            (visible_cons (show 32 ≤ '\x7d'.toNat by decide) visible_nil)
          have hvalue := visible_append ih.1 hclosed
          exact visible_cons (by decide)
            (visible_append (visible_printString name)
              (visible_cons (by decide) hvalue))

end Json
end Acdp
