import Acdp.JsonText
import Acdp.TextOperations

/-!
# Documents as lines

The compact text of a document has no line break, so that it can be written
on a line of its own, and an object is read back from its line once the white
space around it is removed.
-/

namespace Acdp
namespace Json

def NoBreak (text : List Char) : Prop := '\n' ∉ text

theorem noBreak_cons {char : Char} {text : List Char} (hchar : char ≠ '\n')
    (htext : NoBreak text) : NoBreak (char :: text) := by
  intro hmem
  rcases List.mem_cons.mp hmem with hhead | hrest
  · exact hchar hhead.symm
  · exact htext hrest

theorem noBreak_append {text other : List Char} (htext : NoBreak text)
    (hother : NoBreak other) : NoBreak (text ++ other) := by
  intro hmem
  rcases List.mem_append.mp hmem with hleft | hright
  · exact htext hleft
  · exact hother hright

theorem noBreak_nil : NoBreak [] := List.not_mem_nil

theorem noBreak_number {digits : List Char}
    (hdigits : ∀ char ∈ digits, isNumberChar char = true) :
    NoBreak digits := by
  intro hmem
  exact absurd (hdigits '\n' hmem) (by decide)

theorem noBreak_escapeChar (char : Char) : NoBreak (escapeChar char) := by
  have hdigit : ∀ value, value < 16 → hexDigit value ≠ '\n' := by
    intro value hvalue
    interval_cases value <;> decide
  intro hmem
  unfold escapeChar at hmem
  split_ifs at hmem with hquote hbackslash hback hfeed hline hreturn htab
    hcontrol
  · simp at hmem
  · simp at hmem
  · simp at hmem
  · simp at hmem
  · simp at hmem
  · simp at hmem
  · simp at hmem
  · have hhigh := hdigit (char.toNat / 16) (by omega)
    have hlow := hdigit (char.toNat % 16) (by omega)
    simp [hhigh.symm, hlow.symm] at hmem
  · rw [List.mem_singleton] at hmem
    exact hline (congrArg Char.toNat hmem.symm)

theorem noBreak_printString (text : String) :
    NoBreak (printString text).toList := by
  rw [printString_toList]
  apply noBreak_cons (by decide)
  apply noBreak_append
  · intro hmem
    obtain ⟨char, _, hescaped⟩ := List.mem_flatMap.mp hmem
    exact noBreak_escapeChar char hescaped
  · exact noBreak_cons (by decide) noBreak_nil

theorem noBreak_printElements {elements : List Json}
    (helements : ∀ element ∈ elements, NoBreak (print element).toList) :
    NoBreak (printElements elements).toList := by
  induction elements with
  | nil => exact noBreak_nil
  | cons element rest ih =>
      rw [List.forall_mem_cons] at helements
      rw [printElements_cons]
      exact noBreak_cons (by decide)
        (noBreak_append helements.1 (ih helements.2))

theorem noBreak_printMembers {members : List (String × Json)}
    (hmembers : ∀ member ∈ members, NoBreak (print member.2).toList) :
    NoBreak (printMembers members).toList := by
  induction members with
  | nil => exact noBreak_nil
  | cons member rest ih =>
      obtain ⟨name, value⟩ := member
      rw [List.forall_mem_cons] at hmembers
      rw [printMembers_cons]
      exact noBreak_cons (by decide)
        (noBreak_append (noBreak_printString name)
          (noBreak_cons (by decide)
            (noBreak_append hmembers.1 (ih hmembers.2))))

theorem Proper.noBreak {doc : Json} (hproper : Proper doc) :
    NoBreak (print doc).toList := by
  induction hproper with
  | null => simp [NoBreak, print]
  | bool value => cases value <;> simp [NoBreak, print]
  | int value => exact noBreak_number (fun char hmem => isNumberChar_of_mem_int hmem)
  | decimal htext => exact noBreak_number htext.number
  | str text => exact noBreak_printString text
  | @arr elements _ ih =>
      cases elements with
      | nil => simp [NoBreak, print_arr_nil]
      | cons element rest =>
          rw [List.forall_mem_cons] at ih
          rw [print_arr_cons]
          exact noBreak_cons (by decide)
            (noBreak_append ih.1
              (noBreak_append (noBreak_printElements ih.2)
                (noBreak_cons (by decide) noBreak_nil)))
  | @obj members _ ih =>
      cases members with
      | nil => simp [NoBreak, print]
      | cons member rest =>
          obtain ⟨name, value⟩ := member
          rw [List.forall_mem_cons] at ih
          rw [print_obj_cons]
          exact noBreak_cons (by decide)
            (noBreak_append (noBreak_printString name)
              (noBreak_cons (by decide)
                (noBreak_append ih.1
                  (noBreak_append (noBreak_printMembers ih.2)
                    (noBreak_cons (by decide) noBreak_nil)))))

/-! ## Trimming -/

theorem trim_line {text : String} {first last : Char} {body : List Char}
    (htext : text.toList = first :: (body ++ [last]))
    (hfirst : Text.isWhiteSpace first = false)
    (hlast : Text.isWhiteSpace last = false) :
    Text.trim (text ++ "\n") = text := by
  have hbreak : Text.isWhiteSpace '\n' = true := rfl
  have hline : (text ++ "\n").toList = first :: (body ++ [last]) ++ ['\n'] := by
    rw [String.toList_append, htext]
    rfl
  rw [Text.trim, hline, ← String.toList_inj, String.toList_ofList, htext]
  simp [hfirst, hbreak, hlast]

theorem exists_print_obj (members : List (String × Json)) :
    ∃ body, (print (.obj members)).toList = '\x7b' :: (body ++ ['\x7d']) := by
  cases members with
  | nil => exact ⟨[], rfl⟩
  | cons member rest =>
      obtain ⟨name, value⟩ := member
      rw [print_obj_cons]
      exact ⟨(printString name).toList ++ ':' :: ((print value).toList ++
        (printMembers rest).toList), by simp⟩

theorem trim_print_obj (members : List (String × Json)) :
    Text.trim (print (.obj members) ++ "\n") = print (.obj members) := by
  obtain ⟨body, hbody⟩ := exists_print_obj members
  exact trim_line hbody rfl rfl

end Json
end Acdp
