import Mathlib.Tactic

/-!
# Lower case

The lower case of a text, character by character, with the rule for a sigma
at the end of a word.  The tables of the other alphabets are a parameter.
What is lower case already stays where it is.
-/

namespace Acdp
namespace Text

/-- The properties of characters outside ASCII. -/
structure CaseTables where
  toLower : Char → List Char
  cased : Char → Bool
  caseIgnorable : Char → Bool

namespace CaseTables

variable (tables : CaseTables)

/-- The first character that counts for the case of its neighbours is a
cased one. -/
def meetsCased (chars : List Char) : Bool :=
  ((chars.dropWhile tables.caseIgnorable).head?).any tables.cased

/-- The characters before are given backwards. -/
def lowerChar (before : List Char) (char : Char) (after : List Char) :
    List Char :=
  if char.toNat < 128 then [char.toLower]
  else if char = 'Σ' then
    if tables.meetsCased before && !tables.meetsCased after then ['ς']
    else ['σ']
  else tables.toLower char

def lowerFrom (before : List Char) : List Char → List Char
  | [] => []
  | char :: rest =>
      tables.lowerChar before char rest ++ lowerFrom (char :: before) rest

/-- `str::to_lowercase`. -/
def toLowercase (text : String) : String :=
  String.ofList (tables.lowerFrom [] text.toList)

variable {tables}

theorem lowerFrom_append (before front rest : List Char) :
    ∃ lowered, tables.lowerFrom before (front ++ rest) =
      lowered ++ tables.lowerFrom (front.reverse ++ before) rest := by
  induction front generalizing before with
  | nil => exact ⟨[], rfl⟩
  | cons char front ih =>
      obtain ⟨lowered, hlowered⟩ := ih (char :: before)
      refine ⟨tables.lowerChar before char (front ++ rest) ++ lowered, ?_⟩
      rw [List.cons_append, lowerFrom, hlowered, List.append_assoc,
        List.reverse_cons, List.append_assoc, List.singleton_append]

/-- Letters of ASCII that are lower case, and what is no letter. -/
def IsLower (part : List Char) : Prop :=
  ∀ char ∈ part, char.toNat < 128 ∧ char.toLower = char

theorem lowerFrom_of_isLower {part : List Char} (hpart : IsLower part)
    (before rest : List Char) :
    tables.lowerFrom before (part ++ rest) =
      part ++ tables.lowerFrom (part.reverse ++ before) rest := by
  induction part generalizing before with
  | nil => rfl
  | cons char part ih =>
      obtain ⟨⟨hascii, hlower⟩, hrest⟩ := List.forall_mem_cons.mp hpart
      rw [List.cons_append, lowerFrom, ih hrest, lowerChar, if_pos hascii,
        hlower, List.reverse_cons, List.append_assoc]
      rfl

/-- A part that is lower case is found in the lower case of a text that has
it. -/
theorem infix_toLowercase {part : List Char} (hpart : IsLower part)
    {text : String} (hwithin : part <:+: text.toList) :
    part <:+: (tables.toLowercase text).toList := by
  obtain ⟨front, rest, htext⟩ := hwithin
  obtain ⟨lowered, hlowered⟩ :=
    @lowerFrom_append tables [] front (part ++ rest)
  rw [toLowercase, String.toList_ofList, ← htext, List.append_assoc, hlowered,
    lowerFrom_of_isLower hpart]
  exact ⟨lowered, _, by rw [List.append_assoc]⟩

end CaseTables

/-- `str::to_uppercase`, with the table of the characters outside ASCII. -/
def toUppercase (upper : Char → List Char) (text : String) : String :=
  String.ofList (text.toList.flatMap (fun char =>
    if char.toNat < 128 then [char.toUpper] else upper char))

end Text
end Acdp
