import Mathlib.Data.List.Infix
import Mathlib.Data.Set.Basic
import Mathlib.Tactic

/-!
# The names a pattern reaches

A name is a word over some alphabet.  A pattern either names one word or
reaches every word that continues a stem.  Whether one pattern reaches no
more than another is a question about two stems, or about two equal words;
the alphabet only has to have a letter, so that a stem always has a proper
continuation.
-/

namespace Acdp

inductive NameReach (α : Type*) where
  | only (word : List α)
  | under (stem : List α)

namespace NameReach

variable {α : Type*}

def names : NameReach α → Set (List α)
  | only word => { name | name = word }
  | under stem => { name | stem <+: name }

/-- The shortest name that is reached. -/
def stem : NameReach α → List α
  | only word => word
  | under stem => stem

@[simp] theorem mem_names_only {word name : List α} :
    name ∈ (only word).names ↔ name = word := Iff.rfl

@[simp] theorem mem_names_under {stem name : List α} :
    name ∈ (under stem).names ↔ stem <+: name := Iff.rfl

theorem stem_mem_names (reach : NameReach α) : reach.stem ∈ reach.names := by
  cases reach with
  | only word => exact mem_names_only.mpr rfl
  | under stem => exact mem_names_under.mpr (List.prefix_refl stem)

theorem stem_prefix_of_mem {reach : NameReach α} {name : List α}
    (hname : name ∈ reach.names) : reach.stem <+: name := by
  cases reach with
  | only word =>
      rw [mem_names_only.mp hname]
      exact List.prefix_refl word
  | under stem => exact hname

/-- Below a stem lies what has a shortest name below it. -/
theorem names_subset_under_iff {reach : NameReach α} {stem : List α} :
    reach.names ⊆ (under stem).names ↔ stem <+: reach.stem := by
  constructor
  · intro hsubset
    exact mem_names_under.mp (hsubset reach.stem_mem_names)
  · intro hstem name hname
    exact hstem.trans (stem_prefix_of_mem hname)

/-- A single word leaves room for itself only. -/
theorem names_subset_only_iff [Nonempty α] {reach : NameReach α}
    {word : List α} :
    reach.names ⊆ (only word).names ↔ reach = only word := by
  constructor
  · intro hsubset
    have hstem : reach.stem = word :=
      mem_names_only.mp (hsubset reach.stem_mem_names)
    cases reach with
    | only other => rw [show other = word from hstem]
    | under stem =>
        obtain ⟨letter⟩ := ‹Nonempty α›
        have hlonger : stem ++ [letter] = word :=
          mem_names_only.mp (hsubset (List.prefix_append stem [letter]))
        have hsame : stem = word := hstem
        rw [hsame] at hlonger
        simp at hlonger
  · rintro rfl
    exact subset_rfl

end NameReach
end Acdp
