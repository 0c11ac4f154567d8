import Mathlib.Tactic

/-!
# Positions in a list that grows and is rewritten

Parties that are numbered in the order of their arrival stand in a list: a new
one is appended, and what one of them does rewrites its own position.  The
lemmas say what a position holds afterwards.
-/

namespace Acdp
namespace Positions

variable {α : Type*} {items : List α} {item found : α} {index other : ℕ}

theorem getElem?_append_cases
    (hfound : (items ++ [item])[index]? = some found) :
    items[index]? = some found ∨ index = items.length ∧ item = found := by
  rcases Nat.lt_trichotomy index items.length with hlt | rfl | hgt
  · rw [List.getElem?_append_left hlt] at hfound
    exact Or.inl hfound
  · rw [List.getElem?_concat_length, Option.some.injEq] at hfound
    exact Or.inr ⟨rfl, hfound⟩
  · have hnone : (items ++ [item])[index]? = none := by
      rw [List.getElem?_eq_none_iff, List.length_append, List.length_singleton]
      omega
    rw [hnone] at hfound
    cases hfound

theorem getElem?_set_cases
    (hfound : (items.set index item)[other]? = some found) :
    index = other ∧ item = found ∨
      index ≠ other ∧ items[other]? = some found := by
  by_cases hsame : index = other
  · subst hsame
    have hindex := (List.getElem?_eq_some_iff.mp hfound).1
    rw [List.length_set] at hindex
    rw [List.getElem?_set_self hindex, Option.some.injEq] at hfound
    exact Or.inl ⟨rfl, hfound⟩
  · rw [List.getElem?_set_ne hsame] at hfound
    exact Or.inr ⟨hsame, hfound⟩

theorem getElem?_append_of_some (hfound : items[index]? = some found) :
    (items ++ [item])[index]? = some found := by
  rw [List.getElem?_append_left (List.getElem?_eq_some_iff.mp hfound).1]
  exact hfound

end Positions
end Acdp
