import Acdp.TextOperations
import Mathlib.Data.List.DropRight

/-!
# Searching in texts

Where the first occurrence of a part is in a text that is put together from
others, and what trimming leaves of such a text.
-/

namespace Acdp
namespace Text

/-! ## Occurrences -/

theorem infix_of_infix_append_left {part front text : List Char} {mark : Char}
    (hhead : part.head? = some mark) (hfront : mark ∉ front)
    (hpart : part <:+: front ++ text) : part <:+: text := by
  obtain ⟨tail, rfl⟩ := List.head?_eq_some_iff.mp hhead
  induction front with
  | nil => exact hpart
  | cons char front ih =>
      rw [List.mem_cons, not_or] at hfront
      rw [List.cons_append, List.infix_cons_iff] at hpart
      apply ih hfront.2
      apply hpart.resolve_left
      intro hlead
      exact hfront.1 (List.cons_prefix_cons.mp hlead).1

theorem infix_of_infix_append_right {part text back : List Char} {mark : Char}
    (hlast : part.getLast? = some mark) (hback : mark ∉ back)
    (hpart : part <:+: text ++ back) : part <:+: text := by
  rw [← List.reverse_infix] at hpart ⊢
  rw [List.reverse_append] at hpart
  have hhead : part.reverse.head? = some mark := by
    rw [List.head?_reverse, hlast]
  apply infix_of_infix_append_left hhead _ hpart
  rw [List.mem_reverse]
  exact hback

/-! ## The first occurrence -/

theorem fromFirst_append {part front : List Char} {mark : Char}
    (hhead : part.head? = some mark) (hfront : mark ∉ front)
    (text : List Char) :
    fromFirst part (front ++ text) = fromFirst part text := by
  obtain ⟨tail, rfl⟩ := List.head?_eq_some_iff.mp hhead
  induction front with
  | nil => rfl
  | cons char front ih =>
      rw [List.mem_cons, not_or] at hfront
      rw [List.cons_append, fromFirst, if_neg, ih hfront.2]
      intro hlead
      exact hfront.1 (List.cons_prefix_cons.mp hlead).1

theorem fromFirst_of_prefix {part text : List Char} (hpart : part <+: text) :
    fromFirst part text = some text := by
  cases text with
  | nil => rw [fromFirst, if_pos (List.prefix_nil.mp hpart)]
  | cons char rest => rw [fromFirst, if_pos hpart]

theorem prefix_of_fromFirst {part text tail : List Char}
    (hfound : fromFirst part text = some tail) :
    part <+: tail ∧ tail <:+ text := by
  induction text with
  | nil =>
      unfold fromFirst at hfound
      split_ifs at hfound with hpart
      cases hfound
      exact ⟨by rw [hpart], List.suffix_rfl⟩
  | cons char rest ih =>
      unfold fromFirst at hfound
      split_ifs at hfound with hlead
      · cases hfound
        exact ⟨hlead, List.suffix_rfl⟩
      · have hrest := ih hfound
        exact ⟨hrest.1, hrest.2.trans (List.suffix_cons char rest)⟩

/-! ## What is before it -/

theorem beforeFirst_append_left {part front : List Char} {mark : Char}
    (hhead : part.head? = some mark) (hfront : mark ∉ front)
    (text : List Char) :
    beforeFirst part (front ++ text) = front ++ beforeFirst part text := by
  obtain ⟨tail, rfl⟩ := List.head?_eq_some_iff.mp hhead
  induction front with
  | nil => rfl
  | cons char front ih =>
      rw [List.mem_cons, not_or] at hfront
      rw [List.cons_append, beforeFirst, if_neg, ih hfront.2,
        List.cons_append]
      intro hlead
      exact hfront.1 (List.cons_prefix_cons.mp hlead).1

theorem exists_beforeFirst {part text : List Char} (hpart : part <:+: text) :
    ∃ rest, text = beforeFirst part text ++ (part ++ rest) := by
  induction text with
  | nil =>
      rw [List.infix_nil.mp hpart]
      exact ⟨[], rfl⟩
  | cons char text ih =>
      unfold beforeFirst
      by_cases hlead : part <+: char :: text
      · obtain ⟨rest, hrest⟩ := hlead
        rw [if_pos ⟨rest, hrest⟩]
        exact ⟨rest, hrest.symm⟩
      · rw [if_neg hlead]
        obtain ⟨rest, hrest⟩ :=
          ih ((List.infix_cons_iff.mp hpart).resolve_left hlead)
        refine ⟨rest, ?_⟩
        rw [List.cons_append, ← hrest]

/-- An occurrence in the front is before all that follows. -/
theorem beforeFirst_append {part front : List Char} (hpart : part <:+: front)
    (rest : List Char) :
    beforeFirst part (front ++ rest) = beforeFirst part front := by
  induction front with
  | nil =>
      rw [List.infix_nil.mp hpart]
      cases rest <;> simp [beforeFirst]
  | cons char front ih =>
      have hlength := hpart.length_le
      have hlead : part <+: char :: front ++ rest ↔ part <+: char :: front := by
        constructor
        · intro hlead
          exact List.prefix_of_prefix_length_le hlead
            (List.prefix_append _ _) hlength
        · intro hlead
          exact hlead.trans (List.prefix_append _ _)
      rw [List.cons_append] at hlead
      rw [List.cons_append, beforeFirst, beforeFirst]
      by_cases hfirst : part <+: char :: front
      · rw [if_pos (hlead.mpr hfirst), if_pos hfirst]
      · rw [if_neg (fun hwhole => hfirst (hlead.mp hwhole)), if_neg hfirst,
          ih ((List.infix_cons_iff.mp hpart).resolve_left hfirst)]

/-- No occurrence begins in the front, not even one that ends behind it. -/
theorem beforeFirst_of_not_infix {part front : List Char}
    (hpart : ¬ part <:+: front ++ part.dropLast) (rest : List Char) :
    beforeFirst part (front ++ (part ++ rest)) = front := by
  have hdropLast : part.dropLast <+: part := List.dropLast_prefix part
  induction front with
  | nil =>
      cases hcase : part with
      | nil =>
          rw [hcase] at hpart
          exact (hpart List.nil_infix).elim
      | cons char tail =>
          rw [List.nil_append, List.cons_append, beforeFirst, if_pos]
          exact ⟨rest, rfl⟩
  | cons char front ih =>
      rw [List.cons_append, List.infix_cons_iff, not_or] at hpart
      rw [List.cons_append, beforeFirst, if_neg, ih hpart.2]
      intro hlead
      apply hpart.1
      apply List.prefix_of_prefix_length_le hlead
      · apply (List.prefix_cons_inj char).mpr
        apply (List.prefix_append_right_inj front).mpr
        exact hdropLast.trans (List.prefix_append part rest)
      · simp only [List.length_cons, List.length_append, List.length_dropLast]
        omega

/-! ## Trimming -/

theorem toList_trim (text : List Char) :
    (trim (String.ofList text)).toList =
      (text.dropWhile isWhiteSpace).rdropWhile isWhiteSpace := by
  rw [trim, String.toList_ofList, String.toList_ofList, List.rdropWhile]

theorem exists_trim (text : List Char) :
    ∃ front back, (∀ char ∈ front, isWhiteSpace char = true) ∧
      (∀ char ∈ back, isWhiteSpace char = true) ∧
      text = front ++ ((trim (String.ofList text)).toList ++ back) := by
  refine ⟨text.takeWhile isWhiteSpace,
    (text.dropWhile isWhiteSpace).rtakeWhile isWhiteSpace, ?_, ?_, ?_⟩
  · intro char hchar
    exact List.mem_takeWhile_imp hchar
  · intro char hchar
    exact List.mem_rtakeWhile_imp hchar
  · rw [toList_trim, List.rdropWhile_append_rtakeWhile,
      List.takeWhile_append_dropWhile]

theorem dropWhile_append_of_head {text : List Char} {first : Char}
    (hhead : text.head? = some first) (hfirst : isWhiteSpace first = false)
    (front : List Char) :
    (front ++ text).dropWhile isWhiteSpace =
      front.dropWhile isWhiteSpace ++ text := by
  obtain ⟨tail, rfl⟩ := List.head?_eq_some_iff.mp hhead
  have htext : (first :: tail).dropWhile isWhiteSpace = first :: tail := by
    rw [List.dropWhile_cons_of_neg (by simp [hfirst])]
  rw [List.dropWhile_append, htext]
  split_ifs with hempty
  · rw [List.isEmpty_iff.mp hempty, List.nil_append]
  · rfl

/-- What begins and ends without white space is kept. -/
theorem toList_trim_append {middle : List Char} {first last : Char}
    (hhead : middle.head? = some first) (hfirst : isWhiteSpace first = false)
    (hlast : middle.getLast? = some last) (hend : isWhiteSpace last = false)
    (front back : List Char) :
    (trim (String.ofList (front ++ (middle ++ back)))).toList =
      front.dropWhile isWhiteSpace ++
        (middle ++ back.rdropWhile isWhiteSpace) := by
  have hfront : (front ++ (middle ++ back)).dropWhile isWhiteSpace =
      front.dropWhile isWhiteSpace ++ (middle ++ back) := by
    apply dropWhile_append_of_head _ hfirst
    rw [List.head?_append, hhead, Option.some_or]
  have hreverse : (front.dropWhile isWhiteSpace ++ middle).reverse.head? =
      some last := by
    rw [List.head?_reverse, List.getLast?_append, hlast, Option.some_or]
  rw [toList_trim, hfront, ← List.append_assoc, List.rdropWhile,
    List.reverse_append, dropWhile_append_of_head hreverse hend,
    List.reverse_append, List.reverse_reverse, List.append_assoc,
    List.rdropWhile]

end Text
end Acdp
