import Mathlib.Data.List.TakeWhile
import Mathlib.Tactic

/-!
# The first block between markers

Among the items of a list some are markers.  The first block is what stands
after the first marker and before the next one, or before the end if there is
no other.
-/

namespace Acdp

variable {α : Type*} (isMarker : α → Bool)

def firstBlock (items : List α) : List α :=
  (items.dropWhile (fun item => !isMarker item)).tail.takeWhile
    (fun item => !isMarker item)

/-- The items before the first marker, the marker, the block, and what follows
it: nothing, or another marker with anything after it. -/
structure BlockParts (items before : List α) (marker : α)
    (block after : List α) : Prop where
  split : items = before ++ marker :: (block ++ after)
  before : ∀ item ∈ before, isMarker item = false
  marker : isMarker marker = true
  block : ∀ item ∈ block, isMarker item = false
  after : ∀ item ∈ after.head?, isMarker item = true

variable {isMarker}

theorem unmarked_iff {items : List α} :
    (∀ item ∈ items, (!isMarker item) = true) ↔
      ∀ item ∈ items, isMarker item = false := by
  simp only [Bool.not_eq_true']

theorem takeWhile_unmarked {block after : List α}
    (hblock : ∀ item ∈ block, isMarker item = false)
    (hafter : ∀ item ∈ after.head?, isMarker item = true) :
    (block ++ after).takeWhile (fun item => !isMarker item) = block := by
  rw [List.takeWhile_append_of_pos (unmarked_iff.mpr hblock)]
  cases after with
  | nil => exact List.append_nil block
  | cons item rest =>
      have hmarker : isMarker item = true := hafter item rfl
      rw [List.takeWhile_cons_of_neg (by simp [hmarker]), List.append_nil]

theorem BlockParts.firstBlock_eq {items before : List α} {marker : α}
    {block after : List α}
    (hparts : BlockParts isMarker items before marker block after) :
    firstBlock isMarker items = block := by
  rw [firstBlock, hparts.split,
    List.dropWhile_append_of_pos (unmarked_iff.mpr hparts.before),
    List.dropWhile_cons_of_neg (by simp [hparts.marker]), List.tail_cons,
    takeWhile_unmarked hparts.block hparts.after]

theorem firstBlock_of_unmarked {items : List α}
    (hitems : ∀ item ∈ items, isMarker item = false) :
    firstBlock isMarker items = [] := by
  have hdropped : items.dropWhile (fun item => !isMarker item) = [] :=
    List.dropWhile_eq_nil_iff.mpr (unmarked_iff.mpr hitems)
  rw [firstBlock, hdropped, List.tail_nil, List.takeWhile_nil]

/-- A list with a marker has the parts. -/
theorem exists_blockParts {items : List α} {marker : α}
    (hmem : marker ∈ items) (hmarker : isMarker marker = true) :
    ∃ before first after,
      BlockParts isMarker items before first (firstBlock isMarker items)
        after := by
  induction items with
  | nil => exact absurd hmem List.not_mem_nil
  | cons item rest ih =>
      by_cases hitem : isMarker item = true
      · have hblock : firstBlock isMarker (item :: rest) =
            rest.takeWhile (fun item => !isMarker item) := by
          rw [firstBlock, List.dropWhile_cons_of_neg (by simp [hitem]),
            List.tail_cons]
        refine ⟨[], item, rest.dropWhile (fun item => !isMarker item), ?_⟩
        rw [hblock]
        constructor
        · rw [List.takeWhile_append_dropWhile, List.nil_append]
        · exact fun _ hnone => absurd hnone List.not_mem_nil
        · exact hitem
        · intro other hother
          simpa using List.mem_takeWhile_imp hother
        · intro other hother
          have hstops := List.head?_dropWhile_not
            (fun item => !isMarker item) rest
          rw [Option.mem_def.mp hother] at hstops
          simpa using hstops
      · have hrest : marker ∈ rest := by
          rcases List.mem_cons.mp hmem with rfl | hrest
          · exact absurd hmarker hitem
          · exact hrest
        obtain ⟨before, first, after, hparts⟩ := ih hrest
        have hblock : firstBlock isMarker (item :: rest) =
            firstBlock isMarker rest := by
          rw [firstBlock, List.dropWhile_cons_of_pos (by simp [hitem]),
            firstBlock]
        refine ⟨item :: before, first, after, ?_⟩
        rw [hblock]
        constructor
        · rw [List.cons_append, ← hparts.split]
        · rw [List.forall_mem_cons]
          exact ⟨Bool.eq_false_iff.mpr hitem, hparts.before⟩
        · exact hparts.marker
        · exact hparts.block
        · exact hparts.after

end Acdp
