import Mathlib.Data.List.MinMax
import Mathlib.Data.List.Sort
import Mathlib.Tactic

/-!
# Choosing by rank

The first element of a list sorted by rank, and the first one of least rank,
are least in the list; where ranks tell elements apart they are the same
element, however the list is arranged.
-/

namespace Acdp
namespace Ranked

variable {α : Type*} (rank : α → ℕ)

/-- A stable sort. -/
def sortByKey (elements : List α) : List α :=
  elements.insertionSort (fun left right => rank left ≤ rank right)

def minByKey (elements : List α) : Option α := elements.argmin rank

/-- A least element among those with the property. -/
structure LeastRanked (property : α → Prop) (element : α) : Prop where
  meets : property element
  least : ∀ other, property other → rank element ≤ rank other

variable {rank}

theorem LeastRanked.unique (hrank : Function.Injective rank)
    {property : α → Prop} {element other : α}
    (helement : LeastRanked rank property element)
    (hother : LeastRanked rank property other) : element = other := by
  apply hrank
  exact le_antisymm (helement.least other hother.meets)
    (hother.least element helement.meets)

theorem LeastRanked.congr {property other : α → Prop}
    (hsame : ∀ element, property element ↔ other element) {element : α}
    (helement : LeastRanked rank property element) :
    LeastRanked rank other element := by
  refine ⟨(hsame element).mp helement.meets, ?_⟩
  intro candidate hcandidate
  exact helement.least candidate ((hsame candidate).mpr hcandidate)

theorem mem_sortByKey {elements : List α} {element : α} :
    element ∈ sortByKey rank elements ↔ element ∈ elements :=
  List.mem_insertionSort _

theorem sortByKey_ne_nil {elements : List α} (helements : elements ≠ []) :
    sortByKey rank elements ≠ [] := by
  intro hsorted
  have hlength := congrArg List.length hsorted
  rw [sortByKey, List.length_insertionSort, List.length_nil] at hlength
  exact helements (List.length_eq_zero_iff.mp hlength)

theorem leastRanked_of_sortByKey {elements rest : List α} {first : α}
    (hsorted : sortByKey rank elements = first :: rest) :
    LeastRanked rank (· ∈ elements) first := by
  have hordered : (first :: rest).Pairwise
      (fun left right => rank left ≤ rank right) := by
    have : Std.Total (fun left right : α => rank left ≤ rank right) :=
      ⟨fun left right => le_total (rank left) (rank right)⟩
    have : IsTrans α (fun left right => rank left ≤ rank right) :=
      ⟨fun _ _ _ => le_trans⟩
    rw [← hsorted]
    exact List.pairwise_insertionSort _ elements
  constructor
  · have hfirst : first ∈ sortByKey rank elements := by
      rw [hsorted]
      exact List.mem_cons_self
    exact mem_sortByKey.mp hfirst
  · intro other hother
    have hplace : other ∈ sortByKey rank elements := mem_sortByKey.mpr hother
    rw [hsorted] at hplace
    rcases List.mem_cons.mp hplace with rfl | hrest
    · exact le_refl _
    · exact (List.pairwise_cons.mp hordered).1 other hrest

theorem leastRanked_of_minByKey {elements : List α} {element : α}
    (hmin : minByKey rank elements = some element) :
    LeastRanked rank (· ∈ elements) element := by
  refine ⟨List.argmin_mem hmin, ?_⟩
  intro other hother
  exact List.le_of_mem_argmin hother hmin

theorem minByKey_eq_none_iff {elements : List α} :
    minByKey rank elements = none ↔ elements = [] :=
  List.argmin_eq_none

end Ranked
end Acdp
