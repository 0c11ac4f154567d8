import Acdp.AuthCapabilityDelegation
import Acdp.NameReach

/-!
# Pattern inclusion against the names the patterns match

The subset test of two patterns is read against the sets of names they
match.  The test knows two kinds of parent, wildcard and exact, and compares
the child's text with the parent's stem.  Two kinds of pairs escape it: a
wildcard under itself with one more star, and a pattern under a parent that
ends in a slash.
-/

namespace Acdp
namespace Auth

open Text

namespace ToolPattern

/-- What the three shapes of a pattern reach. -/
def reach (self : ToolPattern) : NameReach Char :=
  if endsWith self.pattern '*' then .under (dropLast self.pattern).toList
  else if endsWith self.pattern '/' then .under self.pattern.toList
  else .only self.pattern.toList

/-- The text that every matched name starts with. -/
def stem (self : ToolPattern) : String :=
  if endsWith self.pattern '*' then dropLast self.pattern else self.pattern

/-- The parent is a directory, and the child is another pattern all of whose
names lie in it. -/
def slashOver (parent child : ToolPattern) : Bool :=
  endsWith parent.pattern '/' && child.pattern != parent.pattern &&
    startsWith child.stem parent.pattern

theorem matches_iff (self : ToolPattern) (name : String) :
    self.matches name = true ↔ name.toList ∈ self.reach.names := by
  unfold ToolPattern.matches reach
  split_ifs with hstar hslash
  · rw [startsWith_iff, NameReach.mem_names_under]
  · rw [startsWith_iff, NameReach.mem_names_under]
  · rw [beq_iff_eq, NameReach.mem_names_only, String.toList_inj]

theorem reach_stem (self : ToolPattern) :
    self.reach.stem = self.stem.toList := by
  unfold reach stem
  split_ifs with hstar hslash
  · rfl
  · rfl
  · rfl

theorem matches_subset_iff (child parent : ToolPattern) :
    (∀ name, child.matches name = true → parent.matches name = true) ↔
      child.reach.names ⊆ parent.reach.names := by
  simp only [matches_iff]
  constructor
  · intro hnames name hname
    have hparent := hnames (String.ofList name)
    rw [String.toList_ofList] at hparent
    exact hparent hname
  · intro hsubset name hname
    exact hsubset hname

/-! ## The three shapes of the parent -/

theorem subset_of_star_iff {child parent : ToolPattern}
    (hparent : endsWith parent.pattern '*' = true) :
    (∀ name, child.matches name = true → parent.matches name = true) ↔
      startsWith child.stem (dropLast parent.pattern) = true := by
  have hreach : parent.reach = .under (dropLast parent.pattern).toList := by
    simp only [reach, hparent, if_true]
  rw [matches_subset_iff, hreach, NameReach.names_subset_under_iff,
    reach_stem, startsWith_iff]

theorem subset_of_slash_iff {child parent : ToolPattern}
    (hparent : endsWith parent.pattern '/' = true) :
    (∀ name, child.matches name = true → parent.matches name = true) ↔
      startsWith child.stem parent.pattern = true := by
  have hstar : endsWith parent.pattern '*' = false :=
    endsWith_unique hparent (by decide)
  have hreach : parent.reach = .under parent.pattern.toList := by
    simp [reach, hstar, hparent]
  rw [matches_subset_iff, hreach, NameReach.names_subset_under_iff,
    reach_stem, startsWith_iff]

theorem subset_of_exact_iff {child parent : ToolPattern}
    (hstar : endsWith parent.pattern '*' = false)
    (hslash : endsWith parent.pattern '/' = false) :
    (∀ name, child.matches name = true → parent.matches name = true) ↔
      child.pattern = parent.pattern := by
  have hreach : parent.reach = .only parent.pattern.toList := by
    simp [reach, hstar, hslash]
  rw [matches_subset_iff, hreach, NameReach.names_subset_only_iff]
  constructor
  · intro hchild
    unfold reach at hchild
    split_ifs at hchild with hchildStar hchildSlash
    rw [NameReach.only.injEq, String.toList_inj] at hchild
    exact hchild
  · intro hsame
    simp [reach, hsame, hstar, hslash]

theorem isSubsetOf_of_not_star_iff {child parent : ToolPattern}
    (hparent : endsWith parent.pattern '*' = false) :
    child.isSubsetOf parent = true ↔ child.pattern = parent.pattern := by
  simp [isSubsetOf, hparent]

theorem isSubsetOf_of_star_iff {child parent : ToolPattern}
    (hparent : endsWith parent.pattern '*' = true) :
    child.isSubsetOf parent = true ↔
      startsWith child.pattern (dropLast parent.pattern) = true := by
  simp only [isSubsetOf, hparent, if_true]

theorem starOver_of_not_star {child parent : ToolPattern}
    (hparent : endsWith parent.pattern '*' = false) :
    parent.starOver child = false := by
  rw [Bool.eq_false_iff]
  intro hdouble
  simp only [starOver, Bool.and_eq_true, beq_iff_eq] at hdouble
  have hstar : endsWith parent.pattern '*' = true := by
    simp [hdouble.2]
  rw [hparent] at hstar
  exact absurd hstar (by decide)

theorem starOver_iff {child parent : ToolPattern}
    (hchild : endsWith child.pattern '*' = true)
    (hparent : endsWith parent.pattern '*' = true) :
    parent.starOver child = true ↔
      dropLast parent.pattern = child.pattern := by
  simp only [starOver, hchild, Bool.true_and, beq_iff_eq]
  constructor
  · intro hpattern
    apply String.ext
    simp [hpattern]
  · intro hstem
    apply String.ext
    rw [dropLast_append_of_endsWith hparent, hstem]
    simp

/-! ## Where the test is exact -/

theorem exact_under_star_iff {child parent : ToolPattern}
    (hparent : endsWith parent.pattern '*' = true) :
    (child.isSubsetOf parent = true ↔
        ∀ name, child.matches name = true → parent.matches name = true) ↔
      parent.starOver child = false := by
  rw [isSubsetOf_of_star_iff hparent, subset_of_star_iff hparent]
  cases hchild : endsWith child.pattern '*' with
  | false =>
      have hstem : child.stem = child.pattern := by simp [stem, hchild]
      have hdouble : parent.starOver child = false := by
        simp [starOver, hchild]
      rw [hstem, hdouble]
      simp
  | true =>
      have hstem : child.stem = dropLast child.pattern := by
        simp only [stem, hchild, if_true]
      have hdouble : parent.starOver child = false ↔
          dropLast parent.pattern ≠ child.pattern := by
        rw [Bool.eq_false_iff, ne_eq, ne_eq, starOver_iff hchild hparent]
      rw [hstem, startsWith_dropLast_iff hchild, hdouble]
      constructor
      · intro hexact hsame
        have hstarts :
            startsWith child.pattern (dropLast parent.pattern) = true := by
          rw [hsame]
          exact startsWith_refl child.pattern
        exact (hexact.mp hstarts).2 hsame
      · intro hne
        exact ⟨fun hstarts => ⟨hstarts, hne⟩, fun hboth => hboth.1⟩

theorem exact_under_slash_iff {child parent : ToolPattern}
    (hparent : endsWith parent.pattern '/' = true) :
    (child.isSubsetOf parent = true ↔
        ∀ name, child.matches name = true → parent.matches name = true) ↔
      parent.slashOver child = false := by
  have hstar : endsWith parent.pattern '*' = false :=
    endsWith_unique hparent (by decide)
  rw [isSubsetOf_of_not_star_iff hstar, subset_of_slash_iff hparent]
  unfold slashOver
  rw [hparent, Bool.true_and, Bool.and_eq_false_iff, bne_eq_false_iff_eq]
  constructor
  · intro hexact
    by_cases hsame : child.pattern = parent.pattern
    · exact Or.inl hsame
    · right
      rw [Bool.eq_false_iff]
      intro hstarts
      exact hsame (hexact.mpr hstarts)
  · intro hgap
    constructor
    · intro hsame
      have hstem : child.stem = parent.pattern := by
        simp [stem, hsame, hstar]
      rw [hstem]
      exact startsWith_refl parent.pattern
    · intro hstarts
      rcases hgap with hsame | houtside
      · exact hsame
      · rw [hstarts] at houtside
        exact absurd houtside (by decide)

/-- The subset test agrees with inclusion of the matched names exactly where
the parent is neither the child with one more star nor a directory above
another pattern. -/
theorem isSubsetOf_exact_iff (child parent : ToolPattern) :
    (child.isSubsetOf parent = true ↔
        ∀ name, child.matches name = true → parent.matches name = true) ↔
      parent.starOver child = false ∧ parent.slashOver child = false := by
  cases hstar : endsWith parent.pattern '*' with
  | true =>
      have hslash : parent.slashOver child = false := by
        have hends := endsWith_unique hstar (show '*' ≠ '/' by decide)
        simp [slashOver, hends]
      rw [exact_under_star_iff hstar]
      exact (and_iff_left hslash).symm
  | false =>
      have hdouble : parent.starOver child = false :=
        starOver_of_not_star hstar
      cases hslash : endsWith parent.pattern '/' with
      | true =>
          rw [exact_under_slash_iff hslash]
          exact (and_iff_right hdouble).symm
      | false =>
          have hover : parent.slashOver child = false := by
            simp [slashOver, hslash]
          have hexact :
              child.isSubsetOf parent = true ↔
                ∀ name, child.matches name = true →
                  parent.matches name = true := by
            rw [isSubsetOf_of_not_star_iff hstar,
              subset_of_exact_iff hstar hslash]
          exact iff_of_true hexact ⟨hdouble, hover⟩

/-- `a*` passes under `a**` and matches `ab`, which `a**` does not; `a/b`
is refused under `a/`, which matches all it matches. -/
theorem isSubsetOf_not_exact :
    let child : ToolPattern := ⟨"a*"⟩
    let parent : ToolPattern := ⟨"a**"⟩
    let file : ToolPattern := ⟨"a/b"⟩
    let directory : ToolPattern := ⟨"a/"⟩
    (child.isSubsetOf parent = true ∧ child.matches "ab" = true ∧
        parent.matches "ab" = false) ∧
      (file.isSubsetOf directory = false ∧
        ∀ name, file.matches name = true → directory.matches name = true) := by
  intro child parent file directory
  refine ⟨by decide, by decide, ?_⟩
  rw [subset_of_slash_iff (by decide)]
  decide

end ToolPattern
end Auth
end Acdp
