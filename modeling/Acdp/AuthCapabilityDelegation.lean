import Acdp.AccessPolicy
import Acdp.AuthCapabilities

/-!
# What the delegation subset check guarantees

A set of capabilities is read as a deny-over-allow policy on tool names.
The subset check compares allowed patterns with each other and never looks
at a denied list, and its wildcard case compares the child's pattern text,
star included, with the parent's stem.  This file determines exactly when a
delegation that passes the check stays within the parent's policy.
-/

namespace Acdp
namespace Auth

open Text

namespace MCPCapabilities

def accessPolicy (self : MCPCapabilities) : AccessPolicy String where
  allowed := { name | ∃ pattern ∈ self.allowedTools,
    pattern.matches name = true }
  denied := { name | ∃ pattern ∈ self.deniedTools,
    pattern.matches name = true }

theorem isToolAllowed_eq_ok_iff (self : MCPCapabilities) (name : String) :
    self.isToolAllowed name = .ok () ↔
      name ∈ self.accessPolicy.permitted := by
  have hdenied :
      name ∈ self.accessPolicy.denied ↔
        self.deniedTools.any
          (fun pattern => pattern.matches name) = true := by
    simp [accessPolicy]
  have hallowed :
      name ∈ self.accessPolicy.allowed ↔
        self.allowedTools.any
          (fun pattern => pattern.matches name) = true := by
    simp [accessPolicy]
  rw [AccessPolicy.permitted, Set.mem_sdiff, hdenied, hallowed]
  unfold isToolAllowed
  split_ifs with hd ha
  · simp [hd]
  · simp [hd, ha]
  · simp [hd, ha]

end MCPCapabilities

/-! ## Inclusion of two patterns -/

/-- The parent pattern is the child's wildcard with one more star. -/
def ToolPattern.starOver (parent child : ToolPattern) : Bool :=
  endsWith child.pattern '*' && parent.pattern == child.pattern ++ "*"

theorem ToolPattern.endsWith_of_starOver
    {child parent : ToolPattern}
    (hdouble : parent.starOver child = true) :
    endsWith child.pattern '*' = true := by
  simp only [ToolPattern.starOver, Bool.and_eq_true] at hdouble
  exact hdouble.1

theorem ToolPattern.startsWith_of_matches_of_not_star
    {pattern : ToolPattern} {name : String}
    (hstar : endsWith pattern.pattern '*' = false)
    (hmatch : pattern.matches name = true) :
    startsWith name pattern.pattern = true := by
  unfold ToolPattern.matches at hmatch
  rw [hstar] at hmatch
  simp only [Bool.false_eq_true, if_false] at hmatch
  split at hmatch
  · exact hmatch
  · have hname : name = pattern.pattern := by simpa using hmatch
    subst name
    exact startsWith_refl _

theorem ToolPattern.matches_star_iff
    {pattern : ToolPattern} {name : String}
    (hstar : endsWith pattern.pattern '*' = true) :
    pattern.matches name = true ↔
      startsWith name (dropLast pattern.pattern) = true := by
  simp only [ToolPattern.matches, hstar, if_true]

/-- Away from the doubled star, a pattern that passes the subset test reaches
no name outside its parent. -/
theorem ToolPattern.matches_of_isSubsetOf
    {child parent : ToolPattern} {name : String}
    (hsubset : child.isSubsetOf parent = true)
    (hdouble : parent.starOver child = false)
    (hmatch : child.matches name = true) :
    parent.matches name = true := by
  unfold ToolPattern.isSubsetOf at hsubset
  split at hsubset
  case isFalse hparent =>
    have hsame : child = parent := by
      cases child
      cases parent
      simpa using hsubset
    rw [← hsame]
    exact hmatch
  case isTrue hparent =>
    rw [ToolPattern.matches_star_iff hparent]
    cases hchild : endsWith child.pattern '*' with
    | false =>
        exact startsWith_trans
          (ToolPattern.startsWith_of_matches_of_not_star hchild hmatch)
          hsubset
    | true =>
        rw [ToolPattern.matches_star_iff hchild] at hmatch
        rcases startsWith_dropLast_or_eq hsubset with hstem | hwhole
        · exact startsWith_trans hmatch hstem
        · -- the parent's stem is the child's whole text: a doubled star
          have hdoubled : parent.pattern = child.pattern ++ "*" := by
            apply String.ext
            rw [dropLast_append_of_endsWith hparent, hwhole]
            simp
          simp [ToolPattern.starOver, hchild, hdoubled] at hdouble

/-- Under a doubled star the parent reaches exactly the names that continue
the child's pattern text, star included. -/
theorem ToolPattern.matches_starOver_iff
    {child parent : ToolPattern} {name : String}
    (hdouble : parent.starOver child = true) :
    parent.matches name = true ↔
      startsWith name child.pattern = true := by
  simp only [ToolPattern.starOver, Bool.and_eq_true, beq_iff_eq] at hdouble
  have hstar : endsWith parent.pattern '*' = true := by
    simp [hdouble.2]
  have hstem : dropLast parent.pattern = child.pattern := by
    apply String.ext
    simp [hdouble.2]
  rw [ToolPattern.matches_star_iff hstar, hstem]

namespace MCPCapabilities

theorem isSubsetOf_allowed
    {child parent : MCPCapabilities}
    (hsubset : child.isSubsetOf parent = true) :
    ∀ pattern ∈ child.allowedTools, ∃ cover ∈ parent.allowedTools,
      pattern.isSubsetOf cover = true := by
  unfold isSubsetOf at hsubset
  split at hsubset
  · simp at hsubset
  · rename_i hall
    simpa using hall

/-! ## The two gaps -/

/-- Names that the child allows and the parent denies are denied by the
child's own list. -/
def DenialsRepeated (child parent : MCPCapabilities) : Prop :=
  ∀ allowed ∈ child.allowedTools, ∀ denied ∈ parent.deniedTools,
    ∀ name, allowed.matches name = true → denied.matches name = true →
      ∃ own ∈ child.deniedTools, own.matches name = true

/-- Where every pattern of the parent that includes an allowed pattern of the
child is that pattern with one more star, the names with the child's stem
but not its star are denied by the child or allowed by the parent through
some other pattern. -/
def StarStemsCovered (child parent : MCPCapabilities) : Prop :=
  ∀ allowed ∈ child.allowedTools,
    (∀ cover ∈ parent.allowedTools, allowed.isSubsetOf cover = true →
      cover.starOver allowed = true) →
    ∀ name, startsWith name (dropLast allowed.pattern) = true →
      startsWith name allowed.pattern = false →
      (∃ own ∈ child.deniedTools, own.matches name = true) ∨
        ∃ other ∈ parent.allowedTools, other.matches name = true

theorem denialsRepeated_iff (child parent : MCPCapabilities) :
    child.DenialsRepeated parent ↔
      child.accessPolicy.DenialsKept parent.accessPolicy := by
  constructor
  · rintro hrepeated name ⟨⟨allowed, hallowed, hreach⟩,
      ⟨denied, hdenied, hdeny⟩⟩
    exact hrepeated allowed hallowed denied hdenied name hreach hdeny
  · intro hkept allowed hallowed denied hdenied name hreach hdeny
    exact hkept ⟨⟨allowed, hallowed, hreach⟩, ⟨denied, hdenied, hdeny⟩⟩

theorem starStemsCovered_iff
    {child parent : MCPCapabilities}
    (hsubset : child.isSubsetOf parent = true) :
    child.StarStemsCovered parent ↔
      child.accessPolicy.AllowancesKept parent.accessPolicy := by
  constructor
  · rintro hcovered name ⟨⟨allowed, hallowed, hreach⟩, hnotDenied⟩
    by_cases hplain : ∃ cover ∈ parent.allowedTools,
        allowed.isSubsetOf cover = true ∧ cover.starOver allowed = false
    · obtain ⟨cover, hcover, hsub, hdouble⟩ := hplain
      exact ⟨cover, hcover,
        ToolPattern.matches_of_isSubsetOf hsub hdouble hreach⟩
    · push Not at hplain
      have hdoubled : ∀ cover ∈ parent.allowedTools,
          allowed.isSubsetOf cover = true →
            cover.starOver allowed = true := by
        intro cover hcover hsub
        simpa using hplain cover hcover hsub
      obtain ⟨cover, hcover, hsub⟩ :=
        isSubsetOf_allowed hsubset allowed hallowed
      have hdouble := hdoubled cover hcover hsub
      have hstar := ToolPattern.endsWith_of_starOver hdouble
      cases hwhole : startsWith name allowed.pattern with
      | true =>
          exact ⟨cover, hcover,
            (ToolPattern.matches_starOver_iff hdouble).mpr hwhole⟩
      | false =>
          rcases hcovered allowed hallowed hdoubled name
              ((ToolPattern.matches_star_iff hstar).mp hreach) hwhole with
            hown | hother
          · exact (hnotDenied hown).elim
          · exact hother
  · intro hkept allowed hallowed hdoubled name hstem _
    obtain ⟨cover, hcover, hsub⟩ :=
      isSubsetOf_allowed hsubset allowed hallowed
    have hdouble := hdoubled cover hcover hsub
    have hstar := ToolPattern.endsWith_of_starOver hdouble
    by_cases hown : ∃ own ∈ child.deniedTools, own.matches name = true
    · exact Or.inl hown
    · exact Or.inr (hkept
        ⟨⟨allowed, hallowed,
          (ToolPattern.matches_star_iff hstar).mpr hstem⟩, hown⟩)

/-- A delegation that passes the subset check permits no more tools than its
parent exactly when both gaps of the check are closed by the pattern lists
themselves. -/
theorem isSubsetOf_narrows_iff
    {child parent : MCPCapabilities}
    (hsubset : child.isSubsetOf parent = true) :
    (∀ name, child.isToolAllowed name = .ok () →
        parent.isToolAllowed name = .ok ()) ↔
      child.DenialsRepeated parent ∧ child.StarStemsCovered parent := by
  simp only [isToolAllowed_eq_ok_iff]
  rw [denialsRepeated_iff, starStemsCovered_iff hsubset]
  exact AccessPolicy.permitted_subset_iff _ _

/-- The read-only delegation of the crate's own test. -/
theorem isSubsetOf_narrows_iff_readOnly :
    let parent : MCPCapabilities :=
      { allowedTools := [⟨"filesystem/*"⟩]
        rateLimit := RateLimitParams.daily 1000 }
    let child : MCPCapabilities :=
      { allowedTools := [⟨"filesystem/read_file"⟩]
        rateLimit := RateLimitParams.daily 100 }
    child.isSubsetOf parent = true ∧
      ((∀ name, child.isToolAllowed name = .ok () →
          parent.isToolAllowed name = .ok ()) ↔
        child.DenialsRepeated parent ∧ child.StarStemsCovered parent) := by
  intro parent child
  have hsubset : child.isSubsetOf parent = true := by decide
  exact ⟨hsubset, isSubsetOf_narrows_iff hsubset⟩

/-- A child that drops the parent's denial passes the check and gains the
denied tool. -/
theorem isSubsetOf_drops_denial :
    let parent : MCPCapabilities :=
      { allowedTools := [⟨"filesystem/*"⟩]
        deniedTools := [⟨"filesystem/execute"⟩]
        rateLimit := RateLimitParams.daily 1000 }
    let child : MCPCapabilities :=
      { allowedTools := [⟨"filesystem/*"⟩]
        rateLimit := RateLimitParams.daily 100 }
    child.isSubsetOf parent = true ∧
      child.isToolAllowed "filesystem/execute" = .ok () ∧
      parent.isToolAllowed "filesystem/execute" =
        .error (.toolNotAllowed "filesystem/execute") := by
  decide

end MCPCapabilities

end Auth
end Acdp
