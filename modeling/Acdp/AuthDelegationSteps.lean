import Acdp.AuthPatternInclusion
import Acdp.StepMachine

/-!
# Delegation step by step

A delegation is checked against the capabilities it is made from, never
against those at the root of the chain.  Counts and resource limits compose
along a chain; patterns compose as well, except through a wildcard that was
delegated from itself with one more star.  This file says for a whole chain
when everything it reaches still passes the check against its root.
-/

namespace Acdp
namespace Auth

open Text

/-! ## Limits -/

section Limits

variable {α : Type} [LE α] [LT α] [DecidableLT α] [Std.IsLinearOrder α]
  [Std.LawfulOrderLT α]

theorem limitWithin_iff {child parent : Option α} :
    limitWithin child parent = true ↔
      ∀ parentMax, parent = some parentMax →
        ∃ childMax, child = some childMax ∧ childMax ≤ parentMax := by
  cases parent with
  | none => simp [limitWithin]
  | some parentMax =>
      cases child with
      | none => simp [limitWithin]
      | some childMax => simp [limitWithin, Std.not_lt]

theorem limitWithin_refl (limit : Option α) :
    limitWithin limit limit = true := by
  rw [limitWithin_iff]
  intro parentMax hlimit
  exact ⟨parentMax, hlimit, Std.le_refl parentMax⟩

theorem limitWithin_trans {child middle parent : Option α}
    (hchild : limitWithin child middle = true)
    (hmiddle : limitWithin middle parent = true) :
    limitWithin child parent = true := by
  rw [limitWithin_iff] at hchild hmiddle ⊢
  intro parentMax hparent
  obtain ⟨middleMax, hmiddleMax, hlower⟩ := hmiddle parentMax hparent
  obtain ⟨childMax, hchildMax, hlowest⟩ := hchild middleMax hmiddleMax
  exact ⟨childMax, hchildMax, Std.le_trans hlowest hlower⟩

end Limits

namespace ResourceLimits

theorem isSubsetOf_iff (self parent : ResourceLimits) :
    self.isSubsetOf parent = true ↔
      limitWithin self.maxReadBytes parent.maxReadBytes = true ∧
      limitWithin self.maxWriteBytes parent.maxWriteBytes = true ∧
      limitWithin self.maxConcurrentRequests
        parent.maxConcurrentRequests = true := by
  unfold isSubsetOf
  split_ifs with hread hwrite hconcurrent
  · simp at hread
    simp [hread]
  · simp at hwrite
    simp [hwrite]
  · simp at hconcurrent
    simp [hconcurrent]
  · simp at hread hwrite hconcurrent
    simp [hread, hwrite, hconcurrent]

theorem isSubsetOf_refl (self : ResourceLimits) :
    self.isSubsetOf self = true := by
  rw [isSubsetOf_iff]
  exact ⟨limitWithin_refl _, limitWithin_refl _, limitWithin_refl _⟩

theorem isSubsetOf_trans {child middle parent : ResourceLimits}
    (hchild : child.isSubsetOf middle = true)
    (hmiddle : middle.isSubsetOf parent = true) :
    child.isSubsetOf parent = true := by
  rw [isSubsetOf_iff] at hchild hmiddle ⊢
  exact ⟨limitWithin_trans hchild.1 hmiddle.1,
    limitWithin_trans hchild.2.1 hmiddle.2.1,
    limitWithin_trans hchild.2.2 hmiddle.2.2⟩

end ResourceLimits

/-! ## Patterns -/

namespace ToolPattern

theorem isSubsetOf_refl (self : ToolPattern) :
    self.isSubsetOf self = true := by
  cases hstar : endsWith self.pattern '*' with
  | false => exact (isSubsetOf_of_not_star_iff hstar).mpr rfl
  | true =>
      rw [isSubsetOf_of_star_iff hstar, startsWith_iff, toList_dropLast]
      exact List.dropLast_prefix self.pattern.toList

/-- Two inclusions compose, unless the second is by a doubled star and the
first pattern lacks the star of the second. -/
theorem isSubsetOf_trans_iff {child middle parent : ToolPattern}
    (hchild : child.isSubsetOf middle = true)
    (hmiddle : middle.isSubsetOf parent = true) :
    child.isSubsetOf parent = true ↔
      (parent.starOver middle = true →
        startsWith child.pattern middle.pattern = true) := by
  cases hparent : endsWith parent.pattern '*' with
  | false =>
      rw [isSubsetOf_of_not_star_iff hparent] at hmiddle
      have hsame : middle = parent := by
        cases middle
        cases parent
        exact congrArg ToolPattern.mk hmiddle
      rw [starOver_of_not_star hparent, ← hsame]
      simp [hchild]
  | true =>
      rw [isSubsetOf_of_star_iff hparent] at hmiddle ⊢
      cases hmiddleStar : endsWith middle.pattern '*' with
      | false =>
          rw [isSubsetOf_of_not_star_iff hmiddleStar] at hchild
          rw [hchild]
          simp only [hmiddle, true_iff]
          intro _
          exact startsWith_refl middle.pattern
      | true =>
          rw [isSubsetOf_of_star_iff hmiddleStar] at hchild
          rw [starOver_iff hmiddleStar hparent]
          by_cases hdouble : dropLast parent.pattern = middle.pattern
          · rw [hdouble]
            simp
          · have hstem : startsWith (dropLast middle.pattern)
                (dropLast parent.pattern) = true :=
              (startsWith_dropLast_iff hmiddleStar).mpr ⟨hmiddle, hdouble⟩
            have hstarts : startsWith child.pattern
                (dropLast parent.pattern) = true :=
              startsWith_trans hchild hstem
            simp only [hstarts, hdouble, false_implies]

end ToolPattern

namespace MCPCapabilities

theorem isSubsetOf_iff (child parent : MCPCapabilities) :
    child.isSubsetOf parent = true ↔
      (∀ pattern ∈ child.allowedTools, ∃ cover ∈ parent.allowedTools,
        pattern.isSubsetOf cover = true) ∧
      child.rateLimit.maxPresentations ≤
        parent.rateLimit.maxPresentations ∧
      child.resourceLimits.isSubsetOf parent.resourceLimits = true := by
  constructor
  · intro hsubset
    refine ⟨isSubsetOf_allowed hsubset, ?_⟩
    unfold isSubsetOf at hsubset
    split_ifs at hsubset with hallowed hrate hresources
    rw [UInt64.not_lt] at hrate
    exact ⟨hrate, by simpa using hresources⟩
  · rintro ⟨hallowed, hrate, hresources⟩
    have hall : child.allowedTools.all (fun pattern =>
        parent.allowedTools.any (fun cover =>
          pattern.isSubsetOf cover)) = true := by
      simpa using hallowed
    have hnot : ¬ parent.rateLimit.maxPresentations <
        child.rateLimit.maxPresentations := UInt64.not_lt.mpr hrate
    unfold isSubsetOf
    rw [hall, hresources, if_neg (by simp), if_neg hnot, if_neg (by simp)]

theorem isSubsetOf_refl (self : MCPCapabilities) :
    self.isSubsetOf self = true := by
  rw [isSubsetOf_iff]
  refine ⟨?_, UInt64.le_refl _, ResourceLimits.isSubsetOf_refl _⟩
  intro pattern hpattern
  exact ⟨pattern, hpattern, pattern.isSubsetOf_refl⟩

/-- Every pattern of `next` that is led to the root's patterns through those
of `current` by doubled stars alone, whose first star it lacks, is included
in a pattern of the root all the same. -/
def StarsSpanned (root current next : MCPCapabilities) : Prop :=
  ∀ pattern ∈ next.allowedTools,
    (∀ between ∈ current.allowedTools, ∀ cover ∈ root.allowedTools,
      pattern.isSubsetOf between = true → between.isSubsetOf cover = true →
        cover.starOver between = true ∧
          startsWith pattern.pattern between.pattern = false) →
    ∃ other ∈ root.allowedTools, pattern.isSubsetOf other = true

theorem isSubsetOf_root_iff {root current next : MCPCapabilities}
    (hcurrent : current.isSubsetOf root = true)
    (hnext : next.isSubsetOf current = true) :
    next.isSubsetOf root = true ↔ root.StarsSpanned current next := by
  rw [isSubsetOf_iff] at hcurrent hnext
  obtain ⟨hcurrentTools, hcurrentRate, hcurrentResources⟩ := hcurrent
  obtain ⟨hnextTools, hnextRate, hnextResources⟩ := hnext
  constructor
  · intro hroot pattern hpattern _
    exact isSubsetOf_allowed hroot pattern hpattern
  · intro hspanned
    rw [isSubsetOf_iff]
    refine ⟨?_, UInt64.le_trans hnextRate hcurrentRate,
      ResourceLimits.isSubsetOf_trans hnextResources hcurrentResources⟩
    intro pattern hpattern
    by_contra huncovered
    apply huncovered
    apply hspanned pattern hpattern
    intro between hbetween cover hcover hlower hupper
    -- a way round the doubled star would include the pattern in `cover`
    have hlost : ¬ pattern.isSubsetOf cover = true := by
      intro hcovered
      exact huncovered ⟨cover, hcover, hcovered⟩
    rw [ToolPattern.isSubsetOf_trans_iff hlower hupper] at hlost
    push Not at hlost
    exact ⟨hlost.1, Bool.eq_false_iff.mpr hlost.2⟩

/-! ## Chains of delegations -/

/-- One delegation: the new capabilities are checked against the current
ones. -/
def delegation : StepMachine MCPCapabilities MCPCapabilities where
  step current next := if next.isSubsetOf current then some next else none

theorem delegation_step_iff {current next reached : MCPCapabilities} :
    delegation.step current next = some reached ↔
      next.isSubsetOf current = true ∧ next = reached := by
  simp [delegation]

/-- The check accepts every set of capabilities under itself, and along a
chain of delegations all capabilities reached pass it against the root
exactly when every step spans its doubled stars. -/
theorem delegation_composes_iff (root : MCPCapabilities)
    (chain : List MCPCapabilities) :
    root.isSubsetOf root = true ∧
      (delegation.Throughout (fun reached => reached.isSubsetOf root = true)
          root chain ↔
        delegation.Along root.StarsSpanned root chain) := by
  refine ⟨root.isSubsetOf_refl, ?_⟩
  apply StepMachine.throughout_iff_along
  · intro current next reached hcurrent hstep hspanned
    obtain ⟨hnext, rfl⟩ := delegation_step_iff.mp hstep
    exact (isSubsetOf_root_iff hcurrent hnext).mpr hspanned
  · intro reached hreached
    exact hreached
  · intro current next reached hcurrent hstep hreached
    obtain ⟨hnext, rfl⟩ := delegation_step_iff.mp hstep
    exact (isSubsetOf_root_iff hcurrent hnext).mp hreached
  · exact root.isSubsetOf_refl

/-- Two delegations that pass one by one: `a` under `a*` under `a**`, which
does not include `a`. -/
theorem delegation_does_not_compose :
    let root : MCPCapabilities :=
      { allowedTools := [⟨"a**"⟩], rateLimit := RateLimitParams.daily 10 }
    let middle : MCPCapabilities :=
      { allowedTools := [⟨"a*"⟩], rateLimit := RateLimitParams.daily 10 }
    let last : MCPCapabilities :=
      { allowedTools := [⟨"a"⟩], rateLimit := RateLimitParams.daily 10 }
    middle.isSubsetOf root = true ∧ last.isSubsetOf middle = true ∧
      last.isSubsetOf root = false := by
  decide

end MCPCapabilities
end Auth
end Acdp
