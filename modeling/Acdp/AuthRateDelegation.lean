import Acdp.AuthDelegationSteps
import Acdp.CallRates

/-!
# What the subset check says about rates

A rate limit allows so many presentations in any window of its length.  The
subset check compares the two counts and leaves the windows out.  The calls
that keep to the child's rate are set against the parent's here, with
instants counted in nanoseconds, the resolution of the code's clock.
-/

namespace Acdp
namespace Auth

def Duration.asNanos (self : Duration) : ℕ :=
  self.secs.toNat * 1000000000 + self.nanos

namespace RateLimitParams

/-- The calls made at these instants keep to the limit. -/
def Admits (self : RateLimitParams) (calls : List ℤ) : Prop :=
  CallRates.Within self.maxPresentations.toNat (self.window.asNanos : ℤ) calls

/-- The parent's window is no longer than the child's, or the child's windows
it takes to cover it allow no more together than the parent does. -/
def WindowsCovered (child parent : RateLimitParams) : Prop :=
  parent.window.asNanos ≤ child.window.asNanos ∨
    (0 < child.window.asNanos ∧
      (parent.window.asNanos ⌈/⌉ child.window.asNanos) *
        child.maxPresentations.toNat ≤ parent.maxPresentations.toNat)

theorem admits_subset_iff (child parent : RateLimitParams) :
    (∀ calls : List ℤ, calls.Pairwise (· ≤ ·) →
        child.Admits calls → parent.Admits calls) ↔
      ∃ spans : ℕ,
        parent.window.asNanos ≤ spans * child.window.asNanos ∧
          spans * child.maxPresentations.toNat ≤
            parent.maxPresentations.toNat := by
  have hwindow : (0 : ℤ) ≤ (child.window.asNanos : ℤ) := by positivity
  unfold Admits
  rw [CallRates.within_subset_iff hwindow]
  apply exists_congr
  intro spans
  rw [nsmul_eq_mul]
  norm_cast

theorem admits_subset_iff_windowsCovered {child parent : RateLimitParams}
    (hcount : child.maxPresentations ≤ parent.maxPresentations) :
    (∀ calls : List ℤ, calls.Pairwise (· ≤ ·) →
        child.Admits calls → parent.Admits calls) ↔
      child.WindowsCovered parent := by
  rw [admits_subset_iff]
  constructor
  · rintro ⟨spans, hcover, hbound⟩
    rcases Nat.eq_zero_or_pos child.window.asNanos with hempty | hwindow
    · left
      rw [hempty, mul_zero] at hcover
      omega
    · right
      refine ⟨hwindow, ?_⟩
      have hfewest :
          parent.window.asNanos ⌈/⌉ child.window.asNanos ≤ spans := by
        rw [ceilDiv_le_iff_le_mul hwindow, mul_comm]
        exact hcover
      exact (Nat.mul_le_mul_right _ hfewest).trans hbound
  · rintro (hlonger | ⟨hwindow, hbound⟩)
    · refine ⟨1, by omega, ?_⟩
      rw [one_mul]
      exact UInt64.le_iff_toNat_le.mp hcount
    · refine ⟨parent.window.asNanos ⌈/⌉ child.window.asNanos, ?_, hbound⟩
      rw [mul_comm]
      exact le_smul_ceilDiv hwindow

end RateLimitParams

namespace MCPCapabilities

/-- Under a parent whose check the child passes, every sequence of calls
within the child's rate is within the parent's exactly when the parent's
window is covered. -/
theorem isSubsetOf_narrows_rate_iff {child parent : MCPCapabilities}
    (hsubset : child.isSubsetOf parent = true) :
    (∀ calls : List ℤ, calls.Pairwise (· ≤ ·) →
        child.rateLimit.Admits calls → parent.rateLimit.Admits calls) ↔
      child.rateLimit.WindowsCovered parent.rateLimit := by
  rw [isSubsetOf_iff] at hsubset
  exact RateLimitParams.admits_subset_iff_windowsCovered hsubset.2.1

/-- Ten presentations an hour under a parent that allows a thousand a day. -/
theorem isSubsetOf_narrows_rate_iff_hourly :
    let parent : MCPCapabilities :=
      { allowedTools := [⟨"filesystem/*"⟩]
        rateLimit := RateLimitParams.daily 1000 }
    let child : MCPCapabilities :=
      { allowedTools := [⟨"filesystem/read_file"⟩]
        rateLimit := RateLimitParams.hourly 10 }
    child.isSubsetOf parent = true ∧
      ((∀ calls : List ℤ, calls.Pairwise (· ≤ ·) →
          child.rateLimit.Admits calls → parent.rateLimit.Admits calls) ↔
        child.rateLimit.WindowsCovered parent.rateLimit) := by
  intro parent child
  have hsubset : child.isSubsetOf parent = true := by decide
  exact ⟨hsubset, isSubsetOf_narrows_rate_iff hsubset⟩

/-- One presentation an hour passes under one a day, and two calls an hour
apart keep to the first limit only. -/
theorem isSubsetOf_widens_rate :
    let parent : MCPCapabilities :=
      { allowedTools := [⟨"filesystem/*"⟩]
        rateLimit := RateLimitParams.daily 1 }
    let child : MCPCapabilities :=
      { allowedTools := [⟨"filesystem/*"⟩]
        rateLimit := RateLimitParams.hourly 1 }
    let calls : List ℤ := [0, 3600000000000]
    child.isSubsetOf parent = true ∧ child.rateLimit.Admits calls ∧
      ¬ parent.rateLimit.Admits calls := by
  intro parent child calls
  refine ⟨by decide, ?_, ?_⟩
  · have hcalls : calls = CallRates.bursts 1 (3600000000000 : ℤ) 2 := by
      simp [calls, CallRates.bursts]
    have hcount : child.rateLimit.maxPresentations.toNat = 1 := by decide
    have hwindow : child.rateLimit.window.asNanos = 3600000000000 := by
      decide
    unfold RateLimitParams.Admits
    rw [hcalls, hcount, hwindow]
    exact CallRates.bursts_within 1 (by norm_num) 2
  · intro hadmits
    have hbound := hadmits 0
    exact absurd hbound (by decide)

end MCPCapabilities
end Auth
end Acdp
