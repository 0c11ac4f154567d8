import Mathlib.Data.Set.Basic
import Mathlib.Tactic

/-!
# Deny-over-allow access policies

A policy names a set of allowed subjects and a set of denied ones, and
permits what is allowed and not denied.  Inclusion of the permitted sets
splits into a condition on the parent's denials and one on its allowances;
the two can be established separately.
-/

namespace Acdp

structure AccessPolicy (α : Type*) where
  allowed : Set α
  denied : Set α

namespace AccessPolicy

variable {α : Type*}

def permitted (policy : AccessPolicy α) : Set α :=
  policy.allowed \ policy.denied

/-- Every subject the child allows and the parent denies is denied by the
child as well. -/
def DenialsKept (child parent : AccessPolicy α) : Prop :=
  child.allowed ∩ parent.denied ⊆ child.denied

/-- Every subject the child permits is allowed by the parent. -/
def AllowancesKept (child parent : AccessPolicy α) : Prop :=
  child.allowed \ child.denied ⊆ parent.allowed

theorem permitted_subset_iff (child parent : AccessPolicy α) :
    child.permitted ⊆ parent.permitted ↔
      child.DenialsKept parent ∧ child.AllowancesKept parent := by
  constructor
  · intro hsubset
    constructor
    · rintro subject ⟨hallowed, hdenied⟩
      by_contra hkept
      exact (hsubset ⟨hallowed, hkept⟩).2 hdenied
    · intro subject hpermitted
      exact (hsubset hpermitted).1
  · rintro ⟨hdenials, hallowances⟩ subject hpermitted
    refine ⟨hallowances hpermitted, ?_⟩
    intro hdenied
    exact hpermitted.2 (hdenials ⟨hpermitted.1, hdenied⟩)

end AccessPolicy
end Acdp
