import Acdp.AuthDelegation
import Mathlib.Tactic

/-!
# The depth of a delegation chain

The number of proofs of a chain is narrowed to a byte before it is compared,
with `>` against the depth a verifier accepts and with `>=` against the depth
a delegator was granted.  Both comparisons and the agreement between them are
settled for chains of any length.
-/

namespace Acdp
namespace Auth

namespace DelegationChain

theorem toNat_depth (self : DelegationChain) :
    self.depth.toNat = self.proofs.length % 256 := by
  simp [depth]

theorem length_addProof (self : DelegationChain) (proof : DelegationProof) :
    (self.addProof proof).proofs.length = self.proofs.length + 1 := by
  simp [addProof]

theorem checkDepth_eq_ok_iff (self : DelegationChain) (maxDepth : UInt8) :
    self.checkDepth maxDepth = .ok () ↔
      self.proofs.length % 256 ≤ maxDepth.toNat := by
  rw [← toNat_depth]
  unfold checkDepth
  split_ifs with hdeep
  · rw [gt_iff_lt, UInt8.lt_iff_toNat_lt] at hdeep
    simp [hdeep]
  · rw [gt_iff_lt, UInt8.lt_iff_toNat_lt, not_lt] at hdeep
    simp [hdeep]

end DelegationChain

theorem DelegationRights.canDelegateAtDepth_eq_ok_iff
    {self : DelegationRights} (hcan : self.canDelegate = true)
    (currentDepth : UInt8) :
    self.canDelegateAtDepth currentDepth = .ok () ↔
      currentDepth.toNat < self.maxDelegationDepth.toNat := by
  simp only [canDelegateAtDepth, hcan, Bool.not_true, Bool.false_eq_true,
    if_false]
  split_ifs with hdeep
  · rw [ge_iff_le, UInt8.le_iff_toNat_le] at hdeep
    simp [hdeep]
  · rw [ge_iff_le, UInt8.le_iff_toNat_le, not_le] at hdeep
    simp [hdeep]

namespace DelegationChain

/-- Both checks count the proofs, and the delegator's accepts a chain exactly
when the verifier's would accept it with one more proof. -/
structure DepthCounted (chain : DelegationChain) : Prop where
  check : ∀ maxDepth : UInt8, chain.checkDepth maxDepth = .ok () ↔
    chain.proofs.length ≤ maxDepth.toNat
  delegate : ∀ rights : DelegationRights, rights.canDelegate = true →
    (rights.canDelegateAtDepth chain.depth = .ok () ↔
      chain.proofs.length < rights.maxDelegationDepth.toNat)
  extend : ∀ rights : DelegationRights, rights.canDelegate = true →
    ∀ proof, rights.canDelegateAtDepth chain.depth = .ok () ↔
      (chain.addProof proof).checkDepth rights.maxDelegationDepth = .ok ()

/-- The depth is accounted exactly for the chains of fewer than 255 proofs:
from 256 on the byte wraps around, and the extension of 255 proofs has
depth zero. -/
theorem depthCounted_iff (chain : DelegationChain) :
    chain.DepthCounted ↔ chain.proofs.length < 255 := by
  constructor
  · intro hcounted
    by_contra hlong
    rw [not_lt] at hlong
    have hbyte : (255 : UInt8).toNat = 255 := by decide
    have hdeepest : chain.proofs.length ≤ 255 := by
      have hwrapped : chain.checkDepth 255 = .ok () := by
        rw [checkDepth_eq_ok_iff]
        omega
      have hcount := (hcounted.check 255).mp hwrapped
      omega
    obtain ⟨proof, _⟩ :=
      List.exists_mem_of_length_pos (l := chain.proofs) (by omega)
    have hextended : (chain.addProof proof).checkDepth 255 = .ok () := by
      rw [checkDepth_eq_ok_iff, length_addProof]
      omega
    have hallowed :=
      (hcounted.extend (.allowDelegation 255) rfl proof).mpr hextended
    rw [DelegationRights.canDelegateAtDepth_eq_ok_iff rfl, toNat_depth]
      at hallowed
    have hgranted : (DelegationRights.allowDelegation
        255).maxDelegationDepth.toNat = 255 := by decide
    omega
  · intro hshort
    refine ⟨?_, ?_, ?_⟩
    · intro maxDepth
      rw [checkDepth_eq_ok_iff, Nat.mod_eq_of_lt (by omega)]
    · intro rights hcan
      rw [DelegationRights.canDelegateAtDepth_eq_ok_iff hcan, toNat_depth,
        Nat.mod_eq_of_lt (by omega)]
    · intro rights hcan proof
      rw [DelegationRights.canDelegateAtDepth_eq_ok_iff hcan, toNat_depth,
        checkDepth_eq_ok_iff, length_addProof, Nat.mod_eq_of_lt (by omega),
        Nat.mod_eq_of_lt (by omega)]
      omega

/-- A chain of 256 proofs passes a check for depth zero, and its holder may
delegate again with a right to one delegation. -/
theorem depth_wraps :
    let proof : DelegationProof :=
      ⟨"agent://a", "agent://b", FixedBytes.filled 16 1,
        FixedBytes.filled 16 2, smallInstant, true, FixedBytes.filled 64 0⟩
    let chain : DelegationChain := ⟨List.replicate 256 proof⟩
    let rights := DelegationRights.allowDelegation 1
    chain.proofs.length = 256 ∧ chain.checkDepth 0 = .ok () ∧
      rights.canDelegateAtDepth chain.depth = .ok () := by
  intro proof chain rights
  have hlength : chain.proofs.length = 256 := List.length_replicate
  refine ⟨hlength, ?_, ?_⟩
  · rw [checkDepth_eq_ok_iff, hlength]
    decide
  · rw [DelegationRights.canDelegateAtDepth_eq_ok_iff rfl, toNat_depth,
      hlength]
    decide

end DelegationChain
end Auth
end Acdp
