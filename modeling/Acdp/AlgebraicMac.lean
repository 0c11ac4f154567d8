import Mathlib.Algebra.Module.Basic
import Mathlib.Algebra.Field.Basic
import Mathlib.Tactic

/-!
# Algebraic MACs and inverse tags

The algebra behind keyed-verification credentials, over an arbitrary vector
space: a MAC on two attributes is a pair of elements whose ratio is an affine
function of the attributes, and a tag divides a context element by an
attribute plus a counter.  Blinded issuance, re-randomisation, commitment
and the injectivity of tags are all statements about these two formulas.
-/

namespace Acdp

variable {F G : Type*} [Field F] [AddCommGroup G] [Module F G]

structure MacKey (F : Type*) where
  x0 : F
  x1 : F
  x2 : F

/-- The scalar by which a MAC on `(m1, m2)` multiplies its base. -/
def MacKey.exponent (key : MacKey F) (m1 m2 : F) : F :=
  key.x0 + m1 * key.x1 + m2 * key.x2

def MacKey.IsMac (key : MacKey F) (m1 m2 : F) (base mac : G) : Prop :=
  mac = key.exponent m1 m2 • base

theorem MacKey.IsMac.smul {key : MacKey F} {m1 m2 : F} {base mac : G}
    (hmac : key.IsMac m1 m2 base mac) (factor : F) :
    key.IsMac m1 m2 (factor • base) (factor • mac) := by
  unfold MacKey.IsMac at hmac ⊢
  rw [hmac, smul_comm]

/-- Unblinding a blindly issued MAC leaves a MAC on the committed attribute:
the issuer multiplies the commitment `s·g + m1·(x1·g)` and adds its own
part, the client subtracts `s` times the base. -/
theorem MacKey.isMac_unblind (key : MacKey F) (m1 m2 blind scale : F)
    (g : G) :
    key.IsMac m1 m2 (scale • g)
      (scale • (blind • g + m1 • key.x1 • g) +
          (key.x0 + m2 * key.x2) • scale • g - blind • scale • g) := by
  unfold MacKey.IsMac MacKey.exponent
  module

/-- What a verifier that holds the key computes from commitments to the
attribute and to the MAC. -/
def MacKey.residue (key : MacKey F) (m2 : F) (base commitment mac : G) : G :=
  key.x1 • commitment + key.x0 • base + (key.x2 * m2) • base - mac

theorem MacKey.residue_eq_iff (key : MacKey F) (m1 m2 z r : F)
    (g base mac : G) :
    key.residue m2 base (m1 • base + z • g) mac =
        z • key.x1 • g - r • g ↔
      key.IsMac m1 m2 base (mac - r • g) := by
  have hsplit :
      key.residue m2 base (m1 • base + z • g) mac -
          (z • key.x1 • g - r • g) =
        key.exponent m1 m2 • base - (mac - r • g) := by
    unfold MacKey.residue MacKey.exponent
    module
  unfold MacKey.IsMac
  rw [← sub_eq_zero, hsplit, sub_eq_zero, eq_comm]

/-! ## Inverse tags -/

def inverseTag (secret counter : F) (context : G) : G :=
  (secret + counter)⁻¹ • context

/-- A tag that satisfies the prover's two equations and the verifier's
recomputation with its own counter is the inverse tag at that counter. -/
theorem inverseTag_of_equations
    {secret witnessed counter : F} {context tag : G}
    (hcontext : context ≠ 0)
    (hwitnessed : context = secret • tag + witnessed • tag)
    (hrecomputed : context - counter • tag = secret • tag) :
    tag ≠ 0 ∧ witnessed = counter ∧ secret + counter ≠ 0 ∧
      tag = inverseTag secret counter context := by
  have htag : tag ≠ 0 := by
    rintro rfl
    apply hcontext
    rw [hwitnessed]
    simp
  have hcounter : witnessed = counter := by
    have hsame : witnessed • tag = counter • tag := by
      have hadd : context = secret • tag + counter • tag :=
        sub_eq_iff_eq_add.mp hrecomputed
      exact add_left_cancel (hwitnessed.symm.trans hadd)
    have hzero : (witnessed - counter) • tag = 0 := by
      rw [sub_smul, hsame, sub_self]
    exact sub_eq_zero.mp ((smul_eq_zero.mp hzero).resolve_right htag)
  have hproduct : context = (secret + counter) • tag := by
    rw [hwitnessed, hcounter, add_smul]
  have hsum : secret + counter ≠ 0 := by
    intro hzero
    apply hcontext
    rw [hproduct, hzero, zero_smul]
  refine ⟨htag, hcounter, hsum, ?_⟩
  rw [inverseTag, hproduct, smul_smul, inv_mul_cancel₀ hsum, one_smul]

/-- Tags of one attribute over one context distinguish their counters. -/
theorem inverseTag_inj {secret left right : F} {context : G}
    (hcontext : context ≠ 0) :
    inverseTag secret left context =
        inverseTag secret right context ↔ left = right := by
  constructor
  · intro htags
    have hzero :
        ((secret + left)⁻¹ - (secret + right)⁻¹) • context = 0 := by
      rw [sub_smul]
      exact sub_eq_zero.mpr htags
    have hinverses : (secret + left)⁻¹ = (secret + right)⁻¹ :=
      sub_eq_zero.mp ((smul_eq_zero.mp hzero).resolve_right hcontext)
    exact add_left_cancel (inv_injective hinverses)
  · intro hcounters
    rw [hcounters]

end Acdp
