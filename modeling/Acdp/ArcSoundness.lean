import Acdp.ArcCorrectness
import Mathlib.Algebra.CharP.Defs
import Mathlib.Data.Set.Card

/-!
# Soundness of presentations and the counting of tags

An accepted presentation with a knowledge-sound proof determines its tag:
the nonce, although a free witness of the proof, is forced by the verifier's
own recomputation of `m1Tag`.  Tags therefore count presentations, one per
nonce below the limit.
-/

namespace Acdp
namespace Auth

variable {F G Coins : Type} [Field F] [AddCommGroup G] [Module F G]

def ARCPresentation.relation (presentation : ARCPresentation G)
    (key : ServerPrivateKey F) (m2 : F) (generators : ARCGenerators G) :
    LinearRelation F G :=
  presentationRelation presentation.u (key.x1 • generators.g) generators.g
    generators.h presentation.tag presentation.m1Commit
    (key.macKey.residue m2 presentation.u presentation.m1Commit
      presentation.uPrimeCommit)
    presentation.m1Tag presentation.t

theorem ARCPresentationProof.witness_of_verify
    {backend : ArcBackend F G Coins}
    (hsound : backend.nizk.KnowledgeSound)
    {proof : Bytes} {u x1 g h tag m1Commit v m1Tag t : G} {context : Bytes}
    (hverify : ARCPresentationProof.verify backend proof u x1 g h tag
      m1Commit v m1Tag t context = .ok ()) :
    ∃ m1 z r n : F,
      (presentationRelation u x1 g h tag m1Commit v m1Tag t).Holds
        [m1, z, r, n] := by
  simp only [ARCPresentationProof.verify] at hverify
  split at hverify
  · simp at hverify
  · split at hverify
    · simp at hverify
    · rename_i haccept
      obtain ⟨witness, hholds⟩ := hsound _ _ _ haccept
      obtain ⟨m1, z, r, n, hwitness⟩ := presentationRelation_witness hholds
      rw [hwitness] at hholds
      exact ⟨m1, z, r, n, hholds⟩

variable [DecidableEq G]

/-- What a witness of an accepted presentation amounts to. -/
structure ARCPresentation.Sound (backend : ArcBackend F G Coins)
    (presentation : ARCPresentation G) (key : ServerPrivateKey F) (m2 : F)
    (context : Bytes) (nonce : UInt64) (generators : ARCGenerators G)
    (m1 r n : F) : Prop where
  tag_ne : presentation.tag ≠ 0
  nonce_eq : n = nonceScalar nonce
  invertible : m1 + nonceScalar nonce ≠ 0
  tag_eq : presentation.tag =
    (m1 + nonceScalar nonce)⁻¹ • tagBase backend context
  mac_eq : presentation.uPrimeCommit - r • generators.g =
    (key.x0 + m1 * key.x1 + m2 * key.x2) • presentation.u

theorem ARCPresentation.sound_of_verify
    {backend : ArcBackend F G Coins} {presentation : ARCPresentation G}
    {key : ServerPrivateKey F} {m2 : F} {context : Bytes}
    {nonce limit : UInt64} {generators : ARCGenerators G}
    (hcontext : tagBase backend context ≠ 0)
    (hverify : presentation.verify backend key m2 context nonce limit
      generators = .ok true)
    {m1 z r n : F}
    (hholds : (presentation.relation key m2 generators).Holds
      [m1, z, r, n]) :
    presentation.Sound backend key m2 context nonce generators m1 r n := by
  rw [ARCPresentation.verify_eq_ok_true_iff] at hverify
  obtain ⟨_, _, _, _, ht, hm1Tag⟩ := hverify
  unfold ARCPresentation.relation at hholds
  rw [presentationRelation_holds_iff] at hholds
  obtain ⟨hcommit, hresidue, htag, hm1⟩ := hholds
  have hwitnessed :
      tagBase backend context =
        m1 • presentation.tag + n • presentation.tag := by
    rw [← ht]
    exact htag
  have hrecomputed :
      tagBase backend context -
          (nonceScalar nonce : F) • presentation.tag =
        m1 • presentation.tag := by
    rw [← hm1Tag]
    exact hm1
  have hforced :=
    inverseTag_of_equations hcontext hwitnessed hrecomputed
  have hmac : key.macKey.IsMac m1 m2 presentation.u
      (presentation.uPrimeCommit - r • generators.g) := by
    rw [hcommit] at hresidue
    exact (key.macKey.residue_eq_iff m1 m2 z r generators.g
      presentation.u presentation.uPrimeCommit).mp hresidue
  exact ⟨hforced.1, hforced.2.1, hforced.2.2.1, hforced.2.2.2, hmac⟩

/-- An accepted presentation whose proof was made with attribute `m1`. -/
def ARCPresentation.AcceptedFor (backend : ArcBackend F G Coins)
    (context : Bytes) (limit : UInt64) (generators : ARCGenerators G)
    (m1 : F) (nonce : UInt64) (presentation : ARCPresentation G) : Prop :=
  ∃ (key : ServerPrivateKey F) (m2 : F),
    presentation.verify backend key m2 context nonce limit generators =
        .ok true ∧
      ∃ z r n : F,
        (presentation.relation key m2 generators).Holds [m1, z, r, n]

theorem ARCPresentation.AcceptedFor.tag_eq
    {backend : ArcBackend F G Coins} {context : Bytes} {limit : UInt64}
    {generators : ARCGenerators G} {m1 : F} {nonce : UInt64}
    {presentation : ARCPresentation G}
    (haccepted : ARCPresentation.AcceptedFor backend context limit
      generators m1 nonce presentation)
    (hcontext : tagBase backend context ≠ 0) :
    nonce < limit ∧
      presentation.tag =
        inverseTag m1 (nonceScalar nonce) (tagBase backend context) := by
  obtain ⟨key, m2, hverify, z, r, n, hholds⟩ := haccepted
  have hsound :=
    ARCPresentation.sound_of_verify hcontext hverify hholds
  have hchecks :=
    (ARCPresentation.verify_eq_ok_true_iff backend presentation key m2
      context nonce limit generators).mp hverify
  exact ⟨hchecks.1, hsound.tag_eq⟩

theorem nonceScalar_inj {q : ℕ} [CharP F q] {limit left right : UInt64}
    (horder : limit.toNat ≤ q) (hleft : left < limit)
    (hright : right < limit) :
    (nonceScalar left : F) = nonceScalar right ↔ left = right := by
  have hleftNat : left.toNat < limit.toNat := UInt64.lt_iff_toNat_lt.mp hleft
  have hrightNat : right.toNat < limit.toNat :=
    UInt64.lt_iff_toNat_lt.mp hright
  constructor
  · intro hscalar
    have hcast : left.toNat = right.toNat :=
      CharP.natCast_injOn_Iio F q
        (Set.mem_Iio.mpr (lt_of_lt_of_le hleftNat horder))
        (Set.mem_Iio.mpr (lt_of_lt_of_le hrightNat horder)) hscalar
    exact UInt64.toNat_inj.mp hcast
  · intro hsame
    rw [hsame]

theorem ARCPresentation.tags_encard_le
    {backend : ArcBackend F G Coins} {context : Bytes}
    (hcontext : tagBase backend context ≠ 0)
    (generators : ARCGenerators G) (m1 : F) (limit : UInt64) :
    { tag : G | ∃ nonce presentation,
        ARCPresentation.AcceptedFor backend context limit generators m1
          nonce presentation ∧
        presentation.tag = tag }.encard ≤ limit.toNat := by
  have hcover :
      { tag : G | ∃ nonce presentation,
          ARCPresentation.AcceptedFor backend context limit generators m1
            nonce presentation ∧
          presentation.tag = tag } ⊆
        (fun count : ℕ =>
          inverseTag m1 (count : F) (tagBase backend context)) ''
            Set.Iio limit.toNat := by
    intro tag htag
    obtain ⟨nonce, presentation, haccepted, hsame⟩ := htag
    have hdetermined := haccepted.tag_eq hcontext
    refine ⟨nonce.toNat, UInt64.lt_iff_toNat_lt.mp hdetermined.1, ?_⟩
    rw [← hsame, hdetermined.2]
    rfl
  calc
    _ ≤ ((fun count : ℕ =>
          inverseTag m1 (count : F) (tagBase backend context)) ''
            Set.Iio limit.toNat).encard := Set.encard_le_encard hcover
    _ ≤ (Set.Iio limit.toNat).encard := Set.encard_image_le _ _
    _ = limit.toNat := by
      rw [← Finset.coe_Iio, Set.encard_coe_eq_coe_finsetCard, Nat.card_Iio]

/-- Soundness of accepted presentations, and its consequences for one
attribute and one context: equal tags mean equal nonces, and there are at
most `limit` tags. -/
theorem ARCPresentation.verify_sound_and_counted
    {q : ℕ} [CharP F q] {backend : ArcBackend F G Coins}
    (hsound : backend.nizk.KnowledgeSound)
    (generators : ARCGenerators G) (context : Bytes)
    (hcontext : tagBase backend context ≠ 0) :
    (∀ (presentation : ARCPresentation G) (key : ServerPrivateKey F)
        (m2 : F) (nonce limit : UInt64),
        presentation.verify backend key m2 context nonce limit generators =
          .ok true →
        (∃ m1 z r n : F,
          (presentation.relation key m2 generators).Holds [m1, z, r, n]) ∧
        ∀ m1 z r n : F,
          (presentation.relation key m2 generators).Holds [m1, z, r, n] →
          presentation.tag ≠ 0 ∧
            n = nonceScalar nonce ∧
            m1 + nonceScalar nonce ≠ 0 ∧
            presentation.tag =
              (m1 + nonceScalar nonce)⁻¹ • tagBase backend context ∧
            presentation.uPrimeCommit - r • generators.g =
              (key.x0 + m1 * key.x1 + m2 * key.x2) • presentation.u) ∧
      ∀ (m1 : F) (limit : UInt64), limit.toNat < q →
        (∀ (first second : ARCPresentation G) (nonce nonce' : UInt64),
          ARCPresentation.AcceptedFor backend context limit generators m1
            nonce first →
          ARCPresentation.AcceptedFor backend context limit generators m1
            nonce' second →
          (first.tag = second.tag ↔ nonce = nonce')) ∧
        { tag : G | ∃ nonce presentation,
            ARCPresentation.AcceptedFor backend context limit generators m1
              nonce presentation ∧
            presentation.tag = tag }.encard ≤ limit.toNat := by
  constructor
  · intro presentation key m2 nonce limit hverify
    constructor
    · have hchecks :=
        (ARCPresentation.verify_eq_ok_true_iff backend presentation key m2
          context nonce limit generators).mp hverify
      exact ARCPresentationProof.witness_of_verify hsound
        hchecks.2.2.2.1
    · intro m1 z r n hholds
      have hforced :=
        ARCPresentation.sound_of_verify hcontext hverify hholds
      exact ⟨hforced.tag_ne, hforced.nonce_eq, hforced.invertible,
        hforced.tag_eq, hforced.mac_eq⟩
  · intro m1 limit horder
    refine ⟨?_, ARCPresentation.tags_encard_le hcontext generators m1 limit⟩
    intro first second nonce nonce' hfirst hsecond
    have hfirstTag := hfirst.tag_eq hcontext
    have hsecondTag := hsecond.tag_eq hcontext
    rw [hfirstTag.2, hsecondTag.2, inverseTag_inj hcontext]
    exact nonceScalar_inj horder.le hfirstTag.1 hsecondTag.1

theorem smallBackend_tags_counted :
    let generators := ARCGenerators.new smallBackend
    let key : ServerPrivateKey (ZMod 11) := ⟨2, 3, 5, 7⟩
    (∃ presentation : ARCPresentation (ZMod 11),
        presentation.verify smallBackend key 9 [116] 6 8 generators =
          .ok true ∧
        ∃ m1 z r n : ZMod 11,
          (presentation.relation key 9 generators).Holds [m1, z, r, n] ∧
          presentation.tag =
            (m1 + nonceScalar 6)⁻¹ • tagBase smallBackend [116]) ∧
      ∀ m1 : ZMod 11,
        (∀ (first second : ARCPresentation (ZMod 11))
            (nonce nonce' : UInt64),
          ARCPresentation.AcceptedFor smallBackend [116] 8 generators m1
            nonce first →
          ARCPresentation.AcceptedFor smallBackend [116] 8 generators m1
            nonce' second →
          (first.tag = second.tag ↔ nonce = nonce')) ∧
        { tag : ZMod 11 | ∃ nonce presentation,
            ARCPresentation.AcceptedFor smallBackend [116] 8 generators m1
              nonce presentation ∧
            presentation.tag = tag }.encard ≤ 8 := by
  intro generators key
  have hcontext : tagBase smallBackend [116] ≠ 0 := by decide
  have hsound : smallBackend.nizk.KnowledgeSound :=
    Nizk.transparent_knowledgeSound _ _
  have hcounted :=
    ARCPresentation.verify_sound_and_counted (q := 11) hsound generators
      [116] hcontext
  refine ⟨?_, fun m1 => hcounted.2 m1 8 (by decide)⟩
  let credential : ARCCredential (ZMod 11) (ZMod 11) := ⟨4, 6, 2, 3, 5, 4⟩
  have hx1 : credential.x1 = key.x1 • generators.g := by decide
  have hmac : key.macKey.IsMac credential.m1 9 credential.u
      credential.uPrime := by
    unfold MacKey.IsMac
    decide
  have hnonce : (6 : UInt64) < 8 := by decide
  have hinvertible : credential.m1 + nonceScalar 6 ≠ 0 := by decide
  obtain ⟨presentation, hbuild, haccept⟩ :=
    buildPresentation_verifies smallBackend_complete hx1 hmac [116]
      ⟨2, 3, 4, ()⟩ hnonce hinvertible
  obtain ⟨hu, huPrime⟩ := buildPresentation_points hbuild
  have hverify := haccept (by rw [hu]; decide) (by rw [huPrime]; decide)
  obtain ⟨⟨m1, z, r, n, hholds⟩, hforced⟩ :=
    hcounted.1 presentation key 9 6 8 hverify
  exact ⟨presentation, hverify, m1, z, r, n, hholds,
    (hforced m1 z r n hholds).2.2.2.1⟩

end Auth
end Acdp
