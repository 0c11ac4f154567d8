import Acdp.AlgebraicMac
import Acdp.ArcModel

/-!
# Correctness of issuance and presentation

A credential obtained by running the request, issuance and unblinding code
carries a MAC on the client's attribute and the server's, and a presentation
of it is accepted by the server that issued it.  The proof follows the
protocol: each step is one fact about the MAC algebra, and the proof system
enters only through completeness.
-/

namespace Acdp
namespace Auth

variable {F G Coins : Type}

theorem deserializePoint_pointToBytes {backend : ArcBackend F G Coins}
    (hpoints : backend.PointsRoundTrip) (point : G) :
    ARCCredentialRequest.deserializePoint backend
      (backend.pointToBytes point) = .ok point := by
  have hlength := (hpoints point).1
  have hdecode := (hpoints point).2
  simp [ARCCredentialRequest.deserializePoint, hlength, hdecode]

def ServerPrivateKey.macKey (key : ServerPrivateKey F) : MacKey F :=
  ⟨key.x0, key.x1, key.x2⟩

/-! ## The proved relation -/

theorem presentationRelation_eq [Field F] (u x1 g h tag m1Commit v m1Tag t : G) :
    presentationRelation (F := F) u x1 g h tag m1Commit v m1Tag t =
      { scalars := 4
        elements := [some u, some x1, some g, some h, some tag,
          some m1Commit, some v, some t, some m1Tag]
        equations := [
          (5, [⟨1, 0, 0⟩, ⟨1, 1, 2⟩]),
          (6, [⟨1, 1, 1⟩, ⟨-1, 2, 2⟩]),
          (7, [⟨1, 0, 4⟩, ⟨1, 3, 4⟩]),
          (8, [⟨1, 0, 4⟩])] } := rfl

variable [Field F] [AddCommGroup G] [Module F G]

theorem presentationRelation_holds_iff
    (u x1 g h tag m1Commit v m1Tag t : G) (m1 z r nonce : F) :
    (presentationRelation u x1 g h tag m1Commit v m1Tag t).Holds
        [m1, z, r, nonce] ↔
      m1Commit = m1 • u + z • g ∧
        v = z • x1 - r • g ∧
        t = m1 • tag + nonce • tag ∧
        m1Tag = m1 • tag := by
  rw [presentationRelation_eq]
  constructor
  · intro hholds
    have hequations := hholds.equations
    simpa [LinearRelation.element, LinearRelation.evalTerms,
      LinearRelation.evalTerm, sub_eq_add_neg] using hequations
  · intro hequations
    refine ⟨rfl, by simp, ?_⟩
    simpa [LinearRelation.element, LinearRelation.evalTerms,
      LinearRelation.evalTerm, sub_eq_add_neg] using hequations

/-- A relation of this shape has no witness of any other length. -/
theorem presentationRelation_witness
    {u x1 g h tag m1Commit v m1Tag t : G} {witness : List F}
    (hholds : (presentationRelation u x1 g h tag m1Commit v m1Tag t).Holds
      witness) :
    ∃ m1 z r nonce, witness = [m1, z, r, nonce] := by
  have hlength : witness.length = 4 := hholds.length_eq
  match witness, hlength with
  | [m1, z, r, nonce], _ => exact ⟨m1, z, r, nonce, rfl⟩

/-! ## Issuance -/

theorem issue_new {backend : ArcBackend F G Coins}
    (hpoints : backend.PointsRoundTrip) (key : ServerPrivateKey F)
    (secrets : ClientSecrets F) (m2 b : F) (generators : ARCGenerators G) :
    let publicKey := ServerPublicKey.fromPrivateKey key generators
    let request :=
      ARCCredentialRequest.new backend secrets publicKey generators
    ARCCredentialResponse.issue backend request key m2 generators b =
      .ok
        { u := backend.pointToBytes (b • generators.g)
          encUPrime := backend.pointToBytes
            (b • (secrets.s • generators.g +
                secrets.m1 • key.x1 • generators.g) +
              (key.x0 + m2 * key.x2) • b • generators.g +
              secrets.r1 • generators.g)
          x0Aux := backend.pointToBytes (secrets.r1 • generators.g)
          x1Aux := backend.pointToBytes ((0 : F) • generators.g)
          x2Aux := backend.pointToBytes ((0 : F) • generators.g)
          proof := List.replicate 64 0 } := by
  intro publicKey request
  simp only [ARCCredentialResponse.issue, ARCCredentialRequest.toPoints,
    request, ARCCredentialRequest.new,
    deserializePoint_pointToBytes hpoints, publicKey,
    ServerPublicKey.fromPrivateKey, Bind.bind, Except.bind]

/-- The whole issuance exchange succeeds and yields a MAC, with the counter
at zero. -/
theorem issuance_yields_mac {backend : ArcBackend F G Coins}
    (hpoints : backend.PointsRoundTrip) (key : ServerPrivateKey F)
    (secrets : ClientSecrets F) (m2 b r : F)
    (generators : ARCGenerators G) :
    let publicKey := ServerPublicKey.fromPrivateKey key generators
    let request :=
      ARCCredentialRequest.new backend secrets publicKey generators
    ∃ response credential,
      ARCCredentialResponse.issue backend request key m2 generators b =
          .ok response ∧
        ARCCredential.fromResponse backend response request secrets
          publicKey r = .ok credential ∧
        credential.m1 = secrets.m1 ∧
        credential.x1 = key.x1 • generators.g ∧
        key.macKey.IsMac secrets.m1 m2 credential.u credential.uPrime := by
  intro publicKey request
  let p := b • generators.g
  let blindQ :=
    b • (secrets.s • generators.g + secrets.m1 • key.x1 • generators.g) +
      (key.x0 + m2 * key.x2) • p
  let mask := secrets.r1 • generators.g
  refine ⟨_,
    { m1 := secrets.m1
      u := r • p
      uPrime := r • (blindQ + mask - mask - secrets.s • p)
      x1 := key.x1 • generators.g
      maxPresentations := 1000
      presentationsUsed := 0 },
    issue_new hpoints key secrets m2 b generators, ?_, rfl, rfl, ?_⟩
  · simp only [ARCCredential.fromResponse,
      deserializePoint_pointToBytes hpoints, Bind.bind, Except.bind]
    rfl
  · have hunblind :=
      (key.macKey.isMac_unblind secrets.m1 m2 secrets.s b
        generators.g).smul r
    simpa [ServerPrivateKey.macKey, blindQ, p] using hunblind

/-! ## Presentation -/

theorem ARCPresentationProof.verify_of_create
    {backend : ArcBackend F G Coins} (hcomplete : backend.nizk.Complete)
    {m1 z r nonce : F} {u x1 g h tag m1Commit v m1Tag : G}
    (context : Bytes) (coins : Coins)
    (hholds : (presentationRelation u x1 g h tag m1Commit v m1Tag
      ((m1 + nonce) • tag)).Holds [m1, z, r, nonce]) :
    ∃ proof,
      ARCPresentationProof.create backend m1 z r nonce u x1 g h tag
          m1Commit v m1Tag context coins = .ok proof ∧
        ARCPresentationProof.verify backend proof u x1 g h tag m1Commit v
          m1Tag ((m1 + nonce) • tag) context = .ok () := by
  obtain ⟨hinto, proof, hprove, hverify⟩ :=
    hcomplete _ (presentationSessionId context) _ coins hholds
  refine ⟨proof, ?_, ?_⟩
  · simp only [ARCPresentationProof.create, hinto, hprove]
  · simp only [ARCPresentationProof.verify, hinto, hverify]

/-- The two public points of a presentation are the re-randomised MAC, the
second one under a commitment. -/
theorem buildPresentation_points [DecidableEq F]
    {backend : ArcBackend F G Coins} {credential : ARCCredential F G}
    {context : Bytes} {nonce : UInt64} {generators : ARCGenerators G}
    {random : PresentationRandomness F Coins}
    {presentation : ARCPresentation G}
    (hbuild : credential.buildPresentation backend context nonce generators
      random = .ok presentation) :
    presentation.u = random.a • credential.u ∧
      presentation.uPrimeCommit =
        random.a • credential.uPrime + random.r • generators.g := by
  unfold ARCCredential.buildPresentation at hbuild
  split at hbuild
  next => simp at hbuild
  next =>
    simp only [Bind.bind, Except.bind] at hbuild
    split at hbuild
    next => simp at hbuild
    next =>
      rw [Except.ok.injEq] at hbuild
      rw [← hbuild]
      exact ⟨rfl, rfl⟩

theorem buildPresentation_of_create [DecidableEq F]
    {backend : ArcBackend F G Coins} {credential : ARCCredential F G}
    {context : Bytes} {nonce : UInt64} {generators : ARCGenerators G}
    {random : PresentationRandomness F Coins}
    {presentation : ARCPresentation G}
    (hcreate : (credential.createPresentation backend context nonce
      generators random).1 = .ok presentation) :
    credential.buildPresentation backend context nonce generators random =
      .ok presentation := by
  unfold ARCCredential.createPresentation at hcreate
  split at hcreate
  next => simp at hcreate
  next =>
    split at hcreate
    next => simp at hcreate
    next built hbuild =>
      rw [hbuild]
      exact hcreate

variable [DecidableEq G]

theorem ARCPresentation.verify_eq_ok_true_iff
    (backend : ArcBackend F G Coins) (presentation : ARCPresentation G)
    (key : ServerPrivateKey F) (m2 : F) (context : Bytes)
    (nonce limit : UInt64) (generators : ARCGenerators G) :
    presentation.verify backend key m2 context nonce limit generators =
        .ok true ↔
      nonce < limit ∧ presentation.u ≠ 0 ∧ presentation.uPrimeCommit ≠ 0 ∧
        ARCPresentationProof.verify backend presentation.proof.proof
          presentation.u (key.x1 • generators.g) generators.g generators.h
          presentation.tag presentation.m1Commit
          (key.macKey.residue m2 presentation.u presentation.m1Commit
            presentation.uPrimeCommit)
          presentation.m1Tag presentation.t context = .ok () ∧
        presentation.t = tagBase backend context ∧
        presentation.m1Tag =
          tagBase backend context -
            (nonceScalar nonce : F) • presentation.tag := by
  unfold ARCPresentation.verify
  by_cases hnonce : nonce ≥ limit
  · have hnot : ¬ nonce < limit := UInt64.not_lt.mpr hnonce
    simp [hnonce, hnot]
  · have hlt : nonce < limit := UInt64.not_le.mp hnonce
    rw [if_neg hnonce]
    by_cases hidentity : presentation.u = 0 ∨ presentation.uPrimeCommit = 0
    · rw [if_pos hidentity]
      simp only [Except.ok.injEq, Bool.false_eq_true, false_iff]
      intro hchecks
      rcases hidentity with hu | huPrime
      · exact hchecks.2.1 hu
      · exact hchecks.2.2.1 huPrime
    · rw [if_neg hidentity]
      push Not at hidentity
      simp only [MacKey.residue, ServerPrivateKey.macKey, hlt, hidentity,
        ne_eq, not_false_eq_true, true_and]
      cases hproof : ARCPresentationProof.verify backend
          presentation.proof.proof presentation.u (key.x1 • generators.g)
          generators.g generators.h presentation.tag presentation.m1Commit
          (key.x1 • presentation.m1Commit + key.x0 • presentation.u +
            (key.x2 * m2) • presentation.u - presentation.uPrimeCommit)
          presentation.m1Tag presentation.t context with
      | error e => simp [Bind.bind, Except.bind]
      | ok accepted =>
          simp only [Bind.bind, Except.bind, true_and]
          split_ifs with hmismatch
          · simp only [Except.ok.injEq, Bool.false_eq_true, false_iff]
            intro hmatch
            rcases hmismatch with ht | hm1Tag
            · exact ht hmatch.1
            · exact hm1Tag hmatch.2
          · push Not at hmismatch
            simp [hmismatch]

variable [DecidableEq F]

/-- A credential that carries a MAC builds a presentation, and the holder of
the key accepts it unless one of its two public points is the identity. -/
theorem buildPresentation_verifies
    {backend : ArcBackend F G Coins} (hcomplete : backend.nizk.Complete)
    {key : ServerPrivateKey F} {credential : ARCCredential F G} {m2 : F}
    {generators : ARCGenerators G}
    (hx1 : credential.x1 = key.x1 • generators.g)
    (hmac : key.macKey.IsMac credential.m1 m2 credential.u
      credential.uPrime)
    (context : Bytes) {nonce limit : UInt64}
    (random : PresentationRandomness F Coins)
    (hnonce : nonce < limit)
    (hinvertible : credential.m1 + nonceScalar nonce ≠ 0) :
    ∃ presentation,
      credential.buildPresentation backend context nonce generators random =
          .ok presentation ∧
        (presentation.u ≠ 0 → presentation.uPrimeCommit ≠ 0 →
          presentation.verify backend key m2 context nonce limit
            generators = .ok true) := by
  let m1 := credential.m1
  let n : F := nonceScalar nonce
  let u := random.a • credential.u
  let uPrimeCommit := random.a • credential.uPrime + random.r • generators.g
  let m1Commit := m1 • u + random.z • generators.g
  let v := random.z • credential.x1 - random.r • generators.g
  let t := tagBase backend context
  let tag := (m1 + n)⁻¹ • t
  have ht : (m1 + n) • tag = t := by
    rw [smul_smul, mul_inv_cancel₀ hinvertible, one_smul]
  have hholds : (presentationRelation u credential.x1 generators.g
      generators.h tag m1Commit v (m1 • tag) ((m1 + n) • tag)).Holds
        [m1, random.z, random.r, n] := by
    rw [presentationRelation_holds_iff]
    exact ⟨rfl, rfl, add_smul m1 n tag, rfl⟩
  obtain ⟨proof, hcreate, hverify⟩ :=
    ARCPresentationProof.verify_of_create hcomplete context random.coins
      hholds
  refine ⟨⟨u, uPrimeCommit, m1Commit, tag, m1 • tag, t, ⟨proof⟩⟩, ?_, ?_⟩
  · have hbuild :
        credential.buildPresentation backend context nonce generators
            random =
          (ARCPresentationProof.create backend m1 random.z random.r n u
            credential.x1 generators.g generators.h tag m1Commit v
            (m1 • tag) context random.coins).bind (fun proof =>
              .ok ⟨u, uPrimeCommit, m1Commit, tag, m1 • tag, t,
                ⟨proof⟩⟩) := by
      unfold ARCCredential.buildPresentation
      rw [if_neg hinvertible]
      rfl
    rw [hbuild, hcreate]
    rfl
  · intro hu huPrime
    -- the verifier's residue is the blinding part the prover committed to
    have hresidue : key.macKey.residue m2 u m1Commit uPrimeCommit = v := by
      have hcommitted : key.macKey.IsMac m1 m2 u
          (uPrimeCommit - random.r • generators.g) := by
        simpa [uPrimeCommit, u] using hmac.smul random.a
      have hsplit :=
        (key.macKey.residue_eq_iff m1 m2 random.z random.r generators.g u
          uPrimeCommit).mpr hcommitted
      rw [show v = random.z • key.x1 • generators.g -
        random.r • generators.g by rw [← hx1]]
      exact hsplit
    have hm1Tag : m1 • tag = t - n • tag := by
      rw [eq_sub_iff_add_eq, ← add_smul]
      exact ht
    rw [ARCPresentation.verify_eq_ok_true_iff]
    refine ⟨hnonce, hu, huPrime, ?_, rfl, hm1Tag⟩
    rw [hresidue, ← hx1]
    rw [ht] at hverify
    exact hverify

/-- End to end: the issued credential is a MAC under the server's key, and as
long as it is not exhausted its presentations are created and accepted. -/
theorem issued_credential_presents
    {backend : ArcBackend F G Coins}
    (hpoints : backend.PointsRoundTrip) (hcomplete : backend.nizk.Complete)
    (key : ServerPrivateKey F) (secrets : ClientSecrets F) (m2 b r : F) :
    let generators := ARCGenerators.new backend
    let publicKey := ServerPublicKey.fromPrivateKey key generators
    let request :=
      ARCCredentialRequest.new backend secrets publicKey generators
    ∃ response credential,
      ARCCredentialResponse.issue backend request key m2 generators b =
          .ok response ∧
        ARCCredential.fromResponse backend response request secrets
          publicKey r = .ok credential ∧
        credential.uPrime =
          (key.x0 + secrets.m1 * key.x1 + m2 * key.x2) • credential.u ∧
        ∀ (maxPresentations presentationsUsed : UInt64) (context : Bytes)
          (nonce limit : UInt64) (random : PresentationRandomness F Coins),
          nonce < limit →
          secrets.m1 + nonceScalar nonce ≠ 0 →
          presentationsUsed < maxPresentations →
          ∃ presentation,
            (ARCCredential.createPresentation backend
              { credential with
                maxPresentations := maxPresentations
                presentationsUsed := presentationsUsed }
              context nonce generators random).1 = .ok presentation ∧
            (presentation.u ≠ 0 → presentation.uPrimeCommit ≠ 0 →
              presentation.verify backend key m2 context nonce limit
                generators = .ok true) := by
  intro generators publicKey request
  obtain ⟨response, credential, hissue, hfinal, hm1, hx1, hmac⟩ :=
    issuance_yields_mac hpoints key secrets m2 b r generators
  refine ⟨response, credential, hissue, hfinal, hmac, ?_⟩
  intro maxPresentations presentationsUsed context nonce limit random
    hnonce hinvertible hremaining
  let held : ARCCredential F G :=
    { credential with
      maxPresentations := maxPresentations
      presentationsUsed := presentationsUsed }
  have hheldMac : key.macKey.IsMac held.m1 m2 held.u held.uPrime := by
    rw [show held.m1 = secrets.m1 from hm1]
    exact hmac
  have hheldX1 : held.x1 = key.x1 • generators.g := hx1
  have hheldInvertible : held.m1 + nonceScalar nonce ≠ 0 := by
    rw [show held.m1 = secrets.m1 from hm1]
    exact hinvertible
  obtain ⟨presentation, hbuild, haccept⟩ :=
    buildPresentation_verifies hcomplete hheldX1 hheldMac context random
      hnonce hheldInvertible
  refine ⟨presentation, ?_, haccept⟩
  have hquota : held.checkQuota held.presentationsUsed = .ok () := by
    unfold ARCCredential.checkQuota
    rw [if_neg (UInt64.not_le.mpr hremaining)]
  change (held.createPresentation backend context nonce generators
    random).1 = _
  simp only [ARCCredential.createPresentation, hquota, hbuild]

/-! ## A small instance

The additive group of order eleven, with the transparent proof system. -/

private instance elevenPrime : Fact (Nat.Prime 11) := ⟨by norm_num⟩

def smallBackend : ArcBackend (ZMod 11) (ZMod 11) Unit where
  generator := 1
  hashFromBytes message _ := (message.length % 10 + 1 : ℕ)
  pointToBytes point := UInt8.ofNat point.val :: List.replicate 32 0
  pointFromBytes bytes := bytes.head?.map (fun byte => (byte.toNat : ZMod 11))
  nizk := Nizk.transparent
    (fun scalar => UInt8.ofNat scalar.val) (fun byte => (byte.toNat : ZMod 11))

theorem smallBackend_pointsRoundTrip : smallBackend.PointsRoundTrip := by
  unfold ArcBackend.PointsRoundTrip
  decide

theorem smallBackend_complete : smallBackend.nizk.Complete :=
  Nizk.transparent_complete (by decide)

theorem smallBackend_presents :
    let generators := ARCGenerators.new smallBackend
    let key : ServerPrivateKey (ZMod 11) := ⟨2, 3, 5, 7⟩
    let secrets : ClientSecrets (ZMod 11) := ⟨4, 6, 8, 0⟩
    let publicKey := ServerPublicKey.fromPrivateKey key generators
    let request :=
      ARCCredentialRequest.new smallBackend secrets publicKey generators
    ∃ response credential presentation,
      ARCCredentialResponse.issue smallBackend request key 9 generators 3 =
          .ok response ∧
        ARCCredential.fromResponse smallBackend response request secrets
          publicKey 2 = .ok credential ∧
        credential.uPrime =
          (key.x0 + secrets.m1 * key.x1 + 9 * key.x2) • credential.u ∧
        (ARCCredential.createPresentation smallBackend
          { credential with maxPresentations := 5, presentationsUsed := 4 }
          [116] 6 generators ⟨2, 3, 4, ()⟩).1 = .ok presentation ∧
        presentation.verify smallBackend key 9 [116] 6 8 generators =
          .ok true := by
  intro generators key secrets publicKey request
  obtain ⟨response, credential, hissue, hfinal, hmac, hpresent⟩ :=
    issued_credential_presents smallBackend_pointsRoundTrip
      smallBackend_complete key secrets 9 3 2
  obtain ⟨presentation, hcreate, haccept⟩ :=
    hpresent 5 4 [116] 6 8 ⟨2, 3, 4, ()⟩ (by decide) (by decide)
      (by decide)
  have hbase : credential.u = 6 := by
    have hresponse := Except.ok.inj hissue
    rw [← hresponse] at hfinal
    have hcredential := Except.ok.inj hfinal
    rw [← hcredential]
    decide
  obtain ⟨hu, huPrime⟩ :=
    buildPresentation_points (buildPresentation_of_create hcreate)
  refine ⟨response, credential, presentation, hissue, hfinal, hmac, hcreate,
    haccept ?_ ?_⟩
  · rw [hu]
    change (2 : ZMod 11) • credential.u ≠ 0
    rw [hbase]
    decide
  · rw [huPrime]
    change (2 : ZMod 11) • credential.uPrime +
      (3 : ZMod 11) • (1 : ZMod 11) ≠ 0
    rw [hmac, hbase]
    decide

end Auth
end Acdp
