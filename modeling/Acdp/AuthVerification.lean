import Acdp.AuthCredentialPersistence

/-!
# Verification of a presented credential

The decision of `CredentialVerifier::verify`, in the order the code makes its
checks.  Acceptance depends on the signature, the expiry and the tool only:
the attached presentation is not read, and the rate limit is reported without
being enforced.
-/

namespace Acdp
namespace Auth

open Json

variable {F G Coins SecretKey : Type}

structure PresentationContext where
  tool : String
  resource : Option String
  timestamp : DateTime
  serverId : String
  metadata : Option OrderedMap

structure VerificationRequest (F G : Type) where
  credential : ACDPCredential F G
  context : PresentationContext
  arcPresentation : Option (ARCPresentation G)

structure VerificationResult where
  valid : Bool
  principal : Option Principal
  agentId : Option String
  presentationsRemaining : UInt64
  delegationChain : List String
  failureReason : Option String
  verifiedAt : DateTime

namespace VerificationResult

def success (principal : Option Principal) (agentId : Option String)
    (presentationsRemaining : UInt64) (delegationChain : List String)
    (verifiedAt : DateTime) : VerificationResult where
  valid := true
  principal := principal
  agentId := agentId
  presentationsRemaining := presentationsRemaining
  delegationChain := delegationChain
  failureReason := none
  verifiedAt := verifiedAt

def failure (reason : String) (verifiedAt : DateTime) :
    VerificationResult where
  valid := false
  principal := none
  agentId := none
  presentationsRemaining := 0
  delegationChain := []
  failureReason := some reason
  verifiedAt := verifiedAt

end VerificationResult

structure CredentialVerifier where
  gatewayPublicKey : Bytes
  expectedAudience : String

namespace CredentialVerifier

def checkRateLimit (_self : CredentialVerifier)
    (credential : ACDPCredential F G) : Result UInt64 :=
  match credential with
  -- `u64::MAX`: identity-bound credentials are limited on the server
  | .identityBound _ => .ok 18446744073709551615
  | .anonymous credential => credential.checkRateLimit
  | .hybrid credential => credential.checkRateLimit

/-- What a successful result discloses about the holder. -/
def disclosed :
    ACDPCredential F G → Option Principal × Option String × List String
  | .identityBound credential =>
      (some credential.principal, some credential.agent.agentId,
        credential.delegationChain.auditTrail)
  | .anonymous _ => (none, none, [])
  | .hybrid _ => (none, none, [])

def verify (serde : SerdeBackend F G Coins) (ed25519 : Ed25519 SecretKey)
    (self : CredentialVerifier) (request : VerificationRequest F G)
    (now verifiedAt : DateTime) : VerificationResult :=
  match request.credential.verifySignature serde ed25519
      self.gatewayPublicKey with
  | .error e =>
      .failure ("Signature verification failed: " ++ e.display) verifiedAt
  | .ok () =>
      if request.credential.isExpired now then
        .failure "Credential expired" verifiedAt
      else
        match request.credential.mcpCapabilities.isToolAllowed
            request.context.tool with
        | .error e =>
            .failure ("Tool not allowed: " ++ e.display) verifiedAt
        | .ok () =>
            match self.checkRateLimit request.credential with
            | .error e =>
                .failure ("Rate limit exceeded: " ++ e.display) verifiedAt
            | .ok presentationsRemaining =>
                let (principal, agentId, delegationChain) :=
                  disclosed request.credential
                .success principal agentId presentationsRemaining
                  delegationChain verifiedAt

/-! ## What acceptance means -/

theorem checkRateLimit_ok (verifier : CredentialVerifier)
    (credential : ACDPCredential F G) :
    ∃ remaining, verifier.checkRateLimit credential = .ok remaining := by
  cases credential with
  | identityBound credential => exact ⟨_, rfl⟩
  | anonymous credential => exact ⟨_, rfl⟩
  | hybrid credential => exact ⟨_, rfl⟩

theorem verify_valid_iff (serde : SerdeBackend F G Coins)
    (ed25519 : Ed25519 SecretKey) (verifier : CredentialVerifier)
    (request : VerificationRequest F G) (now verifiedAt : DateTime) :
    (verifier.verify serde ed25519 request now verifiedAt).valid = true ↔
      request.credential.verifySignature serde ed25519
          verifier.gatewayPublicKey = .ok () ∧
        request.credential.isExpired now = false ∧
        request.credential.mcpCapabilities.isToolAllowed
          request.context.tool = .ok () := by
  obtain ⟨remaining, hremaining⟩ :=
    verifier.checkRateLimit_ok request.credential
  unfold verify
  cases hsignature : request.credential.verifySignature serde ed25519
      verifier.gatewayPublicKey with
  | error e => simp [VerificationResult.failure]
  | ok accepted =>
      cases hexpired : request.credential.isExpired now with
      | true => simp [VerificationResult.failure]
      | false =>
          cases htool : request.credential.mcpCapabilities.isToolAllowed
              request.context.tool with
          | error e => simp [VerificationResult.failure]
          | ok allowed =>
              simp [hremaining, VerificationResult.success]

/-- A valid result is the successful one: it discloses what the type of the
credential discloses, and nothing else. -/
theorem verify_eq_success (serde : SerdeBackend F G Coins)
    (ed25519 : Ed25519 SecretKey) (verifier : CredentialVerifier)
    (request : VerificationRequest F G) (now verifiedAt : DateTime)
    (hvalid :
      (verifier.verify serde ed25519 request now verifiedAt).valid = true) :
    ∃ remaining,
      verifier.verify serde ed25519 request now verifiedAt =
        .success (disclosed request.credential).1
          (disclosed request.credential).2.1 remaining
          (disclosed request.credential).2.2 verifiedAt := by
  obtain ⟨hsignature, hexpired, htool⟩ :=
    (verify_valid_iff serde ed25519 verifier request now verifiedAt).mp hvalid
  obtain ⟨remaining, hremaining⟩ :=
    verifier.checkRateLimit_ok request.credential
  refine ⟨remaining, ?_⟩
  simp [verify, hsignature, hexpired, htool, hremaining]

/-! ## What a result tells the tool provider -/

/-- Two hybrid credentials that differ at most in their identifier, in the
identities they bind, in their delegation data, in the signature and in the
extensions. -/
structure AgreeBeyondIdentity (first second : HybridCredential F G) :
    Prop where
  version : first.version = second.version
  issuedAt : first.issuedAt = second.issuedAt
  expiresAt : first.expiresAt = second.expiresAt
  arcCredential : first.arcCredential = second.arcCredential
  mcpCapabilities : first.mcpCapabilities = second.mcpCapabilities

theorem verify_hybrid_congr (serde : SerdeBackend F G Coins)
    (ed25519 : Ed25519 SecretKey) (verifier : CredentialVerifier)
    {first second : HybridCredential F G} (context : PresentationContext)
    (arcPresentation : Option (ARCPresentation G)) (now verifiedAt : DateTime)
    (hagree : AgreeBeyondIdentity first second)
    (hsignature :
      first.verifySignature serde ed25519 verifier.gatewayPublicKey =
        second.verifySignature serde ed25519 verifier.gatewayPublicKey) :
    verifier.verify serde ed25519 ⟨.hybrid first, context, arcPresentation⟩
        now verifiedAt =
      verifier.verify serde ed25519 ⟨.hybrid second, context, arcPresentation⟩
        now verifiedAt := by
  have hexpired : (ACDPCredential.hybrid first).isExpired now =
      (ACDPCredential.hybrid second).isExpired now := by
    change decide (first.expiresAt < now) = decide (second.expiresAt < now)
    rw [hagree.expiresAt]
  have hremaining : verifier.checkRateLimit (.hybrid first) =
      verifier.checkRateLimit (.hybrid second) := by
    simp only [checkRateLimit, HybridCredential.checkRateLimit,
      hagree.arcCredential]
  simp only [verify, ACDPCredential.verifySignature,
    ACDPCredential.mcpCapabilities, disclosed, hsignature, hexpired,
    hremaining, hagree.mcpCapabilities]

/-- Hybrid credentials that agree beyond the identities they bind are verified
alike, and a valid result names the holder exactly for identity-bound
credentials. -/
theorem verify_hides_hybrid_identity (serde : SerdeBackend F G Coins)
    (ed25519 : Ed25519 SecretKey) (verifier : CredentialVerifier)
    (context : PresentationContext)
    (arcPresentation : Option (ARCPresentation G))
    (now verifiedAt : DateTime) :
    (∀ first second : HybridCredential F G,
        AgreeBeyondIdentity first second →
        first.verifySignature serde ed25519 verifier.gatewayPublicKey =
          second.verifySignature serde ed25519 verifier.gatewayPublicKey →
        verifier.verify serde ed25519
            ⟨.hybrid first, context, arcPresentation⟩ now verifiedAt =
          verifier.verify serde ed25519
            ⟨.hybrid second, context, arcPresentation⟩ now verifiedAt) ∧
      (∀ credential : HybridCredential F G,
        let result := verifier.verify serde ed25519
          ⟨.hybrid credential, context, arcPresentation⟩ now verifiedAt
        result.valid = true →
          result.principal = none ∧ result.agentId = none ∧
            result.delegationChain = []) ∧
      ∀ credential : IdentityBoundCredential,
        let result := verifier.verify serde ed25519
          ⟨.identityBound credential, context, arcPresentation⟩ now verifiedAt
        result.valid = true →
          result.principal = some credential.principal ∧
            result.agentId = some credential.agent.agentId ∧
            result.delegationChain = credential.delegationChain.proofs.map
              (fun proof => proof.delegator ++ " → " ++ proof.delegatee) := by
  refine ⟨?_, ?_, ?_⟩
  · intro first second hagree hsignature
    exact verify_hybrid_congr serde ed25519 verifier context arcPresentation
      now verifiedAt hagree hsignature
  · intro credential result hvalid
    obtain ⟨remaining, hresult⟩ :=
      verify_eq_success serde ed25519 verifier _ now verifiedAt hvalid
    simp only [result, hresult]
    exact ⟨rfl, rfl, rfl⟩
  · intro credential result hvalid
    obtain ⟨remaining, hresult⟩ :=
      verify_eq_success serde ed25519 verifier _ now verifiedAt hvalid
    simp only [result, hresult]
    exact ⟨rfl, rfl, rfl⟩

variable [Field F] [AddCommGroup G] [Module F G] [DecidableEq G]

/-- The request carries a presentation that passes the check of the
presentation protocol. -/
def CarriesPresentation (backend : ArcBackend F G Coins)
    (request : VerificationRequest F G) (key : ServerPrivateKey F) (m2 : F)
    (presentationContext : Bytes) (nonce presentationLimit : UInt64) :
    Prop :=
  ∃ presentation, request.arcPresentation = some presentation ∧
    presentation.verify backend key m2 presentationContext nonce
      presentationLimit (ARCGenerators.new backend) = .ok true

/-- Acceptance of a rate-limited credential is grounded in a presentation and
in a remaining count exactly when it would be refused for another reason, or
both happen to hold already. -/
theorem verify_grounded_iff (serde : SerdeBackend F G Coins)
    (ed25519 : Ed25519 SecretKey) (verifier : CredentialVerifier)
    (request : VerificationRequest F G) (now verifiedAt : DateTime)
    (key : ServerPrivateKey F) (m2 : F) (presentationContext : Bytes)
    (nonce presentationLimit : UInt64) :
    ((verifier.verify serde ed25519 request now verifiedAt).valid = true →
        ∀ arc, request.credential.arcCredential? = some arc →
          CarriesPresentation serde.toArcBackend request key m2
              presentationContext nonce presentationLimit ∧
            arc.presentationsUsed < arc.maxPresentations) ↔
      request.credential.credentialType = .identityBound ∨
        request.credential.verifySignature serde ed25519
          verifier.gatewayPublicKey ≠ .ok () ∨
        request.credential.isExpired now = true ∨
        request.credential.mcpCapabilities.isToolAllowed
          request.context.tool ≠ .ok () ∨
        (CarriesPresentation serde.toArcBackend request key m2
            presentationContext nonce presentationLimit ∧
          ∀ arc, request.credential.arcCredential? = some arc →
            arc.presentationsUsed < arc.maxPresentations) := by
  rw [verify_valid_iff]
  have hkind : request.credential.credentialType = .identityBound ∨
      ∃ arc, request.credential.arcCredential? = some arc := by
    cases request.credential with
    | identityBound credential => exact Or.inl rfl
    | anonymous credential => exact Or.inr ⟨_, rfl⟩
    | hybrid credential => exact Or.inr ⟨_, rfl⟩
  constructor
  · intro hgrounded
    by_cases hsignature : request.credential.verifySignature serde ed25519
        verifier.gatewayPublicKey = .ok ()
    · by_cases hexpired : request.credential.isExpired now = true
      · exact Or.inr (Or.inr (Or.inl hexpired))
      · by_cases htool : request.credential.mcpCapabilities.isToolAllowed
            request.context.tool = .ok ()
        · rcases hkind with hidentity | hlimited
          · exact Or.inl hidentity
          · have haccepted := hgrounded
              ⟨hsignature, Bool.eq_false_iff.mpr hexpired, htool⟩
            obtain ⟨arc, harc⟩ := hlimited
            refine Or.inr (Or.inr (Or.inr (Or.inr
              ⟨(haccepted arc harc).1, ?_⟩)))
            intro other hother
            exact (haccepted other hother).2
        · exact Or.inr (Or.inr (Or.inr (Or.inl htool)))
    · exact Or.inr (Or.inl hsignature)
  · intro hcondition haccepted arc harc
    obtain ⟨hsignature, hexpired, htool⟩ := haccepted
    rcases hcondition with hidentity | hrefused | hrefused | hrefused | hready
    · cases hcredential : request.credential with
      | identityBound credential =>
          rw [hcredential] at harc
          simp [ACDPCredential.arcCredential?] at harc
      | anonymous credential =>
          rw [hcredential] at hidentity
          simp [ACDPCredential.credentialType] at hidentity
      | hybrid credential =>
          rw [hcredential] at hidentity
          simp [ACDPCredential.credentialType] at hidentity
    · exact (hrefused hsignature).elim
    · rw [hexpired] at hrefused
      exact absurd hrefused Bool.false_ne_true
    · exact (hrefused htool).elim
    · exact ⟨hready.1, hready.2 arc harc⟩

end CredentialVerifier

def smallRequest (credential : ACDPCredential (ZMod 11) (ZMod 11))
    (tool : String) : VerificationRequest (ZMod 11) (ZMod 11) where
  credential := credential
  context := ⟨tool, none, smallInstant, "server", none⟩
  arcPresentation := none

namespace CredentialVerifier

/-- An exhausted credential is accepted without any presentation. -/
theorem verify_accepts_exhausted :
    ((CredentialVerifier.mk [] "https://gateway.example/").verify smallSerde
        smallEd25519 (smallRequest (smallAnonymous 1) "filesystem/read")
        smallInstant smallInstant).valid = true ∧
      (smallRequest (smallAnonymous 1) "filesystem/read").arcPresentation =
        none ∧
      (smallAnonymous 1).arcCredential?.map
        (fun arc => (arc.presentationsUsed, arc.maxPresentations)) =
        some (1, 1) := by
  refine ⟨?_, rfl, rfl⟩
  rw [verify_valid_iff]
  exact ⟨rfl, by decide, by decide⟩

def smallSigned (unsigned : HybridCredential (ZMod 11) (ZMod 11)) :
    HybridCredential (ZMod 11) (ZMod 11) :=
  { unsigned with
    signature := smallEd25519.sign (FixedBytes.filled 32 7)
      (unsigned.signingData smallSerde) }

theorem smallSigned_verifies
    (unsigned : HybridCredential (ZMod 11) (ZMod 11)) :
    (smallSigned unsigned).verifySignature smallSerde smallEd25519
      (FixedBytes.filled 32 7).val = .ok () := by
  have hdata : (smallSigned unsigned).signingData smallSerde =
      unsigned.signingData smallSerde := rfl
  apply (verifyCredentialSignature_key smallEd25519 _ _ _).mpr
  rw [hdata]
  exact smallEd25519_verify_sign _ _

def smallHybrid (humanId : String) : HybridCredential (ZMod 11) (ZMod 11) :=
  smallSigned
    { version := "ACDP/0.3"
      credentialId := FixedBytes.filled 16 1
      issuedAt := smallInstant
      expiresAt := smallInstant
      principal := ⟨humanId, "https://idp.example/", "mcp-client", none⟩
      agent := ⟨"agent://test", FixedBytes.filled 32 9, "test", true, none⟩
      arcCredential := ⟨1, 1, 1, 1, 1, 0⟩
      mcpCapabilities :=
        { allowedTools := [⟨"filesystem/*"⟩]
          rateLimit := RateLimitParams.daily 1 }
      delegation := .noDelegation
      delegationChain := .new
      signature := FixedBytes.filled 64 0
      extensions := {} }

theorem smallHybrid_agree (first second : String) :
    AgreeBeyondIdentity (smallHybrid first) (smallHybrid second) := by
  -- Field by field against the literal, so that no signature is evaluated.
  have hcapabilities : ∀ humanId, (smallHybrid humanId).mcpCapabilities =
      { allowedTools := [⟨"filesystem/*"⟩]
        rateLimit := RateLimitParams.daily 1 } := fun _ => rfl
  have hversion : ∀ humanId, (smallHybrid humanId).version = "ACDP/0.3" :=
    fun _ => rfl
  have hissued : ∀ humanId, (smallHybrid humanId).issuedAt = smallInstant :=
    fun _ => rfl
  have hexpires : ∀ humanId, (smallHybrid humanId).expiresAt = smallInstant :=
    fun _ => rfl
  have harc : ∀ humanId, (smallHybrid humanId).arcCredential =
      ⟨1, 1, 1, 1, 1, 0⟩ := fun _ => rfl
  constructor
  · rw [hversion, hversion]
  · rw [hissued, hissued]
  · rw [hexpires, hexpires]
  · rw [harc, harc]
  · rw [hcapabilities, hcapabilities]

def smallVerifier : CredentialVerifier :=
  ⟨(FixedBytes.filled 32 7).val, "https://gateway.example/"⟩

def smallVerified (humanId : String) : VerificationResult :=
  smallVerifier.verify smallSerde smallEd25519
    (smallRequest (.hybrid (smallHybrid humanId)) "filesystem/read")
    smallInstant smallInstant

/-- The results for two different people are equal, valid, and name neither. -/
theorem verify_hides_alice_and_bob :
    smallVerified "alice" = smallVerified "bob" ∧
      (smallVerified "alice").valid = true ∧
      (smallVerified "alice").principal = none := by
  have hhidden := verify_hides_hybrid_identity smallSerde smallEd25519
    smallVerifier ⟨"filesystem/read", none, smallInstant, "server", none⟩ none
    smallInstant smallInstant
  have hvalid : (smallVerified "alice").valid = true := by
    unfold smallVerified
    rw [verify_valid_iff]
    exact ⟨smallSigned_verifies _, by decide, by decide⟩
  refine ⟨?_, hvalid, (hhidden.2.1 (smallHybrid "alice") hvalid).1⟩
  unfold smallVerified
  apply hhidden.1
  · exact smallHybrid_agree "alice" "bob"
  · exact (smallSigned_verifies _).trans (smallSigned_verifies _).symm

end CredentialVerifier

end Auth
end Acdp
