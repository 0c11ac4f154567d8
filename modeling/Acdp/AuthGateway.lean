import Acdp.AuthVerification

/-!
# Issuing credentials

The gateway: it exchanges an ID-JAG token for a credential of one of the
three types, and verifies credentials it issued.  Random values and clock
readings of one issuance are arguments.  A signed credential carries a
signature of its identifier, while verification checks a signature of its
contents.
-/

namespace Acdp
namespace Auth

open Json

variable {F G Coins SecretKey : Type}

def ACDP_VERSION : String := "ACDP/0.3"

structure IDJAGToken where
  tokenType : String
  jti : String
  iss : String
  sub : String
  aud : String
  resource : String
  clientId : String
  exp : ℤ
  iat : ℤ
  scope : String
  additionalClaims : Option OrderedMap

namespace IDJAGToken

def isExpired (self : IDJAGToken) (now : DateTime) : Bool :=
  decide (self.exp < now.timestamp)

def verify (self : IDJAGToken) (expectedAud : String)
    (expectedResource : Option String) (now : DateTime) : Result Unit :=
  if self.isExpired now then
    .error (.tokenExchangeFailed "ID-JAG token expired")
  else if self.tokenType ≠ "oauth-id-jag+jwt" then
    .error (.invalidIDJAG ("Invalid token type: " ++ self.tokenType))
  else if self.aud ≠ expectedAud then
    .error (.invalidIDJAG
      ("Audience mismatch: " ++ self.aud ++ " != " ++ expectedAud))
  else
    match expectedResource with
    | none => .ok ()
    | some expectedRes =>
        if self.resource ≠ expectedRes then
          .error (.invalidIDJAG
            ("Resource mismatch: " ++ self.resource ++ " != " ++ expectedRes))
        else .ok ()

end IDJAGToken

structure CredentialIssuanceRequest where
  agentId : String
  agentPublicKey : String
  credentialType : CredentialType
  capabilities : MCPCapabilities
  durationDays : UInt64

structure RateLimitState where
  maxPresentations : UInt64
  presentationsRemaining : UInt64

structure CredentialIssuanceResponse (F G : Type) where
  credential : ACDPCredential F G
  credentialId : Uuid
  expiresAt : DateTime
  rateLimitState : RateLimitState

structure ACDPGateway (SecretKey : Type) where
  keypair : KeyPair SecretKey
  issuer : String

/-- What one issuance draws from the clock and the random number generator. -/
structure IssuanceDraw (F : Type) where
  tokenCheckedAt : DateTime
  now : DateTime
  credentialId : Uuid
  serverPrivateKey : ServerPrivateKey F
  clientSecrets : ClientSecrets F
  b : F
  r : F

/-- `value as i64`. -/
def u64AsI64 (value : UInt64) : ℤ :=
  if value.toNat < 2 ^ 63 then value.toNat else (value.toNat : ℤ) - 2 ^ 64

namespace ACDPGateway

def signCredential (ed25519 : Ed25519 SecretKey)
    (self : ACDPGateway SecretKey) (credentialId : Uuid) : Signature :=
  ed25519.sign self.keypair.sk credentialId.val

def publicKey (self : ACDPGateway SecretKey) : Bytes := self.keypair.pk.val

section Issue

variable [Field F] [AddCommGroup G] [Module F G]

/-- The blind issuance protocol, run by the gateway for both parties. -/
def issueArcCredential (backend : ArcBackend F G Coins)
    (maxPresentations : UInt64) (draw : IssuanceDraw F) :
    Result (ARCCredential F G) := do
  let generators := ARCGenerators.new backend
  let serverPublicKey :=
    ServerPublicKey.fromPrivateKey draw.serverPrivateKey generators
  let request := ARCCredentialRequest.new backend draw.clientSecrets
    serverPublicKey generators
  let response ← ARCCredentialResponse.issue backend request
    draw.serverPrivateKey 0 generators draw.b
  let credential ← ARCCredential.fromResponse backend response request
    draw.clientSecrets serverPublicKey draw.r
  .ok { credential with maxPresentations := maxPresentations }

def requestedAgent (validator : ValidatorBackend)
    (ed25519 : Ed25519 SecretKey) (request : CredentialIssuanceRequest) :
    Result Agent :=
  match hexDecode request.agentPublicKey with
  | .error e =>
      .error (.cryptoError ("Invalid public key hex: " ++ e.display))
  | .ok agentPublicKey =>
      match ed25519.publicKeyFromSlice agentPublicKey with
      | .error e => .error (.cryptoError ("Invalid public key: " ++ e))
      | .ok publicKey =>
          Agent.new validator request.agentId publicKey "custom" false

/-- The checks before anything is drawn: token, principal and agent. -/
def validatedIdentities (validator : ValidatorBackend)
    (ed25519 : Ed25519 SecretKey) (self : ACDPGateway SecretKey)
    (idJag : IDJAGToken) (request : CredentialIssuanceRequest)
    (now : DateTime) : Result (Principal × Agent) := do
  idJag.verify self.issuer none now
  let principal ← Principal.fromIdJag validator idJag.sub idJag.iss
    idJag.clientId
  let agent ← requestedAgent validator ed25519 request
  .ok (principal, agent)

/-- The credential of the requested type. -/
def buildCredential (serde : SerdeBackend F G Coins)
    (ed25519 : Ed25519 SecretKey) (self : ACDPGateway SecretKey)
    (principal : Principal) (agent : Agent)
    (request : CredentialIssuanceRequest) (expiresAt : DateTime)
    (draw : IssuanceDraw F) : Result (ACDPCredential F G) :=
  match request.credentialType with
  | .identityBound =>
      .ok (.identityBound
        { version := ACDP_VERSION
          credentialId := draw.credentialId
          issuedAt := draw.now
          expiresAt := expiresAt
          principal := principal
          agent := agent
          mcpCapabilities := request.capabilities
          delegation := DelegationRights.allowDelegation 5
          delegationChain := DelegationChain.new
          signature := self.signCredential ed25519 draw.credentialId
          extensions := {} })
  | .anonymous => do
      let arcCredential ← issueArcCredential serde.toArcBackend
        request.capabilities.rateLimit.maxPresentations draw
      .ok (.anonymous
        { version := ACDP_VERSION
          credentialId := draw.credentialId
          issuedAt := draw.now
          expiresAt := expiresAt
          arcCredential := arcCredential
          mcpCapabilities := request.capabilities
          extensions := {} })
  | .hybrid => do
      let arcCredential ← issueArcCredential serde.toArcBackend
        request.capabilities.rateLimit.maxPresentations draw
      .ok (.hybrid
        { version := ACDP_VERSION
          credentialId := draw.credentialId
          issuedAt := draw.now
          expiresAt := expiresAt
          principal := principal
          agent := agent
          arcCredential := arcCredential
          mcpCapabilities := request.capabilities
          delegation := DelegationRights.allowDelegation 5
          delegationChain := DelegationChain.new
          signature := self.signCredential ed25519 draw.credentialId
          extensions := {} })

/-- `none` where the addition of the duration panics. -/
def issueCredential (serde : SerdeBackend F G Coins)
    (validator : ValidatorBackend) (ed25519 : Ed25519 SecretKey)
    (self : ACDPGateway SecretKey) (idJag : IDJAGToken)
    (request : CredentialIssuanceRequest) (draw : IssuanceDraw F) :
    Option (Result (CredentialIssuanceResponse F G)) :=
  match self.validatedIdentities validator ed25519 idJag request
      draw.tokenCheckedAt with
  | .error e => some (.error e)
  | .ok (principal, agent) => do
      let expiresAt ← draw.now.addDays? (u64AsI64 request.durationDays)
      match self.buildCredential serde ed25519 principal agent request
          expiresAt draw with
      | .error e => some (.error e)
      | .ok credential =>
          some (.ok
            { credential := credential
              credentialId := draw.credentialId
              expiresAt := expiresAt
              rateLimitState :=
                ⟨request.capabilities.rateLimit.maxPresentations,
                  request.capabilities.rateLimit.maxPresentations⟩ })

end Issue

def verifyCredential (serde : SerdeBackend F G Coins)
    (ed25519 : Ed25519 SecretKey) (self : ACDPGateway SecretKey)
    (request : VerificationRequest F G) (now verifiedAt : DateTime) :
    VerificationResult :=
  let verifier : CredentialVerifier := ⟨self.keypair.pk.val, self.issuer⟩
  verifier.verify serde ed25519 request now verifiedAt

/-! ## Issued credentials under verification -/

/-- Verification with the gateway's key accepts exactly the bytes signed with
its secret key, for signatures of credential identifiers. -/
def SignsIdentifiers (ed25519 : Ed25519 SecretKey)
    (self : ACDPGateway SecretKey) : Prop :=
  ∀ id : Uuid, ed25519.SignatureOf self.keypair.pk
    (ed25519.sign self.keypair.sk id.val) id.val

theorem credentialSigningData_ne_id (serde : SerdeBackend F G Coins)
    (version : String) (credentialId : Uuid) (issuedAt expiresAt : DateTime)
    (principal : Principal) (agent : Agent)
    (mcpCapabilities : MCPCapabilities) (delegation : DelegationRights)
    (id : Uuid) :
    credentialSigningData serde version credentialId issuedAt expiresAt
      principal agent mcpCapabilities delegation ≠ id.val := by
  intro hsame
  have hlength := congrArg List.length hsame
  simp only [credentialSigningData, List.length_append,
    length_i64ToLeBytes, credentialId.property, id.property] at hlength
  omega

theorem verifyCredentialSignature_signCredential
    {ed25519 : Ed25519 SecretKey} {gateway : ACDPGateway SecretKey}
    (hsigns : gateway.SignsIdentifiers ed25519) (id : Uuid)
    (signingData : Bytes) :
    verifyCredentialSignature ed25519 gateway.keypair.pk.val signingData
        (gateway.signCredential ed25519 id) = .ok () ↔
      signingData = id.val := by
  rw [verifyCredentialSignature_key]
  exact hsigns id signingData

section Issued

variable [Field F] [AddCommGroup G] [Module F G]

/-- What the built credential has from the request, and how its signature
fares under the gateway's own key. -/
theorem buildCredential_spec {serde : SerdeBackend F G Coins}
    {ed25519 : Ed25519 SecretKey} {gateway : ACDPGateway SecretKey}
    (hsigns : gateway.SignsIdentifiers ed25519) {principal : Principal}
    {agent : Agent} {request : CredentialIssuanceRequest}
    {expiresAt : DateTime} {draw : IssuanceDraw F}
    {credential : ACDPCredential F G}
    (hbuild : gateway.buildCredential serde ed25519 principal agent request
      expiresAt draw = .ok credential) :
    credential.expiresAt = expiresAt ∧
      credential.mcpCapabilities = request.capabilities ∧
      (credential.verifySignature serde ed25519 gateway.keypair.pk.val =
          .ok () ↔
        request.credentialType = .anonymous) := by
  have hcontents (id : Uuid) := credentialSigningData_ne_id serde
    ACDP_VERSION draw.credentialId draw.now expiresAt principal agent
    request.capabilities (DelegationRights.allowDelegation 5) id
  have hrefused (id : Uuid) := not_congr
    (verifyCredentialSignature_signCredential hsigns id
      (credentialSigningData serde ACDP_VERSION draw.credentialId draw.now
        expiresAt principal agent request.capabilities
        (DelegationRights.allowDelegation 5)))
  unfold buildCredential at hbuild
  cases htype : request.credentialType with
  | identityBound =>
      rw [htype] at hbuild
      simp only [Except.ok.injEq] at hbuild
      rw [← hbuild]
      refine ⟨rfl, rfl, iff_of_false ?_ (by simp)⟩
      exact (hrefused draw.credentialId).mpr (hcontents draw.credentialId)
  | anonymous =>
      rw [htype] at hbuild
      cases harc : issueArcCredential serde.toArcBackend
          request.capabilities.rateLimit.maxPresentations draw with
      | error e => simp [harc, Bind.bind, Except.bind] at hbuild
      | ok arcCredential =>
          simp only [harc, Except.ok.injEq, Bind.bind, Except.bind] at hbuild
          rw [← hbuild]
          exact ⟨rfl, rfl, iff_of_true rfl rfl⟩
  | hybrid =>
      rw [htype] at hbuild
      cases harc : issueArcCredential serde.toArcBackend
          request.capabilities.rateLimit.maxPresentations draw with
      | error e => simp [harc, Bind.bind, Except.bind] at hbuild
      | ok arcCredential =>
          simp only [harc, Except.ok.injEq, Bind.bind, Except.bind] at hbuild
          rw [← hbuild]
          refine ⟨rfl, rfl, iff_of_false ?_ (by simp)⟩
          exact (hrefused draw.credentialId).mpr
            (hcontents draw.credentialId)

theorem issueCredential_eq_ok {serde : SerdeBackend F G Coins}
    {validator : ValidatorBackend} {ed25519 : Ed25519 SecretKey}
    {gateway : ACDPGateway SecretKey} {idJag : IDJAGToken}
    {request : CredentialIssuanceRequest} {draw : IssuanceDraw F}
    {response : CredentialIssuanceResponse F G}
    (hissue : gateway.issueCredential serde validator ed25519 idJag request
      draw = some (.ok response)) :
    ∃ principal agent,
      gateway.buildCredential serde ed25519 principal agent request
        response.expiresAt draw = .ok response.credential := by
  unfold issueCredential at hissue
  split at hissue
  next => simp at hissue
  next principal agent _ =>
    refine ⟨principal, agent, ?_⟩
    cases hexpires : draw.now.addDays? (u64AsI64 request.durationDays) with
    | none => simp [hexpires] at hissue
    | some expiresAt =>
        simp only [hexpires, Option.bind_eq_bind, Option.bind_some] at hissue
        cases hbuild : gateway.buildCredential serde ed25519 principal agent
            request expiresAt draw with
        | error e => simp [hbuild] at hissue
        | ok credential =>
            simp only [hbuild, Option.some.injEq, Except.ok.injEq] at hissue
            rw [← hissue]
            exact hbuild

/-- A credential the gateway issued, presented in time and for an allowed tool,
passes the gateway's own verification exactly if it is anonymous. -/
theorem issued_verifies_iff {serde : SerdeBackend F G Coins}
    {validator : ValidatorBackend} {ed25519 : Ed25519 SecretKey}
    {gateway : ACDPGateway SecretKey}
    (hsigns : gateway.SignsIdentifiers ed25519) {idJag : IDJAGToken}
    {request : CredentialIssuanceRequest} {draw : IssuanceDraw F}
    {response : CredentialIssuanceResponse F G}
    (hissue : gateway.issueCredential serde validator ed25519 idJag request
      draw = some (.ok response))
    {presented : VerificationRequest F G}
    (hpresented : presented.credential = response.credential)
    (htool : request.capabilities.isToolAllowed presented.context.tool =
      .ok ())
    {now : DateTime} (hnow : ¬ response.expiresAt < now)
    (verifiedAt : DateTime) :
    (gateway.verifyCredential serde ed25519 presented now verifiedAt).valid =
        true ↔
      request.credentialType = .anonymous := by
  obtain ⟨principal, agent, hbuild⟩ := issueCredential_eq_ok hissue
  obtain ⟨hexpires, hcapabilities, hsignature⟩ :=
    buildCredential_spec hsigns hbuild
  have hfresh : response.credential.isExpired now = false := by
    rw [ACDPCredential.isExpired, hexpires]
    exact decide_eq_false hnow
  unfold verifyCredential
  rw [CredentialVerifier.verify_valid_iff, hpresented, hcapabilities,
    hsignature]
  constructor
  · intro hvalid
    exact hvalid.1
  · intro hanonymous
    exact ⟨hanonymous, hfresh, htool⟩

end Issued

end ACDPGateway

/-! ## A small gateway -/

def smallValidator : ValidatorBackend where
  isUrl text := Text.startsWith text "https://"
  display failed := ", ".intercalate (failed.map Prod.fst)

def smallGateway : ACDPGateway PublicKey where
  keypair := ⟨FixedBytes.filled 32 7, FixedBytes.filled 32 7⟩
  issuer := "https://gateway.example/"

theorem smallGateway_signsIdentifiers :
    smallGateway.SignsIdentifiers smallEd25519 :=
  fun id => smallEd25519_signatureOf (FixedBytes.filled 32 7) id.property

def smallToken : IDJAGToken where
  tokenType := "oauth-id-jag+jwt"
  jti := "jti-123"
  iss := "https://acme.idp.example"
  sub := "alice@acme.com"
  aud := "https://gateway.example/"
  resource := "https://mcp-server.example.com/"
  clientId := "mcp-client"
  exp := 1700000300
  iat := 1700000000
  scope := "mcp:filesystem:read"
  additionalClaims := none

def smallIssuance (credentialType : CredentialType) :
    CredentialIssuanceRequest where
  agentId := "agent://test"
  agentPublicKey := hexEncode (List.replicate 32 9)
  credentialType := credentialType
  capabilities :=
    { allowedTools := [⟨"filesystem/*"⟩]
      rateLimit := RateLimitParams.daily 1000 }
  durationDays := 7

def smallDraw : IssuanceDraw (ZMod 11) where
  tokenCheckedAt := smallInstant
  now := smallInstant
  credentialId := FixedBytes.filled 16 1
  serverPrivateKey := ⟨2, 5, 7, 9⟩
  clientSecrets := ⟨10, 2, 5, 7⟩
  b := 9
  r := 2

theorem smallGateway_issues (credentialType : CredentialType) :
    ∃ response,
      smallGateway.issueCredential smallSerde smallValidator smallEd25519
        smallToken (smallIssuance credentialType) smallDraw =
        some (.ok response) ∧
      ¬ response.expiresAt < smallInstant := by
  cases credentialType with
  | identityBound => exact ⟨_, rfl, by decide⟩
  | anonymous => exact ⟨_, rfl, by decide⟩
  | hybrid => exact ⟨_, rfl, by decide⟩

theorem smallGateway_anonymous_verifies :
    ∃ response,
      smallGateway.issueCredential smallSerde smallValidator smallEd25519
        smallToken (smallIssuance .anonymous) smallDraw =
        some (.ok response) ∧
      (smallGateway.verifyCredential smallSerde smallEd25519
        (smallRequest response.credential "filesystem/read")
        smallInstant smallInstant).valid = true := by
  obtain ⟨response, hissue, hnow⟩ := smallGateway_issues .anonymous
  have htool : (smallIssuance .anonymous).capabilities.isToolAllowed
      "filesystem/read" = .ok () := by
    decide
  have hpresented :
      (smallRequest response.credential "filesystem/read").credential =
        response.credential := rfl
  have hverify := ACDPGateway.issued_verifies_iff
    smallGateway_signsIdentifiers hissue hpresented htool hnow smallInstant
  exact ⟨response, hissue, hverify.mpr rfl⟩

/-- A fresh identity-bound credential is refused by the gateway that issued
it. -/
theorem smallGateway_refuses_identityBound :
    ∃ response,
      smallGateway.issueCredential smallSerde smallValidator smallEd25519
        smallToken (smallIssuance .identityBound) smallDraw =
        some (.ok response) ∧
      ¬ response.expiresAt < smallInstant ∧
      (smallIssuance .identityBound).capabilities.isToolAllowed
        "filesystem/read" = .ok () ∧
      (smallGateway.verifyCredential smallSerde smallEd25519
        (smallRequest response.credential "filesystem/read")
        smallInstant smallInstant).valid = false := by
  obtain ⟨response, hissue, hnow⟩ := smallGateway_issues .identityBound
  obtain ⟨principal, agent, hbuild⟩ :=
    ACDPGateway.issueCredential_eq_ok hissue
  have hspec :=
    ACDPGateway.buildCredential_spec smallGateway_signsIdentifiers hbuild
  refine ⟨response, hissue, hnow, by decide, ?_⟩
  rw [← Bool.not_eq_true, ACDPGateway.verifyCredential,
    CredentialVerifier.verify_valid_iff]
  intro haccepted
  have htype := hspec.2.2.mp haccepted.1
  simp [smallIssuance] at htype

end Auth
end Acdp
