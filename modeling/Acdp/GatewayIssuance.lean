import Acdp.AuthIdentity
import Acdp.GatewayVerification
import Acdp.TextPrefix

/-!
# The issuance endpoint of the gateway server

`POST /credentials/issue`: the token of the caller is checked, the request is
validated, and a credential is put together, stored and handed out.  What is
stored decides which documents the verification endpoint accepts later.  The
credential library and the other crates are a parameter.
-/

namespace Acdp
namespace Gateway

open Auth (Uuid DateTime Signature ValidatorBackend validateLength)

/-! ## Requests -/

structure RateLimitConfig where
  maxPresentations : UInt64
  window : String

structure MCPToolAccess where
  allowed : List String
  denied : List String

structure CredentialCapabilities where
  rateLimit : RateLimitConfig
  mcpTools : MCPToolAccess

inductive CredentialType where
  | identityBound
  | anonymous
  | hybrid
  deriving DecidableEq

/-- `credential_type as i32`. -/
def CredentialType.asI32 : CredentialType → ℤ
  | .identityBound => 0
  | .anonymous => 1
  | .hybrid => 2

structure CredentialIssuanceRequest where
  agentId : String
  agentPublicKey : String
  credentialType : CredentialType
  capabilities : CredentialCapabilities
  durationDays : UInt32

/-- `#[validate(range(min, max))]`. -/
def validateRange (field : String) (min max value : ℕ) :
    List (String × String) :=
  if min ≤ value ∧ value ≤ max then [] else [(field, "range")]

/-- The fields of the capabilities have checks of their own, but the field
that holds them has none, so that they are not made here. -/
def CredentialIssuanceRequest.validate (self : CredentialIssuanceRequest) :
    List (String × String) :=
  (if self.agentId = "" then [("agent_id", "length")] else []) ++
    validateLength "agent_public_key" 64 64 self.agentPublicKey ++
    validateRange "duration_days" 1 365 self.durationDays.toNat

/-- The claims of a token that the endpoint reads. -/
structure IDJAGClaims where
  typ : String
  iss : String
  sub : String
  aud : String
  clientId : String

/-! ## Credentials -/

structure Agent where
  agentId : String
  publicKey : Bytes
  agentType : String

structure MCPCapabilities where
  allowedTools : List String
  deniedTools : List String
  maxCallsPerTool : Option ℕ
  rateLimitWindow : Option String

structure DelegationRights where
  canDelegate : Bool
  maxDepth : ℕ
  allowedCapabilities : List String

structure IdentityBoundCredential (Chain : Type) where
  version : String
  credentialId : Uuid
  issuedAt : DateTime
  expiresAt : DateTime
  principal : PrincipalInfo
  agent : Agent
  mcpCapabilities : MCPCapabilities
  delegation : DelegationRights
  delegationChain : Chain
  signature : Signature

structure AnonymousCredential (Arc : Type) where
  version : String
  credentialId : Uuid
  issuedAt : DateTime
  expiresAt : DateTime
  arcCredential : Arc
  mcpCapabilities : MCPCapabilities

structure HybridCredential (Arc Chain : Type) where
  version : String
  credentialId : Uuid
  issuedAt : DateTime
  expiresAt : DateTime
  principal : PrincipalInfo
  agent : Agent
  arcCredential : Arc
  mcpCapabilities : MCPCapabilities
  delegation : DelegationRights
  delegationChain : Chain
  signature : Signature

inductive ACDPCredential (Arc Chain : Type) where
  | identityBound (credential : IdentityBoundCredential Chain)
  | anonymous (credential : AnonymousCredential Arc)
  | hybrid (credential : HybridCredential Arc Chain)

variable {Arc Chain : Type}

namespace ACDPCredential

def credentialId : ACDPCredential Arc Chain → Uuid
  | .identityBound credential => credential.credentialId
  | .anonymous credential => credential.credentialId
  | .hybrid credential => credential.credentialId

def credentialType : ACDPCredential Arc Chain → CredentialType
  | .identityBound _ => .identityBound
  | .anonymous _ => .anonymous
  | .hybrid _ => .hybrid

def principal : ACDPCredential Arc Chain → Option PrincipalInfo
  | .identityBound credential => some credential.principal
  | .anonymous _ => none
  | .hybrid credential => some credential.principal

def issuedAt : ACDPCredential Arc Chain → DateTime
  | .identityBound credential => credential.issuedAt
  | .anonymous credential => credential.issuedAt
  | .hybrid credential => credential.issuedAt

def expiresAt : ACDPCredential Arc Chain → DateTime
  | .identityBound credential => credential.expiresAt
  | .anonymous credential => credential.expiresAt
  | .hybrid credential => credential.expiresAt

end ACDPCredential

/-- The credential library with the other crates: the validation of requests,
the decoding of tokens for an audience at a time, principals, signatures,
the two halves of an ARC issuance, delegation chains, and JSON. -/
structure McpAuth (Arc Chain : Type) where
  validator : ValidatorBackend
  decodeIdJag : String → String → DateTime → Except String IDJAGClaims
  fromIdJag : String → String → String → Except String PrincipalInfo
  sign : FixedBytes 32 → Bytes → Signature
  issueArc : Bytes → Except String Bytes
  finalizeArc : Bytes → Bytes → Except String Arc
  newChain : Chain
  auditTrail : Chain → List String
  fromStr : String → Except String (ACDPCredential Arc Chain)
  toJson : ACDPCredential Arc Chain → Except String String
  toValue : ACDPCredential Arc Chain → Except String Json.OrderedValue
  isExpired : ACDPCredential Arc Chain → DateTime → Bool

/-- What the verification endpoint uses of it. -/
def McpAuth.library (self : McpAuth Arc Chain) :
    CredentialLibrary (ACDPCredential Arc Chain) where
  fromStr := self.fromStr
  credentialId := ACDPCredential.credentialId
  isExpired := self.isExpired
  kind
    | .identityBound credential =>
        .identityBound credential.principal credential.agent.agentId
          (self.auditTrail credential.delegationChain)
    | .anonymous _ => .anonymous
    | .hybrid _ => .hybrid

structure GatewayConfig where
  gatewayIssuer : String
  gatewaySigningKey : Bytes

/-- The errors of the endpoint; where the handler panics there is no answer at
all. -/
inductive IssuanceError where
  | unauthorized (message : String)
  | invalidIdJag (message : String)
  | credentialIssuanceFailed (message : String)
  | serializationError (message : String)
  | databaseError (message : String)
  | panicked

/-- One request, with what the clock, the generator of random numbers and the
database contribute. -/
structure IssuanceCall where
  authorization : Option String
  body : CredentialIssuanceRequest
  receivedAt : DateTime
  issuedAt : DateTime
  credentialId : Uuid
  randomness : Bytes
  databaseFailure : Option String

/-! ## The token -/

def bearerToken (authorization : Option String) :
    Except IssuanceError String :=
  match authorization with
  | none => .error (.unauthorized "Missing Authorization header")
  | some header =>
      if Text.startsWith header "Bearer " then
        .ok (String.ofList (header.toList.drop 7))
      else .error (.unauthorized "Invalid Authorization header format")

def validateIdJag (mcp : McpAuth Arc Chain) (token expectedAudience : String)
    (now : DateTime) : Except IssuanceError IDJAGClaims :=
  match mcp.decodeIdJag expectedAudience token now with
  | .error e => .error (.invalidIdJag ("JWT decode failed: " ++ e))
  | .ok claims =>
      if claims.typ ≠ "oauth-id-jag+jwt" then
        .error (.invalidIdJag ("Invalid token type: " ++ claims.typ))
      else if claims.aud ≠ expectedAudience then
        .error (.invalidIdJag
          ("Audience mismatch: " ++ claims.aud ++ " != " ++ expectedAudience))
      else .ok claims

/-! ## The credential -/

/-- `Seed::from_slice(&self.signing_key).unwrap()`. -/
def GatewayConfig.seed (self : GatewayConfig) :
    Except IssuanceError (FixedBytes 32) :=
  match FixedBytes.ofSlice? 32 self.gatewaySigningKey with
  | some seed => .ok seed
  | none => .error .panicked

/-- Credentials that the endpoint issues cannot be delegated. -/
def baseDelegation : DelegationRights := ⟨false, 0, []⟩

def parseMcpCapabilities (caps : CredentialCapabilities) : MCPCapabilities :=
  ⟨caps.mcpTools.allowed, caps.mcpTools.denied, none,
    some caps.rateLimit.window⟩

section Service

variable (mcp : McpAuth Arc Chain) (config : GatewayConfig)

def issueIdentityBound (credentialId : Uuid) (principal : PrincipalInfo)
    (agent : Agent) (mcpCapabilities : MCPCapabilities)
    (issuedAt expiresAt : DateTime) :
    Except IssuanceError (ACDPCredential Arc Chain) := do
  let seed ← config.seed
  let signingData := asBytes "ACDP-v0.3" ++ credentialId.val ++
    i64ToLeBytes issuedAt.timestamp ++ i64ToLeBytes expiresAt.timestamp
  return .identityBound
    { version := "0.3"
      credentialId := credentialId
      issuedAt := issuedAt
      expiresAt := expiresAt
      principal := principal
      agent := agent
      mcpCapabilities := mcpCapabilities
      delegation := baseDelegation
      delegationChain := mcp.newChain
      signature := mcp.sign seed signingData }

/-- The server plays both parts of the protocol. -/
def issueArcCredential (randomness : Bytes) : Except IssuanceError Arc :=
  match mcp.issueArc randomness with
  | .error e =>
      .error (.credentialIssuanceFailed ("ARC issuance failed: " ++ e))
  | .ok response =>
      match mcp.finalizeArc randomness response with
      | .error e =>
          .error (.credentialIssuanceFailed ("ARC finalization failed: " ++ e))
      | .ok credential => .ok credential

def issueAnonymous (credentialId : Uuid) (mcpCapabilities : MCPCapabilities)
    (issuedAt expiresAt : DateTime) (randomness : Bytes) :
    Except IssuanceError (ACDPCredential Arc Chain) := do
  let arcCredential ← issueArcCredential mcp randomness
  return .anonymous
    { version := "0.3"
      credentialId := credentialId
      issuedAt := issuedAt
      expiresAt := expiresAt
      arcCredential := arcCredential
      mcpCapabilities := mcpCapabilities }

/-- The signature does not cover the instants. -/
def issueHybrid (credentialId : Uuid) (principal : PrincipalInfo)
    (agent : Agent) (mcpCapabilities : MCPCapabilities)
    (issuedAt expiresAt : DateTime) (randomness : Bytes) :
    Except IssuanceError (ACDPCredential Arc Chain) := do
  let arcCredential ← issueArcCredential mcp randomness
  let seed ← config.seed
  let signingData := asBytes "ACDP-v0.3" ++ credentialId.val
  return .hybrid
    { version := "0.3"
      credentialId := credentialId
      issuedAt := issuedAt
      expiresAt := expiresAt
      principal := principal
      agent := agent
      arcCredential := arcCredential
      mcpCapabilities := mcpCapabilities
      delegation := baseDelegation
      delegationChain := mcp.newChain
      signature := mcp.sign seed signingData }

/-- `CredentialService::issue_credential` up to `store_credential`. -/
def buildCredential (principal : PrincipalInfo) (call : IssuanceCall) :
    Except IssuanceError (ACDPCredential Arc Chain) :=
  let request := call.body
  match hexDecode request.agentPublicKey with
  | .error e =>
      .error (.credentialIssuanceFailed
        ("Invalid agent public key: " ++ e.display))
  | .ok publicKey =>
      let agent : Agent := ⟨request.agentId, publicKey, "mcp-client"⟩
      let mcpCapabilities := parseMcpCapabilities request.capabilities
      match call.issuedAt.addDays? request.durationDays.toNat with
      | none => .error .panicked
      | some expiresAt =>
          match request.credentialType with
          | .identityBound =>
              issueIdentityBound mcp config call.credentialId principal agent
                mcpCapabilities call.issuedAt expiresAt
          | .anonymous =>
              issueAnonymous mcp call.credentialId mcpCapabilities
                call.issuedAt expiresAt call.randomness
          | .hybrid =>
              issueHybrid mcp config call.credentialId principal agent
                mcpCapabilities call.issuedAt expiresAt call.randomness

/-- The endpoint up to `store_credential`. -/
def prepareCredential (call : IssuanceCall) :
    Except IssuanceError (ACDPCredential Arc Chain) := do
  let token ← bearerToken call.authorization
  let claims ← validateIdJag mcp token config.gatewayIssuer call.receivedAt
  match mcp.fromIdJag claims.sub claims.iss claims.clientId with
  | .error e =>
      .error (.credentialIssuanceFailed ("Invalid principal: " ++ e))
  | .ok principal =>
      match call.body.validate with
      | [] => buildCredential mcp config principal call
      | failed =>
          .error (.credentialIssuanceFailed
            ("Invalid request: " ++ mcp.validator.display failed))

end Service

/-! ## The row -/

/-- The columns that the endpoint writes, other than those that start with the
same value in every row. -/
structure CredentialRow where
  credentialType : ℤ
  principalSubject : Option String
  principalIssuer : Option String
  agentId : String
  credentialData : String
  maxPresentations : Int64
  issuedAt : DateTime
  expiresAt : DateTime

theorem inI64_zero : InI64 0 := by decide

namespace CredentialRow

/-- What the verification endpoint reads of the new row. -/
def stored (self : CredentialRow) : StoredCredential where
  maxPresentations := self.maxPresentations.toInt
  presentationsUsed := 0
  revoked := false
  max_range := ⟨self.maxPresentations.le_toInt, self.maxPresentations.toInt_lt⟩
  used_range := inI64_zero

def texts (self : CredentialRow) : List String :=
  self.principalSubject.toList ++ self.principalIssuer.toList ++
    [self.agentId, self.credentialData]

end CredentialRow

/-- `max_presentations as i64`: a limit from 2^63 on is a negative one. -/
def CredentialIssuanceRequest.storedLimit (self : CredentialIssuanceRequest) :
    Int64 :=
  self.capabilities.rateLimit.maxPresentations.toInt64

def credentialRow (mcp : McpAuth Arc Chain)
    (credential : ACDPCredential Arc Chain)
    (request : CredentialIssuanceRequest) :
    Except IssuanceError CredentialRow :=
  match mcp.toJson credential with
  | .error e => .error (.serializationError e)
  | .ok credentialJson =>
      .ok
        { credentialType := credential.credentialType.asI32
          principalSubject := credential.principal.map PrincipalInfo.subject
          principalIssuer := credential.principal.map PrincipalInfo.issuer
          agentId := request.agentId
          credentialData := credentialJson
          maxPresentations := request.storedLimit
          issuedAt := credential.issuedAt
          expiresAt := credential.expiresAt }

/-- `INSERT`: texts must not hold the character NUL, and the primary key must
be new. -/
def insertRow (table : Table) (id : Uuid) (row : CredentialRow) :
    Except IssuanceError Table :=
  if row.texts.any (fun text => text.toList.contains (Char.ofNat 0)) then
    .error (.databaseError "invalid byte sequence for encoding")
  else
    match table id with
    | some _ =>
        .error (.databaseError
          "duplicate key value violates unique constraint")
    | none => .ok (Function.update table id (some row.stored))

def storeCredential (mcp : McpAuth Arc Chain) (call : IssuanceCall)
    (credential : ACDPCredential Arc Chain) (table : Table) :
    Except IssuanceError Table := do
  let row ← credentialRow mcp credential call.body
  match call.databaseFailure with
  | some message => .error (.databaseError message)
  | none => insertRow table credential.credentialId row

/-! ## The answer -/

structure IssuanceResponse where
  credential : Json.OrderedValue
  credentialId : Uuid
  credentialType : CredentialType

def issuanceResponse (mcp : McpAuth Arc Chain)
    (credential : ACDPCredential Arc Chain) :
    Except IssuanceError IssuanceResponse :=
  match mcp.toValue credential with
  | .error e => .error (.serializationError e)
  | .ok value =>
      .ok ⟨value, credential.credentialId, credential.credentialType⟩

/-- What comes of a request: the answer, the credential if it has been stored,
and the table. -/
structure Issuance (Arc Chain : Type) where
  response : Except IssuanceError IssuanceResponse
  stored : Option (ACDPCredential Arc Chain)
  table : Table

/-- The credential has been stored before it is made into an answer, which may
still fail. -/
def issueCredential (mcp : McpAuth Arc Chain) (config : GatewayConfig)
    (call : IssuanceCall) (table : Table) : Issuance Arc Chain :=
  match prepareCredential mcp config call with
  | .error e => ⟨.error e, none, table⟩
  | .ok credential =>
      match storeCredential mcp call credential table with
      | .error e => ⟨.error e, none, table⟩
      | .ok updated =>
          ⟨issuanceResponse mcp credential, some credential, updated⟩

/-! ## What has been stored -/

/-- The caller has shown a token for this gateway, which names the
principal. -/
def TokenNames (mcp : McpAuth Arc Chain) (config : GatewayConfig)
    (call : IssuanceCall) (principal : PrincipalInfo) : Prop :=
  ∃ token claims, bearerToken call.authorization = .ok token ∧
    mcp.decodeIdJag config.gatewayIssuer token call.receivedAt = .ok claims ∧
    claims.typ = "oauth-id-jag+jwt" ∧ claims.aud = config.gatewayIssuer ∧
    mcp.fromIdJag claims.sub claims.iss claims.clientId = .ok principal

/-- The caller has a principal, and the credential is the one it asked for. -/
structure Vetted (mcp : McpAuth Arc Chain) (config : GatewayConfig)
    (call : IssuanceCall) (credential : ACDPCredential Arc Chain) : Prop where
  valid : call.body.validate = []
  authorized : ∃ principal, TokenNames mcp config call principal ∧
    ∀ found ∈ credential.principal, found = principal
  id : credential.credentialId = call.credentialId
  type : credential.credentialType = call.body.credentialType
  agent : ∀ found, credential = .identityBound found →
    found.agent.agentId = call.body.agentId
  lifetime : call.issuedAt.addDays? call.body.durationDays.toNat =
    some credential.expiresAt

variable {mcp : McpAuth Arc Chain} {config : GatewayConfig}
  {call : IssuanceCall} {credential : ACDPCredential Arc Chain}

theorem validateIdJag_eq_ok {token expectedAudience : String} {now : DateTime}
    {claims : IDJAGClaims}
    (hclaims : validateIdJag mcp token expectedAudience now = .ok claims) :
    mcp.decodeIdJag expectedAudience token now = .ok claims ∧
      claims.typ = "oauth-id-jag+jwt" ∧ claims.aud = expectedAudience := by
  unfold validateIdJag at hclaims
  cases hdecode : mcp.decodeIdJag expectedAudience token now with
  | error e =>
      rw [hdecode] at hclaims
      cases hclaims
  | ok found =>
      simp only [hdecode] at hclaims
      split_ifs at hclaims with htyp haud
      have hfound : found = claims := Except.ok.inj hclaims
      rw [← hfound]
      exact ⟨rfl, not_not.mp htyp, not_not.mp haud⟩

/-- The parts that a credential is made from are found in it. -/
structure MadeFrom (principal : PrincipalInfo) (call : IssuanceCall)
    (expiresAt : DateTime) (credential : ACDPCredential Arc Chain) : Prop where
  id : credential.credentialId = call.credentialId
  type : credential.credentialType = call.body.credentialType
  principal : ∀ found ∈ credential.principal, found = principal
  agent : ∀ found, credential = .identityBound found →
    found.agent.agentId = call.body.agentId
  expiresAt : credential.expiresAt = expiresAt

section Issuing

variable {principal : PrincipalInfo} {agent : Agent}
  {mcpCapabilities : MCPCapabilities} {expiresAt : DateTime}

theorem madeFrom_issueIdentityBound
    (htype : call.body.credentialType = .identityBound)
    (hagent : agent.agentId = call.body.agentId)
    (hissue : issueIdentityBound mcp config call.credentialId principal agent
      mcpCapabilities call.issuedAt expiresAt = .ok credential) :
    MadeFrom principal call expiresAt credential := by
  unfold issueIdentityBound at hissue
  cases hseed : config.seed with
  | error e => simp [hseed, bind, Except.bind] at hissue
  | ok seed =>
      simp only [hseed, bind, Except.bind, pure, Except.pure,
        Except.ok.injEq] at hissue
      rw [← hissue]
      refine ⟨rfl, htype.symm, ?_, ?_, rfl⟩
      · intro found hfound
        exact (Option.some.inj hfound).symm
      · intro found hfound
        rw [← ACDPCredential.identityBound.inj hfound]
        exact hagent

theorem madeFrom_issueAnonymous
    (htype : call.body.credentialType = .anonymous)
    (hissue : issueAnonymous mcp call.credentialId mcpCapabilities
      call.issuedAt expiresAt call.randomness = .ok credential) :
    MadeFrom principal call expiresAt credential := by
  unfold issueAnonymous at hissue
  cases harc : issueArcCredential mcp call.randomness with
  | error e => simp [harc, bind, Except.bind] at hissue
  | ok arc =>
      simp only [harc, bind, Except.bind, pure, Except.pure,
        Except.ok.injEq] at hissue
      rw [← hissue]
      refine ⟨rfl, htype.symm, ?_, ?_, rfl⟩
      · intro found hfound
        cases hfound
      · intro found hfound
        cases hfound

theorem madeFrom_issueHybrid
    (htype : call.body.credentialType = .hybrid)
    (hissue : issueHybrid mcp config call.credentialId principal agent
      mcpCapabilities call.issuedAt expiresAt call.randomness =
        .ok credential) :
    MadeFrom principal call expiresAt credential := by
  unfold issueHybrid at hissue
  cases harc : issueArcCredential mcp call.randomness with
  | error e => simp [harc, bind, Except.bind] at hissue
  | ok arc =>
      cases hseed : config.seed with
      | error e => simp [harc, hseed, bind, Except.bind] at hissue
      | ok seed =>
          simp only [harc, hseed, bind, Except.bind, pure, Except.pure,
            Except.ok.injEq] at hissue
          rw [← hissue]
          refine ⟨rfl, htype.symm, ?_, ?_, rfl⟩
          · intro found hfound
            exact (Option.some.inj hfound).symm
          · intro found hfound
            cases hfound

end Issuing

theorem buildCredential_eq_ok {principal : PrincipalInfo}
    (hbuild : buildCredential mcp config principal call = .ok credential) :
    ∃ expiresAt,
      call.issuedAt.addDays? call.body.durationDays.toNat = some expiresAt ∧
        MadeFrom principal call expiresAt credential := by
  unfold buildCredential at hbuild
  cases hkey : hexDecode call.body.agentPublicKey with
  | error e =>
      simp only [hkey, reduceCtorEq] at hbuild
  | ok publicKey =>
      cases hlast : call.issuedAt.addDays? call.body.durationDays.toNat with
      | none => simp only [hkey, hlast, reduceCtorEq] at hbuild
      | some expiresAt =>
          refine ⟨expiresAt, rfl, ?_⟩
          simp only [hkey, hlast] at hbuild
          cases htype : call.body.credentialType with
          | identityBound =>
              simp only [htype] at hbuild
              exact madeFrom_issueIdentityBound htype rfl hbuild
          | anonymous =>
              simp only [htype] at hbuild
              exact madeFrom_issueAnonymous htype hbuild
          | hybrid =>
              simp only [htype] at hbuild
              exact madeFrom_issueHybrid htype hbuild

theorem vetted_of_prepared
    (hprepared : prepareCredential mcp config call = .ok credential) :
    Vetted mcp config call credential := by
  unfold prepareCredential at hprepared
  cases htoken : bearerToken call.authorization with
  | error e => simp [htoken, bind, Except.bind] at hprepared
  | ok token =>
      cases hclaims : validateIdJag mcp token config.gatewayIssuer
          call.receivedAt with
      | error e => simp [htoken, hclaims, bind, Except.bind] at hprepared
      | ok claims =>
          simp only [htoken, hclaims, bind, Except.bind] at hprepared
          cases hprincipal :
              mcp.fromIdJag claims.sub claims.iss claims.clientId with
          | error e => simp only [hprincipal, reduceCtorEq] at hprepared
          | ok principal =>
              simp only [hprincipal] at hprepared
              cases hvalid : call.body.validate with
              | cons failed rest =>
                  simp only [hvalid, reduceCtorEq] at hprepared
              | nil =>
                  simp only [hvalid] at hprepared
                  obtain ⟨hdecoded, htyp, haud⟩ := validateIdJag_eq_ok hclaims
                  obtain ⟨expiresAt, hlast, hmade⟩ :=
                    buildCredential_eq_ok hprepared
                  constructor
                  · exact hvalid
                  · exact ⟨principal, ⟨token, claims, htoken, hdecoded, htyp,
                      haud, hprincipal⟩, hmade.principal⟩
                  · exact hmade.id
                  · exact hmade.type
                  · exact hmade.agent
                  · rw [hmade.expiresAt]
                    exact hlast

/-- What a request that has stored a credential has done to the table. -/
structure Stores (mcp : McpAuth Arc Chain) (config : GatewayConfig)
    (call : IssuanceCall) (table : Table)
    (credential : ACDPCredential Arc Chain) (updated : Table) : Prop where
  vetted : Vetted mcp config call credential
  fresh : table credential.credentialId = none
  row : ∃ row : CredentialRow, row.maxPresentations = call.body.storedLimit ∧
    updated = Function.update table credential.credentialId (some row.stored)

theorem storeCredential_eq_ok {table updated : Table}
    (hstored : storeCredential mcp call credential table = .ok updated) :
    table credential.credentialId = none ∧
      ∃ row : CredentialRow, row.maxPresentations = call.body.storedLimit ∧
        updated =
          Function.update table credential.credentialId (some row.stored) := by
  unfold storeCredential credentialRow at hstored
  cases hjson : mcp.toJson credential with
  | error e => simp [hjson, bind, Except.bind] at hstored
  | ok credentialJson =>
      simp only [hjson, bind, Except.bind] at hstored
      cases hdatabase : call.databaseFailure with
      | some message => simp only [hdatabase, reduceCtorEq] at hstored
      | none =>
          simp only [hdatabase, insertRow] at hstored
          split_ifs at hstored with htexts
          cases hrow : table credential.credentialId with
          | some found => simp only [hrow, reduceCtorEq] at hstored
          | none =>
              simp only [hrow, Except.ok.injEq] at hstored
              exact ⟨rfl, _, rfl, hstored.symm⟩

/-- A request stores what it has prepared, or leaves the table alone. -/
theorem issueCredential_cases (mcp : McpAuth Arc Chain)
    (config : GatewayConfig) (call : IssuanceCall) (table : Table) :
    ((issueCredential mcp config call table).stored = none ∧
      (issueCredential mcp config call table).table = table) ∨
    ∃ credential,
      (issueCredential mcp config call table).stored = some credential ∧
        Stores mcp config call table credential
          (issueCredential mcp config call table).table := by
  unfold issueCredential
  cases hprepared : prepareCredential mcp config call with
  | error e => exact Or.inl ⟨rfl, rfl⟩
  | ok credential =>
      cases hstored : storeCredential mcp call credential table with
      | error e => exact Or.inl ⟨by simp only [hstored], by simp only [hstored]⟩
      | ok updated =>
          obtain ⟨hfresh, hrow⟩ := storeCredential_eq_ok hstored
          right
          refine ⟨credential, by simp only [hstored], ?_⟩
          simp only [hstored]
          exact ⟨vetted_of_prepared hprepared, hfresh, hrow⟩

end Gateway
end Acdp
