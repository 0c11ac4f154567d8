import Acdp.AuthSerde

/-!
# Credentials

The three credential types, what they have in common, the bytes a gateway
signature is checked against, and their JSON form.  The current time is an
argument wherever the code reads the clock.
-/

namespace Acdp
namespace Auth

open Json

inductive CredentialType where
  | identityBound
  | anonymous
  | hybrid
  deriving DecidableEq, Repr

structure Extensions where
  ap2MandateLink : Option String := none
  metadata : Option OrderedValue := none

structure IdentityBoundCredential where
  version : String
  credentialId : Uuid
  issuedAt : DateTime
  expiresAt : DateTime
  principal : Principal
  agent : Agent
  mcpCapabilities : MCPCapabilities
  delegation : DelegationRights
  delegationChain : DelegationChain
  signature : Signature
  extensions : Extensions

structure AnonymousCredential (F G : Type) where
  version : String
  credentialId : Uuid
  issuedAt : DateTime
  expiresAt : DateTime
  arcCredential : ARCCredential F G
  mcpCapabilities : MCPCapabilities
  extensions : Extensions

structure HybridCredential (F G : Type) where
  version : String
  credentialId : Uuid
  issuedAt : DateTime
  expiresAt : DateTime
  principal : Principal
  agent : Agent
  arcCredential : ARCCredential F G
  mcpCapabilities : MCPCapabilities
  delegation : DelegationRights
  delegationChain : DelegationChain
  signature : Signature
  extensions : Extensions

inductive ACDPCredential (F G : Type) where
  | identityBound (credential : IdentityBoundCredential)
  | anonymous (credential : AnonymousCredential F G)
  | hybrid (credential : HybridCredential F G)

variable {F G Coins SecretKey : Type}

/-! ## Signatures -/

/-- The signed bytes of the two signed credential types. -/
def credentialSigningData (serde : SerdeBackend F G Coins) (version : String)
    (credentialId : Uuid) (issuedAt expiresAt : DateTime)
    (principal : Principal) (agent : Agent)
    (mcpCapabilities : MCPCapabilities) (delegation : DelegationRights) :
    Bytes :=
  asBytes version ++ credentialId.val ++
    i64ToLeBytes issuedAt.timestamp ++ i64ToLeBytes expiresAt.timestamp ++
    asBytes (Json.print (.arr [principal.serialize serde,
      agent.serialize serde, mcpCapabilities.serialize,
      delegation.serialize]))

/-- The gateway's signature over the given bytes. -/
def verifyCredentialSignature (ed25519 : Ed25519 SecretKey)
    (issuerPublicKey signingData : Bytes) (signature : Signature) :
    Result Unit :=
  match ed25519.publicKeyFromSlice issuerPublicKey with
  | .error e => .error (.cryptoError ("Invalid public key: " ++ e))
  | .ok publicKey =>
      match ed25519.verify publicKey signingData signature with
      | .error e =>
          .error (.invalidCredential
            ("Signature verification failed: " ++ e))
      | .ok () => .ok ()

def IdentityBoundCredential.signingData (serde : SerdeBackend F G Coins)
    (self : IdentityBoundCredential) : Bytes :=
  credentialSigningData serde self.version self.credentialId self.issuedAt
    self.expiresAt self.principal self.agent self.mcpCapabilities
    self.delegation

def IdentityBoundCredential.verifySignature (serde : SerdeBackend F G Coins)
    (ed25519 : Ed25519 SecretKey) (self : IdentityBoundCredential)
    (issuerPublicKey : Bytes) : Result Unit :=
  verifyCredentialSignature ed25519 issuerPublicKey (self.signingData serde)
    self.signature

def HybridCredential.signingData (serde : SerdeBackend F G Coins)
    (self : HybridCredential F G) : Bytes :=
  credentialSigningData serde self.version self.credentialId self.issuedAt
    self.expiresAt self.principal self.agent self.mcpCapabilities
    self.delegation

def HybridCredential.verifySignature (serde : SerdeBackend F G Coins)
    (ed25519 : Ed25519 SecretKey) (self : HybridCredential F G)
    (issuerPublicKey : Bytes) : Result Unit :=
  verifyCredentialSignature ed25519 issuerPublicKey (self.signingData serde)
    self.signature

theorem verifyCredentialSignature_key (ed25519 : Ed25519 SecretKey)
    (key : PublicKey) (signingData : Bytes) (signature : Signature) :
    verifyCredentialSignature ed25519 key.val signingData signature = .ok () ↔
      ed25519.verify key signingData signature = .ok () := by
  simp only [verifyCredentialSignature, Ed25519.publicKeyFromSlice,
    FixedBytes.ofSlice?_val]
  cases hverify : ed25519.verify key signingData signature with
  | error e => simp
  | ok accepted => simp

def AnonymousCredential.checkRateLimit (self : AnonymousCredential F G) :
    Result UInt64 :=
  .ok self.arcCredential.presentationsRemaining

def HybridCredential.checkRateLimit (self : HybridCredential F G) :
    Result UInt64 :=
  .ok self.arcCredential.presentationsRemaining

namespace ACDPCredential

def credentialId : ACDPCredential F G → Uuid
  | .identityBound credential => credential.credentialId
  | .anonymous credential => credential.credentialId
  | .hybrid credential => credential.credentialId

def expiresAt : ACDPCredential F G → DateTime
  | .identityBound credential => credential.expiresAt
  | .anonymous credential => credential.expiresAt
  | .hybrid credential => credential.expiresAt

def isExpired (self : ACDPCredential F G) (now : DateTime) : Bool :=
  decide (self.expiresAt < now)

def mcpCapabilities : ACDPCredential F G → MCPCapabilities
  | .identityBound credential => credential.mcpCapabilities
  | .anonymous credential => credential.mcpCapabilities
  | .hybrid credential => credential.mcpCapabilities

def credentialType : ACDPCredential F G → CredentialType
  | .identityBound _ => .identityBound
  | .anonymous _ => .anonymous
  | .hybrid _ => .hybrid

/-- Anonymous credentials have no signature to check. -/
def verifySignature (serde : SerdeBackend F G Coins)
    (ed25519 : Ed25519 SecretKey) (self : ACDPCredential F G)
    (issuerPublicKey : Bytes) : Result Unit :=
  match self with
  | .identityBound credential =>
      credential.verifySignature serde ed25519 issuerPublicKey
  | .anonymous _ => .ok ()
  | .hybrid credential =>
      credential.verifySignature serde ed25519 issuerPublicKey

def extensions : ACDPCredential F G → Extensions
  | .identityBound credential => credential.extensions
  | .anonymous credential => credential.extensions
  | .hybrid credential => credential.extensions

def principal? : ACDPCredential F G → Option Principal
  | .identityBound credential => some credential.principal
  | .anonymous _ => none
  | .hybrid credential => some credential.principal

def agent? : ACDPCredential F G → Option Agent
  | .identityBound credential => some credential.agent
  | .anonymous _ => none
  | .hybrid credential => some credential.agent

/-- The credential of the anonymous protocol inside, if there is one. -/
def arcCredential? : ACDPCredential F G → Option (ARCCredential F G)
  | .identityBound _ => none
  | .anonymous credential => some credential.arcCredential
  | .hybrid credential => some credential.arcCredential

end ACDPCredential

/-! ## JSON form -/

namespace Extensions

def serialize (serde : SerdeBackend F G Coins) (self : Extensions) : Json :=
  .obj
    (optionalMember "ap2_mandate_link" .str self.ap2MandateLink ++
      optionalMember "metadata" (OrderedValue.serialize serde.floats)
        self.metadata)

def deserialize (serde : SerdeBackend F G Coins) (doc : Json) :
    Option Extensions := do
  let members ← asObject doc
  let ap2MandateLink ← optionalField asString members "ap2_mandate_link"
  let metadata ←
    optionalField (OrderedValue.deserialize serde.floats) members "metadata"
  some ⟨ap2MandateLink, metadata⟩

end Extensions

namespace IdentityBoundCredential

def serializeFields (serde : SerdeBackend F G Coins)
    (self : IdentityBoundCredential) : List (String × Json) :=
  [("version", .str self.version),
    ("credential_id", serializeUuid serde self.credentialId),
    ("issued_at", serializeDateTime serde self.issuedAt),
    ("expires_at", serializeDateTime serde self.expiresAt),
    ("principal", self.principal.serialize serde),
    ("agent", self.agent.serialize serde),
    ("mcp_capabilities", self.mcpCapabilities.serialize),
    ("delegation", self.delegation.serialize),
    ("delegation_chain", self.delegationChain.serialize serde),
    ("signature", serializeHex self.signature),
    ("extensions", self.extensions.serialize serde)]

def deserialize (serde : SerdeBackend F G Coins)
    (members : List (String × Json)) : Option IdentityBoundCredential := do
  let version ← requiredField asString members "version"
  let credentialId ←
    requiredField (deserializeUuid serde) members "credential_id"
  let issuedAt ← requiredField (deserializeDateTime serde) members "issued_at"
  let expiresAt ← requiredField (deserializeDateTime serde) members "expires_at"
  let principal ← requiredField (Principal.deserialize serde) members "principal"
  let agent ← requiredField (Agent.deserialize serde) members "agent"
  let mcpCapabilities ←
    requiredField MCPCapabilities.deserialize members "mcp_capabilities"
  let delegation ← requiredField DelegationRights.deserialize members "delegation"
  let delegationChain ←
    requiredField (DelegationChain.deserialize serde) members "delegation_chain"
  let signature ← requiredField (deserializeHex 64) members "signature"
  let extensions ←
    defaultedField (Extensions.deserialize serde) {} members "extensions"
  some ⟨version, credentialId, issuedAt, expiresAt, principal, agent,
    mcpCapabilities, delegation, delegationChain, signature, extensions⟩

end IdentityBoundCredential

namespace AnonymousCredential

def serializeFields (serde : SerdeBackend F G Coins)
    (self : AnonymousCredential F G) : List (String × Json) :=
  [("version", .str self.version),
    ("credential_id", serializeUuid serde self.credentialId),
    ("issued_at", serializeDateTime serde self.issuedAt),
    ("expires_at", serializeDateTime serde self.expiresAt),
    ("arc_credential", self.arcCredential.serialize serde),
    ("mcp_capabilities", self.mcpCapabilities.serialize),
    ("extensions", self.extensions.serialize serde)]

def deserialize (serde : SerdeBackend F G Coins)
    (members : List (String × Json)) : Option (AnonymousCredential F G) := do
  let version ← requiredField asString members "version"
  let credentialId ←
    requiredField (deserializeUuid serde) members "credential_id"
  let issuedAt ← requiredField (deserializeDateTime serde) members "issued_at"
  let expiresAt ← requiredField (deserializeDateTime serde) members "expires_at"
  let arcCredential ←
    requiredField (ARCCredential.deserialize serde) members "arc_credential"
  let mcpCapabilities ←
    requiredField MCPCapabilities.deserialize members "mcp_capabilities"
  let extensions ←
    defaultedField (Extensions.deserialize serde) {} members "extensions"
  some ⟨version, credentialId, issuedAt, expiresAt, arcCredential,
    mcpCapabilities, extensions⟩

end AnonymousCredential

namespace HybridCredential

def serializeFields (serde : SerdeBackend F G Coins)
    (self : HybridCredential F G) : List (String × Json) :=
  [("version", .str self.version),
    ("credential_id", serializeUuid serde self.credentialId),
    ("issued_at", serializeDateTime serde self.issuedAt),
    ("expires_at", serializeDateTime serde self.expiresAt),
    ("principal", self.principal.serialize serde),
    ("agent", self.agent.serialize serde),
    ("arc_credential", self.arcCredential.serialize serde),
    ("mcp_capabilities", self.mcpCapabilities.serialize),
    ("delegation", self.delegation.serialize),
    ("delegation_chain", self.delegationChain.serialize serde),
    ("signature", serializeHex self.signature),
    ("extensions", self.extensions.serialize serde)]

def deserialize (serde : SerdeBackend F G Coins)
    (members : List (String × Json)) : Option (HybridCredential F G) := do
  let version ← requiredField asString members "version"
  let credentialId ←
    requiredField (deserializeUuid serde) members "credential_id"
  let issuedAt ← requiredField (deserializeDateTime serde) members "issued_at"
  let expiresAt ← requiredField (deserializeDateTime serde) members "expires_at"
  let principal ← requiredField (Principal.deserialize serde) members "principal"
  let agent ← requiredField (Agent.deserialize serde) members "agent"
  let arcCredential ←
    requiredField (ARCCredential.deserialize serde) members "arc_credential"
  let mcpCapabilities ←
    requiredField MCPCapabilities.deserialize members "mcp_capabilities"
  let delegation ← requiredField DelegationRights.deserialize members "delegation"
  let delegationChain ←
    requiredField (DelegationChain.deserialize serde) members "delegation_chain"
  let signature ← requiredField (deserializeHex 64) members "signature"
  let extensions ←
    defaultedField (Extensions.deserialize serde) {} members "extensions"
  some ⟨version, credentialId, issuedAt, expiresAt, principal, agent,
    arcCredential, mcpCapabilities, delegation, delegationChain, signature,
    extensions⟩

end HybridCredential

namespace ACDPCredential

def typeName : CredentialType → String
  | .identityBound => "identity_bound"
  | .anonymous => "anonymous"
  | .hybrid => "hybrid"

/-- The variant is written as a member `type` before the fields. -/
def serialize (serde : SerdeBackend F G Coins)
    (self : ACDPCredential F G) : Json :=
  .obj (("type", .str (typeName self.credentialType)) ::
    match self with
    | .identityBound credential => credential.serializeFields serde
    | .anonymous credential => credential.serializeFields serde
    | .hybrid credential => credential.serializeFields serde)

def deserialize (serde : SerdeBackend F G Coins) (doc : Json) :
    Option (ACDPCredential F G) := do
  let members ← asObject doc
  let tag ← requiredField asString members "type"
  if tag = "identity_bound" then
    (IdentityBoundCredential.deserialize serde members).map .identityBound
  else if tag = "anonymous" then
    (AnonymousCredential.deserialize serde members).map .anonymous
  else if tag = "hybrid" then
    (HybridCredential.deserialize serde members).map .hybrid
  else none

/-- `serde_json::from_str(&serde_json::to_string(self)?)`.  The parser gives
up at its recursion limit, before the document is complete. -/
def reload (serde : SerdeBackend F G Coins) (self : ACDPCredential F G) :
    Option (ACDPCredential F G) :=
  if (self.serialize serde).fits 127 then
    deserialize serde (self.serialize serde)
  else none

end ACDPCredential

end Auth
end Acdp
