import Acdp.ArcModel
import Acdp.AuthCapabilities
import Acdp.AuthDelegation
import Acdp.AuthIdentity

/-!
# JSON forms of the parts of a credential

What the derived and hand-written `Serialize` and `Deserialize` instances do.
Identifiers, instants, floating-point numbers, scalars and points have their
texts and encodings from libraries, collected in `SerdeBackend`.
-/

namespace Acdp
namespace Auth

open Json

structure SerdeBackend (F G Coins : Type) extends ArcBackend F G Coins where
  uuidToString : Uuid → String
  uuidParseStr : String → Option Uuid
  dateTimeToString : DateTime → String
  dateTimeParse : String → Option DateTime
  floats : FloatText
  scalarToBytes : F → FixedBytes 32
  scalarFromRepr : FixedBytes 32 → Option F

/-- Library encodings decode to the value that was encoded. -/
structure SerdeBackend.RoundTrips {F G Coins : Type}
    (serde : SerdeBackend F G Coins) : Prop where
  uuid : ∀ id, serde.uuidParseStr (serde.uuidToString id) = some id
  dateTime : ∀ instant,
    serde.dateTimeParse (serde.dateTimeToString instant) = some instant
  scalar : ∀ scalar,
    serde.scalarFromRepr (serde.scalarToBytes scalar) = some scalar
  point : serde.toArcBackend.PointsRoundTrip

variable {F G Coins : Type}

/-! ## Leaves -/

/-- `public_key_serde` and `signature_serde`. -/
def serializeHex {n : ℕ} (bytes : FixedBytes n) : Json :=
  .str (hexEncode bytes.val)

def deserializeHex (n : ℕ) (doc : Json) : Option (FixedBytes n) := do
  let text ← asString doc
  let bytes ← (hexDecode text).toOption
  FixedBytes.ofSlice? n bytes

def serializeUuid (serde : SerdeBackend F G Coins) (id : Uuid) : Json :=
  .str (serde.uuidToString id)

def deserializeUuid (serde : SerdeBackend F G Coins) (doc : Json) :
    Option Uuid := do
  let text ← asString doc
  serde.uuidParseStr text

def serializeDateTime (serde : SerdeBackend F G Coins) (instant : DateTime) :
    Json :=
  .str (serde.dateTimeToString instant)

def deserializeDateTime (serde : SerdeBackend F G Coins) (doc : Json) :
    Option DateTime := do
  let text ← asString doc
  serde.dateTimeParse text

/-- `duration_serde`: whole seconds only. -/
def serializeDuration (duration : Duration) : Json :=
  .int duration.secs.toNat

def deserializeDuration (doc : Json) : Option Duration := do
  let secs ← asUInt64 doc
  some (Duration.fromSecs secs)

/-- `scalar_serde`. -/
def serializeScalar (serde : SerdeBackend F G Coins) (scalar : F) : Json :=
  ofBytes (serde.scalarToBytes scalar).val

def deserializeScalar (serde : SerdeBackend F G Coins) (doc : Json) :
    Option F := do
  let bytes ← asList asUInt8 doc
  let repr ← FixedBytes.ofSlice? 32 bytes
  serde.scalarFromRepr repr

/-- `point_serde`. -/
def serializePoint (serde : SerdeBackend F G Coins) (point : G) : Json :=
  ofBytes (serde.pointToBytes point)

def deserializePoint (serde : SerdeBackend F G Coins) (doc : Json) :
    Option G := do
  let bytes ← asList asUInt8 doc
  let encoding ← FixedBytes.ofSlice? 33 bytes
  serde.pointFromBytes encoding.val

/-- A `flatten`ed map: the members that are no named fields. -/
def deserializeRest (floats : FloatText) (named : List String)
    (members : List (String × Json)) : Option OrderedMap :=
  OrderedMap.deserialize floats
    (members.filter (fun member => !named.contains member.1))

/-! ## Identities -/

namespace AdditionalClaims

def fieldNames : List String := ["email", "name", "org", "groups"]

def namedMembers (self : AdditionalClaims) : List (String × Json) :=
  optionalMember "email" .str self.email ++
    optionalMember "name" .str self.name ++
    optionalMember "org" .str self.org ++
    optionalMember "groups" (fun groups => .arr (groups.map .str))
      self.groups

def serialize (serde : SerdeBackend F G Coins) (self : AdditionalClaims) :
    Json :=
  .obj (self.namedMembers ++ self.custom.serialize serde.floats)

def deserialize (serde : SerdeBackend F G Coins) (doc : Json) :
    Option AdditionalClaims := do
  let members ← asObject doc
  let email ← optionalField asString members "email"
  let name ← optionalField asString members "name"
  let org ← optionalField asString members "org"
  let groups ← optionalField (asList asString) members "groups"
  let custom ← deserializeRest serde.floats fieldNames members
  some ⟨email, name, org, groups, custom⟩

end AdditionalClaims

namespace Principal

def serialize (serde : SerdeBackend F G Coins) (self : Principal) : Json :=
  .obj
    ([("human_id", .str self.humanId),
        ("idp_issuer", .str self.idpIssuer),
        ("idp_client_id", .str self.idpClientId)] ++
      optionalMember "additional_claims" (AdditionalClaims.serialize serde)
        self.additionalClaims)

def deserialize (serde : SerdeBackend F G Coins) (doc : Json) :
    Option Principal := do
  let members ← asObject doc
  let humanId ← requiredField asString members "human_id"
  let idpIssuer ← requiredField asString members "idp_issuer"
  let idpClientId ← requiredField asString members "idp_client_id"
  let additionalClaims ←
    optionalField (AdditionalClaims.deserialize serde) members "additional_claims"
  some ⟨humanId, idpIssuer, idpClientId, additionalClaims⟩

end Principal

namespace AgentMetadata

def fieldNames : List String :=
  ["version", "code_hash", "build_timestamp", "capabilities_description"]

def namedMembers (serde : SerdeBackend F G Coins) (self : AgentMetadata) :
    List (String × Json) :=
  optionalMember "version" .str self.version ++
    optionalMember "code_hash" .str self.codeHash ++
    optionalMember "build_timestamp" (serializeDateTime serde)
      self.buildTimestamp ++
    optionalMember "capabilities_description" .str
      self.capabilitiesDescription

def serialize (serde : SerdeBackend F G Coins) (self : AgentMetadata) :
    Json :=
  .obj (self.namedMembers serde ++ self.custom.serialize serde.floats)

def deserialize (serde : SerdeBackend F G Coins) (doc : Json) :
    Option AgentMetadata := do
  let members ← asObject doc
  let version ← optionalField asString members "version"
  let codeHash ← optionalField asString members "code_hash"
  let buildTimestamp ←
    optionalField (deserializeDateTime serde) members "build_timestamp"
  let capabilitiesDescription ←
    optionalField asString members "capabilities_description"
  let custom ← deserializeRest serde.floats fieldNames members
  some ⟨version, codeHash, buildTimestamp, capabilitiesDescription, custom⟩

end AgentMetadata

namespace Agent

def serialize (serde : SerdeBackend F G Coins) (self : Agent) : Json :=
  .obj
    ([("agent_id", .str self.agentId),
        ("public_key", serializeHex self.publicKey),
        ("platform", .str self.platform),
        ("verified", .bool self.verified)] ++
      optionalMember "metadata" (AgentMetadata.serialize serde)
        self.metadata)

def deserialize (serde : SerdeBackend F G Coins) (doc : Json) :
    Option Agent := do
  let members ← asObject doc
  let agentId ← requiredField asString members "agent_id"
  let publicKey ← requiredField (deserializeHex 32) members "public_key"
  let platform ← requiredField asString members "platform"
  let verified ← requiredField asBool members "verified"
  let metadata ←
    optionalField (AgentMetadata.deserialize serde) members "metadata"
  some ⟨agentId, publicKey, platform, verified, metadata⟩

end Agent

/-! ## Capabilities -/

namespace ToolPattern

def serialize (self : ToolPattern) : Json := .str self.pattern

def deserialize (doc : Json) : Option ToolPattern :=
  (asString doc).map ToolPattern.mk

end ToolPattern

namespace ResourceLimits

def serialize (self : ResourceLimits) : Json :=
  .obj
    (optionalMember "max_read_bytes" (fun limit => .int limit.toNat)
        self.maxReadBytes ++
      optionalMember "max_write_bytes" (fun limit => .int limit.toNat)
        self.maxWriteBytes ++
      optionalMember "max_concurrent_requests"
        (fun limit => .int limit.toNat) self.maxConcurrentRequests)

def deserialize (doc : Json) : Option ResourceLimits := do
  let members ← asObject doc
  let maxReadBytes ← optionalField asUInt64 members "max_read_bytes"
  let maxWriteBytes ← optionalField asUInt64 members "max_write_bytes"
  let maxConcurrentRequests ←
    optionalField asUInt32 members "max_concurrent_requests"
  some ⟨maxReadBytes, maxWriteBytes, maxConcurrentRequests⟩

end ResourceLimits

namespace RateLimitParams

def serialize (self : RateLimitParams) : Json :=
  .obj [("max_presentations", .int self.maxPresentations.toNat),
    ("window", serializeDuration self.window)]

def deserialize (doc : Json) : Option RateLimitParams := do
  let members ← asObject doc
  let maxPresentations ← requiredField asUInt64 members "max_presentations"
  let window ← requiredField deserializeDuration members "window"
  some ⟨maxPresentations, window⟩

end RateLimitParams

namespace MCPCapabilities

def serialize (self : MCPCapabilities) : Json :=
  .obj [("allowed_tools", .arr (self.allowedTools.map ToolPattern.serialize)),
    ("denied_tools", .arr (self.deniedTools.map ToolPattern.serialize)),
    ("resource_limits", self.resourceLimits.serialize),
    ("rate_limit", self.rateLimit.serialize)]

def deserialize (doc : Json) : Option MCPCapabilities := do
  let members ← asObject doc
  let allowedTools ←
    requiredField (asList ToolPattern.deserialize) members "allowed_tools"
  let deniedTools ←
    defaultedField (asList ToolPattern.deserialize) [] members "denied_tools"
  let resourceLimits ←
    defaultedField ResourceLimits.deserialize {} members "resource_limits"
  let rateLimit ← requiredField RateLimitParams.deserialize members "rate_limit"
  some ⟨allowedTools, deniedTools, resourceLimits, rateLimit⟩

end MCPCapabilities

/-! ## Delegation -/

namespace CapabilityReductionPolicy

def serialize : CapabilityReductionPolicy → Json
  | .mustReduce => .str "must_reduce"
  | .allowSame => .str "allow_same"

def deserialize (doc : Json) : Option CapabilityReductionPolicy := do
  let text ← asString doc
  if text = "must_reduce" then some .mustReduce
  else if text = "allow_same" then some .allowSame
  else none

end CapabilityReductionPolicy

namespace DelegationRights

def serialize (self : DelegationRights) : Json :=
  .obj [("can_delegate", .bool self.canDelegate),
    ("max_delegation_depth", .int self.maxDelegationDepth.toNat),
    ("capability_reduction_policy",
      self.capabilityReductionPolicy.serialize)]

def deserialize (doc : Json) : Option DelegationRights := do
  let members ← asObject doc
  let canDelegate ← requiredField asBool members "can_delegate"
  let maxDelegationDepth ← requiredField asUInt8 members "max_delegation_depth"
  let capabilityReductionPolicy ←
    requiredField CapabilityReductionPolicy.deserialize members
      "capability_reduction_policy"
  some ⟨canDelegate, maxDelegationDepth, capabilityReductionPolicy⟩

end DelegationRights

namespace DelegationProof

def serialize (serde : SerdeBackend F G Coins) (self : DelegationProof) :
    Json :=
  .obj [("delegator", .str self.delegator),
    ("delegatee", .str self.delegatee),
    ("parent_credential_id", serializeUuid serde self.parentCredentialId),
    ("delegated_credential_id",
      serializeUuid serde self.delegatedCredentialId),
    ("timestamp", serializeDateTime serde self.timestamp),
    ("capabilities_reduced", .bool self.capabilitiesReduced),
    ("signature", serializeHex self.signature)]

def deserialize (serde : SerdeBackend F G Coins) (doc : Json) :
    Option DelegationProof := do
  let members ← asObject doc
  let delegator ← requiredField asString members "delegator"
  let delegatee ← requiredField asString members "delegatee"
  let parentCredentialId ←
    requiredField (deserializeUuid serde) members "parent_credential_id"
  let delegatedCredentialId ←
    requiredField (deserializeUuid serde) members "delegated_credential_id"
  let timestamp ← requiredField (deserializeDateTime serde) members "timestamp"
  let capabilitiesReduced ← requiredField asBool members "capabilities_reduced"
  let signature ← requiredField (deserializeHex 64) members "signature"
  some ⟨delegator, delegatee, parentCredentialId, delegatedCredentialId,
    timestamp, capabilitiesReduced, signature⟩

end DelegationProof

namespace DelegationChain

def serialize (serde : SerdeBackend F G Coins) (self : DelegationChain) :
    Json :=
  .obj [("proofs", .arr (self.proofs.map (DelegationProof.serialize serde)))]

def deserialize (serde : SerdeBackend F G Coins) (doc : Json) :
    Option DelegationChain := do
  let members ← asObject doc
  let proofs ←
    requiredField (asList (DelegationProof.deserialize serde)) members "proofs"
  some ⟨proofs⟩

end DelegationChain

/-! ## Anonymous rate-limited credentials -/

namespace ARCCredential

/-- The counter is skipped. -/
def serialize (serde : SerdeBackend F G Coins) (self : ARCCredential F G) :
    Json :=
  .obj [("m1", serializeScalar serde self.m1),
    ("u", serializePoint serde self.u),
    ("u_prime", serializePoint serde self.uPrime),
    ("x1", serializePoint serde self.x1),
    ("max_presentations", .int self.maxPresentations.toNat)]

/-- The skipped counter starts from its default. -/
def deserialize (serde : SerdeBackend F G Coins) (doc : Json) :
    Option (ARCCredential F G) := do
  let members ← asObject doc
  let m1 ← requiredField (deserializeScalar serde) members "m1"
  let u ← requiredField (deserializePoint serde) members "u"
  let uPrime ← requiredField (deserializePoint serde) members "u_prime"
  let x1 ← requiredField (deserializePoint serde) members "x1"
  let maxPresentations ← requiredField asUInt64 members "max_presentations"
  some ⟨m1, u, uPrime, x1, maxPresentations, 0⟩

end ARCCredential

end Auth
end Acdp
