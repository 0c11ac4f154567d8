import Acdp.AuthCredentials
import Acdp.AuthSerdeRoundTrip
import Acdp.JsonText

/-!
# What a credential's signature protects

The signed bytes run the version, the identifier and two instants together
with a JSON array of four fields.  They determine all of these, up to what the
JSON forms leave out: the fraction of a rate window and the border between
named and flattened members.  The delegation chain and the credential of the
anonymous protocol are not signed at all.
-/

namespace Acdp
namespace Auth

open Json

variable {F G Coins SecretKey : Type}

/-! ## The signed fields -/

structure SignedFields where
  version : String
  credentialId : Uuid
  issuedAt : DateTime
  expiresAt : DateTime
  principal : Principal
  agent : Agent
  mcpCapabilities : MCPCapabilities
  delegation : DelegationRights

def IdentityBoundCredential.signedFields (self : IdentityBoundCredential) :
    SignedFields where
  version := self.version
  credentialId := self.credentialId
  issuedAt := self.issuedAt
  expiresAt := self.expiresAt
  principal := self.principal
  agent := self.agent
  mcpCapabilities := self.mcpCapabilities
  delegation := self.delegation

def HybridCredential.signedFields (self : HybridCredential F G) :
    SignedFields where
  version := self.version
  credentialId := self.credentialId
  issuedAt := self.issuedAt
  expiresAt := self.expiresAt
  principal := self.principal
  agent := self.agent
  mcpCapabilities := self.mcpCapabilities
  delegation := self.delegation

namespace SignedFields

def signingData (serde : SerdeBackend F G Coins) (self : SignedFields) :
    Bytes :=
  credentialSigningData serde self.version self.credentialId self.issuedAt
    self.expiresAt self.principal self.agent self.mcpCapabilities
    self.delegation

/-- Agreement, of the instants to the second. -/
structure Agree (left right : SignedFields) : Prop where
  version : left.version = right.version
  credentialId : left.credentialId = right.credentialId
  issuedAt : left.issuedAt.timestamp = right.issuedAt.timestamp
  expiresAt : left.expiresAt.timestamp = right.expiresAt.timestamp
  principal : left.principal = right.principal
  agent : left.agent = right.agent
  mcpCapabilities : left.mcpCapabilities = right.mcpCapabilities
  delegation : left.delegation = right.delegation

structure SameUnwritten (left right : SignedFields) : Prop where
  window : left.mcpCapabilities.rateLimit.window.nanos =
    right.mcpCapabilities.rateLimit.window.nanos
  claims : left.principal.additionalClaims.map AdditionalClaims.custom =
    right.principal.additionalClaims.map AdditionalClaims.custom
  metadata : left.agent.metadata.map AgentMetadata.custom =
    right.agent.metadata.map AgentMetadata.custom

def documents (serde : SerdeBackend F G Coins) (self : SignedFields) :
    List Json :=
  [self.principal.serialize serde, self.agent.serialize serde,
    self.mcpCapabilities.serialize, self.delegation.serialize]

end SignedFields

/-! ## Documents that can be read -/

section Proper

variable {serde : SerdeBackend F G Coins}
  (hfloats : ∀ bits, DecimalText (serde.floats.print bits))

include hfloats

theorem AdditionalClaims.proper_serialize (claims : AdditionalClaims) :
    Proper (claims.serialize serde) := by
  rw [serialize, proper_obj_iff, namedMembers]
  simp only [List.forall_mem_append]
  refine ⟨⟨⟨⟨?_, ?_⟩, ?_⟩, ?_⟩, claims.custom.proper_serialize hfloats⟩
  · exact proper_optionalMember (fun text _ => .str text)
  · exact proper_optionalMember (fun text _ => .str text)
  · exact proper_optionalMember (fun text _ => .str text)
  · apply proper_optionalMember
    intro groups _
    rw [proper_arr_iff]
    intro element hmem
    obtain ⟨group, _, rfl⟩ := List.mem_map.mp hmem
    exact .str group

theorem Principal.proper_serialize (principal : Principal) :
    Proper (principal.serialize serde) := by
  rw [serialize, proper_obj_iff]
  simp only [List.forall_mem_append, List.forall_mem_cons]
  refine ⟨⟨.str _, .str _, .str _, List.forall_mem_nil _⟩, ?_⟩
  apply proper_optionalMember
  intro claims _
  exact claims.proper_serialize hfloats

theorem AgentMetadata.proper_serialize (metadata : AgentMetadata) :
    Proper (metadata.serialize serde) := by
  rw [serialize, proper_obj_iff, namedMembers]
  simp only [List.forall_mem_append]
  refine ⟨⟨⟨⟨?_, ?_⟩, ?_⟩, ?_⟩, metadata.custom.proper_serialize hfloats⟩
  · exact proper_optionalMember (fun text _ => .str text)
  · exact proper_optionalMember (fun text _ => .str text)
  · exact proper_optionalMember (fun instant _ => .str _)
  · exact proper_optionalMember (fun text _ => .str text)

theorem Agent.proper_serialize (agent : Agent) :
    Proper (agent.serialize serde) := by
  rw [serialize, proper_obj_iff]
  simp only [List.forall_mem_append, List.forall_mem_cons]
  refine ⟨⟨.str _, .str _, .str _, .bool _, List.forall_mem_nil _⟩, ?_⟩
  apply proper_optionalMember
  intro metadata _
  exact metadata.proper_serialize hfloats

end Proper

theorem proper_toolPatterns (patterns : List ToolPattern) :
    Proper (.arr (patterns.map ToolPattern.serialize)) := by
  rw [proper_arr_iff]
  intro element hmem
  obtain ⟨pattern, _, rfl⟩ := List.mem_map.mp hmem
  exact .str pattern.pattern

theorem ResourceLimits.proper_serialize (limits : ResourceLimits) :
    Proper limits.serialize := by
  rw [serialize, proper_obj_iff]
  simp only [List.forall_mem_append]
  refine ⟨⟨?_, ?_⟩, ?_⟩
  · exact proper_optionalMember (fun limit _ => .int _)
  · exact proper_optionalMember (fun limit _ => .int _)
  · exact proper_optionalMember (fun limit _ => .int _)

theorem RateLimitParams.proper_serialize (params : RateLimitParams) :
    Proper params.serialize := by
  rw [serialize, proper_obj_iff]
  simp only [List.forall_mem_cons]
  exact ⟨.int _, .int _, List.forall_mem_nil _⟩

theorem MCPCapabilities.proper_serialize (capabilities : MCPCapabilities) :
    Proper capabilities.serialize := by
  rw [serialize, proper_obj_iff]
  simp only [List.forall_mem_cons]
  exact ⟨proper_toolPatterns _, proper_toolPatterns _,
    capabilities.resourceLimits.proper_serialize,
    capabilities.rateLimit.proper_serialize, List.forall_mem_nil _⟩

theorem DelegationRights.proper_serialize (rights : DelegationRights) :
    Proper rights.serialize := by
  rw [serialize, proper_obj_iff]
  simp only [List.forall_mem_cons]
  refine ⟨.bool _, .int _, ?_, List.forall_mem_nil _⟩
  cases rights.capabilityReductionPolicy <;> exact .str _

/-! ## Fields from documents -/

theorem optionalMember_inj {α : Type*} {name : String} {encode : α → Json}
    {left right : Option α}
    (hsame : optionalMember name encode left =
      optionalMember name encode right) :
    left.map encode = right.map encode := by
  cases left <;> cases right <;> simp_all [optionalMember]

theorem map_encode_inj {α : Type*} {encode : α → Json}
    (hencode : Function.Injective encode) {left right : Option α}
    (hsame : (left.map encode).toList = (right.map encode).toList) :
    left = right := by
  have hmapped : left.map encode = right.map encode := by
    cases left <;> cases right <;> simp_all
  exact Option.map_injective hencode hmapped

theorem eq_of_map_eq {α β γ : Type*} {first : α → β} {second : α → γ}
    (hboth : ∀ left right, first left = first right →
      second left = second right → left = right)
    {left right : Option α} (hfirst : left.map first = right.map first)
    (hsecond : left.map second = right.map second) : left = right := by
  cases left with
  | none =>
      cases right with
      | none => rfl
      | some other => simp at hfirst
  | some value =>
      cases right with
      | none => simp at hfirst
      | some other =>
          simp only [Option.map_some, Option.some.injEq] at hfirst hsecond
          rw [hboth value other hfirst hsecond]

theorem entries_eq_of_append {left right rest : List (String × Json)}
    (hsame : Json.obj (left ++ rest) = .obj (right ++ rest)) (name : String) :
    entries left name = entries right name := by
  rw [Json.obj.injEq, List.append_cancel_right_eq] at hsame
  rw [hsame]

theorem injective_of_readBack {α : Type*} {write : α → Json}
    {read : Json → Option α}
    (hread : ∀ value, read (write value) = some value) :
    Function.Injective write := by
  intro left right hsame
  have hboth := congrArg read hsame
  rwa [hread, hread, Option.some.injEq] at hboth

theorem str_injective : Function.Injective Json.str :=
  injective_of_readBack asString_str

theorem groups_injective :
    Function.Injective (fun groups : List String => Json.arr (groups.map .str)) := by
  intro left right hsame
  injection hsame with hlists
  exact List.map_injective_iff.mpr str_injective hlists

/-- The named members of a record and the map flattened behind them can be
told apart where the map is known. -/
theorem AdditionalClaims.eq_of_serialize (serde : SerdeBackend F G Coins)
    {left right : AdditionalClaims}
    (hsame : left.serialize serde = right.serialize serde)
    (hcustom : left.custom = right.custom) : left = right := by
  rw [serialize, serialize, hcustom] at hsame
  have hfield := entries_eq_of_append hsame
  have hemail := hfield "email"
  have hname := hfield "name"
  have horg := hfield "org"
  have hgroups := hfield "groups"
  simp only [namedMembers, entries_append, entries_optionalMember_self,
    entries_optionalMember_ne, ne_eq, String.reduceEq, not_false_eq_true,
    List.append_nil, List.nil_append] at hemail hname horg hgroups
  cases left
  cases right
  rw [mk.injEq]
  exact ⟨map_encode_inj str_injective hemail,
    map_encode_inj str_injective hname, map_encode_inj str_injective horg,
    map_encode_inj groups_injective hgroups, hcustom⟩

theorem Principal.eq_of_serialize (serde : SerdeBackend F G Coins)
    {left right : Principal}
    (hsame : left.serialize serde = right.serialize serde)
    (hcustom : left.additionalClaims.map AdditionalClaims.custom =
      right.additionalClaims.map AdditionalClaims.custom) :
    left = right := by
  obtain ⟨humanId, idpIssuer, idpClientId, claims⟩ := left
  obtain ⟨humanId', idpIssuer', idpClientId', claims'⟩ := right
  simp only [serialize, Json.obj.injEq, List.cons_append, List.nil_append,
    List.cons.injEq, Prod.mk.injEq, Json.str.injEq, true_and] at hsame
  obtain ⟨hhuman, hissuer, hclient, hmember⟩ := hsame
  have hserialized := optionalMember_inj hmember
  have hclaims : claims = claims' :=
    eq_of_map_eq (fun _ _ => AdditionalClaims.eq_of_serialize serde)
      hserialized hcustom
  rw [hhuman, hissuer, hclient, hclaims]

theorem dateTime_injective {serde : SerdeBackend F G Coins}
    (hdates : ∀ instant,
      serde.dateTimeParse (serde.dateTimeToString instant) = some instant) :
    Function.Injective (serializeDateTime serde) := by
  have hread (instant : DateTime) :
      deserializeDateTime serde (serializeDateTime serde instant) =
        some instant := by
    simp [deserializeDateTime, serializeDateTime, hdates]
  exact injective_of_readBack hread

theorem AgentMetadata.eq_of_serialize {serde : SerdeBackend F G Coins}
    (hdates : ∀ instant,
      serde.dateTimeParse (serde.dateTimeToString instant) = some instant)
    {left right : AgentMetadata}
    (hsame : left.serialize serde = right.serialize serde)
    (hcustom : left.custom = right.custom) : left = right := by
  rw [serialize, serialize, hcustom] at hsame
  have hfield := entries_eq_of_append hsame
  have hversion := hfield "version"
  have hcode := hfield "code_hash"
  have hbuild := hfield "build_timestamp"
  have hdescription := hfield "capabilities_description"
  simp only [namedMembers, entries_append, entries_optionalMember_self,
    entries_optionalMember_ne, ne_eq, String.reduceEq, not_false_eq_true,
    List.append_nil, List.nil_append] at hversion hcode hbuild hdescription
  cases left
  cases right
  rw [mk.injEq]
  exact ⟨map_encode_inj str_injective hversion,
    map_encode_inj str_injective hcode,
    map_encode_inj (dateTime_injective hdates) hbuild,
    map_encode_inj str_injective hdescription, hcustom⟩

theorem serializeHex_injective (n : ℕ) :
    Function.Injective (serializeHex (n := n)) :=
  injective_of_readBack deserializeHex_serializeHex

theorem Agent.eq_of_serialize {serde : SerdeBackend F G Coins}
    (hdates : ∀ instant,
      serde.dateTimeParse (serde.dateTimeToString instant) = some instant)
    {left right : Agent}
    (hsame : left.serialize serde = right.serialize serde)
    (hcustom : left.metadata.map AgentMetadata.custom =
      right.metadata.map AgentMetadata.custom) :
    left = right := by
  obtain ⟨agentId, publicKey, platform, verified, metadata⟩ := left
  obtain ⟨agentId', publicKey', platform', verified', metadata'⟩ := right
  simp only [serialize, Json.obj.injEq, List.cons_append, List.nil_append,
    List.cons.injEq, Prod.mk.injEq, Json.str.injEq, Json.bool.injEq,
    true_and] at hsame
  obtain ⟨hagent, hkey, hplatform, hverified, hmember⟩ := hsame
  have hserialized := optionalMember_inj hmember
  have hmetadata : metadata = metadata' :=
    eq_of_map_eq (fun _ _ => AgentMetadata.eq_of_serialize hdates)
      hserialized hcustom
  rw [hagent, serializeHex_injective 32 hkey, hplatform, hverified, hmetadata]

theorem toolPatterns_injective :
    Function.Injective (fun patterns : List ToolPattern =>
      Json.arr (patterns.map ToolPattern.serialize)) :=
  injective_of_readBack asList_toolPatterns

theorem ResourceLimits.serialize_injective :
    Function.Injective ResourceLimits.serialize :=
  injective_of_readBack deserialize_serialize

theorem DelegationRights.serialize_injective :
    Function.Injective DelegationRights.serialize :=
  injective_of_readBack deserialize_serialize

theorem RateLimitParams.eq_of_serialize {left right : RateLimitParams}
    (hsame : left.serialize = right.serialize)
    (hwindow : left.window.nanos = right.window.nanos) : left = right := by
  obtain ⟨maxPresentations, secs, nanos, hnanos⟩ := left
  obtain ⟨maxPresentations', secs', nanos', hnanos'⟩ := right
  simp only [serialize, serializeDuration, Json.obj.injEq, List.cons.injEq,
    Prod.mk.injEq, Json.int.injEq, Nat.cast_inj, true_and, and_true] at hsame
  simp only at hwindow
  obtain ⟨hmax, hsecs⟩ := hsame
  rw [UInt64.toNat_inj] at hmax hsecs
  subst hmax hsecs hwindow
  rfl

theorem MCPCapabilities.eq_of_serialize {left right : MCPCapabilities}
    (hsame : left.serialize = right.serialize)
    (hwindow : left.rateLimit.window.nanos =
      right.rateLimit.window.nanos) : left = right := by
  obtain ⟨allowedTools, deniedTools, resourceLimits, rateLimit⟩ := left
  obtain ⟨allowedTools', deniedTools', resourceLimits', rateLimit'⟩ := right
  simp only [serialize, Json.obj.injEq, List.cons.injEq, Prod.mk.injEq,
    true_and, and_true] at hsame
  obtain ⟨hallowed, hdenied, hlimits, hrate⟩ := hsame
  rw [toolPatterns_injective hallowed, toolPatterns_injective hdenied,
    ResourceLimits.serialize_injective hlimits,
    RateLimitParams.eq_of_serialize hrate hwindow]

/-! ## The signed bytes -/

namespace SignedFields

theorem signingData_eq (serde : SerdeBackend F G Coins)
    (self : SignedFields) :
    self.signingData serde =
      asBytes self.version ++ self.credentialId.val ++
        i64ToLeBytes self.issuedAt.timestamp ++
        i64ToLeBytes self.expiresAt.timestamp ++
        asBytes (print (.arr (self.documents serde))) := rfl

theorem proper_documents {serde : SerdeBackend F G Coins}
    (hfloats : ∀ bits, DecimalText (serde.floats.print bits))
    (self : SignedFields) :
    ∀ document ∈ self.documents serde, Proper document := by
  simp only [documents, List.forall_mem_cons]
  exact ⟨self.principal.proper_serialize hfloats,
    self.agent.proper_serialize hfloats,
    self.mcpCapabilities.proper_serialize, self.delegation.proper_serialize,
    List.forall_mem_nil _⟩

/-- The array starts with the name `human_id` of a principal. -/
theorem anchored_documents (serde : SerdeBackend F G Coins)
    (self : SignedFields) :
    Anchored (print (.arr (self.documents serde))).toList := by
  rw [documents, print_arr_cons, Principal.serialize, List.cons_append,
    print_obj_cons, printString_toList]
  exact ⟨'h', _, rfl, by decide, by decide, by decide, by decide⟩

theorem parts_eq_of_signingData {serde : SerdeBackend F G Coins}
    (hfloats : ∀ bits, DecimalText (serde.floats.print bits))
    {left right : SignedFields}
    (hbytes : left.signingData serde = right.signingData serde) :
    left.version = right.version ∧ left.credentialId = right.credentialId ∧
      left.issuedAt.timestamp = right.issuedAt.timestamp ∧
      left.expiresAt.timestamp = right.expiresAt.timestamp ∧
      left.documents serde = right.documents serde := by
  rw [signingData_eq, signingData_eq] at hbytes
  obtain ⟨hfront, hdocuments⟩ := front_and_elements_eq
    (left.proper_documents hfloats) (right.proper_documents hfloats)
    (left.anchored_documents serde) (right.anchored_documents serde) hbytes
  obtain ⟨hfront, hexpires⟩ := List.append_inj' hfront (by simp)
  obtain ⟨hfront, hissued⟩ := List.append_inj' hfront (by simp)
  obtain ⟨hversion, hid⟩ := List.append_inj' hfront
    (by rw [left.credentialId.property, right.credentialId.property])
  exact ⟨asBytes_injective hversion, Subtype.ext hid,
    i64ToLeBytes_injOn left.issuedAt.timestamp_inI64
      right.issuedAt.timestamp_inI64 hissued,
    i64ToLeBytes_injOn left.expiresAt.timestamp_inI64
      right.expiresAt.timestamp_inI64 hexpires, hdocuments⟩

theorem Agree.sameUnwritten {left right : SignedFields}
    (hagree : left.Agree right) : left.SameUnwritten right := by
  constructor
  · rw [hagree.mcpCapabilities]
  · rw [hagree.principal]
  · rw [hagree.agent]

/-- Fields with the same signed bytes agree exactly when they agree on what
their JSON forms leave open. -/
theorem agree_iff_sameUnwritten {serde : SerdeBackend F G Coins}
    (hfloats : ∀ bits, DecimalText (serde.floats.print bits))
    (hdates : ∀ instant,
      serde.dateTimeParse (serde.dateTimeToString instant) = some instant)
    {left right : SignedFields}
    (hbytes : left.signingData serde = right.signingData serde) :
    left.Agree right ↔ left.SameUnwritten right := by
  constructor
  · exact Agree.sameUnwritten
  · intro hsame
    obtain ⟨hversion, hid, hissued, hexpires, hdocuments⟩ :=
      parts_eq_of_signingData hfloats hbytes
    simp only [documents, List.cons.injEq, and_true] at hdocuments
    obtain ⟨hprincipal, hagent, hcapabilities, hdelegation⟩ := hdocuments
    exact
      { version := hversion
        credentialId := hid
        issuedAt := hissued
        expiresAt := hexpires
        principal := Principal.eq_of_serialize serde hprincipal hsame.claims
        agent := Agent.eq_of_serialize hdates hagent hsame.metadata
        mcpCapabilities :=
          MCPCapabilities.eq_of_serialize hcapabilities hsame.window
        delegation := DelegationRights.serialize_injective hdelegation }

end SignedFields

/-! ## Credentials with one signature -/

/-- A signature is accepted for one byte string only. -/
def Ed25519.IdealFor (ed25519 : Ed25519 SecretKey)
    (issuerPublicKey : Bytes) : Prop :=
  ∀ signature message other,
    verifyCredentialSignature ed25519 issuerPublicKey message signature =
      .ok () →
    verifyCredentialSignature ed25519 issuerPublicKey other signature =
      .ok () → message = other

def IdentityBoundCredential.Agrees (left right : IdentityBoundCredential) :
    Prop :=
  left.signedFields.Agree right.signedFields ∧
    left.delegationChain = right.delegationChain

def IdentityBoundCredential.SameUnsigned
    (left right : IdentityBoundCredential) : Prop :=
  left.signedFields.SameUnwritten right.signedFields ∧
    left.delegationChain = right.delegationChain

def HybridCredential.Agrees (left right : HybridCredential F G) : Prop :=
  left.signedFields.Agree right.signedFields ∧
    left.delegationChain = right.delegationChain ∧
    left.arcCredential = right.arcCredential

def HybridCredential.SameUnsigned (left right : HybridCredential F G) :
    Prop :=
  left.signedFields.SameUnwritten right.signedFields ∧
    left.delegationChain = right.delegationChain ∧
    left.arcCredential = right.arcCredential

/-- Two credentials that are accepted with the same signature agree exactly
when they agree on what is not signed. -/
theorem accepted_credentials_agree_iff (serde : SerdeBackend F G Coins)
    (ed25519 : Ed25519 SecretKey) (issuerPublicKey : Bytes)
    (hfloats : ∀ bits, DecimalText (serde.floats.print bits))
    (hdates : ∀ instant,
      serde.dateTimeParse (serde.dateTimeToString instant) = some instant)
    (hideal : ed25519.IdealFor issuerPublicKey) :
    (∀ left right : IdentityBoundCredential,
        left.signature = right.signature →
        left.verifySignature serde ed25519 issuerPublicKey = .ok () →
        right.verifySignature serde ed25519 issuerPublicKey = .ok () →
        (left.Agrees right ↔ left.SameUnsigned right)) ∧
      ∀ left right : HybridCredential F G,
        left.signature = right.signature →
        left.verifySignature serde ed25519 issuerPublicKey = .ok () →
        right.verifySignature serde ed25519 issuerPublicKey = .ok () →
        (left.Agrees right ↔ left.SameUnsigned right) := by
  constructor
  · intro left right hsignature hleft hright
    rw [IdentityBoundCredential.verifySignature, hsignature] at hleft
    have hbytes : left.signedFields.signingData serde =
        right.signedFields.signingData serde :=
      hideal right.signature _ _ hleft hright
    unfold IdentityBoundCredential.Agrees
      IdentityBoundCredential.SameUnsigned
    rw [SignedFields.agree_iff_sameUnwritten hfloats hdates hbytes]
  · intro left right hsignature hleft hright
    rw [HybridCredential.verifySignature, hsignature] at hleft
    have hbytes : left.signedFields.signingData serde =
        right.signedFields.signingData serde :=
      hideal right.signature _ _ hleft hright
    unfold HybridCredential.Agrees HybridCredential.SameUnsigned
    rw [SignedFields.agree_iff_sameUnwritten hfloats hdates hbytes]

/-! ## An edited chain -/

def registeredEd25519 (signed : Bytes) : Ed25519 Unit where
  sign _ _ := FixedBytes.filled 64 5
  verify _ message signature :=
    if message = signed ∧ signature = FixedBytes.filled 64 5 then .ok ()
    else .error "signature does not match"
  invalidPublicKey := "invalid public key"

theorem registeredEd25519_accepts_iff (signed message : Bytes)
    (key : PublicKey) (signature : Signature) :
    verifyCredentialSignature (registeredEd25519 signed) key.val message
        signature = .ok () ↔
      message = signed ∧ signature = FixedBytes.filled 64 5 := by
  rw [verifyCredentialSignature_key]
  by_cases hregistered : message = signed ∧
      signature = FixedBytes.filled 64 5
  · simp [registeredEd25519, hregistered]
  · simp [registeredEd25519, hregistered]

theorem registeredEd25519_idealFor (signed : Bytes) (key : PublicKey) :
    (registeredEd25519 signed).IdealFor key.val := by
  intro signature message other hmessage hother
  rw [registeredEd25519_accepts_iff] at hmessage hother
  rw [hmessage.1, hother.1]

def pointedFloats : FloatText where
  print bits := bits.toNat.repr ++ ".0"
  parse _ := none

theorem pointedFloats_decimalText (bits : UInt64) :
    DecimalText (pointedFloats.print bits) := by
  have hchars : (pointedFloats.print bits).toList =
      bits.toNat.repr.toList ++ ['.', '0'] := by
    simp [pointedFloats]
  constructor
  · intro char hmem
    rw [hchars, List.mem_append] at hmem
    rcases hmem with hdigit | hpoint
    · simp [isNumberChar, IntegerText.isNumeral_of_mem_nat hdigit]
    · simp only [List.mem_cons, List.not_mem_nil, or_false] at hpoint
      rcases hpoint with rfl | rfl <;> decide
  · exact ⟨'.', by simp [hchars], by decide⟩

def pointedSerde : SerdeBackend (ZMod 11) (ZMod 11) Unit :=
  { smallSerde with floats := pointedFloats }

def chainedCredential (delegationChain : DelegationChain) :
    IdentityBoundCredential where
  version := "ACDP/0.3"
  credentialId := FixedBytes.filled 16 1
  issuedAt := smallInstant
  expiresAt := smallInstant
  principal := ⟨"alice", "https://idp.example/", "mcp-client", none⟩
  agent := ⟨"agent://test", FixedBytes.filled 32 9, "test", true, none⟩
  mcpCapabilities :=
    { allowedTools := [⟨"filesystem/*"⟩]
      rateLimit := RateLimitParams.daily 1 }
  delegation := .noDelegation
  delegationChain := delegationChain
  signature := FixedBytes.filled 64 5
  extensions := {}

def chainedEd25519 : Ed25519 Unit :=
  registeredEd25519 ((chainedCredential .new).signingData pointedSerde)

theorem chainedCredential_verifies (delegationChain : DelegationChain) :
    (chainedCredential delegationChain).verifySignature pointedSerde
      chainedEd25519 (FixedBytes.filled 32 7).val = .ok () := by
  have hdata : (chainedCredential delegationChain).signingData pointedSerde =
      (chainedCredential .new).signingData pointedSerde := rfl
  rw [IdentityBoundCredential.verifySignature, hdata]
  exact (registeredEd25519_accepts_iff _ _ _ _).mpr ⟨rfl, rfl⟩

def editedChain : DelegationChain :=
  ⟨[⟨"agent://mallory", "agent://test", FixedBytes.filled 16 2,
    FixedBytes.filled 16 1, smallInstant, true, FixedBytes.filled 64 0⟩]⟩

theorem editedChain_ne_new : DelegationChain.new ≠ editedChain := by
  simp [DelegationChain.new, editedChain]

theorem chainedCredentials_agree_iff :
    (chainedCredential .new).verifySignature pointedSerde chainedEd25519
        (FixedBytes.filled 32 7).val = .ok () ∧
      (chainedCredential editedChain).verifySignature pointedSerde
        chainedEd25519 (FixedBytes.filled 32 7).val = .ok () ∧
      ((chainedCredential .new).Agrees (chainedCredential editedChain) ↔
        (chainedCredential .new).SameUnsigned
          (chainedCredential editedChain)) := by
  have hfirst := chainedCredential_verifies .new
  have hsecond := chainedCredential_verifies editedChain
  have hagree := accepted_credentials_agree_iff pointedSerde chainedEd25519
    (FixedBytes.filled 32 7).val pointedFloats_decimalText
    smallDateTimeParse_smallDateTimeText
    (registeredEd25519_idealFor _ (FixedBytes.filled 32 7))
  exact ⟨hfirst, hsecond, hagree.1 _ _ rfl hfirst hsecond⟩

/-- An accepted credential with a forged proof in its chain is accepted with
the same signature. -/
theorem editedChain_keeps_signature :
    chainedEd25519.IdealFor (FixedBytes.filled 32 7).val ∧
      (chainedCredential .new).signature =
        (chainedCredential editedChain).signature ∧
      (chainedCredential .new).verifySignature pointedSerde chainedEd25519
        (FixedBytes.filled 32 7).val = .ok () ∧
      (chainedCredential editedChain).verifySignature pointedSerde
        chainedEd25519 (FixedBytes.filled 32 7).val = .ok () ∧
      ¬ (chainedCredential .new).Agrees (chainedCredential editedChain) := by
  refine ⟨registeredEd25519_idealFor _ (FixedBytes.filled 32 7), rfl,
    chainedCredential_verifies .new, chainedCredential_verifies editedChain,
    ?_⟩
  intro hagrees
  exact editedChain_ne_new hagrees.2

end Auth
end Acdp
