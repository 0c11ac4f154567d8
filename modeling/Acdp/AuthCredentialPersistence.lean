import Acdp.AuthCredentials
import Acdp.AuthSerdeRoundTrip

/-!
# Credentials across a save and a load

Which credentials come back unchanged when they are written as JSON and read
again.  Every part of a credential is read back from its own field, so the
question splits along the fields: most of them always survive, and the few
that do not are the skipped counter, the fraction of the rate window, dynamic
metadata and the flattened maps of the two identities.
-/

namespace Acdp
namespace Auth

open Json

variable {F G Coins : Type}

/-! ## Extensions -/

/-- Metadata that is present is no `null` and has stable numbers. -/
def Extensions.Survives (floats : FloatText) (extensions : Extensions) :
    Prop :=
  ∀ metadata, extensions.metadata = some metadata →
    metadata.val ≠ .null ∧ metadata.val.FloatsStable floats

theorem Extensions.deserialize_serialize_iff
    (serde : SerdeBackend F G Coins) (extensions : Extensions) :
    Extensions.deserialize serde (extensions.serialize serde) =
        some extensions ↔
      extensions.Survives serde.floats := by
  obtain ⟨ap2MandateLink, metadata⟩ := extensions
  have hmetadata := readOptional_toList_iff
    (OrderedValue.deserialize serde.floats)
    (OrderedValue.serialize serde.floats) metadata
  have hnull (value : OrderedValue) :
      OrderedValue.serialize serde.floats value ≠ .null ↔
        value.val ≠ .null :=
    not_congr (Value.encode_eq_null_iff serde.floats value.val)
  simp only [hnull, OrderedValue.deserialize_serialize_iff] at hmetadata
  rw [Survives, ← hmetadata]
  simp [serialize, deserialize, optionalField, entries_optionalMember_ne,
    readOptional_strings, Option.bind_eq_some_iff]

theorem Extensions.fits_serialize_iff (serde : SerdeBackend F G Coins)
    (extensions : Extensions) (depth : ℕ) :
    (extensions.serialize serde).fits (depth + 1) = true ↔
      ∀ metadata, extensions.metadata = some metadata →
        metadata.val.fits depth = true := by
  simp [serialize, OrderedValue.serialize, Value.fits_encode,
    Option.all_eq_true]

/-! ## Whole credentials -/

theorem IdentityBoundCredential.deserialize_serialize_iff
    {serde : SerdeBackend F G Coins} (hserde : serde.RoundTrips)
    (credential : IdentityBoundCredential) (tag : Json) :
    IdentityBoundCredential.deserialize serde
        (("type", tag) :: credential.serializeFields serde) =
        some credential ↔
      credential.principal.Flattens serde.floats ∧
        credential.agent.Flattens serde.floats ∧
        credential.mcpCapabilities.rateLimit.window.nanos = 0 ∧
        credential.extensions.Survives serde.floats := by
  rw [← Principal.deserialize_serialize_iff,
    ← Agent.deserialize_serialize_iff hserde,
    ← MCPCapabilities.deserialize_serialize_iff,
    ← Extensions.deserialize_serialize_iff]
  have hnodup : ((("type", tag) :: credential.serializeFields serde).map
      Prod.fst).Nodup := by
    simp [serializeFields]
  have hentry (index : ℕ) {name : String} {value : Json} :=
    @entries_of_getElem? _ hnodup index name value
  simp only [deserialize, requiredField, defaultedField,
    Option.bind_eq_bind, hentry 1 rfl, hentry 2 rfl, hentry 3 rfl,
    hentry 4 rfl, hentry 5 rfl, hentry 6 rfl, hentry 7 rfl, hentry 8 rfl,
    hentry 9 rfl, hentry 10 rfl, hentry 11 rfl, readRequired_singleton,
    readDefaulted_singleton]
  simp only [↓Option.bind_eq_some_iff, Option.some.injEq]
  have hid := deserializeUuid_serializeUuid hserde
  have hinstant := deserializeDateTime_serializeDateTime hserde
  have hchain := DelegationChain.deserialize_serialize hserde
  constructor
  · intro hread
    obtain ⟨_, _, _, _, _, _, _, _, principal, hprincipal, agent, hagent,
      capabilities, hcapabilities, _, _, _, _, _, _, extensions,
      hextensions, hcredential⟩ := hread
    exact ⟨by rw [hprincipal, ← hcredential], by rw [hagent, ← hcredential],
      by rw [hcapabilities, ← hcredential],
      by rw [hextensions, ← hcredential]⟩
  · intro hparts
    obtain ⟨hprincipal, hagent, hcapabilities, hextensions⟩ := hparts
    exact ⟨_, asString_str _, _, hid _, _, hinstant _, _, hinstant _, _,
      hprincipal, _, hagent, _, hcapabilities, _,
      DelegationRights.deserialize_serialize _, _, hchain _, _,
      deserializeHex_serializeHex _, _, hextensions, rfl⟩

theorem AnonymousCredential.deserialize_serialize_iff
    {serde : SerdeBackend F G Coins} (hserde : serde.RoundTrips)
    (credential : AnonymousCredential F G) (tag : Json) :
    AnonymousCredential.deserialize serde
        (("type", tag) :: credential.serializeFields serde) =
        some credential ↔
      credential.arcCredential.presentationsUsed = 0 ∧
        credential.mcpCapabilities.rateLimit.window.nanos = 0 ∧
        credential.extensions.Survives serde.floats := by
  rw [← ARCCredential.deserialize_serialize_iff hserde,
    ← MCPCapabilities.deserialize_serialize_iff,
    ← Extensions.deserialize_serialize_iff]
  have hnodup : ((("type", tag) :: credential.serializeFields serde).map
      Prod.fst).Nodup := by
    simp [serializeFields]
  have hentry (index : ℕ) {name : String} {value : Json} :=
    @entries_of_getElem? _ hnodup index name value
  simp only [deserialize, requiredField, defaultedField,
    Option.bind_eq_bind, hentry 1 rfl, hentry 2 rfl, hentry 3 rfl,
    hentry 4 rfl, hentry 5 rfl, hentry 6 rfl, hentry 7 rfl,
    readRequired_singleton, readDefaulted_singleton]
  simp only [↓Option.bind_eq_some_iff, Option.some.injEq]
  have hid := deserializeUuid_serializeUuid hserde
  have hinstant := deserializeDateTime_serializeDateTime hserde
  constructor
  · intro hread
    obtain ⟨_, _, _, _, _, _, _, _, arc, harc, capabilities, hcapabilities,
      extensions, hextensions, hcredential⟩ := hread
    exact ⟨by rw [harc, ← hcredential], by rw [hcapabilities, ← hcredential],
      by rw [hextensions, ← hcredential]⟩
  · intro hparts
    obtain ⟨harc, hcapabilities, hextensions⟩ := hparts
    exact ⟨_, asString_str _, _, hid _, _, hinstant _, _, hinstant _, _,
      harc, _, hcapabilities, _, hextensions, rfl⟩

theorem HybridCredential.deserialize_serialize_iff
    {serde : SerdeBackend F G Coins} (hserde : serde.RoundTrips)
    (credential : HybridCredential F G) (tag : Json) :
    HybridCredential.deserialize serde
        (("type", tag) :: credential.serializeFields serde) =
        some credential ↔
      credential.principal.Flattens serde.floats ∧
        credential.agent.Flattens serde.floats ∧
        credential.arcCredential.presentationsUsed = 0 ∧
        credential.mcpCapabilities.rateLimit.window.nanos = 0 ∧
        credential.extensions.Survives serde.floats := by
  rw [← Principal.deserialize_serialize_iff,
    ← Agent.deserialize_serialize_iff hserde,
    ← ARCCredential.deserialize_serialize_iff hserde,
    ← MCPCapabilities.deserialize_serialize_iff,
    ← Extensions.deserialize_serialize_iff]
  have hnodup : ((("type", tag) :: credential.serializeFields serde).map
      Prod.fst).Nodup := by
    simp [serializeFields]
  have hentry (index : ℕ) {name : String} {value : Json} :=
    @entries_of_getElem? _ hnodup index name value
  simp only [deserialize, requiredField, defaultedField,
    Option.bind_eq_bind, hentry 1 rfl, hentry 2 rfl, hentry 3 rfl,
    hentry 4 rfl, hentry 5 rfl, hentry 6 rfl, hentry 7 rfl, hentry 8 rfl,
    hentry 9 rfl, hentry 10 rfl, hentry 11 rfl, hentry 12 rfl,
    readRequired_singleton, readDefaulted_singleton]
  simp only [↓Option.bind_eq_some_iff, Option.some.injEq]
  have hid := deserializeUuid_serializeUuid hserde
  have hinstant := deserializeDateTime_serializeDateTime hserde
  have hchain := DelegationChain.deserialize_serialize hserde
  constructor
  · intro hread
    obtain ⟨_, _, _, _, _, _, _, _, principal, hprincipal, agent, hagent,
      arc, harc, capabilities, hcapabilities, _, _, _, _, _, _, extensions,
      hextensions, hcredential⟩ := hread
    exact ⟨by rw [hprincipal, ← hcredential], by rw [hagent, ← hcredential],
      by rw [harc, ← hcredential], by rw [hcapabilities, ← hcredential],
      by rw [hextensions, ← hcredential]⟩
  · intro hparts
    obtain ⟨hprincipal, hagent, harc, hcapabilities, hextensions⟩ := hparts
    exact ⟨_, asString_str _, _, hid _, _, hinstant _, _, hinstant _, _,
      hprincipal, _, hagent, _, harc, _, hcapabilities, _,
      DelegationRights.deserialize_serialize _, _, hchain _, _,
      deserializeHex_serializeHex _, _, hextensions, rfl⟩

theorem ACDPCredential.deserialize_serialize_iff
    {serde : SerdeBackend F G Coins} (hserde : serde.RoundTrips)
    (credential : ACDPCredential F G) :
    ACDPCredential.deserialize serde (credential.serialize serde) =
        some credential ↔
      (∀ principal, credential.principal? = some principal →
          principal.Flattens serde.floats) ∧
        (∀ agent, credential.agent? = some agent →
          agent.Flattens serde.floats) ∧
        (∀ arc, credential.arcCredential? = some arc →
          arc.presentationsUsed = 0) ∧
        credential.mcpCapabilities.rateLimit.window.nanos = 0 ∧
        credential.extensions.Survives serde.floats := by
  have htag (members : List (String × Json)) (name : String)
      (hmembers : entries members "type" = []) :
      requiredField asString (("type", .str name) :: members) "type" =
        some name := by
    simp [requiredField, entries_cons, hmembers]
  cases credential with
  | identityBound credential =>
      have hfields : entries (credential.serializeFields serde) "type" = [] := by
        simp [IdentityBoundCredential.serializeFields, entries_cons]
      simp only [serialize, deserialize, asObject_obj, Option.bind_eq_bind,
        Option.bind_some, credentialType, typeName, htag _ _ hfields,
        if_true, Option.map_eq_some_iff, identityBound.injEq,
        exists_eq_right,
        IdentityBoundCredential.deserialize_serialize_iff hserde]
      simp [principal?, agent?, arcCredential?, mcpCapabilities, extensions]
  | anonymous credential =>
      have hfields : entries (credential.serializeFields serde) "type" = [] := by
        simp [AnonymousCredential.serializeFields, entries_cons]
      simp only [serialize, deserialize, asObject_obj, Option.bind_eq_bind,
        Option.bind_some, credentialType, typeName, htag _ _ hfields,
        String.reduceEq, if_true, if_false, Option.map_eq_some_iff,
        anonymous.injEq, exists_eq_right,
        AnonymousCredential.deserialize_serialize_iff hserde]
      simp [principal?, agent?, arcCredential?, mcpCapabilities, extensions]
  | hybrid credential =>
      have hfields : entries (credential.serializeFields serde) "type" = [] := by
        simp [HybridCredential.serializeFields, entries_cons]
      simp only [serialize, deserialize, asObject_obj, Option.bind_eq_bind,
        Option.bind_some, credentialType, typeName, htag _ _ hfields,
        String.reduceEq, if_true, if_false, Option.map_eq_some_iff,
        hybrid.injEq, exists_eq_right,
        HybridCredential.deserialize_serialize_iff hserde]
      simp [principal?, agent?, arcCredential?, mcpCapabilities, extensions]

/-! ## The recursion limit of the parser -/

theorem ACDPCredential.fits_serialize_iff (serde : SerdeBackend F G Coins)
    (credential : ACDPCredential F G) :
    (credential.serialize serde).fits 127 = true ↔
      (∀ principal, credential.principal? = some principal →
          (principal.serialize serde).fits 126 = true) ∧
        (∀ agent, credential.agent? = some agent →
          (agent.serialize serde).fits 126 = true) ∧
        (credential.extensions.serialize serde).fits 126 = true := by
  cases credential with
  | identityBound credential =>
      simp [serialize, IdentityBoundCredential.serializeFields, principal?,
        agent?, extensions, serializeUuid, serializeDateTime, serializeHex,
        MCPCapabilities.fits_serialize, DelegationRights.fits_serialize,
        DelegationChain.fits_serialize]
  | anonymous credential =>
      simp [serialize, AnonymousCredential.serializeFields, principal?,
        agent?, extensions, serializeUuid, serializeDateTime,
        MCPCapabilities.fits_serialize, ARCCredential.fits_serialize]
  | hybrid credential =>
      simp [serialize, HybridCredential.serializeFields, principal?,
        agent?, extensions, serializeUuid, serializeDateTime, serializeHex,
        MCPCapabilities.fits_serialize, DelegationRights.fits_serialize,
        DelegationChain.fits_serialize, ARCCredential.fits_serialize]

/-! ## Saving and loading -/

/-- Nothing of the credential is lost by writing it as JSON: no presentation
is spent, the rate window is whole seconds, and dynamic data has names of its
own, stable numbers and bounded nesting. -/
structure ACDPCredential.Persistent (serde : SerdeBackend F G Coins)
    (credential : ACDPCredential F G) : Prop where
  unspent : ∀ arc, credential.arcCredential? = some arc →
    arc.presentationsUsed = 0
  wholeSeconds : credential.mcpCapabilities.rateLimit.window.nanos = 0
  claims : ∀ principal claims, credential.principal? = some principal →
    principal.additionalClaims = some claims →
    ∀ member ∈ claims.custom.members,
      member.1 ∉ ["email", "name", "org", "groups"] ∧
        member.2.FloatsStable serde.floats ∧ member.2.fits 124 = true
  agentMetadata : ∀ agent metadata, credential.agent? = some agent →
    agent.metadata = some metadata →
    ∀ member ∈ metadata.custom.members,
      member.1 ∉
          ["version", "code_hash", "build_timestamp",
            "capabilities_description"] ∧
        member.2.FloatsStable serde.floats ∧ member.2.fits 124 = true
  metadata : ∀ value, credential.extensions.metadata = some value →
    value.val ≠ .null ∧ value.val.FloatsStable serde.floats ∧
      value.val.fits 125 = true

theorem ACDPCredential.reload_eq_some_iff
    {serde : SerdeBackend F G Coins} (hserde : serde.RoundTrips)
    (credential : ACDPCredential F G) :
    credential.reload serde = some credential ↔
      credential.Persistent serde := by
  have hread := deserialize_serialize_iff hserde credential
  have hfits := fits_serialize_iff serde credential
  constructor
  · intro hreload
    unfold reload at hreload
    split at hreload
    next hdepth =>
      obtain ⟨hprincipal, hagent, hunspent, hwindow, hextensions⟩ :=
        hread.mp hreload
      obtain ⟨hprincipalFits, hagentFits, hextensionsFits⟩ :=
        hfits.mp hdepth
      constructor
      · exact hunspent
      · exact hwindow
      · intro principal claims hsome hclaims member hmember
        have hflattens :=
          hprincipal principal hsome claims hclaims member hmember
        have hnested :=
          (principal.fits_serialize_iff serde 123).mp
            (hprincipalFits principal hsome) claims hclaims member hmember
        exact ⟨hflattens.1, hflattens.2, hnested⟩
      · intro agent metadata hsome hmetadata member hmember
        have hflattens :=
          hagent agent hsome metadata hmetadata member hmember
        have hnested :=
          (agent.fits_serialize_iff serde 123).mp
            (hagentFits agent hsome) metadata hmetadata member hmember
        exact ⟨hflattens.1, hflattens.2, hnested⟩
      · intro value hvalue
        have hsurvives := hextensions value hvalue
        have hnested :=
          (credential.extensions.fits_serialize_iff serde 125).mp
            hextensionsFits value hvalue
        exact ⟨hsurvives.1, hsurvives.2, hnested⟩
    next => simp at hreload
  · intro hpersistent
    have hdepth : (credential.serialize serde).fits 127 = true := by
      apply hfits.mpr
      refine ⟨?_, ?_, ?_⟩
      · intro principal hsome
        apply (principal.fits_serialize_iff serde 123).mpr
        intro claims hclaims member hmember
        exact (hpersistent.claims principal claims hsome hclaims member
          hmember).2.2
      · intro agent hsome
        apply (agent.fits_serialize_iff serde 123).mpr
        intro metadata hmetadata member hmember
        exact (hpersistent.agentMetadata agent metadata hsome hmetadata
          member hmember).2.2
      · apply (credential.extensions.fits_serialize_iff serde 125).mpr
        intro value hvalue
        exact (hpersistent.metadata value hvalue).2.2
    unfold reload
    rw [if_pos hdepth]
    apply hread.mpr
    refine ⟨?_, ?_, hpersistent.unspent, hpersistent.wholeSeconds, ?_⟩
    · intro principal hsome claims hclaims member hmember
      have hclaim :=
        hpersistent.claims principal claims hsome hclaims member hmember
      exact ⟨hclaim.1, hclaim.2.1⟩
    · intro agent hsome metadata hmetadata member hmember
      have hfield :=
        hpersistent.agentMetadata agent metadata hsome hmetadata member
          hmember
      exact ⟨hfield.1, hfield.2.1⟩
    · intro value hvalue
      have hvalid := hpersistent.metadata value hvalue
      exact ⟨hvalid.1, hvalid.2.1⟩

def smallAnonymous (presentationsUsed : UInt64) :
    ACDPCredential (ZMod 11) (ZMod 11) :=
  .anonymous
    { version := "ACDP/0.3"
      credentialId := FixedBytes.filled 16 1
      issuedAt := smallInstant
      expiresAt := smallInstant
      arcCredential := ⟨4, 6, 8, 3, 1, presentationsUsed⟩
      mcpCapabilities :=
        { allowedTools := [⟨"filesystem/*"⟩]
          rateLimit := RateLimitParams.daily 1 }
      extensions := {} }

theorem smallAnonymous_fresh_persistent :
    (smallAnonymous 0).Persistent smallSerde ∧
      (smallAnonymous 0).reload smallSerde = some (smallAnonymous 0) := by
  have hpersistent : (smallAnonymous 0).Persistent smallSerde := by
    constructor
    · intro arc harc
      simp only [smallAnonymous, ACDPCredential.arcCredential?,
        Option.some.injEq] at harc
      rw [← harc]
    · rfl
    · simp [smallAnonymous, ACDPCredential.principal?]
    · simp [smallAnonymous, ACDPCredential.agent?]
    · simp [smallAnonymous, ACDPCredential.extensions]
  exact ⟨hpersistent,
    (ACDPCredential.reload_eq_some_iff smallSerde_roundTrips
      (smallAnonymous 0)).mpr hpersistent⟩

/-- Saving and loading a spent credential gives the presentation back. -/
theorem smallAnonymous_spent_restored :
    (smallAnonymous 1).reload smallSerde = some (smallAnonymous 0) ∧
      smallAnonymous 0 ≠ smallAnonymous 1 ∧
      (smallAnonymous 1).arcCredential?.map
          ARCCredential.presentationsRemaining = some 0 ∧
      (smallAnonymous 0).arcCredential?.map
          ARCCredential.presentationsRemaining = some 1 := by
  refine ⟨rfl, ?_, rfl, rfl⟩
  simp [smallAnonymous]

end Auth
end Acdp
