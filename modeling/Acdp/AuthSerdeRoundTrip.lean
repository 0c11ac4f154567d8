import Acdp.ArcCorrectness
import Acdp.AuthSerde

/-!
# Reading the parts of a credential back

Which parts of a credential come back unchanged when they are written as JSON
and read again, and how deep their documents nest.  Most parts always
survive; a rate window loses its fraction, the counter of the anonymous
protocol is skipped, and a flattened map must keep out of the way of the
fields it is written among.
-/

namespace Acdp
namespace Auth

open Json

variable {F G Coins : Type}

/-! ## Fields that always survive -/

@[simp] theorem deserializeHex_serializeHex {n : ℕ} (bytes : FixedBytes n) :
    deserializeHex n (serializeHex bytes) = some bytes := by
  simp [deserializeHex, serializeHex, Except.toOption]

@[simp] theorem ToolPattern.deserialize_serialize (pattern : ToolPattern) :
    ToolPattern.deserialize pattern.serialize = some pattern := rfl

@[simp] theorem asList_toolPatterns (patterns : List ToolPattern) :
    asList ToolPattern.deserialize
      (.arr (patterns.map ToolPattern.serialize)) = some patterns := by
  simp only [asList]
  rw [mapM_map_eq_some_iff]
  intro pattern _
  exact pattern.deserialize_serialize

@[simp] theorem ResourceLimits.deserialize_serialize
    (limits : ResourceLimits) :
    ResourceLimits.deserialize limits.serialize = some limits := by
  have hread := (readOptional_toList_iff asUInt64
    (fun limit => .int limit.toNat) limits.maxReadBytes).mpr (by simp)
  have hwrite := (readOptional_toList_iff asUInt64
    (fun limit => .int limit.toNat) limits.maxWriteBytes).mpr (by simp)
  have hconcurrent := (readOptional_toList_iff asUInt32
    (fun limit => .int limit.toNat) limits.maxConcurrentRequests).mpr
      (by simp)
  simp [serialize, deserialize, optionalField, entries_optionalMember_ne,
    hread, hwrite, hconcurrent]

@[simp] theorem CapabilityReductionPolicy.deserialize_serialize
    (policy : CapabilityReductionPolicy) :
    CapabilityReductionPolicy.deserialize policy.serialize =
      some policy := by
  cases policy <;> rfl

@[simp] theorem DelegationRights.deserialize_serialize
    (rights : DelegationRights) :
    DelegationRights.deserialize rights.serialize = some rights := by
  simp [serialize, deserialize, requiredField, entries_cons]

section Library

variable {serde : SerdeBackend F G Coins} (hserde : serde.RoundTrips)

include hserde

theorem deserializeUuid_serializeUuid (id : Uuid) :
    deserializeUuid serde (serializeUuid serde id) = some id := by
  simp [deserializeUuid, serializeUuid, hserde.uuid]

theorem deserializeDateTime_serializeDateTime (instant : DateTime) :
    deserializeDateTime serde (serializeDateTime serde instant) =
      some instant := by
  simp [deserializeDateTime, serializeDateTime, hserde.dateTime]

theorem deserializeScalar_serializeScalar (scalar : F) :
    deserializeScalar serde (serializeScalar serde scalar) =
      some scalar := by
  simp [deserializeScalar, serializeScalar, hserde.scalar]

theorem deserializePoint_serializePoint (point : G) :
    deserializePoint serde (serializePoint serde point) = some point := by
  obtain ⟨hlength, hdecode⟩ := hserde.point point
  simp [deserializePoint, serializePoint, FixedBytes.ofSlice?, hlength,
    hdecode]

theorem DelegationProof.deserialize_serialize (proof : DelegationProof) :
    DelegationProof.deserialize serde (proof.serialize serde) =
      some proof := by
  simp only [serialize, deserialize, asObject_obj, Option.bind_eq_bind,
    Option.bind_some]
  simp only [requiredField, entries_cons, String.reduceEq, reduceIte,
    entries_nil, readRequired_singleton]
  simp only [asString_str, asBool_bool, deserializeHex_serializeHex,
    deserializeUuid_serializeUuid hserde,
    deserializeDateTime_serializeDateTime hserde, Option.bind_some]

theorem DelegationChain.deserialize_serialize (chain : DelegationChain) :
    DelegationChain.deserialize serde (chain.serialize serde) =
      some chain := by
  have hproofs :
      asList (DelegationProof.deserialize serde)
          (.arr (chain.proofs.map (DelegationProof.serialize serde))) =
        some chain.proofs := by
    simp only [asList]
    rw [mapM_map_eq_some_iff]
    intro proof _
    exact DelegationProof.deserialize_serialize hserde proof
  simp [serialize, deserialize, requiredField, entries_cons, hproofs]

end Library

/-! ## Fields that survive conditionally -/

theorem deserializeDuration_serializeDuration_iff (duration : Duration) :
    deserializeDuration (serializeDuration duration) = some duration ↔
      duration.nanos = 0 := by
  obtain ⟨secs, nanos, hnanos⟩ := duration
  simp [deserializeDuration, serializeDuration, Duration.fromSecs, eq_comm]

theorem RateLimitParams.deserialize_serialize_iff (params : RateLimitParams) :
    RateLimitParams.deserialize params.serialize = some params ↔
      params.window.nanos = 0 := by
  rw [← deserializeDuration_serializeDuration_iff]
  obtain ⟨maxPresentations, window⟩ := params
  simp [serialize, deserialize, requiredField, entries_cons,
    Option.bind_eq_some_iff]

theorem MCPCapabilities.deserialize_serialize_iff
    (capabilities : MCPCapabilities) :
    MCPCapabilities.deserialize capabilities.serialize =
        some capabilities ↔
      capabilities.rateLimit.window.nanos = 0 := by
  rw [← RateLimitParams.deserialize_serialize_iff]
  obtain ⟨allowedTools, deniedTools, resourceLimits, rateLimit⟩ :=
    capabilities
  simp [serialize, deserialize, requiredField, defaultedField, entries_cons,
    Option.bind_eq_some_iff]

theorem ARCCredential.deserialize_serialize
    {serde : SerdeBackend F G Coins} (hserde : serde.RoundTrips)
    (credential : ARCCredential F G) :
    ARCCredential.deserialize serde (credential.serialize serde) =
      some { credential with presentationsUsed := 0 } := by
  simp only [serialize, deserialize, asObject_obj, Option.bind_eq_bind,
    Option.bind_some]
  simp only [requiredField, entries_cons, String.reduceEq, reduceIte,
    entries_nil, readRequired_singleton]
  simp only [deserializeScalar_serializeScalar hserde,
    deserializePoint_serializePoint hserde, asUInt64_toNat,
    Option.bind_some]

theorem ARCCredential.deserialize_serialize_iff
    {serde : SerdeBackend F G Coins} (hserde : serde.RoundTrips)
    (credential : ARCCredential F G) :
    ARCCredential.deserialize serde (credential.serialize serde) =
        some credential ↔
      credential.presentationsUsed = 0 := by
  rw [ARCCredential.deserialize_serialize hserde]
  obtain ⟨m1, u, uPrime, x1, maxPresentations, presentationsUsed⟩ :=
    credential
  simp [eq_comm]

/-! ## Flattened maps -/

/-- Every name of the map is free and every number in it is stable. -/
def FlattensInto (floats : FloatText) (named : List String)
    (map : OrderedMap) : Prop :=
  ∀ member ∈ map.members,
    member.1 ∉ named ∧ member.2.FloatsStable floats

theorem entries_append_serialize {floats : FloatText}
    {named : List String} {map : OrderedMap}
    (hfree : FlattensInto floats named map)
    (fields : List (String × Json)) (name : String) (hname : name ∈ named) :
    entries (fields ++ map.serialize floats) name =
      entries fields name := by
  have habsent : entries (map.serialize floats) name = [] := by
    apply entries_eq_nil
    intro member hmember hsame
    obtain ⟨original, horiginal, hkey⟩ :=
      OrderedMap.exists_mem_of_mem_serialize floats hmember
    rw [hsame] at hkey
    rw [← hkey] at hname
    exact (hfree original horiginal).1 hname
  rw [entries_append, habsent, List.append_nil]

theorem deserializeRest_eq_some_iff (floats : FloatText)
    {named : List String} {fields : List (String × Json)}
    (hfields : ∀ member ∈ fields, member.1 ∈ named) (map : OrderedMap) :
    deserializeRest floats named (fields ++ map.serialize floats) =
        some map ↔
      FlattensInto floats named map := by
  have hskipped :
      fields.filter (fun member => !named.contains member.1) = [] := by
    rw [List.filter_eq_nil_iff]
    intro member hmember
    simpa using hfields member hmember
  rw [deserializeRest, List.filter_append, hskipped, List.nil_append]
  have hkept (hfree : ∀ member ∈ map.members, member.1 ∉ named) :
      (map.serialize floats).filter
        (fun member => !named.contains member.1) = map.serialize floats := by
    rw [List.filter_eq_self]
    intro member hmember
    obtain ⟨original, horiginal, hkey⟩ :=
      OrderedMap.exists_mem_of_mem_serialize floats hmember
    have hnot := hfree original horiginal
    rw [hkey] at hnot
    simpa using hnot
  constructor
  · intro hread
    have hfree : ∀ member ∈ map.members, member.1 ∉ named := by
      intro member hmember hnamed
      have hname := OrderedMap.deserialize_name floats hread hmember
      obtain ⟨source, hsource, hkey⟩ := List.mem_map.mp hname
      have hunnamed := (List.mem_filter.mp hsource).2
      rw [hkey] at hunnamed
      simp [hnamed] at hunnamed
    rw [hkept hfree, OrderedMap.deserialize_serialize_iff] at hread
    intro member hmember
    exact ⟨hfree member hmember, hread member hmember⟩
  · intro hflattens
    rw [hkept (fun member hmember => (hflattens member hmember).1),
      OrderedMap.deserialize_serialize_iff]
    intro member hmember
    exact (hflattens member hmember).2

theorem AdditionalClaims.namedMembers_named (claims : AdditionalClaims) :
    ∀ member ∈ claims.namedMembers, member.1 ∈ fieldNames := by
  intro member hmember
  simp only [namedMembers, List.mem_append] at hmember
  rcases hmember with ((hemail | hname) | horg) | hgroups
  · simp [fieldNames, mem_optionalMember hemail]
  · simp [fieldNames, mem_optionalMember hname]
  · simp [fieldNames, mem_optionalMember horg]
  · simp [fieldNames, mem_optionalMember hgroups]

theorem AdditionalClaims.deserialize_serialize_iff
    (serde : SerdeBackend F G Coins) (claims : AdditionalClaims) :
    AdditionalClaims.deserialize serde (claims.serialize serde) =
        some claims ↔
      FlattensInto serde.floats fieldNames claims.custom := by
  have hrest := deserializeRest_eq_some_iff serde.floats
    claims.namedMembers_named claims.custom
  constructor
  · intro hread
    simp only [serialize, deserialize, asObject_obj, Option.bind_eq_bind,
      Option.bind_some, Option.bind_eq_some_iff, Option.some.injEq] at hread
    obtain ⟨_, _, _, _, _, _, _, _, custom, hcustom, hclaims⟩ := hread
    have hsame : custom = claims.custom :=
      congrArg AdditionalClaims.custom hclaims
    rw [hsame] at hcustom
    exact hrest.mp hcustom
  · intro hfree
    have hgroups : readOptional (asList asString)
        (claims.groups.map (fun groups => .arr (groups.map .str))).toList =
          some claims.groups := by
      rw [readOptional_toList_iff]
      intro groups _
      refine ⟨by simp, ?_⟩
      simp only [asList]
      rw [mapM_map_eq_some_iff]
      simp
    simp only [serialize, deserialize, asObject_obj, Option.bind_eq_bind,
      Option.bind_some, optionalField, hrest.mpr hfree]
    have hentries := entries_append_serialize hfree claims.namedMembers
    rw [hentries "email" (by simp [fieldNames]),
      hentries "name" (by simp [fieldNames]),
      hentries "org" (by simp [fieldNames]),
      hentries "groups" (by simp [fieldNames])]
    simp [namedMembers, entries_optionalMember_ne, readOptional_strings,
      hgroups]

theorem AgentMetadata.namedMembers_named (serde : SerdeBackend F G Coins)
    (metadata : AgentMetadata) :
    ∀ member ∈ metadata.namedMembers serde, member.1 ∈ fieldNames := by
  intro member hmember
  simp only [namedMembers, List.mem_append] at hmember
  rcases hmember with ((hversion | hhash) | hbuild) | hdescription
  · simp [fieldNames, mem_optionalMember hversion]
  · simp [fieldNames, mem_optionalMember hhash]
  · simp [fieldNames, mem_optionalMember hbuild]
  · simp [fieldNames, mem_optionalMember hdescription]

theorem AgentMetadata.deserialize_serialize_iff
    {serde : SerdeBackend F G Coins} (hserde : serde.RoundTrips)
    (metadata : AgentMetadata) :
    AgentMetadata.deserialize serde (metadata.serialize serde) =
        some metadata ↔
      FlattensInto serde.floats fieldNames metadata.custom := by
  have hrest := deserializeRest_eq_some_iff serde.floats
    (metadata.namedMembers_named serde) metadata.custom
  constructor
  · intro hread
    simp only [serialize, deserialize, asObject_obj, Option.bind_eq_bind,
      Option.bind_some, Option.bind_eq_some_iff, Option.some.injEq] at hread
    obtain ⟨_, _, _, _, _, _, _, _, custom, hcustom, hmetadata⟩ := hread
    have hsame : custom = metadata.custom :=
      congrArg AgentMetadata.custom hmetadata
    rw [hsame] at hcustom
    exact hrest.mp hcustom
  · intro hfree
    have hbuild : readOptional (deserializeDateTime serde)
        (metadata.buildTimestamp.map (serializeDateTime serde)).toList =
          some metadata.buildTimestamp := by
      rw [readOptional_toList_iff]
      intro instant _
      exact ⟨by simp [serializeDateTime],
        deserializeDateTime_serializeDateTime hserde instant⟩
    simp only [serialize, deserialize, asObject_obj, Option.bind_eq_bind,
      Option.bind_some, optionalField, hrest.mpr hfree]
    have hentries :=
      entries_append_serialize hfree (metadata.namedMembers serde)
    rw [hentries "version" (by simp [fieldNames]),
      hentries "code_hash" (by simp [fieldNames]),
      hentries "build_timestamp" (by simp [fieldNames]),
      hentries "capabilities_description" (by simp [fieldNames])]
    simp [namedMembers, entries_optionalMember_ne, readOptional_strings,
      hbuild]

/-! ## Identities -/

/-- The flattened claims of a principal keep out of the way of its fields. -/
def Principal.Flattens (floats : FloatText) (principal : Principal) : Prop :=
  ∀ claims, principal.additionalClaims = some claims →
    FlattensInto floats AdditionalClaims.fieldNames claims.custom

def Agent.Flattens (floats : FloatText) (agent : Agent) : Prop :=
  ∀ metadata, agent.metadata = some metadata →
    FlattensInto floats AgentMetadata.fieldNames metadata.custom

theorem Principal.deserialize_serialize_iff
    (serde : SerdeBackend F G Coins) (principal : Principal) :
    Principal.deserialize serde (principal.serialize serde) =
        some principal ↔
      principal.Flattens serde.floats := by
  obtain ⟨humanId, idpIssuer, idpClientId, additionalClaims⟩ := principal
  have hclaims := readOptional_toList_iff
    (AdditionalClaims.deserialize serde) (AdditionalClaims.serialize serde)
    additionalClaims
  have hobject (claims : AdditionalClaims) :
      claims.serialize serde ≠ .null := by
    simp [AdditionalClaims.serialize]
  simp only [hobject, AdditionalClaims.deserialize_serialize_iff, ne_eq,
    not_false_eq_true, true_and] at hclaims
  rw [Flattens, ← hclaims]
  simp only [serialize, deserialize, asObject_obj, Option.bind_eq_bind,
    Option.bind_some, requiredField, optionalField, List.cons_append,
    List.nil_append]
  simp only [entries_cons, String.reduceEq, reduceIte,
    entries_optionalMember_self]
  simp [entries_optionalMember_ne, Option.bind_eq_some_iff]

theorem Agent.deserialize_serialize_iff
    {serde : SerdeBackend F G Coins} (hserde : serde.RoundTrips)
    (agent : Agent) :
    Agent.deserialize serde (agent.serialize serde) = some agent ↔
      agent.Flattens serde.floats := by
  obtain ⟨agentId, publicKey, platform, verified, metadata⟩ := agent
  have hmetadata := readOptional_toList_iff
    (AgentMetadata.deserialize serde) (AgentMetadata.serialize serde)
    metadata
  have hobject (metadata : AgentMetadata) :
      metadata.serialize serde ≠ .null := by
    simp [AgentMetadata.serialize]
  simp only [hobject, AgentMetadata.deserialize_serialize_iff hserde, ne_eq,
    not_false_eq_true, true_and] at hmetadata
  rw [Flattens, ← hmetadata]
  simp only [serialize, deserialize, asObject_obj, Option.bind_eq_bind,
    Option.bind_some, requiredField, optionalField, List.cons_append,
    List.nil_append]
  simp only [entries_cons, String.reduceEq, reduceIte,
    entries_optionalMember_self]
  simp [entries_optionalMember_ne, Option.bind_eq_some_iff]

/-! ## Nesting -/

theorem Principal.fits_serialize_iff (serde : SerdeBackend F G Coins)
    (principal : Principal) (depth : ℕ) :
    (principal.serialize serde).fits (depth + 3) = true ↔
      ∀ claims, principal.additionalClaims = some claims →
        ∀ member ∈ claims.custom.members,
          member.2.fits (depth + 1) = true := by
  have hclaims (claims : AdditionalClaims) :
      (claims.serialize serde).fits (depth + 2) = true ↔
        ∀ member ∈ claims.custom.members,
          member.2.fits (depth + 1) = true := by
    simp [AdditionalClaims.serialize, AdditionalClaims.namedMembers,
      OrderedMap.all_serialize, Option.all_eq_true, List.all_eq_true]
  have hprincipal :
      (principal.serialize serde).fits (depth + 3) = true ↔
        ∀ claims, principal.additionalClaims = some claims →
          (claims.serialize serde).fits (depth + 2) = true := by
    simp [serialize, Option.all_eq_true]
  rw [hprincipal]
  exact forall₂_congr (fun claims _ => hclaims claims)

theorem Agent.fits_serialize_iff (serde : SerdeBackend F G Coins)
    (agent : Agent) (depth : ℕ) :
    (agent.serialize serde).fits (depth + 3) = true ↔
      ∀ metadata, agent.metadata = some metadata →
        ∀ member ∈ metadata.custom.members,
          member.2.fits (depth + 1) = true := by
  have hmetadata (metadata : AgentMetadata) :
      (metadata.serialize serde).fits (depth + 2) = true ↔
        ∀ member ∈ metadata.custom.members,
          member.2.fits (depth + 1) = true := by
    simp [AgentMetadata.serialize, AgentMetadata.namedMembers,
      serializeDateTime, OrderedMap.all_serialize]
  have hagent :
      (agent.serialize serde).fits (depth + 3) = true ↔
        ∀ metadata, agent.metadata = some metadata →
          (metadata.serialize serde).fits (depth + 2) = true := by
    simp [serialize, serializeHex, Option.all_eq_true]
  rw [hagent]
  exact forall₂_congr (fun metadata _ => hmetadata metadata)

theorem MCPCapabilities.fits_serialize (capabilities : MCPCapabilities)
    (depth : ℕ) :
    capabilities.serialize.fits (depth + 2) = true := by
  simp [serialize, ToolPattern.serialize, ResourceLimits.serialize,
    RateLimitParams.serialize, serializeDuration, Function.comp_def]

theorem DelegationRights.fits_serialize (rights : DelegationRights)
    (depth : ℕ) :
    rights.serialize.fits (depth + 1) = true := by
  cases hpolicy : rights.capabilityReductionPolicy <;>
    simp [serialize, hpolicy, CapabilityReductionPolicy.serialize]

theorem DelegationChain.fits_serialize (serde : SerdeBackend F G Coins)
    (chain : DelegationChain) (depth : ℕ) :
    (chain.serialize serde).fits (depth + 3) = true := by
  simp [serialize, DelegationProof.serialize, serializeUuid,
    serializeDateTime, serializeHex, Function.comp_def]

theorem ARCCredential.fits_serialize (serde : SerdeBackend F G Coins)
    (credential : ARCCredential F G) (depth : ℕ) :
    (credential.serialize serde).fits (depth + 2) = true := by
  simp [serialize, serializeScalar, serializePoint]

/-! ## A small backend

Identifiers are written in the hyphenated form.  Instants have the text of
the one instant the runs below use, and tagged bytes otherwise. -/

def smallUuidText (id : Uuid) : String :=
  let digits := id.val.flatMap hexPair
  String.ofList
    (digits.take 8 ++ '-' :: ((digits.drop 8).take 4 ++
      '-' :: ((digits.drop 12).take 4 ++
        '-' :: ((digits.drop 16).take 4 ++ '-' :: digits.drop 20))))

def smallUuidParse (text : String) : Option Uuid := do
  let bytes ←
    (hexDecode (String.ofList (text.toList.filter (· != '-')))).toOption
  FixedBytes.ofSlice? 16 bytes

def smallInstantText : String := "2023-11-14T22:13:20Z"

def smallDateTimeText (instant : DateTime) : String :=
  if instant = smallInstant then smallInstantText
  else hexEncode (leBytes 8 (instant.secs + 2 ^ 62).toNat ++
    leBytes 4 instant.nanos)

def smallDateTimeParse (text : String) : Option DateTime :=
  if text = smallInstantText then some smallInstant
  else do
    let bytes ← (hexDecode text).toOption
    let secs : ℤ := ofLeBytes (bytes.take 8) - 2 ^ 62
    let nanos := ofLeBytes (bytes.drop 8)
    if hvalid : -8334601228800 ≤ secs ∧ secs ≤ 8210266876799 ∧
        nanos < 2000000000 ∧ (1000000000 ≤ nanos → secs % 60 = 59) then
      some ⟨secs, nanos, hvalid.1, hvalid.2.1, hvalid.2.2.1, hvalid.2.2.2⟩
    else none

theorem hexDigit_ne_hyphen {value : ℕ} (hvalue : value < 16) :
    hexDigit value ≠ '-' := by
  interval_cases value <;> decide

theorem flatMap_hexPair_ne_hyphen (bytes : Bytes) :
    ∀ char ∈ bytes.flatMap hexPair, char ≠ '-' := by
  intro char hchar
  obtain ⟨byte, _, hpair⟩ := List.mem_flatMap.mp hchar
  have hlt := byte.toNat_lt
  simp only [hexPair, List.mem_cons, List.not_mem_nil, or_false] at hpair
  rcases hpair with hhigh | hlow
  · rw [hhigh]
    exact hexDigit_ne_hyphen (by omega)
  · rw [hlow]
    exact hexDigit_ne_hyphen (by omega)

theorem take_append_drop_add {α : Type} (list : List α) (start count : ℕ) :
    (list.drop start).take count ++ list.drop (start + count) =
      list.drop start := by
  rw [← List.drop_drop]
  exact List.take_append_drop count (list.drop start)

theorem smallUuidParse_smallUuidText (id : Uuid) :
    smallUuidParse (smallUuidText id) = some id := by
  have hkept (part : List Char) (hpart : part ⊆ id.val.flatMap hexPair) :
      part.filter (· != '-') = part := by
    rw [List.filter_eq_self]
    intro char hchar
    simpa using flatMap_hexPair_ne_hyphen id.val char (hpart hchar)
  have htake (start count : ℕ) :
      ((id.val.flatMap hexPair).drop start).take count ⊆
        id.val.flatMap hexPair :=
    fun _ hchar => List.mem_of_mem_drop (List.mem_of_mem_take hchar)
  have hplain :
      (smallUuidText id).toList.filter (· != '-') =
        id.val.flatMap hexPair := by
    simp only [smallUuidText, String.toList_ofList, List.filter_append,
      List.filter_cons, bne_self_eq_false, Bool.false_eq_true, if_false]
    rw [hkept _ (List.take_subset 8 _), hkept _ (htake 8 4),
      hkept _ (htake 12 4), hkept _ (htake 16 4),
      hkept _ (List.drop_subset 20 _)]
    rw [take_append_drop_add _ 16 4, take_append_drop_add _ 12 4,
      take_append_drop_add _ 8 4]
    exact List.take_append_drop 8 _
  have hdecode := hexDecode_hexEncode id.val
  rw [hexEncode] at hdecode
  unfold smallUuidParse
  rw [hplain, hdecode]
  exact FixedBytes.ofSlice?_val id

theorem hexEncode_ne_smallInstantText (bytes : Bytes) :
    hexEncode bytes ≠ smallInstantText := by
  intro htext
  have hhyphen : '-' ∈ (hexEncode bytes).toList := by
    rw [htext]
    decide
  rw [hexEncode, String.toList_ofList] at hhyphen
  exact flatMap_hexPair_ne_hyphen bytes '-' hhyphen rfl

theorem smallDateTimeParse_smallDateTimeText (instant : DateTime) :
    smallDateTimeParse (smallDateTimeText instant) = some instant := by
  by_cases hinstant : instant = smallInstant
  · simp [smallDateTimeText, smallDateTimeParse, hinstant]
  · obtain ⟨secs, nanos, hlower, hupper, hnanos, hleap⟩ := instant
    have hsecs : ((secs + 2 ^ 62).toNat % 256 ^ 8 : ℕ) - 2 ^ 62 = secs := by
      omega
    have hfraction : nanos % 256 ^ 4 = nanos := by omega
    have htake (left right : ℕ) :
        (leBytes 8 left ++ leBytes 4 right).take 8 = leBytes 8 left :=
      List.take_left' (length_leBytes 8 left)
    have hdrop (left right : ℕ) :
        (leBytes 8 left ++ leBytes 4 right).drop 8 = leBytes 4 right :=
      List.drop_left' (length_leBytes 8 left)
    simp only [smallDateTimeText, smallDateTimeParse, hinstant, if_false,
      hexEncode_ne_smallInstantText, hexDecode_hexEncode, Except.toOption,
      Option.bind_eq_bind, Option.bind_some, htake, hdrop,
      ofLeBytes_leBytes, hsecs, hfraction]
    rw [dif_pos ⟨hlower, hupper, hnanos, hleap⟩]

def smallFloats : FloatText where
  print bits := hexEncode (leBytes 8 bits.toNat)
  parse text :=
    (hexDecode text).toOption.map (fun bytes => UInt64.ofNat (ofLeBytes bytes))

def smallSerde : SerdeBackend (ZMod 11) (ZMod 11) Unit where
  toArcBackend := smallBackend
  uuidToString := smallUuidText
  uuidParseStr := smallUuidParse
  dateTimeToString := smallDateTimeText
  dateTimeParse := smallDateTimeParse
  floats := smallFloats
  scalarToBytes scalar :=
    ⟨List.replicate 31 0 ++ [UInt8.ofNat scalar.val], by simp⟩
  scalarFromRepr repr :=
    repr.val.getLast?.map (fun byte => (byte.toNat : ZMod 11))

theorem smallSerde_roundTrips : smallSerde.RoundTrips where
  uuid := smallUuidParse_smallUuidText
  dateTime := smallDateTimeParse_smallDateTimeText
  scalar := by decide
  point := smallBackend_pointsRoundTrip

end Auth
end Acdp
