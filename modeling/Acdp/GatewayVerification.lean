import Acdp.StepMachine
import Acdp.AuthPrimitives

/-!
# The verification endpoint of the gateway server

`POST /credentials/verify`: the request is checked against one `SELECT`, and
an accepted presentation is counted by a later `UPDATE`.  Requests interleave
between the two statements, each of which is atomic.  The credential library
the server is built with is a parameter.
-/

namespace Acdp
namespace Gateway

open Auth (Uuid DateTime)

variable {ι Credential : Type}

structure PrincipalInfo where
  subject : String
  issuer : String
  clientId : String

/-- The variants of a credential, with what the endpoint reads of each. -/
inductive CredentialKind where
  | identityBound (principal : PrincipalInfo) (agentId : String)
      (auditTrail : List String)
  | anonymous
  | hybrid

/-- The credential library: `serde_json::from_str` at its credential type,
and the accessors the endpoint uses. -/
structure CredentialLibrary (Credential : Type) where
  fromStr : String → Except String Credential
  credentialId : Credential → Uuid
  isExpired : Credential → DateTime → Bool
  kind : Credential → CredentialKind

structure CredentialVerificationRequest where
  credentialId : Uuid
  presentationContext : String
  nonce : UInt64
  credential : String
  arcPresentation : Option String

structure CredentialVerificationResult where
  valid : Bool
  principal : Option PrincipalInfo
  agentId : Option String
  presentationsRemaining : UInt64
  delegationChain : List String
  failureReason : Option String
  verifiedAt : DateTime

inductive ACDPGatewayError where
  | credentialVerificationFailed (message : String)
  | databaseError (message : String)
  deriving DecidableEq, Repr

abbrev Response := Except ACDPGatewayError CredentialVerificationResult

/-- The columns of `acdp_credentials` the endpoint reads and writes, the two
counters in the range of `BIGINT`. -/
structure StoredCredential where
  maxPresentations : ℤ
  presentationsUsed : ℤ
  revoked : Bool
  max_range : InI64 maxPresentations
  used_range : InI64 presentationsUsed

abbrev Table := Uuid → Option StoredCredential

structure VerificationCall where
  body : CredentialVerificationRequest
  expiryCheckedAt : DateTime
  verifiedAt : DateTime

def failure (reason : String) (verifiedAt : DateTime) :
    CredentialVerificationResult where
  valid := false
  principal := none
  agentId := none
  presentationsRemaining := 0
  delegationChain := []
  failureReason := some reason
  verifiedAt := verifiedAt

/-- `value as u64`. -/
def i64AsU64 (value : ℤ) : UInt64 := UInt64.ofNat (value % 2 ^ 64).toNat

/-- Only identity-bound credentials name their principal and agent. -/
def disclosed :
    CredentialKind → Option PrincipalInfo × Option String × List String
  | .identityBound principal agentId auditTrail =>
      (some principal, some agentId, auditTrail)
  | .anonymous => (none, none, [])
  | .hybrid => (none, none, [])

/-- The successful response.  The remainder is computed from the row the
`SELECT` returned. -/
def success (library : CredentialLibrary Credential)
    (credential : Credential) (selected : StoredCredential)
    (verifiedAt : DateTime) : CredentialVerificationResult :=
  let (principal, agentId, delegationChain) :=
    disclosed (library.kind credential)
  { valid := true
    principal := principal
    agentId := agentId
    presentationsRemaining :=
      i64AsU64 (selected.maxPresentations - (selected.presentationsUsed + 1))
    delegationChain := delegationChain
    failureReason := none
    verifiedAt := verifiedAt }

inductive SelectOutcome (Credential : Type) where
  | respond (response : Response)
  | proceed (credential : Credential) (selected : StoredCredential)

/-- The endpoint up to its `UPDATE`. -/
def selectPhase (library : CredentialLibrary Credential)
    (call : VerificationCall) (table : Table) : SelectOutcome Credential :=
  match library.fromStr call.body.credential with
  | .error e =>
      .respond (.error (.credentialVerificationFailed
        ("Invalid credential JSON: " ++ e)))
  | .ok credential =>
      if library.isExpired credential call.expiryCheckedAt then
        .respond (.ok (failure "Credential expired" call.verifiedAt))
      else
        match table (library.credentialId credential) with
        | none =>
            .respond (.ok (failure "Credential not found" call.verifiedAt))
        | some stored =>
            if stored.revoked then
              .respond (.ok (failure "Credential revoked" call.verifiedAt))
            else if stored.presentationsUsed ≥ stored.maxPresentations then
              .respond (.ok (failure "Rate limit exceeded" call.verifiedAt))
            else .proceed credential stored

/-- `UPDATE … SET presentations_used = presentations_used + 1`: no row is no
error, an increment out of range is one. -/
def incrementUsed (table : Table) (id : Uuid) :
    Except ACDPGatewayError Table :=
  match table id with
  | none => .ok table
  | some stored =>
      if hrange : InI64 (stored.presentationsUsed + 1) then
        .ok (Function.update table id (some
          { stored with
            presentationsUsed := stored.presentationsUsed + 1
            used_range := hrange }))
      else .error (.databaseError "bigint out of range")

/-- The endpoint from its `UPDATE` on. -/
def updatePhase (library : CredentialLibrary Credential)
    (call : VerificationCall) (credential : Credential)
    (selected : StoredCredential) (table : Table) : Response × Table :=
  match incrementUsed table (library.credentialId credential) with
  | .error e => (.error e, table)
  | .ok updated =>
      (.ok (success library credential selected call.verifiedAt), updated)

/-- One request that runs alone. -/
def verifyCredential (library : CredentialLibrary Credential)
    (call : VerificationCall) (table : Table) : Response × Table :=
  match selectPhase library call table with
  | .respond response => (response, table)
  | .proceed credential selected =>
      updatePhase library call credential selected table

/-! ## Interleaved requests -/

inductive RequestPhase (Credential : Type) where
  | waiting
  | selected (credential : Credential) (stored : StoredCredential)
  | responded

structure ServerState (ι Credential : Type) where
  table : Table
  phase : ι → RequestPhase Credential
  responses : List (ι × Response)

def ServerState.initial (ι Credential : Type) (table : Table) :
    ServerState ι Credential where
  table := table
  phase _ := .waiting
  responses := []

inductive ServerAction (ι : Type) where
  | select (request : ι)
  | update (request : ι)
  /-- A statement fails without taking effect. -/
  | databaseFails (request : ι) (message : String)

section Machine

variable [DecidableEq ι]

def ServerState.respond (state : ServerState ι Credential) (request : ι)
    (response : Response) : ServerState ι Credential :=
  { state with
    phase := Function.update state.phase request .responded
    responses := state.responses ++ [(request, response)] }

def verifyMachine (library : CredentialLibrary Credential)
    (calls : ι → VerificationCall) :
    StepMachine (ServerState ι Credential) (ServerAction ι) where
  step state
    | .select request =>
        match state.phase request with
        | .waiting =>
            match selectPhase library (calls request) state.table with
            | .respond response => some (state.respond request response)
            | .proceed credential stored =>
                some { state with
                  phase := Function.update state.phase request
                    (.selected credential stored) }
        | _ => none
    | .update request =>
        match state.phase request with
        | .selected credential stored =>
            let (response, table) := updatePhase library (calls request)
              credential stored state.table
            some { state.respond request response with table := table }
        | _ => none
    | .databaseFails request message =>
        match state.phase request with
        | .waiting =>
            match library.fromStr (calls request).body.credential with
            | .error _ => none
            | .ok credential =>
                if library.isExpired credential
                    (calls request).expiryCheckedAt then none
                else
                  some (state.respond request
                    (.error (.databaseError message)))
        | .selected _ _ =>
            some (state.respond request (.error (.databaseError message)))
        | .responded => none

end Machine

/-! ## The quota of one stored credential -/

def Presents (library : CredentialLibrary Credential)
    (call : VerificationCall) (target : Uuid) : Bool :=
  match library.fromStr call.body.credential with
  | .error _ => false
  | .ok credential => library.credentialId credential == target

def isAccepted : Response → Bool
  | .error _ => false
  | .ok result => result.valid

def acceptedCount (library : CredentialLibrary Credential)
    (calls : ι → VerificationCall) (target : Uuid)
    (responses : List (ι × Response)) : ℕ :=
  responses.countP (fun entry =>
    Presents library (calls entry.1) target && isAccepted entry.2)

/-- The response, after those before it, reports the remainder that is left
when it is counted. -/
def RemainderExact (library : CredentialLibrary Credential)
    (calls : ι → VerificationCall) (target : Uuid) (max : ℤ)
    (earlier : List (ι × Response)) (entry : ι × Response) : Prop :=
  Presents library (calls entry.1) target = true →
    ∀ result, entry.2 = .ok result → result.valid = true →
      (result.presentationsRemaining.toNat : ℤ) =
        max - (acceptedCount library calls target earlier + 1)

structure QuotaKept (library : CredentialLibrary Credential)
    (calls : ι → VerificationCall) (target : Uuid) (max : ℤ)
    (state : ServerState ι Credential) : Prop where
  accepted_le :
    (acceptedCount library calls target state.responses : ℤ) ≤ max
  used_le : ∀ stored, state.table target = some stored →
    stored.presentationsUsed ≤ max
  remainder : ∀ earlier entry later,
    state.responses = earlier ++ entry :: later →
      RemainderExact library calls target max earlier entry

/-- An `UPDATE` that takes effect finds the counter as the request's own
`SELECT` read it. -/
def SnapshotCurrent (library : CredentialLibrary Credential) (target : Uuid)
    (state : ServerState ι Credential) (action : ServerAction ι) : Prop :=
  ∀ request credential selected stored,
    action = .update request →
    state.phase request = .selected credential selected →
    library.credentialId credential = target →
    state.table target = some stored →
    InI64 (stored.presentationsUsed + 1) →
    selected.presentationsUsed = stored.presentationsUsed

end Gateway
end Acdp
