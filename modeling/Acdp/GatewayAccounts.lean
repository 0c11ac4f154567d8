import Acdp.GatewayLifecycle

/-!
# The accounts of the gateway

What can be said of the gateway after any run: every row belongs to one issued
credential and counts its acceptances, each of which goes back to a document
with the identifier of that credential; and which documents it accepts next.
-/

namespace Acdp
namespace Gateway

open Auth (Uuid DateTime smallInstant)

variable {ι Arc Chain : Type}
variable {mcp : McpAuth Arc Chain} {config : GatewayConfig}
  {calls : ι → VerificationCall} {gateway reached : GatewayServer ι Arc Chain}

namespace GatewayServer

/-- The rows are those of the issued credentials, one for each, with the limit
that was asked for and the number of acceptances. -/
structure Accounts (mcp : McpAuth Arc Chain) (config : GatewayConfig)
    (calls : ι → VerificationCall) (gateway : GatewayServer ι Arc Chain) :
    Prop where
  distinct : (gateway.issued.map Issued.id).Nodup
  vetted : ∀ issued ∈ gateway.issued,
    Vetted mcp config issued.call issued.credential
  backed : ∀ entry ∈ gateway.verifying.responses,
    gateway.Backed mcp calls entry
  row : ∀ issued ∈ gateway.issued, ∃ stored,
    gateway.verifying.table issued.id = some stored ∧
      stored.maxPresentations = issued.limit ∧ stored.revoked = false ∧
      stored.presentationsUsed = gateway.accepted mcp calls issued.id
  absent : ∀ id, (∀ issued ∈ gateway.issued, issued.id ≠ id) →
    gateway.verifying.table id = none ∧ gateway.accepted mcp calls id = 0

theorem Invariant.accounts (hinvariant : gateway.Invariant mcp config calls) :
    gateway.Accounts mcp config calls where
  distinct := hinvariant.distinct
  vetted := hinvariant.vetted
  backed := hinvariant.backed
  row := by
    intro issued hissued
    obtain ⟨row, hlimit, counter, hcounted⟩ :=
      (hinvariant.tracked issued.id).countedBy hinvariant.distinct hissued
    obtain ⟨stored, hstored, hmax, hrevoked, hused⟩ := hcounted.stored
    have haccepted : counter.count = 0 +
        (gateway.accepted mcp calls issued.id : ℤ) := hcounted.accepted
    refine ⟨stored, hstored, ?_, hrevoked, ?_⟩
    · exact hmax.trans (congrArg Int64.toInt hlimit)
    · rw [hused, haccepted, zero_add]
  absent := by
    intro id hnone
    rcases hinvariant.tracked id with ⟨_, huntouched⟩ |
        ⟨issued, hissued, hid, _⟩
    · exact ⟨huntouched.absent, huntouched.unused⟩
    · exact absurd hid (hnone issued hissued)

/-- A row is that of an issued credential. -/
theorem Accounts.issued_of_row (haccounts : gateway.Accounts mcp config calls)
    {id : Uuid} {stored : StoredCredential}
    (hstored : gateway.verifying.table id = some stored) :
    ∃ issued ∈ gateway.issued, issued.id = id := by
  by_contra hnone
  push Not at hnone
  rw [(haccounts.absent id hnone).1] at hstored
  cases hstored

section Runs

variable [DecidableEq ι]

/-- In every run the accounts are in order, and with at most `bound` requests
on a credential between their two statements it is accepted up to its limit
and `bound - 1` times more, and not at all where the limit has become nought or
less. -/
theorem run_accounts (mcp : McpAuth Arc Chain) (config : GatewayConfig)
    (calls : ι → VerificationCall) {trace : List (GatewayAction ι)}
    (hrun : (gatewayMachine mcp config calls).run start trace =
      some reached) :
    reached.Accounts mcp config calls ∧
      ∀ issued ∈ reached.issued, ∀ bound,
        (gatewayMachine mcp config calls).Throughout
          (AtMostInFlight mcp issued.id bound) start trace →
        (reached.accepted mcp calls issued.id : ℤ) ≤
          cap issued.limit bound := by
  have hinvariant := invariant_of_run hrun
  refine ⟨hinvariant.accounts, ?_⟩
  intro issued hissued bound hmost
  have hwithin := withinCap_of_run hrun hmost issued hissued rfl
  omega

end Runs

/-! ## What is accepted next -/

theorem verifyCredential_of_proceed {Credential : Type}
    {library : CredentialLibrary Credential} {call : VerificationCall}
    {table : Table} {credential : Credential} {selected : StoredCredential}
    (hselect : selectPhase library call table =
      .proceed credential selected) :
    (verifyCredential library call table).1 =
      .ok (success library credential selected call.verifiedAt) := by
  obtain ⟨_, hrow, _, hbelow⟩ := selectPhase_eq_proceed_iff.mp hselect
  have hrange : InI64 (selected.presentationsUsed + 1) := by
    have hused := selected.used_range
    have hmax := selected.max_range
    unfold InI64 at *
    omega
  simp only [verifyCredential, hselect, updatePhase, incrementUsed, hrow,
    dif_pos hrange]

theorem isAccepted_verifyCredential_iff {Credential : Type}
    {library : CredentialLibrary Credential} {call : VerificationCall}
    {table : Table} :
    isAccepted (verifyCredential library call table).1 = true ↔
      ∃ credential selected,
        selectPhase library call table = .proceed credential selected := by
  constructor
  · intro haccepted
    cases hselect : selectPhase library call table with
    | respond response =>
        have hrefused := selectPhase_respond hselect
        simp only [verifyCredential, hselect, hrefused,
          Bool.false_eq_true] at haccepted
    | proceed credential selected => exact ⟨credential, selected, rfl⟩
  · rintro ⟨credential, selected, hselect⟩
    rw [verifyCredential_of_proceed hselect]
    rfl

/-- A document with the identifier of an issued credential that has
presentations left passes the first statement. -/
theorem Accounts.selectPhase_proceed
    (haccounts : gateway.Accounts mcp config calls)
    {issued : Issued Arc Chain} (hissued : issued ∈ gateway.issued)
    {call : VerificationCall} {credential : ACDPCredential Arc Chain}
    (hid : issued.id = credential.credentialId)
    (hpresented : Presented mcp.library call credential)
    (hleft : (gateway.accepted mcp calls issued.id : ℤ) < issued.limit) :
    ∃ selected,
      selectPhase mcp.library call gateway.verifying.table =
          .proceed credential selected ∧
        selected.maxPresentations = issued.limit ∧
        selected.presentationsUsed =
          gateway.accepted mcp calls issued.id := by
  obtain ⟨stored, hstored, hmax, hrevoked, hused⟩ :=
    haccounts.row issued hissued
  refine ⟨stored, selectPhase_eq_proceed_iff.mpr
    ⟨hpresented, ?_, hrevoked, ?_⟩, hmax, hused⟩
  · rw [hid] at hstored
    exact hstored
  · rw [hmax, hused]
    exact hleft

/-- The answer for a document that is the credential as it was issued: an
identity-bound credential names the principal of the token and the agent of the
request, the others nobody. -/
structure AnswersFor (mcp : McpAuth Arc Chain) (config : GatewayConfig)
    (issued : Issued Arc Chain) (result : CredentialVerificationResult) :
    Prop where
  named : issued.call.body.credentialType = .identityBound →
    ∃ principal, TokenNames mcp config issued.call principal ∧
      result.principal = some principal ∧
      result.agentId = some issued.call.body.agentId
  unnamed : issued.call.body.credentialType ≠ .identityBound →
    result.principal = none ∧ result.agentId = none ∧
      result.delegationChain = []

theorem answersFor_success {issued : Issued Arc Chain}
    (hvetted : Vetted mcp config issued.call issued.credential)
    (selected : StoredCredential) (verifiedAt : Auth.DateTime) :
    AnswersFor mcp config issued
      (success mcp.library issued.credential selected verifiedAt) := by
  have htype := hvetted.type
  obtain ⟨principal, hnames, hprincipal⟩ := hvetted.authorized
  have hagent := hvetted.agent
  cases hcredential : issued.credential with
  | identityBound credential =>
      rw [hcredential] at htype hprincipal hagent
      refine ⟨fun _ => ⟨principal, hnames, ?_, ?_⟩, fun hother => ?_⟩
      · exact congrArg some (hprincipal credential.principal rfl)
      · exact congrArg some (hagent credential rfl)
      · exact absurd htype.symm hother
  | anonymous credential =>
      rw [hcredential] at htype
      refine ⟨fun hbound => ?_, fun _ => ⟨rfl, rfl, rfl⟩⟩
      rw [← htype] at hbound
      cases hbound
  | hybrid credential =>
      rw [hcredential] at htype
      refine ⟨fun hbound => ?_, fun _ => ⟨rfl, rfl, rfl⟩⟩
      rw [← htype] at hbound
      cases hbound

section Runs

variable [DecidableEq ι]

/-- Which documents a request that runs alone is accepted for: those that have
the identifier of an issued credential with presentations left, be they that
credential or not; and what it is told for the credential itself. -/
theorem run_accepts_iff (mcp : McpAuth Arc Chain) (config : GatewayConfig)
    (calls : ι → VerificationCall) {trace : List (GatewayAction ι)}
    (hrun : (gatewayMachine mcp config calls).run start trace = some reached)
    (call : VerificationCall) :
    (isAccepted
        (verifyCredential mcp.library call reached.verifying.table).1 =
          true ↔
      ∃ credential, Presented mcp.library call credential ∧
        ∃ issued ∈ reached.issued, issued.id = credential.credentialId ∧
          (reached.accepted mcp calls issued.id : ℤ) < issued.limit) ∧
      ∀ issued ∈ reached.issued,
        Presented mcp.library call issued.credential →
        (reached.accepted mcp calls issued.id : ℤ) < issued.limit →
        ∃ result,
          (verifyCredential mcp.library call reached.verifying.table).1 =
              .ok result ∧
            result.valid = true ∧
            (result.presentationsRemaining.toNat : ℤ) =
              issued.limit - (reached.accepted mcp calls issued.id + 1) ∧
            AnswersFor mcp config issued result := by
  have haccounts := (invariant_of_run hrun).accounts
  constructor
  · rw [isAccepted_verifyCredential_iff]
    constructor
    · rintro ⟨credential, selected, hselect⟩
      obtain ⟨hpresented, hstored, _, hbelow⟩ :=
        selectPhase_eq_proceed_iff.mp hselect
      obtain ⟨issued, hissued, hid⟩ := haccounts.issued_of_row hstored
      obtain ⟨row, hrow, hmax, _, hused⟩ := haccounts.row issued hissued
      refine ⟨credential, hpresented, issued, hissued, hid, ?_⟩
      rw [hid] at hrow
      have hsame : row = selected := Option.some.inj (hrow.symm.trans hstored)
      rw [← hused, ← hmax, hsame]
      exact hbelow
    · rintro ⟨credential, hpresented, issued, hissued, hid, hleft⟩
      obtain ⟨selected, hselect, _⟩ :=
        haccounts.selectPhase_proceed hissued hid hpresented hleft
      exact ⟨credential, selected, hselect⟩
  · intro issued hissued hpresented hleft
    obtain ⟨selected, hselect, hmax, hused⟩ :=
      haccounts.selectPhase_proceed hissued rfl hpresented hleft
    refine ⟨_, verifyCredential_of_proceed hselect, rfl, ?_,
      answersFor_success (haccounts.vetted issued hissued) _ _⟩
    have hupper := selected.max_range.2
    rw [← hmax, ← hused]
    exact i64AsU64_toNat (by omega) (by omega)

end Runs

/-! ## A credential for one presentation -/

section Requests

variable [DecidableEq ι]

/-- The request that an action belongs to. -/
def GatewayAction.request : GatewayAction ι → Option ι
  | .issue _ => none
  | .verify action => some action.request

/-- No more requests are in flight than there are. -/
theorem atMostInFlight_card {requests : Finset ι} {target : Uuid}
    {trace : List (GatewayAction ι)}
    (htrace : ∀ action ∈ trace, ∀ request ∈ GatewayAction.request action,
      request ∈ requests) :
    (gatewayMachine mcp config calls).Throughout
      (AtMostInFlight mcp target requests.card) start trace := by
  have hwaiting : OthersWait requests
      (start : GatewayServer ι Arc Chain).verifying := fun _ _ => rfl
  have hkeep : ∀ (state : GatewayServer ι Arc Chain) action next,
      OthersWait requests state.verifying →
      (gatewayMachine mcp config calls).step state action = some next →
      (∀ request ∈ GatewayAction.request action, request ∈ requests) →
      OthersWait requests next.verifying := by
    intro state action next hothers hstep haction
    cases action with
    | issue call =>
        rw [← Option.some.inj hstep]
        exact hothers
    | verify action =>
        obtain ⟨verifying, hverifying, rfl⟩ := Option.map_eq_some_iff.mp hstep
        intro other hother
        have hne : other ≠ action.request := by
          rintro rfl
          exact hother (haction _ rfl)
        change verifying.phase other = .waiting
        rw [phase_step_of_ne hverifying hne]
        exact hothers other hother
  exact StepMachine.throughout_of_along hkeep
    (fun _ hothers => hothers.inFlightAtMost) hwaiting
    (StepMachine.along_of_forall htrace _)

end Requests

def smallExpiry : DateTime :=
  { smallInstant with
    secs := 1702592000
    secs_lower := by decide
    secs_upper := by decide
    leap_second := by decide }

def smallCredential : ACDPCredential Unit Unit :=
  .identityBound
    { version := "0.3"
      credentialId := FixedBytes.filled 16 1
      issuedAt := smallInstant
      expiresAt := smallExpiry
      principal := ⟨"alice", "https://idp.example", "client"⟩
      agent := ⟨"agent://assistant", List.replicate 32 0, "mcp-client"⟩
      mcpCapabilities := ⟨["filesystem/read"], [], none, some "24h"⟩
      delegation := baseDelegation
      delegationChain := ()
      signature := FixedBytes.filled 64 0 }

def smallMcp : McpAuth Unit Unit where
  validator := ⟨fun _ => true, fun _ => "invalid"⟩
  decodeIdJag audience token _ :=
    if token = "header.claims.signature" then
      .ok ⟨"oauth-id-jag+jwt", "https://idp.example", "alice", audience,
        "client"⟩
    else .error "InvalidToken"
  fromIdJag sub iss clientId := .ok ⟨sub, iss, clientId⟩
  sign _ _ := FixedBytes.filled 64 0
  issueArc randomness := .ok randomness
  finalizeArc _ _ := .ok ()
  newChain := ()
  auditTrail _ := []
  fromStr text :=
    if text = "credential" then .ok smallCredential
    else .error "expected value at line 1 column 1"
  toJson _ := .ok "credential"
  toValue _ := .ok ⟨.str "credential", .str _⟩
  isExpired credential now := decide (credential.expiresAt < now)

def smallConfig : GatewayConfig :=
  ⟨"https://gateway.example", List.replicate 32 7⟩

def smallIssuance : IssuanceCall where
  authorization := some "Bearer header.claims.signature"
  body :=
    { agentId := "agent://assistant"
      agentPublicKey := String.ofList (List.replicate 64 '0')
      credentialType := .identityBound
      capabilities := ⟨⟨1, "24h"⟩, ⟨["filesystem/read"], []⟩⟩
      durationDays := 30 }
  receivedAt := smallInstant
  issuedAt := smallInstant
  credentialId := FixedBytes.filled 16 1
  randomness := []
  databaseFailure := none

/-- One presentation has been asked for, and two requests are accepted. -/
theorem run_accounts_double :
    ∃ reached,
      (gatewayMachine smallMcp smallConfig (fun _ : ℕ => smallCall)).run start
          [.issue smallIssuance, .verify (.select 0), .verify (.select 1),
            .verify (.update 0), .verify (.update 1)] = some reached ∧
        reached.accepted smallMcp (fun _ => smallCall)
          (FixedBytes.filled 16 1) = 2 ∧
        reached.Accounts smallMcp smallConfig (fun _ => smallCall) ∧
        ∀ issued ∈ reached.issued,
          (reached.accepted smallMcp (fun _ => smallCall) issued.id : ℤ) ≤
            cap issued.limit 2 := by
  have htwo : ({0, 1} : Finset ℕ).card = 2 := rfl
  obtain ⟨reached, hrun, haccepted⟩ : ∃ reached,
      (gatewayMachine smallMcp smallConfig (fun _ : ℕ => smallCall)).run start
          [.issue smallIssuance, .verify (.select 0), .verify (.select 1),
            .verify (.update 0), .verify (.update 1)] = some reached ∧
        reached.accepted smallMcp (fun _ => smallCall)
          (FixedBytes.filled 16 1) = 2 := ⟨_, rfl, rfl⟩
  obtain ⟨haccounts, hcap⟩ :=
    run_accounts smallMcp smallConfig (fun _ => smallCall) hrun
  refine ⟨reached, hrun, haccepted, haccounts, ?_⟩
  intro issued hissued
  apply hcap issued hissued
  rw [← htwo]
  apply atMostInFlight_card
  simp [GatewayAction.request, ServerAction.request]

/-- The credential has been issued and not yet been presented. -/
theorem run_accepts_iff_first :
    ∃ reached,
      (gatewayMachine smallMcp smallConfig (fun _ : ℕ => smallCall)).run start
          [.issue smallIssuance] = some reached ∧
        isAccepted (verifyCredential smallMcp.library smallCall
          reached.verifying.table).1 = true ∧
        ∃ result,
          (verifyCredential smallMcp.library smallCall
              reached.verifying.table).1 = .ok result ∧
            (result.presentationsRemaining.toNat : ℤ) = 0 ∧
            AnswersFor smallMcp smallConfig
              ⟨smallIssuance, smallCredential⟩ result := by
  obtain ⟨reached, hrun, hissued, hunused⟩ : ∃ reached,
      (gatewayMachine smallMcp smallConfig (fun _ : ℕ => smallCall)).run start
          [.issue smallIssuance] = some reached ∧
        reached.issued = [⟨smallIssuance, smallCredential⟩] ∧
        reached.accepted smallMcp (fun _ => smallCall)
          (FixedBytes.filled 16 1) = 0 := ⟨_, rfl, rfl, rfl⟩
  obtain ⟨haccepts, hanswers⟩ :=
    run_accepts_iff smallMcp smallConfig (fun _ => smallCall) hrun smallCall
  have hpresented : Presented smallMcp.library smallCall smallCredential :=
    ⟨rfl, rfl⟩
  have hmember : (⟨smallIssuance, smallCredential⟩ : Issued Unit Unit) ∈
      reached.issued := by
    rw [hissued]
    exact List.mem_singleton_self _
  have hlimit : (⟨smallIssuance, smallCredential⟩ : Issued Unit Unit).limit =
      1 := by decide
  have hnone : (reached.accepted smallMcp (fun _ => smallCall)
      (⟨smallIssuance, smallCredential⟩ : Issued Unit Unit).id : ℤ) = 0 :=
    congrArg Nat.cast hunused
  have hleft : (reached.accepted smallMcp (fun _ => smallCall)
      (⟨smallIssuance, smallCredential⟩ : Issued Unit Unit).id : ℤ) <
        (⟨smallIssuance, smallCredential⟩ : Issued Unit Unit).limit := by
    rw [hnone, hlimit]
    exact zero_lt_one
  refine ⟨reached, hrun, ?_, ?_⟩
  · exact haccepts.mpr ⟨smallCredential, hpresented, _, hmember, rfl, hleft⟩
  · obtain ⟨result, hresult, _, hremaining, hfor⟩ :=
      hanswers _ hmember hpresented hleft
    rw [hnone, hlimit] at hremaining
    exact ⟨result, hresult, hremaining, hfor⟩

end GatewayServer
end Gateway
end Acdp
