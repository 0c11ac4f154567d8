import Acdp.GatewayIssuance
import Acdp.GatewayOvershoot

/-!
# From issuance to acceptance

Both endpoints work on one table, in any interleaving of their requests.  The
rows are those of the credentials that have been issued, a document is accepted
on the strength of the identifier in it alone, and the counter of a row is the
number of acceptances, up to the limit that was asked for.
-/

namespace Acdp
namespace Gateway

open Auth (Uuid DateTime)

variable {ι Credential Arc Chain : Type}

/-! ## The server -/

/-- A credential that has been stored, with the request for it. -/
structure Issued (Arc Chain : Type) where
  call : IssuanceCall
  credential : ACDPCredential Arc Chain

namespace Issued

def id (self : Issued Arc Chain) : Uuid := self.credential.credentialId

def limit (self : Issued Arc Chain) : ℤ := self.call.body.storedLimit.toInt

end Issued

structure GatewayServer (ι Arc Chain : Type) where
  verifying : ServerState ι (ACDPCredential Arc Chain)
  issued : List (Issued Arc Chain)

inductive GatewayAction (ι : Type) where
  | issue (call : IssuanceCall)
  | verify (action : ServerAction ι)

namespace GatewayServer

def start : GatewayServer ι Arc Chain :=
  ⟨.initial ι _ (fun _ => none), []⟩

/-- The one statement of an issuance is its last step that others can see. -/
def issue (self : GatewayServer ι Arc Chain) (mcp : McpAuth Arc Chain)
    (config : GatewayConfig) (call : IssuanceCall) :
    GatewayServer ι Arc Chain :=
  let issuance := issueCredential mcp config call self.verifying.table
  { verifying := { self.verifying with table := issuance.table }
    issued := self.issued ++
      (issuance.stored.map (fun credential => ⟨call, credential⟩)).toList }

end GatewayServer

def gatewayMachine [DecidableEq ι] (mcp : McpAuth Arc Chain)
    (config : GatewayConfig) (calls : ι → VerificationCall) :
    StepMachine (GatewayServer ι Arc Chain) (GatewayAction ι) where
  step self
    | .issue call => some (self.issue mcp config call)
    | .verify action =>
        ((verifyMachine mcp.library calls).step self.verifying action).map
          (fun verifying => { self with verifying := verifying })

/-! ## What a request has checked -/

section Requests

variable {library : CredentialLibrary Credential}
variable {calls : ι → VerificationCall} {target : Uuid}
variable {row : StoredCredential} {state next : ServerState ι Credential}
variable {counter : CheckThenAct}

/-- The document of the request can be read, and is not too late. -/
def Presented (library : CredentialLibrary Credential)
    (call : VerificationCall) (credential : Credential) : Prop :=
  library.fromStr call.body.credential = .ok credential ∧
    library.isExpired credential call.expiryCheckedAt = false

theorem selectPhase_eq_proceed_iff {call : VerificationCall} {table : Table}
    {credential : Credential} {selected : StoredCredential} :
    selectPhase library call table = .proceed credential selected ↔
      Presented library call credential ∧
        table (library.credentialId credential) = some selected ∧
        selected.revoked = false ∧
        selected.presentationsUsed < selected.maxPresentations := by
  constructor
  · intro hselect
    obtain ⟨hparsed, hrow, hbelow⟩ := selectPhase_proceed hselect
    unfold selectPhase at hselect
    simp only [hparsed, hrow] at hselect
    split_ifs at hselect with hexpired hrevoked
    exact ⟨⟨hparsed, Bool.not_eq_true _ ▸ hexpired⟩, hrow,
      Bool.not_eq_true _ ▸ hrevoked, hbelow⟩
  · rintro ⟨⟨hparsed, hexpired⟩, hrow, hrevoked, hbelow⟩
    exact selectPhase_of_below hparsed hexpired hrow hrevoked hbelow

/-- Every request between its two statements has presented what it holds. -/
def Checked (library : CredentialLibrary Credential)
    (calls : ι → VerificationCall) (state : ServerState ι Credential) : Prop :=
  ∀ request credential selected,
    state.phase request = .selected credential selected →
      Presented library (calls request) credential

/-- Nothing has been done about the credential, which is not in the table. -/
structure Untouched (library : CredentialLibrary Credential)
    (calls : ι → VerificationCall) (target : Uuid)
    (state : ServerState ι Credential) : Prop where
  absent : state.table target = none
  idle : inFlight library target state = ∅
  unused : acceptedCount library calls target state.responses = 0

/-- What is stored makes the row a counter that starts at nought. -/
theorem Untouched.countedBy (huntouched : Untouched library calls target state)
    (hchecked : Checked library calls state) {table : Table}
    (hrow : table target = some row) (hunused : row.presentationsUsed = 0) :
    CountedBy library calls target row { state with table := table } ⟨0, 0⟩ :=
  by
  have hidle : inFlight library target { state with table := table } = ∅ :=
    huntouched.idle
  constructor
  · exact ⟨row, hrow, rfl, rfl, hunused⟩
  · rw [hunused, huntouched.unused]
    rfl
  · intro request credential selected hphase
    exact (hchecked request credential selected hphase).1
  · rw [hidle]
    exact Set.finite_empty
  · rw [hidle, Set.ncard_empty]

/-- The rows of other credentials are of no account. -/
theorem Untouched.withTable (huntouched : Untouched library calls target state)
    {table : Table} (htable : table target = state.table target) :
    Untouched library calls target { state with table := table } where
  absent := htable.trans huntouched.absent
  idle := huntouched.idle
  unused := huntouched.unused

theorem CountedBy.withTable
    (hcounted : CountedBy library calls target row state counter)
    {table : Table} (htable : table target = state.table target) :
    CountedBy library calls target row { state with table := table }
      counter where
  stored := by
    dsimp only
    rw [htable]
    exact hcounted.stored
  accepted := hcounted.accepted
  parsed := hcounted.parsed
  finite := hcounted.finite
  pending := hcounted.pending

section Steps

variable [DecidableEq ι]

theorem Checked.step (hchecked : Checked library calls state)
    {action : ServerAction ι}
    (hstep : (verifyMachine library calls).step state action = some next) :
    Checked library calls next := by
  intro other held snapshot hphase
  rcases verifyMachine_step_cases hstep with
      ⟨response, _, rfl⟩ |
      ⟨request, credential, selected, rfl, _, hselect, rfl⟩ |
      ⟨request, credential, selected, table, rfl, _, _, rfl⟩
  · exact hchecked other held snapshot
      (ServerState.selected_of_respond response hphase)
  · rcases update_eq_selected hphase with ⟨rfl, rfl, _⟩ | hold
    · exact (selectPhase_eq_proceed_iff.mp hselect).1
    · exact hchecked other held snapshot hold
  · exact hchecked other held snapshot
      (ServerState.selected_of_respond
        (.ok (success library credential selected (calls request).verifiedAt))
        hphase)

theorem Untouched.step (huntouched : Untouched library calls target state)
    (hchecked : Checked library calls state) {action : ServerAction ι}
    (hstep : (verifyMachine library calls).step state action = some next) :
    Untouched library calls target next := by
  rcases verifyMachine_step_cases hstep with
      ⟨response, hrefused, rfl⟩ |
      ⟨request, credential, selected, rfl, hwaiting, hselect, rfl⟩ |
      ⟨request, credential, selected, table, rfl, hphase, hincrement, rfl⟩
  · refine ⟨huntouched.absent, ?_, ?_⟩
    · rw [inFlight_respond, huntouched.idle, Set.empty_sdiff]
    · rw [← huntouched.unused]
      apply acceptedCount_other
      rw [hrefused, Bool.and_false]
  · have hother : library.credentialId credential ≠ target := by
      rintro rfl
      have hrow := (selectPhase_eq_proceed_iff.mp hselect).2.1
      rw [huntouched.absent] at hrow
      cases hrow
    refine ⟨huntouched.absent, ?_, huntouched.unused⟩
    rw [inFlight_hold hwaiting, if_neg hother, huntouched.idle]
  · have hother : library.credentialId credential ≠ target := by
      intro htarget
      have hflying : request ∈ inFlight library target state :=
        ⟨credential, selected, hphase, htarget⟩
      rw [huntouched.idle] at hflying
      exact hflying
    refine ⟨?_, ?_, ?_⟩
    · exact (incrementUsed_of_ne hincrement (Ne.symm hother)).trans
        huntouched.absent
    · have hleft : inFlight library target (state.respond request _) = _ :=
        inFlight_respond request (.ok (success library credential selected
          (calls request).verifiedAt))
      exact hleft.trans (by rw [huntouched.idle, Set.empty_sdiff])
    · rw [← huntouched.unused]
      apply acceptedCount_other
      have hpresents := presents_of_parsed target
        (hchecked request credential selected hphase).1
      rw [Bool.and_eq_false_iff, ← Bool.not_eq_true, hpresents]
      exact Or.inl hother

end Steps

/-! ## The limit -/

/-- How often a credential with the limit can be accepted, with at most so many
requests in flight at a time. -/
def cap (limit : ℤ) (bound : ℕ) : ℤ :=
  if 0 < limit then limit + bound - 1 else 0

theorem cap_nonneg (limit : ℤ) (bound : ℕ) : 0 ≤ cap limit bound := by
  unfold cap
  split_ifs with hlimit <;> omega

theorem below_cap_of_follows {limit : ℤ} {bound : ℕ}
    {before after : CheckThenAct} (hcount : 0 ≤ before.count)
    (hbelow : before.Below (cap limit bound))
    (hbound : after.AtMost bound) (hfollows : Follows limit before after) :
    after.Below (cap limit bound) := by
  rcases hfollows with rfl | ⟨action, hstep⟩
  · exact hbelow
  · by_cases hlimit : 0 < limit
    · have htop : cap limit bound = max 0 (limit + bound - 1) := by
        unfold cap
        rw [if_pos hlimit]
        omega
      rw [htop] at hbelow ⊢
      exact hbelow.step hbound hstep
    · -- without a limit above nought nothing is ever checked
      unfold CheckThenAct.Below cap at hbelow
      rw [if_neg hlimit] at hbelow
      change CheckThenAct.step limit before action = some after at hstep
      cases action <;>
        simp only [CheckThenAct.step, Option.ite_none_right_eq_some]
          at hstep <;>
        omega

end Requests

/-! ## What the run has led to -/

variable {mcp : McpAuth Arc Chain} {config : GatewayConfig}
  {calls : ι → VerificationCall} {gateway next : GatewayServer ι Arc Chain}
  {target : Uuid}

namespace GatewayServer

/-- How often the credential has been accepted. -/
def accepted (mcp : McpAuth Arc Chain) (calls : ι → VerificationCall)
    (self : GatewayServer ι Arc Chain) (id : Uuid) : ℕ :=
  acceptedCount mcp.library calls id self.verifying.responses

/-- The credential has not been stored, or its row is the counter of its
acceptances. -/
def Tracked (mcp : McpAuth Arc Chain) (calls : ι → VerificationCall)
    (target : Uuid) (self : GatewayServer ι Arc Chain) : Prop :=
  (∀ issued ∈ self.issued, issued.id ≠ target) ∧
      Untouched mcp.library calls target self.verifying ∨
    ∃ issued ∈ self.issued, issued.id = target ∧
      ∃ row : CredentialRow,
        row.maxPresentations = issued.call.body.storedLimit ∧
        ∃ counter, CountedBy mcp.library calls target row.stored
          self.verifying counter

/-- An accepted request has presented a document that has the identifier of
one of the stored credentials, before it expires. -/
def Backed (mcp : McpAuth Arc Chain) (calls : ι → VerificationCall)
    (self : GatewayServer ι Arc Chain) (entry : ι × Response) : Prop :=
  isAccepted entry.2 = true →
    ∃ credential, Presented mcp.library (calls entry.1) credential ∧
      ∃ issued ∈ self.issued, issued.id = credential.credentialId

structure Invariant (mcp : McpAuth Arc Chain) (config : GatewayConfig)
    (calls : ι → VerificationCall) (gateway : GatewayServer ι Arc Chain) :
    Prop where
  distinct : (gateway.issued.map Issued.id).Nodup
  vetted : ∀ issued ∈ gateway.issued,
    Vetted mcp config issued.call issued.credential
  checked : Checked mcp.library calls gateway.verifying
  backed : ∀ entry ∈ gateway.verifying.responses,
    gateway.Backed mcp calls entry
  tracked : ∀ target, gateway.Tracked mcp calls target

theorem start_invariant :
    Invariant mcp config calls (start : GatewayServer ι Arc Chain) where
  distinct := List.nodup_nil
  vetted _ hissued := by cases hissued
  checked _ _ _ hphase := by cases hphase
  backed _ hentry := by cases hentry
  tracked target := by
    left
    refine ⟨?_, rfl, ?_, rfl⟩
    · intro issued hissued
      cases hissued
    · apply Set.eq_empty_of_forall_notMem
      rintro request ⟨credential, selected, hphase, _⟩
      cases hphase

/-- A row that is free belongs to no stored credential. -/
theorem Tracked.untouched (htracked : gateway.Tracked mcp calls target)
    (hfree : gateway.verifying.table target = none) :
    (∀ issued ∈ gateway.issued, issued.id ≠ target) ∧
      Untouched mcp.library calls target gateway.verifying := by
  rcases htracked with huntouched | ⟨issued, _, _, row, _, counter, hcounted⟩
  · exact huntouched
  · obtain ⟨stored, hstored, _⟩ := hcounted.stored
    rw [hfree] at hstored
    cases hstored

theorem Tracked.countedBy (hdistinct : (gateway.issued.map Issued.id).Nodup)
    {issued : Issued Arc Chain}
    (htracked : gateway.Tracked mcp calls issued.id)
    (hissued : issued ∈ gateway.issued) :
    ∃ row : CredentialRow,
      row.maxPresentations = issued.call.body.storedLimit ∧
      ∃ counter, CountedBy mcp.library calls issued.id row.stored
        gateway.verifying counter := by
  rcases htracked with ⟨hnone, _⟩ | ⟨other, hother, hid, hcounted⟩
  · exact absurd rfl (hnone issued hissued)
  · have hsame : other = issued :=
      List.inj_on_of_nodup_map hdistinct hother hissued hid
    rw [hsame] at hcounted
    exact hcounted

/-! ### An issuance -/

/-- The request leaves the server alone, or stores one more credential. -/
theorem issue_cases (mcp : McpAuth Arc Chain) (config : GatewayConfig)
    (self : GatewayServer ι Arc Chain) (call : IssuanceCall) :
    self.issue mcp config call = self ∨
      ∃ credential table,
        Stores mcp config call self.verifying.table credential table ∧
          self.issue mcp config call =
            ⟨{ self.verifying with table := table },
              self.issued ++ [⟨call, credential⟩]⟩ := by
  rcases issueCredential_cases mcp config call self.verifying.table with
      ⟨hnone, htable⟩ | ⟨credential, hstored, hstores⟩
  · left
    simp only [issue, hnone, htable, Option.map_none, Option.toList_none,
      List.append_nil]
  · right
    refine ⟨credential, _, hstores, ?_⟩
    simp only [issue, hstored, Option.map_some, Option.toList_some]

theorem Tracked.issue (htracked : gateway.Tracked mcp calls target)
    (hchecked : Checked mcp.library calls gateway.verifying)
    {call : IssuanceCall} {credential : ACDPCredential Arc Chain}
    {table : Table}
    (hstores : Stores mcp config call gateway.verifying.table credential
      table) :
    Tracked mcp calls target
      ⟨{ gateway.verifying with table := table },
        gateway.issued ++ [⟨call, credential⟩]⟩ := by
  obtain ⟨row, hlimit, rfl⟩ := hstores.row
  by_cases htarget : credential.credentialId = target
  · right
    refine ⟨⟨call, credential⟩, by simp, htarget, row, hlimit, ⟨0, 0⟩, ?_⟩
    have hfresh := hstores.fresh
    rw [htarget] at hfresh ⊢
    apply (htracked.untouched hfresh).2.countedBy hchecked
    · exact Function.update_self _ _ _
    · rfl
  · have htable : Function.update gateway.verifying.table
        credential.credentialId (some row.stored) target =
          gateway.verifying.table target :=
      Function.update_of_ne (Ne.symm htarget) _ _
    rcases htracked with ⟨hnone, huntouched⟩ |
        ⟨issued, hissued, hid, other, hother, counter, hcounted⟩
    · left
      refine ⟨?_, huntouched.withTable htable⟩
      simp only [List.mem_append, List.mem_singleton]
      rintro issued (hissued | rfl)
      · exact hnone issued hissued
      · exact htarget
    · right
      exact ⟨issued, List.mem_append_left _ hissued, hid, other, hother,
        counter, hcounted.withTable htable⟩

theorem Invariant.issue (hinvariant : gateway.Invariant mcp config calls)
    (call : IssuanceCall) :
    (gateway.issue mcp config call).Invariant mcp config calls := by
  rcases gateway.issue_cases mcp config call with
      hsame | ⟨credential, table, hstores, hnext⟩
  · rw [hsame]
    exact hinvariant
  · rw [hnext]
    have hfree := (hinvariant.tracked _).untouched hstores.fresh
    constructor
    · rw [List.map_append, List.map_singleton, List.nodup_append_comm,
        List.singleton_append, List.nodup_cons, List.mem_map]
      refine ⟨?_, hinvariant.distinct⟩
      rintro ⟨issued, hissued, hid⟩
      exact hfree.1 issued hissued hid
    · simp only [List.mem_append, List.mem_singleton]
      rintro issued (hissued | rfl)
      · exact hinvariant.vetted issued hissued
      · exact hstores.vetted
    · exact hinvariant.checked
    · intro entry hentry haccepted
      obtain ⟨found, hpresented, issued, hissued, hid⟩ :=
        hinvariant.backed entry hentry haccepted
      exact ⟨found, hpresented, issued, List.mem_append_left _ hissued, hid⟩
    · intro target
      exact (hinvariant.tracked target).issue hinvariant.checked hstores

/-! ### A verification -/

section Steps

variable [DecidableEq ι]

theorem Tracked.verify (htracked : gateway.Tracked mcp calls target)
    (hchecked : Checked mcp.library calls gateway.verifying)
    {action : ServerAction ι}
    {verifying : ServerState ι (ACDPCredential Arc Chain)}
    (hstep : (verifyMachine mcp.library calls).step gateway.verifying action =
      some verifying) :
    Tracked mcp calls target { gateway with verifying := verifying } := by
  rcases htracked with ⟨hnone, huntouched⟩ |
      ⟨issued, hissued, hid, row, hlimit, counter, hcounted⟩
  · exact Or.inl ⟨hnone, huntouched.step hchecked hstep⟩
  · obtain ⟨after, hafter, _⟩ := hcounted.step hstep
    exact Or.inr ⟨issued, hissued, hid, row, hlimit, after, hafter⟩

/-- Whoever is accepted has been between the two statements with the row of an
issued credential. -/
theorem Invariant.backed_verify
    (hinvariant : gateway.Invariant mcp config calls)
    {action : ServerAction ι}
    {verifying : ServerState ι (ACDPCredential Arc Chain)}
    (hstep : (verifyMachine mcp.library calls).step gateway.verifying action =
      some verifying) :
    ∀ entry ∈ verifying.responses, gateway.Backed mcp calls entry := by
  rcases verifyMachine_step_cases hstep with
      ⟨response, hrefused, rfl⟩ |
      ⟨request, credential, selected, rfl, _, _, rfl⟩ |
      ⟨request, credential, selected, table, rfl, hphase, _, rfl⟩
  · intro entry hentry haccepted
    rcases List.mem_append.mp hentry with hearlier | hlast
    · exact hinvariant.backed entry hearlier haccepted
    · rw [List.mem_singleton.mp hlast, hrefused] at haccepted
      cases haccepted
  · exact hinvariant.backed
  · intro entry hentry haccepted
    rcases List.mem_append.mp hentry with hearlier | hlast
    · exact hinvariant.backed entry hearlier haccepted
    · rw [List.mem_singleton.mp hlast]
      refine ⟨credential, hinvariant.checked request credential selected
        hphase, ?_⟩
      rcases hinvariant.tracked credential.credentialId with
          ⟨_, huntouched⟩ | ⟨issued, hissued, hid, _⟩
      · have hflying : request ∈ inFlight mcp.library
            credential.credentialId gateway.verifying :=
          ⟨credential, selected, hphase, rfl⟩
        rw [huntouched.idle] at hflying
        cases hflying
      · exact ⟨issued, hissued, hid⟩

theorem Invariant.verify (hinvariant : gateway.Invariant mcp config calls)
    {action : ServerAction ι}
    {verifying : ServerState ι (ACDPCredential Arc Chain)}
    (hstep : (verifyMachine mcp.library calls).step gateway.verifying action =
      some verifying) :
    Invariant mcp config calls { gateway with verifying := verifying } where
  distinct := hinvariant.distinct
  vetted := hinvariant.vetted
  checked := hinvariant.checked.step hstep
  backed := hinvariant.backed_verify hstep
  tracked target := (hinvariant.tracked target).verify hinvariant.checked hstep

theorem Invariant.step (hinvariant : gateway.Invariant mcp config calls)
    {action : GatewayAction ι}
    (hstep : (gatewayMachine mcp config calls).step gateway action =
      some next) :
    next.Invariant mcp config calls := by
  cases action with
  | issue call =>
      have hnext : gateway.issue mcp config call = next :=
        Option.some.inj hstep
      rw [← hnext]
      exact hinvariant.issue call
  | verify action =>
      obtain ⟨verifying, hverifying, rfl⟩ := Option.map_eq_some_iff.mp hstep
      exact hinvariant.verify hverifying

theorem invariant_of_run {trace : List (GatewayAction ι)}
    (hrun : (gatewayMachine mcp config calls).run start trace =
      some gateway) :
    gateway.Invariant mcp config calls :=
  StepMachine.run_invariant
    (fun _ _ _ hinvariant hstep => hinvariant.step hstep) start_invariant hrun

end Steps

/-! ## The limits of the credentials -/

/-- At most so many requests on the credential are between their two
statements. -/
def AtMostInFlight (mcp : McpAuth Arc Chain) (target : Uuid) (bound : ℕ)
    (self : GatewayServer ι Arc Chain) : Prop :=
  InFlightAtMost mcp.library target bound self.verifying

/-- What has been accepted, and all that may be, is within the limit of the
credential. -/
def WithinCap (mcp : McpAuth Arc Chain) (calls : ι → VerificationCall)
    (target : Uuid) (bound : ℕ) (self : GatewayServer ι Arc Chain) : Prop :=
  ∀ issued ∈ self.issued, issued.id = target →
    (self.accepted mcp calls target : ℤ) +
      (inFlight mcp.library target self.verifying).ncard ≤
        cap issued.limit bound

/-- What the counter of a row is known by. -/
theorem below_iff_of_countedBy {row : CredentialRow} {counter : CheckThenAct}
    (hcounted : CountedBy mcp.library calls target row.stored
      gateway.verifying counter) (top : ℤ) :
    counter.Below top ↔
      (gateway.accepted mcp calls target : ℤ) +
        (inFlight mcp.library target gateway.verifying).ncard ≤ top := by
  have haccepted : counter.count = 0 +
      (gateway.accepted mcp calls target : ℤ) := hcounted.accepted
  have hpending := hcounted.pending
  unfold CheckThenAct.Below
  rw [haccepted, ← hpending, zero_add]

theorem WithinCap.issue {bound : ℕ}
    (hwithin : gateway.WithinCap mcp calls target bound)
    (hinvariant : gateway.Invariant mcp config calls) (call : IssuanceCall) :
    (gateway.issue mcp config call).WithinCap mcp calls target bound := by
  rcases gateway.issue_cases mcp config call with
      hsame | ⟨credential, table, hstores, hnext⟩
  · rw [hsame]
    exact hwithin
  · rw [hnext]
    intro issued hissued hid
    rcases List.mem_append.mp hissued with hearlier | hlast
    · exact hwithin issued hearlier hid
    · have hcall := List.mem_singleton.mp hlast
      rw [hcall] at hid
      have huntouched :=
        ((hinvariant.tracked _).untouched hstores.fresh).2
      change credential.credentialId = target at hid
      rw [hid] at huntouched
      have hidle : inFlight mcp.library target
          { gateway.verifying with table := table } = ∅ := huntouched.idle
      unfold accepted
      dsimp only
      rw [huntouched.unused, hidle, Set.ncard_empty]
      exact cap_nonneg issued.limit bound

section Steps

variable [DecidableEq ι]

theorem WithinCap.verify {bound : ℕ}
    (hwithin : gateway.WithinCap mcp calls target bound)
    (hinvariant : gateway.Invariant mcp config calls)
    {action : ServerAction ι}
    {verifying : ServerState ι (ACDPCredential Arc Chain)}
    (hstep : (verifyMachine mcp.library calls).step gateway.verifying action =
      some verifying)
    (hmost : InFlightAtMost mcp.library target bound verifying) :
    WithinCap mcp calls target bound
      { gateway with verifying := verifying } := by
  intro issued hissued hid
  have hbefore := hwithin issued hissued hid
  rw [← hid] at hbefore hmost ⊢
  obtain ⟨row, hlimit, counter, hcounted⟩ :=
    (hinvariant.tracked issued.id).countedBy hinvariant.distinct hissued
  obtain ⟨after, hafter, hfollows⟩ := hcounted.step hstep
  have hmax : row.stored.maxPresentations = issued.limit :=
    congrArg Int64.toInt hlimit
  have hcount : 0 ≤ counter.count := by
    have haccepted : counter.count = 0 +
        (gateway.accepted mcp calls issued.id : ℤ) := hcounted.accepted
    omega
  have hpending : after.AtMost bound := by
    unfold InFlightAtMost at hmost
    rw [hafter.pending] at hmost
    exact hmost
  rw [hmax] at hfollows
  have hbelow := below_cap_of_follows hcount
    ((below_iff_of_countedBy hcounted _).mpr hbefore) hpending hfollows
  let served : GatewayServer ι Arc Chain :=
    { gateway with verifying := verifying }
  have hserved : CountedBy mcp.library calls issued.id row.stored
      served.verifying after := hafter
  exact (below_iff_of_countedBy hserved _).mp hbelow

theorem WithinCap.step {bound : ℕ}
    (hwithin : gateway.WithinCap mcp calls target bound)
    (hinvariant : gateway.Invariant mcp config calls)
    {action : GatewayAction ι}
    (hstep : (gatewayMachine mcp config calls).step gateway action =
      some next)
    (hmost : next.AtMostInFlight mcp target bound) :
    next.WithinCap mcp calls target bound := by
  cases action with
  | issue call =>
      have hnext : gateway.issue mcp config call = next :=
        Option.some.inj hstep
      rw [← hnext]
      exact hwithin.issue hinvariant call
  | verify action =>
      obtain ⟨verifying, hverifying, rfl⟩ := Option.map_eq_some_iff.mp hstep
      exact hwithin.verify hinvariant hverifying hmost

theorem withinCap_of_run {bound : ℕ} {trace : List (GatewayAction ι)}
    (hrun : (gatewayMachine mcp config calls).run start trace = some gateway)
    (hmost : (gatewayMachine mcp config calls).Throughout
      (AtMostInFlight mcp target bound) start trace) :
    gateway.WithinCap mcp calls target bound := by
  have hreached : (gatewayMachine mcp config calls).ReachesWithin
      (AtMostInFlight mcp target bound) start gateway :=
    ⟨trace, hrun, hmost⟩
  have hkeep : ∀ state action next,
      (Invariant mcp config calls state ∧
        WithinCap mcp calls target bound state) →
      next.AtMostInFlight mcp target bound →
      (gatewayMachine mcp config calls).step state action = some next →
      Invariant mcp config calls next ∧
        WithinCap mcp calls target bound next := by
    rintro state action next ⟨hinvariant, hwithin⟩ hnext hstep
    exact ⟨hinvariant.step hstep, hwithin.step hinvariant hstep hnext⟩
  have hstart : WithinCap mcp calls target bound
      (start : GatewayServer ι Arc Chain) := by
    intro issued hissued
    cases hissued
  exact (hreached.induction hkeep ⟨start_invariant, hstart⟩).2

end Steps

end GatewayServer
end Gateway
end Acdp
