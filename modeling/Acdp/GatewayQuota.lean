import Acdp.GatewayVerification

/-!
# The gateway's presentation quota under concurrent requests

A run of the endpoint keeps the quota of a stored credential exactly when
every `UPDATE` on it finds the counter its own request has read.
-/

namespace Acdp
namespace Gateway

open Auth (Uuid DateTime smallInstant)

variable {ι Credential : Type}
variable {library : CredentialLibrary Credential}
variable {calls : ι → VerificationCall} {target : Uuid} {max : ℤ}

/-! ## Phases of one request -/

theorem selectPhase_respond {call : VerificationCall} {table : Table}
    {response : Response}
    (hselect : selectPhase library call table = .respond response) :
    isAccepted response = false := by
  unfold selectPhase at hselect
  split at hselect
  next =>
    rw [SelectOutcome.respond.injEq] at hselect
    rw [← hselect]
    rfl
  next =>
    split_ifs at hselect with hexpired
    · rw [SelectOutcome.respond.injEq] at hselect
      rw [← hselect]
      rfl
    · split at hselect
      next =>
        rw [SelectOutcome.respond.injEq] at hselect
        rw [← hselect]
        rfl
      next =>
        split_ifs at hselect with hrevoked hlimit
        · rw [SelectOutcome.respond.injEq] at hselect
          rw [← hselect]
          rfl
        · rw [SelectOutcome.respond.injEq] at hselect
          rw [← hselect]
          rfl

theorem selectPhase_proceed {call : VerificationCall} {table : Table}
    {credential : Credential} {selected : StoredCredential}
    (hselect :
      selectPhase library call table = .proceed credential selected) :
    library.fromStr call.body.credential = .ok credential ∧
      table (library.credentialId credential) = some selected ∧
      selected.presentationsUsed < selected.maxPresentations := by
  unfold selectPhase at hselect
  split at hselect
  next => simp at hselect
  next parsed hparsed =>
    split_ifs at hselect with hexpired
    split at hselect
    next => simp at hselect
    next stored hstored =>
      split_ifs at hselect with hrevoked hlimit
      rw [SelectOutcome.proceed.injEq] at hselect
      rw [← hselect.1, ← hselect.2]
      exact ⟨hparsed, hstored, not_le.mp hlimit⟩

theorem incrementUsed_of_ne {table updated : Table} {id other : Uuid}
    (hincrement : incrementUsed table id = .ok updated)
    (hother : other ≠ id) :
    updated other = table other := by
  unfold incrementUsed at hincrement
  split at hincrement
  next =>
    rw [Except.ok.injEq] at hincrement
    rw [hincrement]
  next =>
    split_ifs at hincrement with hrange
    rw [Except.ok.injEq] at hincrement
    rw [← hincrement]
    exact Function.update_of_ne hother _ _

theorem incrementUsed_self {table updated : Table} {id : Uuid}
    {stored : StoredCredential} (hstored : table id = some stored)
    (hincrement : incrementUsed table id = .ok updated) :
    InI64 (stored.presentationsUsed + 1) ∧
      ∃ counted, updated id = some counted ∧
        counted.maxPresentations = stored.maxPresentations ∧
        counted.presentationsUsed = stored.presentationsUsed + 1 := by
  simp only [incrementUsed, hstored] at hincrement
  split_ifs at hincrement with hrange
  rw [Except.ok.injEq] at hincrement
  rw [← hincrement]
  exact ⟨hrange, _, Function.update_self id _ table, rfl, rfl⟩

theorem i64AsU64_toNat {value : ℤ} (hlower : 0 ≤ value)
    (hupper : value < 2 ^ 63) :
    ((i64AsU64 value).toNat : ℤ) = value := by
  have hmod : value % 2 ^ 64 = value := Int.emod_eq_of_lt hlower (by omega)
  have hsmall : value.toNat < 2 ^ 64 := by omega
  rw [i64AsU64, hmod, UInt64.toNat_ofNat_of_lt' hsmall]
  omega

/-! ## Counting responses -/

theorem acceptedCount_append (responses : List (ι × Response))
    (entry : ι × Response) :
    acceptedCount library calls target (responses ++ [entry]) =
      acceptedCount library calls target responses +
        if Presents library (calls entry.1) target && isAccepted entry.2
          then 1 else 0 := by
  simp [acceptedCount, List.countP_append, List.countP_singleton]

theorem remainder_append {responses : List (ι × Response)}
    {entry : ι × Response}
    (hresponses : ∀ earlier old later, responses = earlier ++ old :: later →
      RemainderExact library calls target max earlier old)
    (hentry : RemainderExact library calls target max responses entry) :
    ∀ earlier old later, responses ++ [entry] = earlier ++ old :: later →
      RemainderExact library calls target max earlier old := by
  intro earlier old later hsplit
  rcases List.eq_nil_or_concat later with hlater | ⟨front, last, hlater⟩
  · rw [hlater] at hsplit
    obtain ⟨hearlier, hlast⟩ := List.append_inj' hsplit rfl
    rw [List.singleton_inj] at hlast
    rw [← hearlier, ← hlast]
    exact hentry
  · rw [hlater, List.concat_eq_append, ← List.cons_append,
      ← List.append_assoc] at hsplit
    obtain ⟨hearlier, _⟩ := List.append_inj' hsplit rfl
    exact hresponses earlier old front hearlier

/-! ## The invariant -/

/-- The counter of the row is the number of accepted presentations, and every
request between its two statements has read a row below the limit. -/
structure QuotaExact (library : CredentialLibrary Credential)
    (calls : ι → VerificationCall) (target : Uuid) (max : ℤ)
    (state : ServerState ι Credential) : Prop where
  row : ∃ stored, state.table target = some stored ∧
    stored.maxPresentations = max ∧
    stored.presentationsUsed =
      acceptedCount library calls target state.responses
  accepted_le :
    (acceptedCount library calls target state.responses : ℤ) ≤ max
  remainder : ∀ earlier entry later,
    state.responses = earlier ++ entry :: later →
      RemainderExact library calls target max earlier entry
  parsed : ∀ request credential selected,
    state.phase request = .selected credential selected →
      library.fromStr (calls request).body.credential = .ok credential
  read : ∀ request credential selected,
    state.phase request = .selected credential selected →
      library.credentialId credential = target →
      selected.maxPresentations = max ∧ 0 ≤ selected.presentationsUsed ∧
        selected.presentationsUsed < max

theorem QuotaExact.kept {state : ServerState ι Credential}
    (hexact : QuotaExact library calls target max state) :
    QuotaKept library calls target max state := by
  refine ⟨hexact.accepted_le, ?_, hexact.remainder⟩
  intro stored hstored
  obtain ⟨row, hrow, _, hused⟩ := hexact.row
  rw [hstored, Option.some.injEq] at hrow
  rw [hrow, hused]
  exact hexact.accepted_le

section Runs

variable [DecidableEq ι]

def ServerAction.request : ServerAction ι → ι
  | .select request => request
  | .update request => request
  | .databaseFails request _ => request

/-- The request goes from its first statement to its second. -/
def ServerState.hold (state : ServerState ι Credential) (request : ι)
    (credential : Credential) (selected : StoredCredential) :
    ServerState ι Credential :=
  { state with
    phase := Function.update state.phase request
      (.selected credential selected) }

/-- A step answers without accepting, holds a request between its two
statements, or counts an accepted presentation. -/
theorem verifyMachine_step_cases {state next : ServerState ι Credential}
    {action : ServerAction ι}
    (hstep : (verifyMachine library calls).step state action = some next) :
    (∃ response, isAccepted response = false ∧
        next = state.respond action.request response) ∨
      (∃ request credential selected, action = .select request ∧
        state.phase request = .waiting ∧
          selectPhase library (calls request) state.table =
            .proceed credential selected ∧
          next = state.hold request credential selected) ∨
      ∃ request credential selected table, action = .update request ∧
        state.phase request = .selected credential selected ∧
          incrementUsed state.table (library.credentialId credential) =
            .ok table ∧
          next = { state.respond request
              (.ok (success library credential selected
                (calls request).verifiedAt)) with table := table } := by
  cases action with
  | select request =>
      cases hphase : state.phase request <;>
        simp only [verifyMachine, hphase, reduceCtorEq] at hstep
      cases hselect : selectPhase library (calls request) state.table with
      | respond response =>
          simp only [hselect, Option.some.injEq] at hstep
          left
          exact ⟨response, selectPhase_respond hselect, hstep.symm⟩
      | proceed credential selected =>
          simp only [hselect, Option.some.injEq] at hstep
          right
          left
          exact ⟨request, credential, selected, rfl, hphase, hselect,
            hstep.symm⟩
  | update request =>
      cases hphase : state.phase request <;>
        simp only [verifyMachine, hphase, reduceCtorEq] at hstep
      next credential selected =>
        cases hincrement :
            incrementUsed state.table (library.credentialId credential) with
        | error e =>
            simp only [updatePhase, hincrement, Option.some.injEq] at hstep
            left
            exact ⟨.error e, rfl, hstep.symm⟩
        | ok table =>
            simp only [updatePhase, hincrement, Option.some.injEq] at hstep
            right
            right
            exact ⟨request, credential, selected, table, rfl, hphase,
              hincrement, hstep.symm⟩
  | databaseFails request message =>
      left
      refine ⟨.error (.databaseError message), rfl, ?_⟩
      cases hphase : state.phase request with
      | waiting =>
          simp only [verifyMachine, hphase] at hstep
          split at hstep
          next => simp at hstep
          next =>
            split_ifs at hstep with hexpired
            exact (Option.some.inj hstep).symm
      | selected credential selected =>
          simp only [verifyMachine, hphase, Option.some.injEq] at hstep
          exact hstep.symm
      | responded =>
          simp only [verifyMachine, hphase, reduceCtorEq] at hstep

theorem presents_of_parsed (target : Uuid) {call : VerificationCall}
    {credential : Credential}
    (hparsed : library.fromStr call.body.credential = .ok credential) :
    Presents library call target = true ↔
      library.credentialId credential = target := by
  rw [Presents, hparsed]
  exact beq_iff_eq

theorem ServerState.selected_of_respond {state : ServerState ι Credential}
    {request other : ι} (response : Response) {credential : Credential}
    {selected : StoredCredential}
    (hselected : (state.respond request response).phase other =
      .selected credential selected) :
    state.phase other = .selected credential selected := by
  unfold ServerState.respond at hselected
  by_cases hother : other = request
  · simp [hother] at hselected
  · simpa [hother] using hselected

/-- Responses keep the invariant if they keep the books. -/
theorem QuotaExact.respond {state : ServerState ι Credential}
    (hexact : QuotaExact library calls target max state) {request : ι}
    {response : Response} {table : Table}
    (hrow : ∃ stored, table target = some stored ∧
      stored.maxPresentations = max ∧
      stored.presentationsUsed = acceptedCount library calls target
        (state.responses ++ [(request, response)]))
    (hle : (acceptedCount library calls target
      (state.responses ++ [(request, response)]) : ℤ) ≤ max)
    (hentry : RemainderExact library calls target max state.responses
      (request, response)) :
    QuotaExact library calls target max
      { state.respond request response with table := table } := by
  constructor
  · exact hrow
  · exact hle
  · exact remainder_append hexact.remainder hentry
  · intro other credential selected hselected
    exact hexact.parsed other credential selected
      (ServerState.selected_of_respond response hselected)
  · intro other credential selected hselected
    exact hexact.read other credential selected
      (ServerState.selected_of_respond response hselected)

theorem QuotaExact.respond_other {state : ServerState ι Credential}
    (hexact : QuotaExact library calls target max state) {request : ι}
    {response : Response} {table : Table}
    (htable : table target = state.table target)
    (hother : (Presents library (calls request) target &&
      isAccepted response) = false) :
    QuotaExact library calls target max
      { state.respond request response with table := table } := by
  have hcount : acceptedCount library calls target
      (state.responses ++ [(request, response)]) =
        acceptedCount library calls target state.responses := by
    rw [acceptedCount_append]
    simp [hother]
  apply hexact.respond
  · rw [hcount, htable]
    exact hexact.row
  · rw [hcount]
    exact hexact.accepted_le
  · intro hpresents result hresult hvalid
    have hresponse : response = .ok result := hresult
    have haccepted : isAccepted response = true := by
      rw [hresponse]
      exact hvalid
    rw [haccepted, Bool.and_true] at hother
    rw [hother] at hpresents
    exact absurd hpresents Bool.false_ne_true

theorem update_eq_selected {phase : ι → RequestPhase Credential}
    {request other : ι} {credential held : Credential}
    {selected snapshot : StoredCredential}
    (hselected : Function.update phase request
      (.selected credential selected) other = .selected held snapshot) :
    (other = request ∧ credential = held ∧ selected = snapshot) ∨
      phase other = .selected held snapshot := by
  by_cases hother : other = request
  · rw [hother, Function.update_self, RequestPhase.selected.injEq]
      at hselected
    exact Or.inl ⟨hother, hselected⟩
  · rw [Function.update_of_ne hother] at hselected
    exact Or.inr hselected

/-- A request that reads the row reads the exact counter. -/
theorem QuotaExact.select {state : ServerState ι Credential}
    (hexact : QuotaExact library calls target max state) {request : ι}
    {credential : Credential} {selected : StoredCredential}
    (hparsed :
      library.fromStr (calls request).body.credential = .ok credential)
    (hrow : state.table (library.credentialId credential) = some selected)
    (hbelow : selected.presentationsUsed < selected.maxPresentations) :
    QuotaExact library calls target max
      { state with
        phase := Function.update state.phase request
          (.selected credential selected) } := by
  constructor
  · exact hexact.row
  · exact hexact.accepted_le
  · exact hexact.remainder
  · intro other held snapshot hselected
    rcases update_eq_selected hselected with hnew | hold
    · rw [hnew.1, ← hnew.2.1]
      exact hparsed
    · exact hexact.parsed other held snapshot hold
  · intro other held snapshot hselected htarget
    rcases update_eq_selected hselected with hnew | hold
    · rw [← hnew.2.1] at htarget
      rw [← hnew.2.2]
      obtain ⟨stored, hstored, hmax, hused⟩ := hexact.row
      rw [htarget, hstored, Option.some.injEq] at hrow
      rw [← hrow] at hbelow ⊢
      rw [hmax] at hbelow
      exact ⟨hmax, by omega, hbelow⟩
    · exact hexact.read other held snapshot hold htarget

theorem QuotaExact.update {state : ServerState ι Credential}
    (hexact : QuotaExact library calls target max state) {request : ι}
    {credential : Credential} {selected : StoredCredential} {table : Table}
    (hphase : state.phase request = .selected credential selected)
    (hincrement :
      incrementUsed state.table (library.credentialId credential) =
        .ok table)
    (hcurrent : SnapshotCurrent library target state (.update request)) :
    QuotaExact library calls target max
      { state.respond request
          (.ok (success library credential selected
            (calls request).verifiedAt)) with table := table } := by
  have hparsed := hexact.parsed request credential selected hphase
  have hpresents := presents_of_parsed target hparsed
  by_cases htarget : library.credentialId credential = target
  · obtain ⟨stored, hstored, hmax, hused⟩ := hexact.row
    obtain ⟨hsnapshotMax, hnonneg, hbelow⟩ :=
      hexact.read request credential selected hphase htarget
    rw [htarget] at hincrement
    obtain ⟨hrange, counted, hcounted, hcountedMax, hcountedUsed⟩ :=
      incrementUsed_self hstored hincrement
    have hsame := hcurrent request credential selected stored rfl hphase
      htarget hstored hrange
    have hcount : acceptedCount library calls target
        (state.responses ++ [(request, .ok (success library credential
          selected (calls request).verifiedAt))]) =
          acceptedCount library calls target state.responses + 1 := by
      rw [acceptedCount_append]
      simp [hpresents.mpr htarget, isAccepted, success]
    have hmaxRange := stored.max_range
    unfold InI64 at hmaxRange
    apply hexact.respond
    · refine ⟨counted, hcounted, hcountedMax.trans hmax, ?_⟩
      rw [hcount, hcountedUsed]
      omega
    · rw [hcount]
      omega
    · intro _ result hresult _
      have hresponse : success library credential selected
          (calls request).verifiedAt = result := Except.ok.inj hresult
      rw [← hresponse]
      change ((i64AsU64 (selected.maxPresentations -
        (selected.presentationsUsed + 1))).toNat : ℤ) = _
      rw [i64AsU64_toNat (by omega) (by omega)]
      omega
  · apply hexact.respond_other
    · exact incrementUsed_of_ne hincrement (Ne.symm htarget)
    · have hnot : Presents library (calls request) target = false := by
        rw [← Bool.not_eq_true, hpresents]
        exact htarget
      rw [hnot, Bool.false_and]

theorem QuotaExact.step {state next : ServerState ι Credential}
    {action : ServerAction ι}
    (hexact : QuotaExact library calls target max state)
    (hstep : (verifyMachine library calls).step state action = some next)
    (hcurrent : SnapshotCurrent library target state action) :
    QuotaExact library calls target max next := by
  rcases verifyMachine_step_cases hstep with
    ⟨response, hrefused, rfl⟩ |
    ⟨request, credential, selected, rfl, _, hselect, rfl⟩ |
    ⟨request, credential, selected, table, rfl, hphase, hincrement, rfl⟩
  · exact hexact.respond_other rfl (by rw [hrefused, Bool.and_false])
  · obtain ⟨hparsed, hrow, hbelow⟩ := selectPhase_proceed hselect
    exact hexact.select hparsed hrow hbelow
  · exact hexact.update hphase hincrement hcurrent

/-- An `UPDATE` from a stale snapshot reports a wrong remainder. -/
theorem QuotaExact.current_of_kept {state next : ServerState ι Credential}
    {action : ServerAction ι}
    (hexact : QuotaExact library calls target max state)
    (hstep : (verifyMachine library calls).step state action = some next)
    (hkept : QuotaKept library calls target max next) :
    SnapshotCurrent library target state action := by
  intro request credential selected stored haction hphase htarget hstored
    hrange
  obtain ⟨row, hrow, hmax, hused⟩ := hexact.row
  rw [hstored, Option.some.injEq] at hrow
  rw [← hrow] at hmax hused
  obtain ⟨hsnapshotMax, hnonneg, hbelow⟩ :=
    hexact.read request credential selected hphase htarget
  have hparsed := hexact.parsed request credential selected hphase
  have hmaxRange := stored.max_range
  unfold InI64 at hmaxRange
  have hresponses : next.responses = state.responses ++
      [(request, .ok (success library credential selected
        (calls request).verifiedAt))] := by
    rw [haction] at hstep
    simp only [verifyMachine, hphase, updatePhase, incrementUsed, htarget,
      hstored, hrange, dif_pos, Option.some.injEq] at hstep
    rw [← hstep]
    rfl
  have hremainder := hkept.remainder state.responses _ [] hresponses
    ((presents_of_parsed target hparsed).mpr htarget) _ rfl rfl
  change ((i64AsU64 (selected.maxPresentations -
    (selected.presentationsUsed + 1))).toNat : ℤ) = _ at hremainder
  rw [i64AsU64_toNat (by omega) (by omega)] at hremainder
  omega

/-- From an unused credential, every interleaving of requests keeps the quota
just when the limit is not negative and every `UPDATE` that takes effect finds
the counter its request has read. -/
theorem verifyMachine_quota_iff (library : CredentialLibrary Credential)
    (calls : ι → VerificationCall) (table : Table) (target : Uuid)
    (stored : StoredCredential) (hstored : table target = some stored)
    (hunused : stored.presentationsUsed = 0)
    (trace : List (ServerAction ι)) :
    (verifyMachine library calls).Throughout
        (QuotaKept library calls target stored.maxPresentations)
        (ServerState.initial ι Credential table) trace ↔
      0 ≤ stored.maxPresentations ∧
        (verifyMachine library calls).Along
          (SnapshotCurrent library target)
          (ServerState.initial ι Credential table) trace := by
  by_cases hlimit : 0 ≤ stored.maxPresentations
  · have hinitial : QuotaExact library calls target stored.maxPresentations
        (ServerState.initial ι Credential table) := by
      constructor
      · refine ⟨stored, hstored, rfl, ?_⟩
        simpa [ServerState.initial, acceptedCount] using hunused
      · simpa [ServerState.initial, acceptedCount] using hlimit
      · intro earlier entry later hsplit
        simp [ServerState.initial] at hsplit
      · intro request credential selected hselected
        simp [ServerState.initial] at hselected
      · intro request credential selected hselected
        simp [ServerState.initial] at hselected
    rw [and_iff_right hlimit]
    exact StepMachine.throughout_iff_along
      (fun _ _ _ hexact hstep hcurrent => hexact.step hstep hcurrent)
      (fun _ hexact => hexact.kept)
      (fun _ _ _ hexact hstep hkept => hexact.current_of_kept hstep hkept)
      hinitial trace
  · constructor
    · intro hthrough
      have hkept := hthrough [] List.nil_prefix _ rfl
      have hused := hkept.used_le stored hstored
      omega
    · intro hcondition
      exact (hlimit hcondition.1).elim

/-- A request that nobody interrupts is `verifyCredential`. -/
theorem verifyMachine_run_alone (library : CredentialLibrary Credential)
    (calls : ι → VerificationCall) (state : ServerState ι Credential)
    (request : ι) (hwaiting : state.phase request = .waiting) :
    let alone := verifyCredential library (calls request) state.table
    ∃ trace next,
      trace <+: [.select request, .update request] ∧
        (verifyMachine library calls).run state trace = some next ∧
        next.responses = state.responses ++ [(request, alone.1)] ∧
        next.table = alone.2 := by
  intro alone
  cases hselect : selectPhase library (calls request) state.table with
  | respond response =>
      refine ⟨[.select request], state.respond request response, by simp,
        ?_, ?_⟩
      · simp [StepMachine.run, verifyMachine, hwaiting, hselect]
      · simp only [alone, verifyCredential, hselect]
        exact ⟨rfl, rfl⟩
  | proceed credential selected =>
      let reading : ServerState ι Credential :=
        { state with
          phase := Function.update state.phase request
            (.selected credential selected) }
      let updated := updatePhase library (calls request) credential selected
        state.table
      refine ⟨[.select request, .update request],
        { reading.respond request updated.1 with table := updated.2 },
        by simp, ?_, ?_⟩
      · simp [StepMachine.run, verifyMachine, hwaiting, hselect, reading,
          updated]
      · simp only [alone, verifyCredential, hselect]
        exact ⟨rfl, rfl⟩

end Runs

/-! ## Requests on a credential for one presentation -/

def smallLibrary : CredentialLibrary Uuid where
  fromStr text :=
    if text = "credential" then .ok (FixedBytes.filled 16 1)
    else .error "expected value at line 1 column 1"
  credentialId credential := credential
  isExpired _ _ := false
  kind _ := .anonymous

def smallCall : VerificationCall where
  body :=
    ⟨FixedBytes.filled 16 1, "filesystem/read", 0, "credential", none⟩
  expiryCheckedAt := smallInstant
  verifiedAt := smallInstant

def smallStored : StoredCredential where
  maxPresentations := 1
  presentationsUsed := 0
  revoked := false
  max_range := by decide
  used_range := by decide

def smallTable : Table := fun id =>
  if id = FixedBytes.filled 16 1 then some smallStored else none

theorem verifyMachine_sequential :
    (verifyMachine smallLibrary (fun _ : ℕ => smallCall)).Throughout
      (QuotaKept smallLibrary (fun _ => smallCall) (FixedBytes.filled 16 1)
        smallStored.maxPresentations)
      (ServerState.initial ℕ Uuid smallTable) [.select 0, .update 0] := by
  apply (verifyMachine_quota_iff smallLibrary (fun _ => smallCall) smallTable
    (FixedBytes.filled 16 1) smallStored rfl rfl _).mpr
  refine ⟨by decide, ?_⟩
  intro reading hselect
  constructor
  · intro request credential selected stored haction
    simp at haction
  · intro answered _
    refine ⟨?_, trivial⟩
    intro request credential selected stored haction hphase _ hstored _
    have hreading := Option.some.inj hselect
    rw [ServerAction.update.injEq] at haction
    rw [← haction, ← hreading] at hphase
    rw [← hreading] at hstored
    have hread : selected = smallStored :=
      (RequestPhase.selected.inj hphase).2.symm
    have hrow : stored = smallStored := (Option.some.inj hstored).symm
    rw [hread, hrow]

/-- Both requests read the unused row before either counts. -/
theorem verifyMachine_double_spend :
    ∃ state,
      (verifyMachine smallLibrary (fun _ : ℕ => smallCall)).run
          (ServerState.initial ℕ Uuid smallTable)
          [.select 0, .select 1, .update 0, .update 1] = some state ∧
        acceptedCount smallLibrary (fun _ => smallCall)
          (FixedBytes.filled 16 1) state.responses = 2 ∧
        (state.table (FixedBytes.filled 16 1)).map
          StoredCredential.presentationsUsed = some 2 ∧
        ¬ QuotaKept smallLibrary (fun _ => smallCall)
          (FixedBytes.filled 16 1) smallStored.maxPresentations state := by
  refine ⟨_, rfl, rfl, rfl, ?_⟩
  intro hkept
  exact absurd hkept.accepted_le (by decide)

end Gateway
end Acdp
