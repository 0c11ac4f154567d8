import Acdp.CheckThenAct
import Acdp.GatewayQuota
import Mathlib.Data.Set.Card

/-!
# How far concurrent presentations overshoot the quota

The endpoint checks the counter of a credential with one statement and raises
it with another, so a credential is a counter with a limit that is checked
first and raised later.  With at most so many requests between the two
statements, it is accepted less often than the remaining quota and their
number together, and that often it can happen.
-/

namespace Acdp
namespace Gateway

open Auth (Uuid DateTime)

variable {ι Credential : Type}
variable {library : CredentialLibrary Credential}
variable {calls : ι → VerificationCall} {target : Uuid}

/-- The requests on the credential that are between their two statements. -/
def inFlight (library : CredentialLibrary Credential) (target : Uuid)
    (state : ServerState ι Credential) : Set ι :=
  {request | ∃ credential selected,
    state.phase request = .selected credential selected ∧
      library.credentialId credential = target}

def InFlightAtMost (library : CredentialLibrary Credential) (target : Uuid)
    (bound : ℕ) (state : ServerState ι Credential) : Prop :=
  (inFlight library target state).ncard ≤ bound

/-- The row of the credential is the counter, which counts what has been
accepted, and the requests between their statements are those that have
checked it. -/
structure CountedBy (library : CredentialLibrary Credential)
    (calls : ι → VerificationCall) (target : Uuid) (row : StoredCredential)
    (state : ServerState ι Credential) (counter : CheckThenAct) : Prop where
  stored : ∃ stored, state.table target = some stored ∧
    stored.maxPresentations = row.maxPresentations ∧
    stored.revoked = row.revoked ∧
    stored.presentationsUsed = counter.count
  accepted : counter.count = row.presentationsUsed +
    acceptedCount library calls target state.responses
  parsed : ∀ request credential selected,
    state.phase request = .selected credential selected →
      library.fromStr (calls request).body.credential = .ok credential
  finite : (inFlight library target state).Finite
  pending : (inFlight library target state).ncard = counter.pending

variable {row : StoredCredential} {state next : ServerState ι Credential}
  {counter : CheckThenAct}

theorem countedBy_initial {table : Table} (hrow : table target = some row) :
    CountedBy library calls target row (.initial ι Credential table)
      ⟨row.presentationsUsed, 0⟩ := by
  have hnone : inFlight library target (.initial ι Credential table) = ∅ := by
    apply Set.eq_empty_of_forall_notMem
    rintro request ⟨credential, selected, hphase, _⟩
    cases hphase
  constructor
  · exact ⟨row, hrow, rfl, rfl, rfl⟩
  · simp [ServerState.initial, acceptedCount]
  · intro request credential selected hphase
    cases hphase
  · rw [hnone]
    exact Set.finite_empty
  · rw [hnone, Set.ncard_empty]

theorem acceptedCount_other {request : ι} {response : Response}
    (hother : (Presents library (calls request) target &&
      isAccepted response) = false) (responses : List (ι × Response)) :
    acceptedCount library calls target (responses ++ [(request, response)]) =
      acceptedCount library calls target responses := by
  rw [acceptedCount_append, hother]
  rfl

/-- Requests that have checked can be taken from the number of them. -/
theorem CountedBy.exists_fewer {request : ι} {count : ℤ} {pending : ℕ}
    (hcounted : CountedBy library calls target row state ⟨count, pending⟩)
    (hflying : request ∈ inFlight library target state) :
    ∃ fewer, pending = fewer + 1 ∧
      (inFlight library target state \ {request}).ncard = fewer := by
  have hpending : (inFlight library target state).ncard = pending :=
    hcounted.pending
  have hpositive : 0 < (inFlight library target state).ncard :=
    (Set.ncard_pos hcounted.finite).mpr ⟨request, hflying⟩
  refine ⟨pending - 1, by omega, ?_⟩
  rw [Set.ncard_sdiff_singleton_of_mem hflying, hpending]

theorem incrementUsed_eq_ok {table updated : Table} {id : Uuid}
    {stored : StoredCredential} (hstored : table id = some stored)
    (hincrement : incrementUsed table id = .ok updated) :
    ∃ counted, updated id = some counted ∧
      counted.maxPresentations = stored.maxPresentations ∧
      counted.revoked = stored.revoked ∧
      counted.presentationsUsed = stored.presentationsUsed + 1 := by
  simp only [incrementUsed, hstored] at hincrement
  split_ifs at hincrement with hrange
  rw [← Except.ok.inj hincrement]
  exact ⟨_, Function.update_self id _ table, rfl, rfl, rfl⟩

section Runs

variable [DecidableEq ι]

theorem inFlight_respond (request : ι) (response : Response) :
    inFlight library target (state.respond request response) =
      inFlight library target state \ {request} := by
  ext other
  rw [Set.mem_sdiff, Set.mem_singleton_iff]
  constructor
  · rintro ⟨credential, selected, hphase, htarget⟩
    refine ⟨⟨credential, selected,
      ServerState.selected_of_respond response hphase, htarget⟩, ?_⟩
    intro hother
    simp [hother, ServerState.respond] at hphase
  · rintro ⟨⟨credential, selected, hphase, htarget⟩, hother⟩
    refine ⟨credential, selected, ?_, htarget⟩
    simpa [ServerState.respond, hother] using hphase

/-- The counter takes the step, or is none of its business. -/
def Follows (limit : ℤ) (before after : CheckThenAct) : Prop :=
  after = before ∨
    ∃ action, (CheckThenAct.machine limit).step before action = some after

/-- The request leaves with a response, and the table may be another. -/
theorem CountedBy.respond (hcounted : CountedBy library calls target row state
      counter) {request : ι} {response : Response} {table : Table}
    {count : ℤ} {pending : ℕ}
    (hstored : ∃ stored, table target = some stored ∧
      stored.maxPresentations = row.maxPresentations ∧
      stored.revoked = row.revoked ∧ stored.presentationsUsed = count)
    (haccepted : count = row.presentationsUsed + acceptedCount library calls
      target (state.responses ++ [(request, response)]))
    (hpending : (inFlight library target state \ {request}).ncard = pending) :
    CountedBy library calls target row
      { state.respond request response with table := table }
      ⟨count, pending⟩ where
  stored := hstored
  accepted := haccepted
  parsed other credential selected hphase :=
    hcounted.parsed other credential selected
      (ServerState.selected_of_respond response hphase)
  finite := by
    have hleft : inFlight library target
        (state.respond request response) = _ :=
      inFlight_respond request response
    exact hleft ▸ hcounted.finite.sdiff
  pending := by
    have hleft : inFlight library target
        (state.respond request response) = _ :=
      inFlight_respond request response
    exact hleft ▸ hpending

/-- A request that has checked and is not accepted gives up. -/
theorem CountedBy.abort {request : ι} {response : Response} {table : Table}
    {count : ℤ} {pending : ℕ}
    (hcounted : CountedBy library calls target row state ⟨count, pending⟩)
    (hflying : request ∈ inFlight library target state)
    (htable : table target = state.table target)
    (hother : (Presents library (calls request) target &&
      isAccepted response) = false) :
    ∃ fewer, pending = fewer + 1 ∧ CountedBy library calls target row
      { state.respond request response with table := table }
      ⟨count, fewer⟩ := by
  obtain ⟨fewer, hfewer, hpending⟩ := hcounted.exists_fewer hflying
  refine ⟨fewer, hfewer, hcounted.respond ?_ ?_ hpending⟩
  · rw [htable]
    exact hcounted.stored
  · rw [acceptedCount_other hother]
    exact hcounted.accepted

/-- A request that was not accepted gives up, if it had checked. -/
theorem CountedBy.refuse (hcounted : CountedBy library calls target row state
      counter) (request : ι) {response : Response} {table : Table}
    (htable : table target = state.table target)
    (hother : (Presents library (calls request) target &&
      isAccepted response) = false) :
    ∃ after, CountedBy library calls target row
        { state.respond request response with table := table } after ∧
      Follows row.maxPresentations counter after := by
  by_cases hflying : request ∈ inFlight library target state
  · obtain ⟨fewer, hpending, hafter⟩ :=
      hcounted.abort hflying htable hother
    have hcounter : counter = ⟨counter.count, fewer + 1⟩ := by rw [← hpending]
    refine ⟨⟨counter.count, fewer⟩, hafter, Or.inr ⟨.abort, ?_⟩⟩
    rw [hcounter]
    exact CheckThenAct.step_abort counter.count fewer
  · have hsame : inFlight library target state \ {request} =
        inFlight library target state := Set.sdiff_singleton_eq_self hflying
    refine ⟨counter, hcounted.respond ?_ ?_ ?_, Or.inl rfl⟩
    · rw [htable]
      exact hcounted.stored
    · rw [acceptedCount_other hother]
      exact hcounted.accepted
    · rw [hsame]
      exact hcounted.pending

theorem inFlight_hold {request : ι} (hwaiting : state.phase request = .waiting)
    (credential : Credential) (selected : StoredCredential) :
    inFlight library target (state.hold request credential selected) =
      if library.credentialId credential = target then
        insert request (inFlight library target state)
      else inFlight library target state := by
  have hnot : request ∉ inFlight library target state := by
    rintro ⟨held, snapshot, hphase, _⟩
    rw [hwaiting] at hphase
    cases hphase
  ext other
  by_cases hother : other = request
  · subst hother
    have hself : other ∈ inFlight library target
        (state.hold other credential selected) ↔
          library.credentialId credential = target := by
      simp [inFlight, ServerState.hold]
    rw [hself]
    split_ifs with htarget
    · exact iff_of_true htarget (Set.mem_insert other _)
    · exact iff_of_false htarget hnot
  · have hold : other ∈ inFlight library target
        (state.hold request credential selected) ↔
          other ∈ inFlight library target state := by
      simp [inFlight, ServerState.hold, hother]
    rw [hold]
    split_ifs with htarget
    · rw [Set.mem_insert_iff]
      exact (or_iff_right hother).symm
    · exact Iff.rfl

theorem CountedBy.parsed_hold (hcounted : CountedBy library calls target row
      state counter) {request : ι} {credential : Credential}
    (hparsed : library.fromStr (calls request).body.credential =
      .ok credential) (selected : StoredCredential) :
    ∀ other held snapshot,
      (state.hold request credential selected).phase other =
        .selected held snapshot →
          library.fromStr (calls other).body.credential = .ok held := by
  intro other held snapshot hphase
  rcases update_eq_selected hphase with ⟨rfl, rfl, _⟩ | hold
  · exact hparsed
  · exact hcounted.parsed other held snapshot hold

/-- A request on the credential checks. -/
theorem CountedBy.check (hcounted : CountedBy library calls target row state
      counter) {request : ι} (hwaiting : state.phase request = .waiting)
    {credential : Credential}
    (hparsed : library.fromStr (calls request).body.credential =
      .ok credential)
    (htarget : library.credentialId credential = target)
    (selected : StoredCredential) :
    CountedBy library calls target row
      (state.hold request credential selected)
      ⟨counter.count, counter.pending + 1⟩ := by
  have hflying : inFlight library target
      (state.hold request credential selected) = _ :=
    inFlight_hold hwaiting credential selected
  rw [if_pos htarget] at hflying
  have hnew : request ∉ inFlight library target state := by
    rintro ⟨held, snapshot, hphase, _⟩
    rw [hwaiting] at hphase
    cases hphase
  refine ⟨hcounted.stored, hcounted.accepted,
    hcounted.parsed_hold hparsed selected, ?_, ?_⟩
  · rw [hflying]
    exact hcounted.finite.insert request
  · rw [hflying, Set.ncard_insert_of_notMem hnew hcounted.finite,
      hcounted.pending]

theorem CountedBy.hold (hcounted : CountedBy library calls target row state
      counter) {request : ι} (hwaiting : state.phase request = .waiting)
    {credential : Credential} {selected : StoredCredential}
    (hparsed : library.fromStr (calls request).body.credential =
      .ok credential)
    (hrow : state.table (library.credentialId credential) = some selected)
    (hbelow : selected.presentationsUsed < selected.maxPresentations) :
    ∃ after, CountedBy library calls target row
        (state.hold request credential selected) after ∧
      Follows row.maxPresentations counter after := by
  by_cases htarget : library.credentialId credential = target
  · obtain ⟨stored, hstored, hmax, _, hused⟩ := hcounted.stored
    rw [htarget, hstored, Option.some.injEq] at hrow
    rw [← hrow, hmax, hused] at hbelow
    exact ⟨_, hcounted.check hwaiting hparsed htarget selected,
      Or.inr ⟨.check, CheckThenAct.step_check hbelow⟩⟩
  · have hflying : inFlight library target
        (state.hold request credential selected) = _ :=
      inFlight_hold hwaiting credential selected
    rw [if_neg htarget] at hflying
    refine ⟨counter, ⟨hcounted.stored, hcounted.accepted,
      hcounted.parsed_hold hparsed selected, ?_, ?_⟩, Or.inl rfl⟩
    · rw [hflying]
      exact hcounted.finite
    · rw [hflying]
      exact hcounted.pending

/-- A request that has checked acts. -/
theorem CountedBy.act {request : ι} {credential : Credential}
    {selected : StoredCredential} {table : Table} {count : ℤ} {pending : ℕ}
    (hcounted : CountedBy library calls target row state ⟨count, pending⟩)
    (hphase : state.phase request = .selected credential selected)
    (htarget : library.credentialId credential = target)
    (hincrement : incrementUsed state.table target = .ok table) :
    ∃ fewer, pending = fewer + 1 ∧ CountedBy library calls target row
      { state.respond request
          (.ok (success library credential selected
            (calls request).verifiedAt)) with table := table }
      ⟨count + 1, fewer⟩ := by
  have hpresents := (presents_of_parsed target
    (hcounted.parsed request credential selected hphase)).mpr htarget
  obtain ⟨fewer, hfewer, hpending⟩ :=
    hcounted.exists_fewer ⟨credential, selected, hphase, htarget⟩
  obtain ⟨stored, hstored, hmax, hrevoked, hused⟩ := hcounted.stored
  obtain ⟨counted, hcountedRow, hcountedMax, hcountedRevoked,
    hcountedUsed⟩ := incrementUsed_eq_ok hstored hincrement
  refine ⟨fewer, hfewer, hcounted.respond ?_ ?_ hpending⟩
  · refine ⟨counted, hcountedRow, hcountedMax.trans hmax,
      hcountedRevoked.trans hrevoked, ?_⟩
    rw [hcountedUsed, hused]
  · have hcount : acceptedCount library calls target
        (state.responses ++ [(request, .ok (success library credential
          selected (calls request).verifiedAt))]) =
          acceptedCount library calls target state.responses + 1 := by
      rw [acceptedCount_append]
      simp [hpresents, isAccepted, success]
    rw [hcount, Nat.cast_add, Nat.cast_one, ← add_assoc]
    exact congrArg (· + 1) hcounted.accepted

theorem CountedBy.accept (hcounted : CountedBy library calls target row state
      counter) {request : ι} {credential : Credential}
    {selected : StoredCredential} {table : Table}
    (hphase : state.phase request = .selected credential selected)
    (hincrement : incrementUsed state.table (library.credentialId credential) =
      .ok table) :
    ∃ after, CountedBy library calls target row
        { state.respond request
            (.ok (success library credential selected
              (calls request).verifiedAt)) with table := table } after ∧
      Follows row.maxPresentations counter after := by
  by_cases htarget : library.credentialId credential = target
  · rw [htarget] at hincrement
    obtain ⟨fewer, hpending, hafter⟩ :=
      hcounted.act hphase htarget hincrement
    have hcounter : counter = ⟨counter.count, fewer + 1⟩ := by rw [← hpending]
    refine ⟨⟨counter.count + 1, fewer⟩, hafter, Or.inr ⟨.act, ?_⟩⟩
    rw [hcounter]
    exact CheckThenAct.step_act counter.count fewer
  · have hpresents := presents_of_parsed target
      (hcounted.parsed request credential selected hphase)
    apply hcounted.refuse
    · exact incrementUsed_of_ne hincrement (Ne.symm htarget)
    · rw [Bool.and_eq_false_iff, ← Bool.not_eq_true, hpresents]
      exact Or.inl htarget

/-- Each step of the endpoint is one of the counter, or is none of its
business. -/
theorem CountedBy.step {action : ServerAction ι}
    (hcounted : CountedBy library calls target row state counter)
    (hstep : (verifyMachine library calls).step state action = some next) :
    ∃ after, CountedBy library calls target row next after ∧
      Follows row.maxPresentations counter after := by
  rcases verifyMachine_step_cases hstep with
    ⟨response, hrefused, rfl⟩ |
    ⟨request, credential, selected, rfl, hwaiting, hselect, rfl⟩ |
    ⟨request, credential, selected, table, rfl, hphase, hincrement, rfl⟩
  · apply hcounted.refuse action.request rfl
    rw [hrefused, Bool.and_false]
  · obtain ⟨hparsed, hrow, hbelow⟩ := selectPhase_proceed hselect
    exact hcounted.hold hwaiting hparsed hrow hbelow
  · exact hcounted.accept hphase hincrement

/-- A run with a bound on the requests in flight is one of the counter. -/
theorem CountedBy.run {bound : ℕ} {reached : ServerState ι Credential}
    {trace : List (ServerAction ι)} {start : CheckThenAct}
    (hcounted : CountedBy library calls target row state counter)
    (hstart : (CheckThenAct.machine row.maxPresentations).ReachesWithin
      (CheckThenAct.AtMost bound) start counter)
    (hrun : (verifyMachine library calls).run state trace = some reached)
    (hbound : (verifyMachine library calls).Throughout
      (InFlightAtMost library target bound) state trace) :
    ∃ after, CountedBy library calls target row reached after ∧
      (CheckThenAct.machine row.maxPresentations).ReachesWithin
        (CheckThenAct.AtMost bound) start after := by
  induction trace generalizing state counter with
  | nil =>
      rw [StepMachine.run_nil, Option.some.injEq] at hrun
      rw [← hrun]
      exact ⟨counter, hcounted, hstart⟩
  | cons action rest ih =>
      rw [StepMachine.run_cons, Option.bind_eq_some_iff] at hrun
      obtain ⟨next, hstep, hrest⟩ := hrun
      have hlater :=
        ((StepMachine.throughout_cons _ _ _ _ _).mp hbound).2 next hstep
      obtain ⟨after, hnext, hfollows⟩ := hcounted.step hstep
      apply ih hnext _ hrest hlater
      rcases hfollows with rfl | ⟨taken, htaken⟩
      · exact hstart
      · have hmost : CheckThenAct.AtMost bound after := by
          have hflying : InFlightAtMost library target bound next :=
            hlater [] List.nil_prefix next rfl
          unfold InFlightAtMost at hflying
          rw [hnext.pending] at hflying
          exact hflying
        exact hstart.followed taken htaken hmost

/-- With at most `bound` requests on a credential between their two statements
at a time, its counter counts what is accepted, and stays below the limit and
that bound together. -/
theorem presentations_le_of_inFlight (library : CredentialLibrary Credential)
    (calls : ι → VerificationCall) {table : Table} {target : Uuid}
    {row : StoredCredential} (hrow : table target = some row) (bound : ℕ)
    {trace : List (ServerAction ι)} {reached : ServerState ι Credential}
    (hrun : (verifyMachine library calls).run (.initial ι Credential table)
      trace = some reached)
    (hbound : (verifyMachine library calls).Throughout
      (InFlightAtMost library target bound) (.initial ι Credential table)
      trace) :
    ∃ stored, reached.table target = some stored ∧
      stored.maxPresentations = row.maxPresentations ∧
      stored.presentationsUsed = row.presentationsUsed +
        acceptedCount library calls target reached.responses ∧
      stored.presentationsUsed ≤
        max row.presentationsUsed (row.maxPresentations + bound - 1) := by
  have hnone : CheckThenAct.AtMost bound ⟨row.presentationsUsed, 0⟩ :=
    Nat.zero_le bound
  have hcounted : CountedBy library calls target row
      (.initial ι Credential table) ⟨row.presentationsUsed, 0⟩ :=
    countedBy_initial hrow
  obtain ⟨after, hafter, hreaches⟩ := hcounted.run (.refl hnone) hrun hbound
  have hbelow := CheckThenAct.below_of_reachesWithin hreaches
  obtain ⟨stored, hstored, hmax, _, hused⟩ := hafter.stored
  refine ⟨stored, hstored, hmax, hused.trans hafter.accepted, ?_⟩
  unfold CheckThenAct.Below at hbelow
  rw [hused]
  omega

/-! ## Each run of the counter happens -/

/-- The requests are all on the credential, and not too late. -/
def AllPresent (library : CredentialLibrary Credential)
    (calls : ι → VerificationCall) (target : Uuid) : Prop :=
  ∀ request, ∃ credential,
    library.fromStr (calls request).body.credential = .ok credential ∧
      library.credentialId credential = target ∧
      library.isExpired credential (calls request).expiryCheckedAt = false

/-- So far only some requests have come. -/
def Served (state : ServerState ι Credential) : Set ι :=
  {request | state.phase request ≠ .waiting}

theorem served_hold_subset (request : ι) (credential : Credential)
    (selected : StoredCredential) :
    Served (state.hold request credential selected) ⊆
      insert request (Served state) := by
  intro other hserved
  by_cases hother : other = request
  · exact Or.inl hother
  · right
    simpa [Served, ServerState.hold, hother] using hserved

theorem served_respond_subset (request : ι) (response : Response) :
    Served (state.respond request response) ⊆
      insert request (Served state) := by
  intro other hserved
  by_cases hother : other = request
  · exact Or.inl hother
  · right
    simpa [Served, ServerState.respond, hother] using hserved

theorem selectPhase_of_below {call : VerificationCall} {table : Table}
    {credential : Credential} {stored : StoredCredential}
    (hparsed : library.fromStr call.body.credential = .ok credential)
    (hexpired : library.isExpired credential call.expiryCheckedAt = false)
    (hstored : table (library.credentialId credential) = some stored)
    (hrevoked : stored.revoked = false)
    (hbelow : stored.presentationsUsed < stored.maxPresentations) :
    selectPhase library call table = .proceed credential stored := by
  have hnot : ¬ stored.presentationsUsed ≥ stored.maxPresentations :=
    not_le.mpr hbelow
  simp [selectPhase, hparsed, hexpired, hstored, hrevoked, hnot]

/-- Whatever the counter does next, some request can do, as long as the
counter stays in its range. -/
theorem CountedBy.realise [Infinite ι]
    (hcounted : CountedBy library calls target row state counter)
    (hserved : (Served state).Finite)
    (hcalls : AllPresent library calls target)
    (hrevoked : row.revoked = false) {action : CheckThenAct.Action}
    {after : CheckThenAct}
    (hstep : (CheckThenAct.machine row.maxPresentations).step counter action =
      some after) (hrange : InI64 after.count) :
    ∃ taken next, (verifyMachine library calls).step state taken = some next ∧
      CountedBy library calls target row next after ∧
      (Served next).Finite := by
  obtain ⟨count, pending⟩ := counter
  obtain ⟨stored, hstored, hmax, hrowRevoked, hused⟩ := hcounted.stored
  have hflying : 0 < pending →
      ∃ request, request ∈ inFlight library target state := by
    intro hpositive
    apply (Set.ncard_pos hcounted.finite).mp
    rw [hcounted.pending]
    exact hpositive
  change CheckThenAct.step row.maxPresentations _ action = some after at hstep
  cases action with
  | check =>
      simp only [CheckThenAct.step, Option.ite_none_right_eq_some] at hstep
      obtain ⟨hbelow, hafter⟩ := hstep
      obtain ⟨request, hrequest⟩ := hserved.infinite_compl.nonempty
      have hwaiting : state.phase request = .waiting := not_not.mp hrequest
      obtain ⟨credential, hparsed, htarget, hexpired⟩ := hcalls request
      have hselect : selectPhase library (calls request) state.table =
          .proceed credential stored := by
        apply selectPhase_of_below hparsed hexpired
        · rw [htarget]
          exact hstored
        · exact hrowRevoked.trans hrevoked
        · rw [hmax, hused]
          exact hbelow
      refine ⟨.select request, state.hold request credential stored, ?_, ?_,
        ?_⟩
      · simp only [verifyMachine, hwaiting, hselect]
        rfl
      · rw [← Option.some.inj hafter]
        exact hcounted.check hwaiting hparsed htarget stored
      · exact (hserved.insert request).subset (served_hold_subset _ _ _)
  | act =>
      simp only [CheckThenAct.step, Option.ite_none_right_eq_some] at hstep
      obtain ⟨hpending, hafter⟩ := hstep
      obtain ⟨request, credential, selected, hphase, htarget⟩ :=
        hflying hpending
      rw [← Option.some.inj hafter] at hrange ⊢
      have hcounts : InI64 (stored.presentationsUsed + 1) := by
        rw [hused]
        exact hrange
      obtain ⟨table, hincrement⟩ : ∃ table,
          incrementUsed state.table target = .ok table := by
        simp only [incrementUsed, hstored, dif_pos hcounts]
        exact ⟨_, rfl⟩
      obtain ⟨fewer, rfl, hnext⟩ := hcounted.act hphase htarget hincrement
      have htaken : (verifyMachine library calls).step state
          (.update request) = some
            { state.respond request
                (.ok (success library credential selected
                  (calls request).verifiedAt)) with table := table } := by
        simp only [verifyMachine, hphase, updatePhase, htarget, hincrement]
      have hsubset : Served (state.respond request (.ok (success library
          credential selected (calls request).verifiedAt))) ⊆ _ :=
        served_respond_subset request _
      exact ⟨_, _, htaken, hnext, (hserved.insert request).subset hsubset⟩
  | abort =>
      simp only [CheckThenAct.step, Option.ite_none_right_eq_some] at hstep
      obtain ⟨hpending, hafter⟩ := hstep
      obtain ⟨request, hrequest⟩ := hflying hpending
      obtain ⟨credential, selected, hphase, _⟩ := id hrequest
      rw [← Option.some.inj hafter]
      have hother : (Presents library (calls request) target &&
          isAccepted (.error (.databaseError "timeout"))) = false :=
        Bool.and_false _
      obtain ⟨fewer, rfl, hnext⟩ := hcounted.abort hrequest rfl hother
      have htaken : (verifyMachine library calls).step state
          (.databaseFails request "timeout") = some (state.respond request
            (.error (.databaseError "timeout"))) := by
        simp only [verifyMachine, hphase]
      exact ⟨_, _, htaken, hnext,
        (hserved.insert request).subset (served_respond_subset _ _)⟩

/-- Runs of the counter are runs of the endpoint. -/
theorem CountedBy.realise_run [Infinite ι] {bound : ℕ} {start : ℤ}
    {trace : List CheckThenAct.Action} {after : CheckThenAct}
    (hcounted : CountedBy library calls target row state counter)
    (hserved : (Served state).Finite)
    (hcalls : AllPresent library calls target)
    (hrevoked : row.revoked = false)
    (hlower : -2 ^ 63 ≤ counter.count)
    (hbelow : counter.Below (max start (row.maxPresentations + bound - 1)))
    (hupper : max start (row.maxPresentations + bound - 1) < 2 ^ 63)
    (hrun : (CheckThenAct.machine row.maxPresentations).run counter trace =
      some after)
    (hbound : (CheckThenAct.machine row.maxPresentations).Throughout
      (CheckThenAct.AtMost bound) counter trace) :
    ∃ taken reached, (verifyMachine library calls).run state taken =
        some reached ∧
      (verifyMachine library calls).Throughout
        (InFlightAtMost library target bound) state taken ∧
      CountedBy library calls target row reached after := by
  have hmost : InFlightAtMost library target bound state := by
    have hpending : counter.AtMost bound := hbound [] List.nil_prefix _ rfl
    unfold InFlightAtMost
    rw [hcounted.pending]
    exact hpending
  induction trace generalizing state counter with
  | nil =>
      rw [StepMachine.run_nil, Option.some.injEq] at hrun
      rw [← hrun]
      exact ⟨[], state, rfl, (StepMachine.throughout_nil _ _ _).mpr hmost,
        hcounted⟩
  | cons action rest ih =>
      rw [StepMachine.run_cons, Option.bind_eq_some_iff] at hrun
      obtain ⟨later, hstep, hrest⟩ := hrun
      have hlater :=
        ((StepMachine.throughout_cons _ _ _ _ _).mp hbound).2 later hstep
      have hpending : later.AtMost bound := hlater [] List.nil_prefix _ rfl
      have hlaterBelow := hbelow.step hpending hstep
      have hgrows := CheckThenAct.count_le_step hstep
      have hrange : InI64 later.count := by
        unfold CheckThenAct.Below at hlaterBelow
        constructor <;> omega
      obtain ⟨taken, next, htaken, hnext, hnextServed⟩ :=
        hcounted.realise hserved hcalls hrevoked hstep hrange
      have hnextMost : InFlightAtMost library target bound next := by
        unfold InFlightAtMost
        rw [hnext.pending]
        exact hpending
      obtain ⟨more, reached, hmore, hthrough, hreached⟩ :=
        ih hnext hnextServed hrange.1 hlaterBelow hrest hlater hnextMost
      refine ⟨taken :: more, reached, ?_, ?_, hreached⟩
      · rw [StepMachine.run_cons, htaken]
        exact hmore
      · rw [StepMachine.throughout_cons]
        refine ⟨hmost, ?_⟩
        intro other hother
        rw [htaken] at hother
        rw [← Option.some.inj hother]
        exact hthrough

/-- What a credential can be accepted for with so many requests in flight at
a time. -/
def AcceptedCounts (library : CredentialLibrary Credential)
    (calls : ι → VerificationCall) (table : Table) (target : Uuid)
    (bound : ℕ) : Set ℤ :=
  {accepted | ∃ trace reached,
    (verifyMachine library calls).run (.initial ι Credential table) trace =
        some reached ∧
      (verifyMachine library calls).Throughout
        (InFlightAtMost library target bound) (.initial ι Credential table)
        trace ∧
      accepted = acceptedCount library calls target reached.responses}

/-- With requests that all present the credential, and at most `bound` of them
in flight at a time, the credential can be accepted for what was left of its
quota and for `bound - 1` times more, but no more often. -/
theorem isGreatest_acceptedCounts [Infinite ι]
    (library : CredentialLibrary Credential) {calls : ι → VerificationCall}
    {table : Table} {target : Uuid} {row : StoredCredential} {bound : ℕ}
    (hcalls : AllPresent library calls target)
    (hrow : table target = some row) (hrevoked : row.revoked = false)
    (hleft : row.presentationsUsed < row.maxPresentations)
    (hbound : 1 ≤ bound) (hrange : InI64 (row.maxPresentations + bound - 1)) :
    IsGreatest (AcceptedCounts library calls table target bound)
      (row.maxPresentations - row.presentationsUsed + bound - 1) := by
  have htop : max row.presentationsUsed (row.maxPresentations + bound - 1) =
      row.maxPresentations + bound - 1 := by
    apply max_eq_right
    omega
  have hcounted : CountedBy library calls target row
      (.initial ι Credential table) ⟨row.presentationsUsed, 0⟩ :=
    countedBy_initial hrow
  constructor
  · have hserved : (Served (.initial ι Credential table)).Finite := by
      have hnone : Served (.initial ι Credential table) = ∅ := by
        simp [Served, ServerState.initial]
      rw [hnone]
      exact Set.finite_empty
    have hbelow : CheckThenAct.Below
        (max row.presentationsUsed (row.maxPresentations + bound - 1))
        ⟨row.presentationsUsed, 0⟩ := by
      simp [CheckThenAct.Below]
    have hupper : max row.presentationsUsed
        (row.maxPresentations + bound - 1) < 2 ^ 63 := by
      rw [htop]
      exact hrange.2
    obtain ⟨trace, hrun, hthrough⟩ :=
      CheckThenAct.reaches_overshoot hleft hbound
    obtain ⟨taken, reached, htaken, hmost, hreached⟩ :=
      hcounted.realise_run hserved hcalls hrevoked row.used_range.1 hbelow
        hupper hrun hthrough
    refine ⟨taken, reached, htaken, hmost, ?_⟩
    have haccepted : row.maxPresentations + (bound : ℤ) - 1 =
        row.presentationsUsed +
          acceptedCount library calls target reached.responses :=
      hreached.accepted
    omega
  · rintro accepted ⟨trace, reached, hrun, hthrough, rfl⟩
    have hnone : CheckThenAct.AtMost bound ⟨row.presentationsUsed, 0⟩ :=
      Nat.zero_le bound
    obtain ⟨after, hafter, hreaches⟩ :=
      hcounted.run (.refl hnone) hrun hthrough
    have hbelow := CheckThenAct.below_of_reachesWithin hreaches
    have haccepted := hafter.accepted
    unfold CheckThenAct.Below at hbelow
    omega

/-! ## Requests on a credential for one presentation -/

theorem phase_step_of_ne {action : ServerAction ι} {other : ι}
    (hstep : (verifyMachine library calls).step state action = some next)
    (hother : other ≠ action.request) :
    next.phase other = state.phase other := by
  rcases verifyMachine_step_cases hstep with
    ⟨response, _, rfl⟩ | ⟨request, credential, selected, rfl, _, _, rfl⟩ |
    ⟨request, credential, selected, table, rfl, _, _, rfl⟩
  · exact Function.update_of_ne hother _ _
  · exact Function.update_of_ne hother _ _
  · exact Function.update_of_ne hother _ _

def OthersWait (requests : Finset ι) (state : ServerState ι Credential) :
    Prop :=
  ∀ other, other ∉ requests → state.phase other = .waiting

theorem OthersWait.inFlightAtMost {requests : Finset ι}
    (hothers : OthersWait requests state) :
    InFlightAtMost library target requests.card state := by
  have hsubset : inFlight library target state ⊆ requests := by
    rintro other ⟨credential, selected, hphase, _⟩
    by_contra hother
    rw [hothers other hother] at hphase
    cases hphase
  exact (Set.ncard_le_ncard hsubset requests.finite_toSet).trans
    (Set.ncard_coe_finset requests).le

/-- No more requests are in flight than there are. -/
theorem inFlightAtMost_card {requests : Finset ι} {table : Table}
    {trace : List (ServerAction ι)}
    (htrace : ∀ action ∈ trace, action.request ∈ requests) :
    (verifyMachine library calls).Throughout
      (InFlightAtMost library target requests.card)
      (.initial ι Credential table) trace := by
  have hwaiting : OthersWait requests (.initial ι Credential table) :=
    fun _ _ => rfl
  refine StepMachine.throughout_of_along ?_
    (fun _ hothers => hothers.inFlightAtMost) hwaiting
    (StepMachine.along_of_forall htrace _)
  intro state action next hothers hstep haction other hother
  have hne : other ≠ action.request := by
    rintro rfl
    exact hother haction
  rw [phase_step_of_ne hstep hne]
  exact hothers other hother

end Runs

/-- Two requests, which both check before either is counted. -/
theorem presentations_le_two :
    ∃ reached stored,
      (verifyMachine smallLibrary (fun _ : ℕ => smallCall)).run
          (.initial ℕ Uuid smallTable)
          [.select 0, .select 1, .update 0, .update 1] = some reached ∧
        reached.table (FixedBytes.filled 16 1) = some stored ∧
        stored.presentationsUsed ≤ 2 := by
  have hbound : (verifyMachine smallLibrary (fun _ : ℕ => smallCall)).Throughout
      (InFlightAtMost smallLibrary (FixedBytes.filled 16 1) 2)
      (.initial ℕ Uuid smallTable)
      [.select 0, .select 1, .update 0, .update 1] := by
    have htwo : ({0, 1} : Finset ℕ).card = 2 := rfl
    rw [← htwo]
    apply inFlightAtMost_card
    simp [ServerAction.request]
  obtain ⟨reached, hrun⟩ : ∃ reached,
      (verifyMachine smallLibrary (fun _ : ℕ => smallCall)).run
          (.initial ℕ Uuid smallTable)
          [.select 0, .select 1, .update 0, .update 1] = some reached :=
    ⟨_, rfl⟩
  have hrow : smallTable (FixedBytes.filled 16 1) = some smallStored := rfl
  obtain ⟨stored, hstored, _, _, hle⟩ := presentations_le_of_inFlight
    smallLibrary (fun _ : ℕ => smallCall) hrow 2 hrun hbound
  refine ⟨reached, stored, hrun, hstored, hle.trans ?_⟩
  decide

theorem isGreatest_acceptedCounts_three :
    IsGreatest (AcceptedCounts smallLibrary (fun _ : ℕ => smallCall) smallTable
        (FixedBytes.filled 16 1) 3)
      (smallStored.maxPresentations - smallStored.presentationsUsed +
        (3 : ℕ) - 1) := by
  have hcalls : AllPresent smallLibrary (fun _ : ℕ => smallCall)
      (FixedBytes.filled 16 1) :=
    fun _ => ⟨FixedBytes.filled 16 1, rfl, rfl, rfl⟩
  exact isGreatest_acceptedCounts smallLibrary hcalls rfl rfl (by decide)
    (by decide) (by decide)

end Gateway
end Acdp
