import Acdp.PendingTable
import Acdp.TransportProxy
import Acdp.TransportTuiIsolation

/-!
# Queries of the monitor across restarts

The handler gives its receiver of queries to the loop for the time of one
child, and remembers the queries that wait for an answer.  The receiver is lost
where the loop fails, and a query that still waits when the child is gone waits
for ever, since nothing clears the table.
-/

namespace Acdp
namespace Transport

open Acdp.Core Json
open StdioHandler (Queried Written captured processOutgoing)

namespace StdioHandler

variable {json : SerdeJson} {self : StdioHandler}

/-- The line made of a query, before the interceptors see it. -/
def queryLine (json : SerdeJson) (self : StdioHandler) (job : TuiQueryJob) :
    String :=
  print (queryPayload json.floats (uuidText job.correlationId)
    (self.queryRequest job).1 (self.queryRequest job).2) ++ "\n"

/-- The interceptors let the query through, and it is written. -/
def Sends (json : SerdeJson) (self : StdioHandler) (job : TuiQueryJob)
    (written : Written) (clock : Clock) : Prop :=
  written = .ok ∧ ∃ out, (processOutgoing json self (self.queryLine json job)
    clock).result = .ok out

/-- A query that is not sent is completed with an error, and any other is put
in the table. -/
theorem processTuiQuery_cases (json : SerdeJson) (self : StdioHandler)
    (job : TuiQueryJob) (written : Written) (clock : Clock)
    (interceptorDelayMs : Float) :
    let after := (self.processTuiQuery json job written clock
      interceptorDelayMs).handler
    after.queryRx = self.queryRx ∧
    ((¬ self.Sends json job written clock ∧
        after.pendingQueries = self.pendingQueries ∧
        ∃ completion, completion.error.isSome = true ∧
          after.completions = self.completions ++ [(job.responder, completion)]) ∨
      (self.Sends json job written clock ∧
        after.pendingQueries = self.pendingQueries.insert
          (uuidText job.correlationId)
          ⟨job.responder, clock.instant, some interceptorDelayMs⟩ ∧
        after.completions = self.completions)) := by
  obtain ⟨manager, hhandler⟩ :=
    self.processOutgoing_handler json (self.queryLine json job) clock
  have hline : print (queryPayload json.floats (uuidText job.correlationId)
      (self.queryRequest job).1 (self.queryRequest job).2) ++ "\n" =
        self.queryLine json job := rfl
  simp only [processTuiQuery, hline]
  cases hresult :
      (processOutgoing json self (self.queryLine json job) clock).result with
  | error e =>
      have hnot : ¬ self.Sends json job written clock := by
        rintro ⟨_, out, hout⟩
        rw [hresult] at hout
        cases hout
      rw [hhandler]
      exact ⟨rfl, Or.inl ⟨hnot, rfl, .failed ("Query rejected: " ++ e), rfl,
        rfl⟩⟩
  | ok out =>
      rw [hhandler]
      cases written with
      | ok => exact ⟨rfl, Or.inr ⟨⟨rfl, out, hresult⟩, rfl, rfl⟩⟩
      | failed e =>
          have hnot : ¬ self.Sends json job (.failed e) clock :=
            fun hsends => Written.noConfusion hsends.1
          exact ⟨rfl, Or.inl ⟨hnot, rfl, .failed ("Failed to send query: " ++ e),
            rfl, rfl⟩⟩
      | flushFailed e =>
          have hnot : ¬ self.Sends json job (.flushFailed e) clock :=
            fun hsends => Written.noConfusion hsends.1
          exact ⟨rfl, Or.inl ⟨hnot, rfl,
            .failed ("Failed to flush query: " ++ e), rfl, rfl⟩⟩

/-- What a line of the child completes. -/
def completedBy (json : SerdeJson) (self : StdioHandler) (content : String)
    (clock : Clock) : List (Responder × TuiQueryCompletion) :=
  ((self.heard json content clock).map
    (captured json.floats clock self)).getD []

theorem processIncoming_completions (json : SerdeJson) (self : StdioHandler)
    (content : String) (clock : Clock) :
    (processIncoming json self content clock).handler.completions =
      self.completions ++ self.completedBy json content clock := by
  obtain ⟨manager, tools, hhandler⟩ :=
    self.processIncoming_handler json content clock
  rw [hhandler]
  rfl

/-- It completes at most one query, the one whose identifier the response
bears. -/
theorem completedBy_cases (json : SerdeJson) (self : StdioHandler)
    (content : String) (clock : Clock) :
    (self.completedBy json content clock = [] ∧
      (processIncoming json self content clock).handler.pendingQueries =
        self.pendingQueries ∧
      ∀ back, self.heard json content clock = some (.response back) →
        self.pendingQueries.lookup back.id.display = none) ∨
    ∃ back pending completion,
      self.heard json content clock = some (.response back) ∧
      self.pendingQueries.lookup back.id.display = some pending ∧
      self.completedBy json content clock = [(pending.responder, completion)] ∧
      completion.error.isSome = back.error.isSome ∧
      (processIncoming json self content clock).handler.pendingQueries =
        self.pendingQueries.erase back.id.display := by
  obtain ⟨manager, tools, hhandler⟩ :=
    self.processIncoming_handler json content clock
  rw [hhandler]
  unfold completedBy
  cases hheard : self.heard json content clock with
  | none => exact Or.inl ⟨rfl, rfl, fun back hback => by cases hback⟩
  | some message =>
      cases message with
      | request request =>
          exact Or.inl ⟨rfl, rfl, fun back hback => by cases hback⟩
      | notification notification =>
          exact Or.inl ⟨rfl, rfl, fun back hback => by cases hback⟩
      | response back =>
          cases hlookup : self.pendingQueries.lookup back.id.display with
          | none =>
              refine Or.inl ⟨by simp [captured, hlookup], ?_, ?_⟩
              · exact PendingTable.erase_of_notMem
                  (AList.lookup_eq_none.mp hlookup)
              · intro other hother
                rw [Option.some.injEq, JsonRpcMessage.response.injEq] at hother
                rw [← hother]
                exact hlookup
          | some pending =>
              refine Or.inr ⟨back, pending,
                { TuiQueryCompletion.fromResponse json.floats back
                    (clock.instant - pending.startedAt) with
                  interceptorDelayMs := pending.interceptorDelayMs },
                rfl, hlookup, ?_, ?_, rfl⟩
              · simp [captured, hlookup]
              · simp [TuiQueryCompletion.fromResponse]

end StdioHandler

/-- Between two children: the handler owns its receiver, no query waits, and
every query taken up has been completed once. -/
structure Settled (rx : Option QueryReceiver) (handler : StdioHandler)
    (accepted : List Responder) : Prop where
  queryRx : handler.queryRx = rx
  pendingQueries : handler.pendingQueries = ∅
  completed : accepted.Perm (handler.completions.map Prod.fst)

namespace Communication

variable {json : SerdeJson} {self next : Communication} {given : StdioHandler}
  {rx : Option QueryReceiver}

/-- Every query taken up waits or has been completed, once. -/
def Ledger (found : Communication) : Prop :=
  PendingTable.Accounted PendingQuery.responder found.accepted
    (found.handler.completions.map Prod.fst) found.handler.pendingQueries

/-- What has been completed since the handler was given is a failure, or
stands in the account of a response of the child, and is then an error or
completes a query that this is the response to. -/
structure Answered (given : StdioHandler) (found : Communication) :
    Prop where
  completions : ∃ failures : List (Responder × TuiQueryCompletion),
    (∀ pair ∈ failures, pair.2.error.isSome = true) ∧
      found.handler.completions.Perm (given.completions ++
        (failures ++ found.handled.flatMap Handled.completed))
  matching : ∀ entry ∈ found.handled, ∀ pair ∈ entry.completed,
    pair.2.error.isSome = true ∨ pair.1 ∈ entry.injectedFor

structure Accounted (given : StdioHandler) (found : Communication) :
    Prop where
  ledger : found.Ledger
  answered : found.Answered given

/-! ## When the queries are kept -/

/-- The interceptors make a response with this identifier of the line of the
child that the branch handles. -/
def Answers (json : SerdeJson) (self : Communication) (branch : Branch)
    (id : String) : Prop :=
  ∃ output clock back, self.incoming branch = some (output, clock) ∧
    self.handler.heard json output clock = some (.response back) ∧
    id = back.id.display

/-- The loop fails where waiting for the child does, or the child has. -/
def Fails (self : Communication) : Branch → Prop
  | .waitError _ => True
  | .wait => ∃ status, self.exited = some status ∧ status.success = false
  | _ => False

/-- A query that is sent has an identifier that no other waits under; what the
interceptors make of a response completes only a query that it is the response
to, or as an error; no query waits when the loop is left; and there is no
receiver to lose when it fails. -/
structure KeepsQueries (json : SerdeJson) (found : Communication)
    (branch : Branch) : Prop where
  fresh : ∀ job written clock interceptorDelayMs,
    branch = .query (some job) written clock interceptorDelayMs →
      found.handler.Sends json job written clock →
      uuidText job.correlationId ∉ found.handler.pendingQueries
  matching : ∀ output clock back pending,
    found.incoming branch = some (output, clock) →
      found.handler.heard json output clock = some (.response back) →
      found.handler.pendingQueries.lookup back.id.display = some pending →
      back.error.isSome = true ∨ ∃ response,
        json.message (Text.trim output) = .ok (.response response) ∧
          pending.responder ∈ found.injectedFor response.id
  settled : ¬ found.GoesOn json branch →
    ∀ id ∈ found.handler.pendingQueries, found.Answers json branch id
  receiver : found.Fails branch → found.queryRx = none

/-! ## One branch -/

theorem conclude_pendingQueries (turn : Turn) :
    (self.conclude turn).handler.pendingQueries =
      turn.handler.pendingQueries := by
  cases hending : turn.ending <;> simp [conclude, hending]

theorem conclude_completions (turn : Turn) :
    (self.conclude turn).handler.completions = turn.handler.completions := by
  cases hending : turn.ending <;> simp [conclude, hending]

theorem ledger_conclude_iff (hledger : self.Ledger) {branch : Branch}
    {turn : Turn} (hturn : self.turn json branch = some turn) :
    (self.conclude turn).Ledger ↔
      ∀ job written clock interceptorDelayMs,
        branch = .query (some job) written clock interceptorDelayMs →
          self.handler.Sends json job written clock →
          uuidText job.correlationId ∉ self.handler.pendingQueries := by
  unfold Ledger at hledger ⊢
  rw [conclude_pendingQueries, conclude_completions]
  change PendingTable.Accounted PendingQuery.responder
    (self.accepted ++ turn.accepted) _ _ ↔ _
  rcases turn_cases hturn with ⟨_, hquery, hcarries⟩ |
    ⟨job, written, clock, interceptorDelayMs, rfl, rfl⟩ |
    ⟨output, clock, hincoming, hcarries⟩
  · rw [hcarries.accepted, hcarries.completions, hcarries.pendingQueries,
      List.append_nil]
    refine iff_of_true hledger ?_
    intro job written clock interceptorDelayMs hbranch
    exact absurd hbranch (hquery job written clock interceptorDelayMs)
  · change PendingTable.Accounted PendingQuery.responder
      (self.accepted ++ [job.responder]) _ _ ↔ _
    obtain ⟨_, ⟨hsends, hpending, completion, _, hcompletions⟩ |
      ⟨hsends, hpending, hcompletions⟩⟩ := self.handler.processTuiQuery_cases
        json job written clock interceptorDelayMs
    · simp only [queryTurn, hpending, hcompletions, List.map_append,
        List.map_singleton]
      refine iff_of_true (hledger.fail job.responder) ?_
      rintro _ _ _ _ ⟨rfl, rfl, rfl, rfl⟩ hsent
      exact absurd hsent hsends
    · simp only [queryTurn, hpending, hcompletions]
      refine Iff.trans (PendingTable.Accounted.insert_iff hledger
        (uuidText job.correlationId)
        ⟨job.responder, clock.instant, some interceptorDelayMs⟩) ?_
      constructor
      · rintro hfresh _ _ _ _ ⟨rfl, rfl, rfl, rfl⟩ _
        exact hfresh
      · intro hfresh
        exact hfresh job written clock interceptorDelayMs rfl hsends
  · have hquery : ∀ job written clock interceptorDelayMs,
        branch ≠ .query (some job) written clock interceptorDelayMs := by
      rintro job written clock interceptorDelayMs rfl
      cases hincoming
    rw [hcarries.accepted, hcarries.completions, hcarries.pendingQueries,
      List.append_nil]
    refine iff_of_true ?_ (fun job written clock interceptorDelayMs hbranch =>
      absurd hbranch (hquery job written clock interceptorDelayMs))
    rw [self.handler.processIncoming_completions json output clock,
      List.map_append]
    rcases self.handler.completedBy_cases json output clock with
      ⟨hnothing, hpending, _⟩ | ⟨back, pending, completion, _, hlookup,
        hcompleted, _, hpending⟩
    · rw [hnothing, hpending, List.map_nil, List.append_nil]
      exact hledger
    · rw [hcompleted, hpending]
      exact hledger.answer hlookup

/-- A completion without a response of the child in the account is kept by
the account exactly when it is a failure. -/
theorem answered_append_iff (hanswered : self.Answered given) {turn : Turn}
    (added : List (Responder × TuiQueryCompletion))
    (hcompletions : turn.handler.completions =
      self.handler.completions ++ added) (hhandled : turn.handled = []) :
    (self.conclude turn).Answered given ↔
      ∀ pair ∈ added, pair.2.error.isSome = true := by
  have hsame : (self.conclude turn).handled = self.handled := by
    change self.handled ++ turn.handled = self.handled
    rw [hhandled, List.append_nil]
  obtain ⟨failures, herrors, hperm⟩ := hanswered.completions
  constructor
  · intro hafter pair hpair
    obtain ⟨others, hothers, hall⟩ := hafter.completions
    rw [conclude_completions, hcompletions, hsame] at hall
    have hgiven := (List.Perm.append_right added hperm).symm.trans hall
    rw [List.append_assoc, List.perm_append_left_iff] at hgiven
    have hfailures := (PendingTable.append_perm_swap _ _ _).symm.trans hgiven
    rw [List.perm_append_right_iff] at hfailures
    exact hothers pair
      (hfailures.subset (List.mem_append_right failures hpair))
  · intro hfailures
    constructor
    · refine ⟨failures ++ added, ?_, ?_⟩
      · intro pair hpair
        rcases List.mem_append.mp hpair with hold | hnew
        · exact herrors pair hold
        · exact hfailures pair hnew
      · rw [conclude_completions, hcompletions, hsame]
        have hgrown := List.Perm.append_right added hperm
        rw [List.append_assoc] at hgrown
        exact hgrown.trans (List.Perm.append_left _
          (PendingTable.append_perm_swap _ _ _))
    · rw [hsame]
      exact hanswered.matching

/-- With a response of the child, it is kept exactly when what this completes
is completed with an error or is what the response is to. -/
theorem answered_entry_iff (hanswered : self.Answered given) {turn : Turn}
    (entry : Handled)
    (hcompletions : turn.handler.completions =
      self.handler.completions ++ entry.completed)
    (hhandled : turn.handled = [entry]) :
    (self.conclude turn).Answered given ↔
      ∀ pair ∈ entry.completed,
        pair.2.error.isSome = true ∨ pair.1 ∈ entry.injectedFor := by
  have hgrown : (self.conclude turn).handled = self.handled ++ [entry] := by
    change self.handled ++ turn.handled = _
    rw [hhandled]
  constructor
  · intro hafter
    apply hafter.matching
    rw [hgrown]
    exact List.mem_append_right _ (List.mem_singleton_self entry)
  · intro hmatching
    obtain ⟨failures, herrors, hperm⟩ := hanswered.completions
    constructor
    · refine ⟨failures, herrors, ?_⟩
      rw [conclude_completions, hcompletions, hgrown, List.flatMap_append,
        List.flatMap_singleton]
      have hall := List.Perm.append_right entry.completed hperm
      rw [List.append_assoc, List.append_assoc] at hall
      exact hall
    · intro other hother
      rw [hgrown] at hother
      rcases List.mem_append.mp hother with hold | hnew
      · exact hanswered.matching other hold
      · rw [List.mem_singleton.mp hnew]
        exact hmatching

/-- What the line completes is kept by the account exactly under the condition
on the response that the interceptors make of it. -/
theorem completedBy_matching_iff (output : String) (clock : Clock)
    (kept : Responder → Prop) :
    (∀ pair ∈ self.handler.completedBy json output clock,
        pair.2.error.isSome = true ∨ kept pair.1) ↔
      ∀ back pending,
        self.handler.heard json output clock = some (.response back) →
        self.handler.pendingQueries.lookup back.id.display = some pending →
        back.error.isSome = true ∨ kept pending.responder := by
  rcases self.handler.completedBy_cases json output clock with
    ⟨hnothing, _, hnone⟩ | ⟨back, pending, completion, hheard, hlookup,
      hcompleted, herror, _⟩
  · rw [hnothing]
    refine iff_of_true (by simp) ?_
    intro back pending hheard hlookup
    rw [hnone back hheard] at hlookup
    cases hlookup
  · rw [hcompleted, List.forall_mem_singleton, herror]
    constructor
    · intro hkept other found hother hfound
      rw [hheard, Option.some.injEq, JsonRpcMessage.response.injEq] at hother
      subst hother
      rw [hlookup, Option.some.injEq] at hfound
      subst hfound
      exact hkept
    · intro hkept
      exact hkept back pending hheard hlookup

theorem answered_conclude_iff (hanswered : self.Answered given)
    {branch : Branch} {turn : Turn}
    (hturn : self.turn json branch = some turn) :
    (self.conclude turn).Answered given ↔
      ∀ output clock back pending,
        self.incoming branch = some (output, clock) →
          self.handler.heard json output clock = some (.response back) →
          self.handler.pendingQueries.lookup back.id.display = some pending →
          back.error.isSome = true ∨ ∃ response,
            json.message (Text.trim output) = .ok (.response response) ∧
              pending.responder ∈ self.injectedFor response.id := by
  rcases turn_cases hturn with ⟨hincoming, _, hcarries⟩ |
    ⟨job, written, clock, interceptorDelayMs, rfl, rfl⟩ |
    ⟨output, clock, hincoming, hcarries⟩
  · rw [answered_append_iff hanswered []
      (by rw [hcarries.completions, List.append_nil]) hcarries.handled]
    exact iff_of_true (by simp) (by simp [hincoming])
  · refine iff_of_true ?_ (by simp [incoming])
    obtain ⟨_, ⟨_, _, completion, herror, hcompletions⟩ |
      ⟨_, _, hcompletions⟩⟩ := self.handler.processTuiQuery_cases
        json job written clock interceptorDelayMs
    · rw [answered_append_iff hanswered _ hcompletions rfl]
      simpa using herror
    · rw [answered_append_iff hanswered []
        (hcompletions.trans (List.append_nil _).symm) rfl]
      simp
  · have hcompletions := hcarries.completions.trans
      (self.handler.processIncoming_completions json output clock)
    have hcondition : (∀ text time back pending,
        self.incoming branch = some (text, time) →
          self.handler.heard json text time = some (.response back) →
          self.handler.pendingQueries.lookup back.id.display = some pending →
          back.error.isSome = true ∨ ∃ response,
            json.message (Text.trim text) = .ok (.response response) ∧
              pending.responder ∈ self.injectedFor response.id) ↔
        ∀ pair ∈ self.handler.completedBy json output clock,
          pair.2.error.isSome = true ∨ ∃ response,
            json.message (Text.trim output) = .ok (.response response) ∧
              pair.1 ∈ self.injectedFor response.id := by
      rw [completedBy_matching_iff output clock (fun responder => ∃ response,
        json.message (Text.trim output) = .ok (.response response) ∧
          responder ∈ self.injectedFor response.id), hincoming]
      simp only [Option.some.injEq, Prod.mk.injEq, and_imp]
      constructor
      · intro hall back pending
        exact hall output clock back pending rfl rfl
      · rintro hall _ _ back pending rfl rfl
        exact hall back pending
    rw [hcondition]
    rcases self.handledLine_eq output clock with ⟨hother, hnone⟩ |
      ⟨response, result, written, hread, hresult, _, hentry⟩
    · rw [answered_append_iff hanswered _ hcompletions
        (hcarries.handled.trans hnone)]
      simp [hother]
    · have hheard : self.handler.heard json output clock =
          some result.message := by
        simp [StdioHandler.heard, hread, hresult, Except.toOption]
      have hcompleted : self.handler.completedBy json output clock =
          captured json.floats clock self.handler result.message := by
        rw [StdioHandler.completedBy, hheard]
        rfl
      rw [answered_entry_iff hanswered _ (by rw [hcompletions, hcompleted])
        (hcarries.handled.trans hentry), hcompleted, hread]
      simp

/-- Nothing waits after the branch exactly when what waited is answered by
it. -/
theorem conclude_pendingQueries_empty_iff {branch : Branch} {turn : Turn}
    (hturn : self.turn json branch = some turn)
    (hgoes : ¬ self.GoesOn json branch) :
    (self.conclude turn).handler.pendingQueries = ∅ ↔
      ∀ id ∈ self.handler.pendingQueries, self.Answers json branch id := by
  rw [conclude_pendingQueries]
  rcases turn_cases hturn with ⟨hincoming, _, hcarries⟩ |
    ⟨job, written, clock, interceptorDelayMs, rfl, rfl⟩ |
    ⟨output, clock, hincoming, hcarries⟩
  · rw [hcarries.pendingQueries, PendingTable.eq_empty_iff]
    simp [Answers, hincoming]
  · exact absurd trivial hgoes
  · rw [hcarries.pendingQueries]
    have hanswers : ∀ id, self.Answers json branch id ↔ ∃ back,
        self.handler.heard json output clock = some (.response back) ∧
          id = back.id.display := by
      intro id
      unfold Answers
      rw [hincoming]
      constructor
      · rintro ⟨_, _, back, hline, hheard, hid⟩
        obtain ⟨rfl, rfl⟩ := Prod.mk.inj (Option.some.inj hline)
        exact ⟨back, hheard, hid⟩
      · rintro ⟨back, hheard, hid⟩
        exact ⟨output, clock, back, rfl, hheard, hid⟩
    simp only [hanswers]
    rcases self.handler.completedBy_cases json output clock with
      ⟨_, hpending, hnone⟩ | ⟨back, _, _, hheard, _, _, _, hpending⟩
    · rw [hpending, PendingTable.eq_empty_iff]
      constructor
      · intro hempty id hmem
        exact absurd hmem (hempty id)
      · intro hall id hmem
        obtain ⟨back, hheard, rfl⟩ := hall id hmem
        exact AList.lookup_eq_none.mp (hnone back hheard) hmem
    · rw [hpending, PendingTable.erase_eq_empty_iff]
      refine forall_congr' (fun id => imp_congr_right (fun _ => ?_))
      constructor
      · intro hid
        exact ⟨back, hheard, hid⟩
      · rintro ⟨other, hother, hid⟩
        rw [hheard, Option.some.injEq, JsonRpcMessage.response.injEq] at hother
        rw [hid, hother]

theorem turn_queryRx {branch : Branch} {turn : Turn}
    (hturn : self.turn json branch = some turn) :
    turn.handler.queryRx = self.handler.queryRx := by
  rcases turn_cases hturn with ⟨_, _, hcarries⟩ |
    ⟨job, written, clock, interceptorDelayMs, _, rfl⟩ |
    ⟨output, clock, _, hcarries⟩
  · exact hcarries.queryRx
  · exact (self.handler.processTuiQuery_cases json job written clock
      interceptorDelayMs).1
  · rw [hcarries.queryRx]
    obtain ⟨_, _, hhandler⟩ :=
      self.handler.processIncoming_handler json output clock
    rw [hhandler]

theorem fails_iff {branch : Branch} {turn : Turn}
    (hturn : self.turn json branch = some turn) :
    (∃ error, turn.ending = .fails error) ↔ self.Fails branch := by
  by_cases hwait : branch = .wait
  · subst hwait
    obtain ⟨status, hexited, rfl⟩ := Option.map_eq_some_iff.mp hturn
    cases hsuccess : status.success with
    | true => simp [waitTurn, hsuccess, Fails, hexited]
    | false => simp [waitTurn, hsuccess, Fails, hexited]
  · by_cases herror : ∃ error, branch = .waitError error
    · obtain ⟨error, rfl⟩ := herror
      rw [Communication.turn, Option.some.injEq] at hturn
      rw [← hturn]
      exact iff_of_true ⟨_, rfl⟩ trivial
    · have hnot := (not_waiting hturn hwait
        (fun error hbranch => herror ⟨error, hbranch⟩)).2
      refine iff_of_false (not_exists.mpr hnot) ?_
      cases branch with
      | wait => exact absurd rfl hwait
      | waitError error => exact absurd ⟨error, rfl⟩ herror
      | shutdown => exact id
      | tick => exact id
      | query job written clock interceptorDelayMs => exact id
      | userLine written clock => exact id
      | stdoutLine written clock => exact id
      | stderrLine => exact id
      | readError stream => exact id

/-- The receiver is back in the handler unless the loop fails. -/
theorem conclude_queryRx_iff {branch : Branch} {turn : Turn}
    (hturn : self.turn json branch = some turn)
    (hgoes : ¬ self.GoesOn json branch)
    (htaken : self.handler.queryRx = none) (hheld : self.queryRx = rx) :
    (self.conclude turn).handler.queryRx = rx ↔
      (self.Fails branch → self.queryRx = none) := by
  rw [← fails_iff hturn]
  cases hending : turn.ending with
  | goesOn => exact absurd ((goesOn_iff hturn).mp hending) hgoes
  | breaks => simp [conclude, hending, hheld]
  | fails error =>
      have hafter : (self.conclude turn).handler.queryRx = none := by
        simp only [conclude, hending]
        rw [turn_queryRx hturn, htaken]
      rw [hafter, hheld]
      constructor
      · intro hnone _
        exact hnone.symm
      · intro hnone
        exact (hnone ⟨error, rfl⟩).symm

/-- While the loop runs, the receiver is held by it. -/
structure Holds (rx : Option QueryReceiver) (found : Communication) :
    Prop where
  taken : found.handler.queryRx = none
  held : found.queryRx = rx

/-- One branch keeps the account, and leaves the handler settled if it leaves
the loop, exactly under the condition. -/
theorem conclude_survives_iff (haccounted : self.Accounted given)
    (hholds : self.Holds rx) {branch : Branch} {turn : Turn}
    (hturn : self.turn json branch = some turn) :
    ((self.conclude turn).Accounted given ∧
        ((self.conclude turn).outcome ≠ none →
          Settled rx (self.conclude turn).handler
            (self.conclude turn).accepted)) ↔
      self.KeepsQueries json branch := by
  have hleaves : (self.conclude turn).outcome ≠ none ↔
      ¬ self.GoesOn json branch := by
    rw [ne_eq, conclude_outcome_eq_none_iff, goesOn_iff hturn]
  have hledger := ledger_conclude_iff haccounted.ledger hturn
  have hanswered := answered_conclude_iff haccounted.answered hturn
  rw [hleaves]
  constructor
  · rintro ⟨hafter, hsettled⟩
    refine ⟨hledger.mp hafter.ledger, hanswered.mp hafter.answered, ?_, ?_⟩
    · intro hgoes
      exact (conclude_pendingQueries_empty_iff hturn hgoes).mp
        (hsettled hgoes).pendingQueries
    · intro hfails
      have hgoes : ¬ self.GoesOn json branch := by
        intro hon
        obtain ⟨error, hending⟩ := (fails_iff hturn).mpr hfails
        rw [(goesOn_iff hturn).mpr hon] at hending
        cases hending
      exact (conclude_queryRx_iff hturn hgoes hholds.taken hholds.held).mp
        (hsettled hgoes).queryRx hfails
  · intro hkeeps
    have hafter := hledger.mpr hkeeps.fresh
    refine ⟨⟨hafter, hanswered.mpr hkeeps.matching⟩, ?_⟩
    intro hgoes
    have hempty := (conclude_pendingQueries_empty_iff hturn hgoes).mpr
      (hkeeps.settled hgoes)
    refine ⟨(conclude_queryRx_iff hturn hgoes hholds.taken hholds.held).mpr
      hkeeps.receiver, hempty, ?_⟩
    unfold Ledger at hafter
    rw [hempty, PendingTable.accounted_empty_iff] at hafter
    exact hafter

end Communication

namespace McpProxy

variable {json : SerdeJson} {self next : McpProxy} {rx : Option QueryReceiver}

/-- Between two children and wherever a communication returns the handler is
settled, and during one its queries are accounted for. -/
structure QueriesSurvive (rx : Option QueryReceiver) (found : McpProxy) :
    Prop where
  between : Settled rx found.handler found.accepted
  during : ∀ communication, found.phase = .communicating communication →
    communication.Accounted found.handler
  returned : ∀ communication, found.phase = .communicating communication →
    communication.outcome ≠ none →
      Settled rx communication.handler communication.accepted

def KeepsQueries (json : SerdeJson) (self : McpProxy) : ProxyAction → Prop
  | .loop (.branch branch) =>
      ∀ communication, self.phase = .communicating communication →
        communication.KeepsQueries json branch
  | _ => True

structure Keeping (rx : Option QueryReceiver) (found : McpProxy) : Prop where
  survive : found.QueriesSurvive rx
  holds : ∀ communication, found.phase = .communicating communication →
    communication.outcome = none → communication.Holds rx

theorem keeping_of_not_communicating
    (hphase : ∀ communication, self.phase ≠ .communicating communication)
    (hsettled : Settled rx self.handler self.accepted) : self.Keeping rx :=
  ⟨⟨hsettled, fun communication hcommunicating =>
      absurd hcommunicating (hphase communication),
    fun communication hcommunicating =>
      absurd hcommunicating (hphase communication)⟩,
    fun communication hcommunicating =>
      absurd hcommunicating (hphase communication)⟩

theorem keeping_communicating {communication : Communication}
    (hphase : self.phase = .communicating communication)
    (hsettled : Settled rx self.handler self.accepted)
    (haccounted : communication.Accounted self.handler)
    (hreturned : communication.outcome ≠ none →
      Settled rx communication.handler communication.accepted)
    (hholds : communication.outcome = none → communication.Holds rx) :
    self.Keeping rx := by
  constructor
  · refine ⟨hsettled, ?_, ?_⟩
    · intro other hother
      rw [hphase, ProxyPhase.communicating.injEq] at hother
      rw [← hother]
      exact haccounted
    · intro other hother
      rw [hphase, ProxyPhase.communicating.injEq] at hother
      rw [← hother]
      exact hreturned
  · intro other hother
    rw [hphase, ProxyPhase.communicating.injEq] at hother
    rw [← hother]
    exact hholds

theorem start_accounted {handler : StdioHandler} {accepted : List Responder}
    (hsettled : Settled rx handler accepted) :
    (Communication.start handler accepted).Accounted handler := by
  refine ⟨?_, ⟨[], by simp, ?_⟩, ?_⟩
  · change PendingTable.Accounted PendingQuery.responder accepted
      (handler.completions.map Prod.fst) handler.pendingQueries
    rw [hsettled.pendingQueries, PendingTable.accounted_empty_iff]
    exact hsettled.completed
  · change handler.completions.Perm (handler.completions ++ ([] ++ []))
    rw [List.append_nil, List.append_nil]
  · intro entry hentry
    exact absurd hentry List.not_mem_nil

theorem accounted_around {given : StdioHandler} {before after : Communication}
    (haccounted : before.Accounted given)
    (haround : Communication.Around before after) : after.Accounted given := by
  obtain ⟨manager, hhandler⟩ := haround.handler
  constructor
  · unfold Communication.Ledger
    rw [haround.accepted, hhandler]
    exact haccounted.ledger
  · obtain ⟨hcompletions, hmatching⟩ := haccounted.answered
    constructor
    · rw [haround.handled, hhandler]
      exact hcompletions
    · rw [haround.handled]
      exact hmatching

/-- A step of the loop under its condition keeps the queries. -/
theorem keeping_loop {inner : Communication.LoopAction}
    {communication reached : Communication} (hkeeping : self.Keeping rx)
    (hphase : self.phase = .communicating communication)
    (hinner : communication.step json inner = some reached)
    (hkeeps : self.KeepsQueries json (.loop inner)) :
    Keeping rx { self with phase := .communicating reached } := by
  have hsettled := hkeeping.survive.between
  have haccounted := hkeeping.survive.during communication hphase
  obtain ⟨hrunning, ⟨event, rfl, hevent⟩ | ⟨branch, turn, rfl, hturn, rfl⟩⟩ :=
    Communication.step_cases hinner
  · have haround := Communication.event_around hevent
    have hholds := hkeeping.holds communication hphase hrunning
    obtain ⟨manager, hhandler⟩ := haround.handler
    refine keeping_communicating rfl hsettled
      (accounted_around haccounted haround) ?_ ?_
    · intro hover
      exact absurd (haround.outcome.trans hrunning) hover
    · intro _
      exact ⟨by rw [hhandler]; exact hholds.taken,
        haround.queryRx.trans hholds.held⟩
  · have hholds := hkeeping.holds communication hphase hrunning
    obtain ⟨hafter, hreturned⟩ := (Communication.conclude_survives_iff
      haccounted hholds hturn).mpr (hkeeps communication hphase)
    refine keeping_communicating rfl hsettled hafter hreturned ?_
    intro hon
    have hgoes := (Communication.conclude_outcome_eq_none_iff turn).mp hon
    constructor
    · simp only [Communication.conclude, hgoes]
      rw [Communication.turn_queryRx hturn]
      exact hholds.taken
    · simp only [Communication.conclude, hgoes]
      exact hholds.held

theorem keepsQueries_loop {inner : Communication.LoopAction}
    {communication reached : Communication} (hkeeping : self.Keeping rx)
    (hphase : self.phase = .communicating communication)
    (hinner : communication.step json inner = some reached)
    (hafter : QueriesSurvive rx
      { self with phase := .communicating reached }) :
    self.KeepsQueries json (.loop inner) := by
  obtain ⟨hrunning, ⟨event, rfl, _⟩ | ⟨branch, turn, rfl, hturn, rfl⟩⟩ :=
    Communication.step_cases hinner
  · trivial
  · intro other hother
    rw [hphase, ProxyPhase.communicating.injEq] at hother
    rw [← hother]
    exact (Communication.conclude_survives_iff
      (hkeeping.survive.during communication hphase)
      (hkeeping.holds communication hphase hrunning) hturn).mp
        ⟨hafter.during _ rfl, hafter.returned _ rfl⟩

/-- The queries survive every restart exactly under the condition. -/
theorem throughout_queriesSurvive_iff (json : SerdeJson) (command : String)
    (useShell : Bool) (stats : ProxyStats)
    (interceptorManager : InterceptorManager) (sessionId : Option String)
    (rx : Option QueryReceiver) (trace : List ProxyAction) :
    (machine json).Throughout (QueriesSurvive rx)
        (new command useShell
          (.withInterceptors stats interceptorManager sessionId rx)) trace ↔
      (machine json).Along (KeepsQueries json)
        (new command useShell
          (.withInterceptors stats interceptorManager sessionId rx))
        trace := by
  have hnew : (new command useShell
      (.withInterceptors stats interceptorManager sessionId rx)).Keeping rx :=
    keeping_of_not_communicating (fun _ => ProxyPhase.noConfusion)
      ⟨rfl, rfl, List.Perm.refl []⟩
  refine StepMachine.throughout_iff_along ?_
    (fun found (hkeeping : Keeping rx found) => hkeeping.survive) ?_
    hnew trace
  · intro before action after hkeeping hstep hkeeps
    have hsettled := hkeeping.survive.between
    rcases step_cases hstep with ⟨spawned, rfl, _, hbetween | rfl⟩ |
      ⟨inner, communication, reached, rfl, hphase, hinner, rfl⟩ |
      ⟨communication, outcome, rfl, hphase, houtcome, rfl⟩
    · apply keeping_of_not_communicating hbetween.phase
      rw [hbetween.handler, hbetween.accepted]
      exact hsettled
    · exact keeping_communicating rfl hsettled (start_accounted hsettled)
        (fun hover => absurd rfl hover) (fun _ => ⟨rfl, hsettled.queryRx⟩)
    · exact keeping_loop hkeeping hphase hinner hkeeps
    · have hbetween := afterCommunication_between
        { before with
          handler := communication.handler
          accepted := communication.accepted } outcome
      apply keeping_of_not_communicating hbetween.phase
      rw [hbetween.handler, hbetween.accepted]
      exact hkeeping.survive.returned communication hphase
        (by rw [houtcome]; simp)
  · intro before action after hkeeping hstep hafter
    rcases step_cases hstep with ⟨spawned, rfl, _, _⟩ |
      ⟨inner, communication, reached, rfl, hphase, hinner, rfl⟩ |
      ⟨communication, outcome, rfl, _, _, _⟩
    · trivial
    · exact keepsQueries_loop hkeeping hphase hinner hafter
    · trivial

/-! ## A query before a crash -/

def crashTraceOf (job : TuiQueryJob) : List ProxyAction :=
  [.spawn (.ok ⟨true, true, true⟩),
    .loop (.branch (.query (some job) .ok StdioHandler.plainClock 0.0)),
    .loop (.event (.exits ⟨false, "ExitStatus(unix_wait_status(256))"⟩)),
    .loop (.branch .wait), .returns]

def monitored : McpProxy :=
  .new "server" false (.withInterceptors {} .new none (some ⟨0⟩))

/-- The child is restarted, but the query waits for ever and no other is taken
up. -/
theorem crashTraceOf_loses :
    ((machine Communication.statusJson).run monitored
        (crashTraceOf Communication.statusJob)).map (fun reached =>
          (reached.restartCount, reached.accepted,
            reached.handler.completions.length,
            reached.handler.pendingQueries.keys.length,
            reached.handler.queryRx)) = some (1, [⟨7⟩], 0, 1, none) ∧
      ¬ (machine Communication.statusJson).Throughout
        (QueriesSurvive (some ⟨0⟩)) monitored
        (crashTraceOf Communication.statusJob) := by
  have hreached : ((machine Communication.statusJson).run monitored
      (crashTraceOf Communication.statusJob)).map (fun reached =>
        (reached.restartCount, reached.accepted,
          reached.handler.completions.length,
          reached.handler.pendingQueries.keys.length,
          reached.handler.queryRx)) = some (1, [⟨7⟩], 0, 1, none) := by
    decide +kernel
  refine ⟨hreached, ?_⟩
  intro hthrough
  obtain ⟨reached, hrun, hvalues⟩ := Option.map_eq_some_iff.mp hreached
  simp only [Prod.mk.injEq] at hvalues
  have hsurvive := hthrough (crashTraceOf Communication.statusJob)
    (List.prefix_refl _) reached hrun
  have hreceiver := hsurvive.between.queryRx
  rw [hvalues.2.2.2.2] at hreceiver
  cases hreceiver

end McpProxy
end Transport
end Acdp
