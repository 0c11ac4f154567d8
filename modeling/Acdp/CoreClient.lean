import Acdp.AuthCapabilities
import Acdp.CoreInterceptor

/-!
# Sending a request with retries

One call of the client makes up to `max_retries + 1` attempts.  An attempt
passes the request through the interceptors, hands it to the transport and
passes the answer through the interceptors; the loop around it sees only
whether the attempt ended in an error.  What happens is recorded as a list of
events, and what each attempt meets, the interceptors and the transport
included, may differ from attempt to attempt.
-/

namespace Acdp
namespace Core

open Json
open Auth (DateTime Duration)

/-- `Duration * u32`, which panics on overflow. -/
def multiplyDuration (duration : Duration) (factor : UInt32) :
    Option Duration :=
  let nanos := duration.nanos * factor.toNat
  let secs := duration.secs.toNat * factor.toNat + nanos / 1000000000
  if secs < 2 ^ 64 then
    some ⟨UInt64.ofNat secs, nanos % 1000000000,
      Nat.mod_lt nanos (by decide)⟩
  else none

/-- `2_u32.pow(attempt)`, which panics on overflow in a build with overflow
checks and wraps to zero in one without. -/
def twoPow (overflowChecks : Bool) (attempt : ℕ) : Option UInt32 :=
  if attempt < 32 then some (UInt32.ofNat (2 ^ attempt))
  else if overflowChecks then none
  else some 0

inductive ClientState where
  | disconnected
  | connecting
  | initializing
  | ready
  | error (reason : String)
  deriving DecidableEq, Repr

structure ClientConfig where
  requestTimeout : Duration
  maxRetries : UInt32
  retryBaseDelay : Duration

structure ClientStats where
  requestsSent : UInt64 := 0
  errors : UInt64 := 0
  retries : UInt64 := 0

structure McpClient where
  config : ClientConfig
  state : ClientState
  stats : ClientStats
  requestCounter : UInt64
  sessionId : Option String

/-- What one attempt meets: the interceptors with the time of their calls and
the transport. -/
structure Attempt where
  outgoing : InterceptorManager
  outgoingAt : DateTime
  outgoingMillis : ℕ
  transport : JsonRpcRequest → Duration → McpResult JsonRpcResponse
  incoming : InterceptorManager
  incomingAt : DateTime
  incomingMillis : ℕ

inductive Event where
  | intercepted (message : JsonRpcMessage) (direction : MessageDirection)
      (result : McpResult InterceptionResult)
  | transmitted (request : JsonRpcRequest) (answer : McpResult JsonRpcResponse)
  | slept (delay : Duration)

namespace McpClient

def interceptionMetadata (self : McpClient) : InterceptionMetadata :=
  match self.sessionId with
  | some session => { sessionId := some session }
  | none => {}

structure Sent where
  result : McpResult JsonRpcResponse
  events : List Event

def Sent.answered (self : Sent) : Bool :=
  self.events.any (fun event =>
    match event with
    | .transmitted _ (.ok _) => true
    | _ => false)

/-- What is sent in place of the request, and returned in place of the
answer: the interceptors' message unless it is of another kind. -/
def finalRequest (interception : InterceptionResult)
    (request : JsonRpcRequest) : JsonRpcRequest :=
  match interception.message with
  | .request req => req
  | _ => request

def finalResponse (interception : InterceptionResult)
    (response : JsonRpcResponse) : JsonRpcResponse :=
  match interception.message with
  | .response resp => resp
  | _ => response

def interceptOutgoing (metadata : InterceptionMetadata) (attempt : Attempt)
    (request : JsonRpcRequest) : McpResult InterceptionResult :=
  (attempt.outgoing.processMessageWithMetadata (.request request) .outgoing
    metadata attempt.outgoingAt attempt.outgoingMillis).result

def interceptIncoming (metadata : InterceptionMetadata) (attempt : Attempt)
    (response : JsonRpcResponse) : McpResult InterceptionResult :=
  (attempt.incoming.processMessageWithMetadata (.response response) .incoming
    metadata attempt.incomingAt attempt.incomingMillis).result

def receive (metadata : InterceptionMetadata) (attempt : Attempt)
    (response : JsonRpcResponse) : Sent :=
  let incoming := interceptIncoming metadata attempt response
  let event := Event.intercepted (.response response) .incoming incoming
  match incoming with
  | .error e => ⟨.error e, [event]⟩
  | .ok interception =>
      if interception.block then
        ⟨.error (.protocol (.responseBlocked
          (interception.reasoning.getD "Response blocked by interceptor"))),
          [event]⟩
      else ⟨.ok (finalResponse interception response), [event]⟩

def sendSingleRequest (metadata : InterceptionMetadata) (attempt : Attempt)
    (request : JsonRpcRequest) (timeout : Duration) : Sent :=
  let outgoing := interceptOutgoing metadata attempt request
  let event := Event.intercepted (.request request) .outgoing outgoing
  match outgoing with
  | .error e => ⟨.error e, [event]⟩
  | .ok interception =>
      if interception.block then
        ⟨.error (.protocol (.requestBlocked
          (interception.reasoning.getD "Request blocked by interceptor"))),
          [event]⟩
      else
        let final := finalRequest interception request
        match attempt.transport final timeout with
        | .error e => ⟨.error e, [event, .transmitted final (.error e)]⟩
        | .ok response =>
            let received := receive metadata attempt response
            { received with
              events := event :: .transmitted final (.ok response) ::
                received.events }

structure Finished where
  result : Option (McpResult JsonRpcResponse)
  stats : ClientStats
  events : List Event

/-- A call, in a build with or without overflow checks, whose log shows the
messages for debugging or not. -/
structure Call where
  overflowChecks : Bool
  config : ClientConfig
  metadata : InterceptionMetadata
  attempts : ℕ → Attempt
  request : JsonRpcRequest
  timeout : Duration
  debugLogged : Bool := false

namespace Call

def sent (call : Call) (attempt : ℕ) : Sent :=
  sendSingleRequest call.metadata (call.attempts attempt) call.request
    call.timeout

/-- `max_retries + 1` is computed for the log only, and panics there. -/
def countPanics (call : Call) : Bool :=
  call.debugLogged && call.overflowChecks &&
    call.config.maxRetries == 0xFFFFFFFF

def retryDelay (call : Call) (attempt : ℕ) : Option Duration :=
  if call.countPanics then none
  else
    (twoPow call.overflowChecks attempt).bind
      (multiplyDuration call.config.retryBaseDelay)

/-- The loop from the given attempt on, with the number of retries left. -/
def retry (call : Call) : ℕ → ℕ → ClientStats → Finished
  | remaining, attempt, stats =>
      let sent := call.sent attempt
      let stats :=
        if sent.answered then
          { stats with requestsSent := stats.requestsSent + 1 }
        else stats
      match sent.result with
      | .ok response =>
          { result := some (.ok response)
            stats := { stats with
              retries := stats.retries + UInt64.ofNat attempt }
            events := sent.events }
      | .error e =>
          match remaining with
          | 0 =>
              { result := some (.error e)
                stats := { stats with errors := stats.errors + 1 }
                events := sent.events }
          | remaining + 1 =>
              match call.retryDelay attempt with
              | none => ⟨none, stats, sent.events⟩
              | some delay =>
                  let later := call.retry remaining (attempt + 1) stats
                  { later with
                    events := sent.events ++ .slept delay :: later.events }

end Call

def sendRequestWithRetries (overflowChecks : Bool) (self : McpClient)
    (attempts : ℕ → Attempt) (request : JsonRpcRequest) (timeout : Duration)
    (debugLogged : Bool := false) : Finished :=
  let call : Call := ⟨overflowChecks, self.config, self.interceptionMetadata,
    attempts, request, timeout, debugLogged⟩
  call.retry self.config.maxRetries.toNat 0 self.stats

/-- `send_request`, where `params` is the outcome of `serde_json::to_value`
on the caller's parameters. -/
def sendRequest (overflowChecks : Bool) (self : McpClient)
    (attempts : ℕ → Attempt) (method : String)
    (params : Except String OrderedValue) : Finished × McpClient :=
  if self.state = .ready then
    let id := "req_" ++ toString self.requestCounter.toNat
    let counted := { self with requestCounter := self.requestCounter + 1 }
    match params with
    | .error e => (⟨some (.error (.serialization e)), self.stats, []⟩, counted)
    | .ok params =>
        let finished := counted.sendRequestWithRetries overflowChecks attempts
          (.new (.string id) method params) self.config.requestTimeout
        (finished, { counted with stats := finished.stats })
  else
    (⟨some (.error (.protocol (.notInitialized
      "Client not ready for requests"))), self.stats, []⟩, self)

end McpClient

/-! ## What may follow what -/

namespace Event

def answers : Event → Bool
  | .transmitted _ (.ok _) => true
  | _ => false

def transmits : Event → Bool
  | .transmitted _ _ => true
  | _ => false

def refuses : Event → Bool
  | .intercepted _ .outgoing (.ok interception) => interception.block
  | _ => false

def belongsToAttempt : Event → Bool
  | .slept _ => false
  | _ => true

/-- Nothing is transmitted after an answer, and no attempt is made after the
request has been blocked. -/
def MayPrecede (earlier later : Event) : Prop :=
  (earlier.answers = true → later.transmits = false) ∧
    (earlier.refuses = true → later.belongsToAttempt = false)

theorem mayPrecede_slept (earlier : Event) (delay : Duration) :
    earlier.MayPrecede (.slept delay) := by
  constructor
  · intro _
    rfl
  · intro _
    rfl

theorem mayPrecede_of_neither {earlier : Event} (later : Event)
    (hanswers : earlier.answers = false) (hrefuses : earlier.refuses = false) :
    earlier.MayPrecede later := by
  constructor
  · simp [hanswers]
  · simp [hrefuses]

theorem transmits_of_answers {event : Event}
    (hanswers : event.answers = true) : event.transmits = true := by
  cases event with
  | transmitted request answer => rfl
  | intercepted message direction result => simp [answers] at hanswers
  | slept delay => simp [answers] at hanswers

theorem length_filter_answers_le_one {events : List Event}
    (hpairwise : events.Pairwise MayPrecede) :
    (events.filter answers).length ≤ 1 := by
  have hfiltered : (events.filter answers).Pairwise MayPrecede :=
    hpairwise.filter answers
  have hanswers : ∀ event ∈ events.filter answers, event.answers = true := by
    intro event hevent
    exact (List.mem_filter.mp hevent).2
  cases hlist : events.filter answers with
  | nil => simp
  | cons first rest =>
      cases rest with
      | nil => simp
      | cons second rest =>
          rw [hlist] at hfiltered hanswers
          have hprecede := (List.pairwise_cons.mp hfiltered).1 second
            List.mem_cons_self
          have hfirst := hanswers first List.mem_cons_self
          have hsecond := hanswers second
            (List.mem_cons_of_mem _ List.mem_cons_self)
          have hsilent := hprecede.1 hfirst
          rw [transmits_of_answers hsecond] at hsilent
          exact Bool.noConfusion hsilent

end Event

namespace McpClient

namespace Call

variable (call : Call)

/-! ## One attempt

The interceptors block the request, the transport returns an error, or the
interceptors block the answer. -/

def Refused (attempt : ℕ) : Prop :=
  ∃ interception,
    interceptOutgoing call.metadata (call.attempts attempt) call.request =
      .ok interception ∧ interception.block = true

def Unanswered (attempt : ℕ) : Prop :=
  ∃ outgoing e,
    interceptOutgoing call.metadata (call.attempts attempt) call.request =
        .ok outgoing ∧
      outgoing.block = false ∧
      (call.attempts attempt).transport (finalRequest outgoing call.request)
        call.timeout = .error e

def Withheld (attempt : ℕ) : Prop :=
  ∃ outgoing response incoming,
    interceptOutgoing call.metadata (call.attempts attempt) call.request =
        .ok outgoing ∧
      outgoing.block = false ∧
      (call.attempts attempt).transport (finalRequest outgoing call.request)
        call.timeout = .ok response ∧
      interceptIncoming call.metadata (call.attempts attempt) response =
        .ok incoming ∧
      incoming.block = true

def Failed (attempt : ℕ) : Prop :=
  call.Refused attempt ∨ call.Unanswered attempt ∨ call.Withheld attempt

structure AttemptSpec (attempt : ℕ) : Prop where
  pairwise : (call.sent attempt).events.Pairwise Event.MayPrecede
  belongs : ∃ event ∈ (call.sent attempt).events,
    event.belongsToAttempt = true
  refused : call.Refused attempt ↔
    ∃ event ∈ (call.sent attempt).events, event.refuses = true
  transmitted : ¬ call.Refused attempt ↔
    ∃ event ∈ (call.sent attempt).events, event.transmits = true
  failed : call.Failed attempt ↔
    ∃ e, (call.sent attempt).result = .error e
  withheld : call.Failed attempt →
    (call.Withheld attempt ↔
      ∃ event ∈ (call.sent attempt).events, event.answers = true)

section Attempt

variable {call} {attempt : ℕ} {outgoing : InterceptionResult}
  (houtgoing : interceptOutgoing call.metadata (call.attempts attempt)
    call.request = .ok outgoing)

include houtgoing

theorem refused_iff : call.Refused attempt ↔ outgoing.block = true := by
  simp [Refused, houtgoing]

theorem sent_of_refused (hblock : outgoing.block = true) :
    ∃ e, call.sent attempt =
      ⟨.error e, [.intercepted (.request call.request) .outgoing
        (.ok outgoing)]⟩ := by
  simp [sent, sendSingleRequest, houtgoing, hblock]

theorem sent_of_unanswered (hpassed : outgoing.block = false) {e : McpError}
    (htransport : (call.attempts attempt).transport
      (finalRequest outgoing call.request) call.timeout = .error e) :
    call.sent attempt =
      ⟨.error e, [.intercepted (.request call.request) .outgoing
          (.ok outgoing),
        .transmitted (finalRequest outgoing call.request) (.error e)]⟩ := by
  simp [sent, sendSingleRequest, houtgoing, hpassed, htransport]

theorem sent_of_answered (hpassed : outgoing.block = false)
    {response : JsonRpcResponse} {incoming : InterceptionResult}
    (htransport : (call.attempts attempt).transport
      (finalRequest outgoing call.request) call.timeout = .ok response)
    (hincoming : interceptIncoming call.metadata (call.attempts attempt)
      response = .ok incoming) :
    ∃ result, call.sent attempt =
        ⟨result, [.intercepted (.request call.request) .outgoing
            (.ok outgoing),
          .transmitted (finalRequest outgoing call.request) (.ok response),
          .intercepted (.response response) .incoming (.ok incoming)]⟩ ∧
      (call.Withheld attempt ↔ ∃ e, result = .error e) := by
  by_cases hwithheld : incoming.block = true
  · simp [sent, sendSingleRequest, receive, Withheld, houtgoing, hpassed,
      htransport, hincoming, hwithheld]
  · simp [sent, sendSingleRequest, receive, Withheld, houtgoing, hpassed,
      htransport, hincoming, hwithheld]

theorem unanswered_iff (hpassed : outgoing.block = false) :
    call.Unanswered attempt ↔ ∃ e, (call.attempts attempt).transport
      (finalRequest outgoing call.request) call.timeout = .error e := by
  simp [Unanswered, houtgoing, hpassed]

theorem not_withheld_of_refused (hblock : outgoing.block = true) :
    ¬ call.Withheld attempt := by
  rintro ⟨passed, response, incoming, hpassed, hblocked, _⟩
  rw [houtgoing, Except.ok.injEq] at hpassed
  rw [← hpassed, hblock] at hblocked
  exact Bool.noConfusion hblocked

theorem not_withheld_of_unanswered {e : McpError}
    (htransport : (call.attempts attempt).transport
      (finalRequest outgoing call.request) call.timeout = .error e) :
    ¬ call.Withheld attempt := by
  rintro ⟨passed, response, incoming, hpassed, _, hanswered, _⟩
  rw [houtgoing, Except.ok.injEq] at hpassed
  rw [← hpassed, htransport] at hanswered
  simp at hanswered

end Attempt

theorem attemptSpec (attempt : ℕ) : call.AttemptSpec attempt := by
  obtain ⟨outgoing, houtgoing⟩ : ∃ outgoing,
      interceptOutgoing call.metadata (call.attempts attempt) call.request =
        .ok outgoing :=
    (call.attempts attempt).outgoing.processMessage_isOk _ _ _ _ _
  have hrefused := refused_iff houtgoing
  cases hblock : outgoing.block with
  | true =>
      obtain ⟨e, hsent⟩ := sent_of_refused houtgoing hblock
      have hwithheld := not_withheld_of_refused houtgoing hblock
      constructor
      all_goals
        simp [hsent, Failed, hrefused, hwithheld, hblock, Event.refuses,
          Event.transmits, Event.answers, Event.belongsToAttempt]
  | false =>
      cases htransport : (call.attempts attempt).transport
          (finalRequest outgoing call.request) call.timeout with
      | error e =>
          have hsent := sent_of_unanswered houtgoing hblock htransport
          have hwithheld := not_withheld_of_unanswered houtgoing htransport
          have hunanswered := unanswered_iff houtgoing hblock
          constructor
          all_goals
            simp [hsent, Failed, hrefused, hunanswered, htransport, hwithheld,
              hblock, Event.MayPrecede,
              Event.refuses, Event.transmits, Event.answers,
              Event.belongsToAttempt]
      | ok response =>
          obtain ⟨incoming, hincoming⟩ : ∃ incoming,
              interceptIncoming call.metadata (call.attempts attempt)
                response = .ok incoming :=
            (call.attempts attempt).incoming.processMessage_isOk _ _ _ _ _
          obtain ⟨result, hsent, hwithheld⟩ :=
            sent_of_answered houtgoing hblock htransport hincoming
          have hunanswered := unanswered_iff houtgoing hblock
          have hfailed : call.Failed attempt ↔ call.Withheld attempt := by
            simp [Failed, hrefused, hunanswered, hblock, htransport]
          constructor
          case failed => rw [hfailed, hwithheld, hsent]
          case withheld =>
            intro hfails
            simp [hsent, hfailed.mp hfails, Event.answers]
          all_goals
            simp [hsent, hrefused, hblock, Event.MayPrecede, Event.refuses,
              Event.transmits, Event.answers, Event.belongsToAttempt]

/-! ## The loop -/

/-- The attempt fails and the delay after it can be computed, so that the
loop goes on if retries are left. -/
def Continues (attempt : ℕ) : Prop :=
  call.Failed attempt ∧ (call.retryDelay attempt).isSome = true

theorem retry_events_last {remaining attempt : ℕ} (stats : ClientStats)
    (hlast : remaining = 0 ∨ ¬ call.Continues attempt) :
    (call.retry remaining attempt stats).events =
      (call.sent attempt).events := by
  rw [retry]
  cases hresult : (call.sent attempt).result with
  | ok response => rfl
  | error e =>
      cases remaining with
      | zero => rfl
      | succ remaining =>
          cases hdelay : call.retryDelay attempt with
          | none => rfl
          | some delay =>
              rcases hlast with hzero | hstops
              · omega
              · have hfailed : call.Failed attempt :=
                  (call.attemptSpec attempt).failed.mpr ⟨e, hresult⟩
                exact absurd ⟨hfailed, by rw [hdelay]; rfl⟩ hstops

theorem retry_events_next (remaining : ℕ) {attempt : ℕ} (stats : ClientStats)
    (hcontinues : call.Continues attempt) :
    ∃ delay later, (call.retry (remaining + 1) attempt stats).events =
      (call.sent attempt).events ++
        .slept delay :: (call.retry remaining (attempt + 1) later).events := by
  obtain ⟨hfailed, hsome⟩ := hcontinues
  obtain ⟨e, hresult⟩ := (call.attemptSpec attempt).failed.mp hfailed
  obtain ⟨delay, hdelay⟩ := Option.isSome_iff_exists.mp hsome
  rw [retry]
  simp only [hresult, hdelay]
  exact ⟨_, _, rfl⟩

theorem mem_retry_events {remaining attempt : ℕ} {event : Event}
    (hevent : event ∈ (call.sent attempt).events) (stats : ClientStats) :
    event ∈ (call.retry remaining attempt stats).events := by
  by_cases hlast : remaining = 0 ∨ ¬ call.Continues attempt
  · rw [call.retry_events_last stats hlast]
    exact hevent
  · push Not at hlast
    obtain ⟨remaining, rfl⟩ := Nat.exists_eq_succ_of_ne_zero hlast.1
    obtain ⟨delay, later, hevents⟩ :=
      call.retry_events_next remaining stats hlast.2
    rw [Nat.succ_eq_add_one, hevents]
    exact List.mem_append_left _ hevent

/-- An attempt that is followed by another one was not blocked; and if its
answer was, the next one is. -/
def SafeFrom (remaining attempt : ℕ) : Prop :=
  ∀ k < remaining, (∀ j ≤ k, call.Continues (attempt + j)) →
    ¬ call.Refused (attempt + k) ∧
      (call.Withheld (attempt + k) → call.Refused (attempt + k + 1))

theorem safeFrom_succ_iff (remaining attempt : ℕ) :
    call.SafeFrom (remaining + 1) attempt ↔
      (call.Continues attempt →
        (¬ call.Refused attempt ∧
          (call.Withheld attempt → call.Refused (attempt + 1))) ∧
        call.SafeFrom remaining (attempt + 1)) := by
  constructor
  · intro hsafe hcontinues
    constructor
    · apply hsafe 0 (Nat.succ_pos remaining)
      intro j hj
      rw [Nat.le_zero.mp hj]
      exact hcontinues
    · intro k hk hmade
      have hshift : ∀ j, attempt + 1 + j = attempt + (j + 1) := by
        intro j
        omega
      rw [hshift k]
      apply hsafe (k + 1) (Nat.succ_lt_succ hk)
      intro j hj
      cases j with
      | zero => exact hcontinues
      | succ j =>
          rw [← hshift]
          exact hmade j (Nat.succ_le_succ_iff.mp hj)
  · intro hsafe k hk hmade
    obtain ⟨hfirst, hlater⟩ := hsafe (hmade 0 (Nat.zero_le k))
    cases k with
    | zero => exact hfirst
    | succ k =>
        have hshift : ∀ j, attempt + (j + 1) = attempt + 1 + j := by
          intro j
          omega
        rw [hshift k]
        apply hlater k (Nat.succ_lt_succ_iff.mp hk)
        intro j hj
        rw [← hshift]
        exact hmade (j + 1) (Nat.succ_le_succ hj)

theorem refused_iff_of_safeFrom {remaining attempt : ℕ}
    (hsafe : call.SafeFrom remaining attempt) (stats : ClientStats) :
    call.Refused attempt ↔
      ∀ event ∈ (call.retry remaining attempt stats).events,
        event.transmits = false := by
  have hspec := call.attemptSpec attempt
  constructor
  · intro hrefused event hevent
    have hlast : remaining = 0 ∨ ¬ call.Continues attempt := by
      cases remaining with
      | zero => exact Or.inl rfl
      | succ remaining =>
          right
          intro hcontinues
          have hnext := (call.safeFrom_succ_iff remaining attempt).mp hsafe
          exact (hnext hcontinues).1.1 hrefused
    rw [call.retry_events_last stats hlast] at hevent
    rw [← Bool.not_eq_true]
    intro htransmits
    exact hspec.transmitted.mpr ⟨event, hevent, htransmits⟩ hrefused
  · intro hnothing
    by_contra hpassed
    obtain ⟨event, hevent, htransmits⟩ := hspec.transmitted.mp hpassed
    have hfalse := hnothing event (call.mem_retry_events hevent stats)
    rw [htransmits] at hfalse
    exact Bool.noConfusion hfalse

theorem events_mayPrecede_iff {remaining attempt : ℕ}
    (hcontinues : call.Continues attempt)
    (hsafe : call.SafeFrom remaining (attempt + 1)) (stats : ClientStats) :
    (∀ earlier ∈ (call.sent attempt).events,
        ∀ later ∈ (call.retry remaining (attempt + 1) stats).events,
          earlier.MayPrecede later) ↔
      ¬ call.Refused attempt ∧
        (call.Withheld attempt → call.Refused (attempt + 1)) := by
  have hspec := call.attemptSpec attempt
  have hwithheld := hspec.withheld hcontinues.1
  have hsilent := call.refused_iff_of_safeFrom hsafe stats
  constructor
  · intro hprecede
    constructor
    · intro hrefused
      obtain ⟨earlier, hearlier, hrefuses⟩ := hspec.refused.mp hrefused
      obtain ⟨later, hlater, hbelongs⟩ :=
        (call.attemptSpec (attempt + 1)).belongs
      have hnot := (hprecede earlier hearlier later
        (call.mem_retry_events hlater stats)).2 hrefuses
      rw [hbelongs] at hnot
      exact Bool.noConfusion hnot
    · intro hanswered
      obtain ⟨earlier, hearlier, hanswers⟩ := hwithheld.mp hanswered
      apply hsilent.mpr
      intro later hlater
      exact (hprecede earlier hearlier later hlater).1 hanswers
  · rintro ⟨hpassed, hnext⟩ earlier hearlier later hlater
    constructor
    · intro hanswers
      exact hsilent.mp (hnext (hwithheld.mpr ⟨earlier, hearlier, hanswers⟩))
        later hlater
    · intro hrefuses
      exact absurd (hspec.refused.mpr ⟨earlier, hearlier, hrefuses⟩) hpassed

theorem retry_pairwise_iff (remaining : ℕ) :
    ∀ (attempt : ℕ) (stats : ClientStats),
      (call.retry remaining attempt stats).events.Pairwise Event.MayPrecede ↔
        call.SafeFrom remaining attempt := by
  induction remaining with
  | zero =>
      intro attempt stats
      rw [call.retry_events_last stats (Or.inl rfl)]
      constructor
      · intro _ k hk
        omega
      · intro _
        exact (call.attemptSpec attempt).pairwise
  | succ remaining ih =>
      intro attempt stats
      have hspec := call.attemptSpec attempt
      rw [safeFrom_succ_iff]
      by_cases hcontinues : call.Continues attempt
      · obtain ⟨delay, later, hevents⟩ :=
          call.retry_events_next remaining stats hcontinues
        rw [hevents, List.pairwise_append, List.pairwise_cons,
          ih (attempt + 1) later]
        constructor
        · rintro ⟨_, ⟨_, hsafe⟩, hprecede⟩ _
          refine ⟨?_, hsafe⟩
          apply (call.events_mayPrecede_iff hcontinues hsafe later).mp
          intro earlier hearlier event hevent
          exact hprecede earlier hearlier event
            (List.mem_cons_of_mem _ hevent)
        · intro hboth
          obtain ⟨hattempt, hsafe⟩ := hboth hcontinues
          have hprecede :=
            (call.events_mayPrecede_iff hcontinues hsafe later).mpr hattempt
          refine ⟨hspec.pairwise, ⟨?_, hsafe⟩, ?_⟩
          · intro event _
            exact Event.mayPrecede_of_neither event rfl rfl
          · intro earlier hearlier event hevent
            rcases List.mem_cons.mp hevent with hslept | hlater
            · rw [hslept]
              exact Event.mayPrecede_slept earlier delay
            · exact hprecede earlier hearlier event hlater
      · rw [call.retry_events_last stats (Or.inr hcontinues)]
        constructor
        · intro _ hyes
          exact absurd hyes hcontinues
        · intro _
          exact hspec.pairwise

end Call

def callFor (overflowChecks : Bool) (self : McpClient)
    (attempts : ℕ → Attempt) (method : String) (params : OrderedValue) :
    Call where
  overflowChecks := overflowChecks
  config := self.config
  metadata := self.interceptionMetadata
  attempts := attempts
  request := .new (.string ("req_" ++ toString self.requestCounter.toNat))
    method params
  timeout := self.config.requestTimeout

/-- Nothing is transmitted after an answer and no attempt follows a blocked
one exactly when the call does not get to the attempts at all or makes them
safely. -/
theorem sendRequest_atMostOnce_iff (overflowChecks : Bool)
    (client : McpClient) (attempts : ℕ → Attempt) (method : String)
    (params : Except String OrderedValue) :
    (client.sendRequest overflowChecks attempts method
        params).1.events.Pairwise Event.MayPrecede ↔
      (client.state = .ready → ∀ value, params = .ok value →
        (client.callFor overflowChecks attempts method value).SafeFrom
          client.config.maxRetries.toNat 0) := by
  unfold sendRequest
  by_cases hready : client.state = .ready
  · rw [if_pos hready]
    cases params with
    | error e => simp
    | ok value =>
        have hcall := (client.callFor overflowChecks attempts method
          value).retry_pairwise_iff client.config.maxRetries.toNat 0
          client.stats
        simp only [Except.ok.injEq, forall_eq', hready, true_implies]
        exact hcall
  · rw [if_neg hready]
    simp [hready]

/-! ## A tool called twice -/

def answeredAndBlocked : Attempt where
  outgoing := .new
  outgoingAt := Auth.smallInstant
  outgoingMillis := 0
  transport request _ := .ok (.success request.id ⟨.null, .null⟩)
  incoming :=
    { interceptors :=
        [{ name := "censor"
           shouldIntercept := fun _ => true
           intercept := fun _ => .ok (.blocked "withheld") }]
      stats := {} }
  incomingAt := Auth.smallInstant
  incomingMillis := 0

def retryingClient : McpClient where
  config := ⟨Duration.fromSecs 30, 1, Duration.fromSecs 1⟩
  state := .ready
  stats := {}
  requestCounter := 0
  sessionId := none

/-- One call, two answers: the request is transmitted again after its first
answer has been blocked. -/
theorem retryingClient_transmits_twice :
    let finished := (retryingClient.sendRequest true
      (fun _ => answeredAndBlocked) "tools/call" (.ok ⟨.null, .null⟩)).1
    (finished.events.filter Event.answers).length = 2 ∧
      ¬ finished.events.Pairwise Event.MayPrecede := by
  intro finished
  have htwice : (finished.events.filter Event.answers).length = 2 := by
    decide +kernel
  refine ⟨htwice, ?_⟩
  intro hpairwise
  have honce := Event.length_filter_answers_le_one hpairwise
  omega

end McpClient

end Core
end Acdp
