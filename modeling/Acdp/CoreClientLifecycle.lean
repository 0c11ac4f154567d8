import Acdp.CoreClient
import Acdp.StepMachine

/-!
# The states of a client between its calls

Connecting passes through several stages that write the state of the client
and the server information separately, and each may return early.  A client
is left in a state in which a caller may find it exactly when no attempt to
connect fails after the transport has connected, and none fails on a client
that was ready.
-/

namespace Acdp
namespace Core

open Json
open Auth (Duration)

/-! ## The loop of attempts -/

namespace McpClient.Call

variable (call : Call)

/-- The transport answers the attempt, and the interceptors make this response
of the answer. -/
def Answered (attempt : ℕ) (response : JsonRpcResponse) : Prop :=
  ∃ outgoing answer incoming,
    interceptOutgoing call.metadata (call.attempts attempt) call.request =
        .ok outgoing ∧
      outgoing.block = false ∧
      (call.attempts attempt).transport (finalRequest outgoing call.request)
        call.timeout = .ok answer ∧
      interceptIncoming call.metadata (call.attempts attempt) answer =
        .ok incoming ∧
      incoming.block = false ∧ finalResponse incoming answer = response

theorem sent_ok_iff (attempt : ℕ) (response : JsonRpcResponse) :
    (call.sent attempt).result = .ok response ↔
      call.Answered attempt response := by
  unfold sent sendSingleRequest Answered
  cases houtgoing : interceptOutgoing call.metadata (call.attempts attempt)
      call.request with
  | error e => simp
  | ok outgoing =>
      by_cases hrefused : outgoing.block = true
      · simp [hrefused]
      · cases htransport : (call.attempts attempt).transport
            (finalRequest outgoing call.request) call.timeout with
        | error e => simp [hrefused, htransport]
        | ok answer =>
            cases hincoming : interceptIncoming call.metadata
                (call.attempts attempt) answer with
            | error e => simp [hrefused, htransport, receive, hincoming]
            | ok incoming =>
                by_cases hwithheld : incoming.block = true
                · simp [hrefused, htransport, receive, hincoming, hwithheld]
                · simp [hrefused, htransport, receive, hincoming, hwithheld]

/-- Some attempt, all before it having failed, has this answer. -/
def AnsweredWith (remaining attempt : ℕ) (response : JsonRpcResponse) : Prop :=
  ∃ k ≤ remaining, (∀ j < k, call.Continues (attempt + j)) ∧
    call.Answered (attempt + k) response

theorem answeredWith_zero_iff (attempt : ℕ) (response : JsonRpcResponse) :
    call.AnsweredWith 0 attempt response ↔
      call.Answered attempt response := by
  constructor
  · rintro ⟨k, hk, _, hanswer⟩
    rw [Nat.le_zero.mp hk] at hanswer
    exact hanswer
  · intro hanswer
    exact ⟨0, Nat.le_refl 0, by simp, hanswer⟩

theorem answeredWith_succ_iff (remaining attempt : ℕ)
    (response : JsonRpcResponse) :
    call.AnsweredWith (remaining + 1) attempt response ↔
      call.Answered attempt response ∨
        (call.Continues attempt ∧
          call.AnsweredWith remaining (attempt + 1) response) := by
  have hshift : ∀ j, attempt + (j + 1) = attempt + 1 + j := by
    intro j
    omega
  constructor
  · rintro ⟨k, hk, hcontinues, hanswer⟩
    cases k with
    | zero => exact Or.inl hanswer
    | succ k =>
        right
        refine ⟨hcontinues 0 (Nat.succ_pos k), k, by omega, ?_, ?_⟩
        · intro j hj
          rw [← hshift]
          exact hcontinues (j + 1) (by omega)
        · rw [← hshift]
          exact hanswer
  · rintro (hanswer | ⟨hfirst, k, hk, hcontinues, hanswer⟩)
    · exact ⟨0, Nat.zero_le _, by simp, hanswer⟩
    · refine ⟨k + 1, by omega, ?_, ?_⟩
      · intro j hj
        cases j with
        | zero => exact hfirst
        | succ j =>
            rw [hshift]
            exact hcontinues j (by omega)
      · rw [hshift]
        exact hanswer

theorem retry_ok_iff (remaining : ℕ) (response : JsonRpcResponse) :
    ∀ (attempt : ℕ) (stats : ClientStats),
      (call.retry remaining attempt stats).result = some (.ok response) ↔
        call.AnsweredWith remaining attempt response := by
  induction remaining with
  | zero =>
      intro attempt stats
      rw [answeredWith_zero_iff, ← sent_ok_iff, retry]
      cases hresult : (call.sent attempt).result with
      | ok answer => simp
      | error e => simp
  | succ remaining ih =>
      intro attempt stats
      have hfailed := (call.attemptSpec attempt).failed
      rw [answeredWith_succ_iff, ← sent_ok_iff, retry]
      cases hresult : (call.sent attempt).result with
      | ok answer =>
          rw [hresult] at hfailed
          simp [Continues, hfailed]
      | error e =>
          rw [hresult] at hfailed
          cases hdelay : call.retryDelay attempt with
          | none => simp [Continues, hdelay]
          | some delay => simp [Continues, hfailed, hdelay, ih]

end McpClient.Call

/-! ## Connecting -/

section Types

variable (Version Capabilities Implementation : Type)

structure InitializeResponse where
  protocolVersion : Version
  capabilities : Capabilities
  serverInfo : Implementation
  instructions : Option String

structure ServerInfo where
  implementation : Implementation
  protocolVersion : Version
  capabilities : Capabilities
  connectedAt : ℕ

end Types

inductive Caller where
  | connect
  | sendRequest
  | sendNotification
  deriving DecidableEq, Repr

/-- One request or notification handed to the transport: by which call, and
in which state of the client. -/
structure Passed where
  caller : Caller
  state : ClientState
  deriving DecidableEq, Repr

inductive Returned where
  | connected
  | connectFailed (error : McpError)
  | disconnected
  | other
  deriving DecidableEq, Repr

variable {Version Capabilities Implementation : Type}

/-- A client with its server information; `passed` lists what has reached the
transport and `returned` is what the last call returned. -/
structure LifecycleClient (Version Capabilities Implementation : Type) where
  client : McpClient
  initTimeout : Duration
  serverInfo : Option (ServerInfo Version Capabilities Implementation)
  notificationsSent : UInt64
  passed : List Passed
  returned : Option Returned

/-- What one call of `connect` meets. -/
structure Handshake (Version Capabilities Implementation : Type) where
  transportConnect : McpResult Unit
  initializeParams : Except String OrderedValue
  attempts : ℕ → Attempt
  fromValue : OrderedValue →
    Except String (InitializeResponse Version Capabilities Implementation)
  initializedParams : Except String OrderedValue
  sendNotification : JsonRpcNotification → McpResult Unit
  connectedAt : ℕ

namespace LifecycleClient

def new (config : ClientConfig) (initTimeout : Duration) :
    LifecycleClient Version Capabilities Implementation where
  client := ⟨config, .disconnected, {}, 1, none⟩
  initTimeout := initTimeout
  serverInfo := none
  notificationsSent := 0
  passed := []
  returned := none

def setState (self : LifecycleClient Version Capabilities Implementation)
    (state : ClientState) :
    LifecycleClient Version Capabilities Implementation :=
  { self with client := { self.client with state := state } }

def pass (self : LifecycleClient Version Capabilities Implementation)
    (caller : Caller) (count : ℕ) :
    LifecycleClient Version Capabilities Implementation :=
  { self with
    passed := self.passed ++ List.replicate count ⟨caller, self.client.state⟩ }

def transmissions (events : List Event) : ℕ :=
  events.countP Event.transmits

variable (overflowChecks : Bool)

def initializeCall (client : McpClient) (initTimeout : Duration)
    (attempts : ℕ → Attempt) (params : OrderedValue) : McpClient.Call where
  overflowChecks := overflowChecks
  config := client.config
  metadata := client.interceptionMetadata
  attempts := attempts
  request := .new (.string ("req_" ++ toString client.requestCounter.toNat))
    "initialize" params
  timeout := initTimeout

def sendInitializationRequest
    (self : LifecycleClient Version Capabilities Implementation)
    (handshake : Handshake Version Capabilities Implementation) :
    McpClient.Finished × LifecycleClient Version Capabilities Implementation :=
  let counted :=
    { self.client with requestCounter := self.client.requestCounter + 1 }
  match handshake.initializeParams with
  | .error e =>
      (⟨some (.error (.serialization e)), self.client.stats, []⟩,
        { self with client := counted })
  | .ok params =>
      let finished := (initializeCall overflowChecks self.client
        self.initTimeout handshake.attempts params).retry
          self.client.config.maxRetries.toNat 0 self.client.stats
      (finished, { self with client := { counted with stats := finished.stats } })

def sendInitializedNotification
    (self : LifecycleClient Version Capabilities Implementation)
    (handshake : Handshake Version Capabilities Implementation) :
    LifecycleClient Version Capabilities Implementation × McpResult Unit :=
  match handshake.initializedParams with
  | .error e => (self, .error (.serialization e))
  | .ok params =>
      match handshake.sendNotification ⟨"2.0", "initialized", some params⟩ with
      | .error e => (self.pass .connect 1, .error e)
      | .ok () =>
          ({ self.pass .connect 1 with
              notificationsSent := self.notificationsSent + 1 }, .ok ())

/-- There is no result where the delay between two attempts overflows and the
call panics. -/
def performInitialization
    (self : LifecycleClient Version Capabilities Implementation)
    (handshake : Handshake Version Capabilities Implementation) :
    Option (LifecycleClient Version Capabilities Implementation ×
      McpResult (ServerInfo Version Capabilities Implementation)) :=
  let (finished, self) :=
    (self.setState .initializing).sendInitializationRequest overflowChecks
      handshake
  let self := self.pass .connect (transmissions finished.events)
  match finished.result with
  | none => none
  | some (.error e) => some (self, .error e)
  | some (.ok response) =>
      match response.result with
      | none =>
          some (self, .error (.protocol (.initializationFailed
            "Missing result in initialize response")))
      | some result =>
          match handshake.fromValue result with
          | .error e => some (self, .error (.serialization e))
          | .ok initialized =>
              match self.sendInitializedNotification handshake with
              | (self, .error e) => some (self, .error e)
              | (self, .ok ()) =>
                  some (self, .ok
                    { implementation := initialized.serverInfo
                      protocolVersion := initialized.protocolVersion
                      capabilities := initialized.capabilities
                      connectedAt := handshake.connectedAt })

def connect (self : LifecycleClient Version Capabilities Implementation)
    (handshake : Handshake Version Capabilities Implementation) :
    Option (LifecycleClient Version Capabilities Implementation) :=
  let self := self.setState .connecting
  match handshake.transportConnect with
  | .error e =>
      let error := "Transport connection failed: " ++ e.display
      some
        { self.setState (.error error) with
          returned := some (.connectFailed
            (.protocol (.initializationFailed error))) }
  | .ok () =>
      match self.performInitialization overflowChecks handshake with
      | none => none
      | some (self, .error e) =>
          some { self with returned := some (.connectFailed e) }
      | some (self, .ok serverInfo) =>
          some
            { self.setState .ready with
              serverInfo := some serverInfo
              returned := some .connected }

def disconnect (self : LifecycleClient Version Capabilities Implementation)
    (_transport : McpResult Unit) :
    LifecycleClient Version Capabilities Implementation :=
  { self.setState .disconnected with
    serverInfo := none
    returned := some .disconnected }

def sendNotification
    (self : LifecycleClient Version Capabilities Implementation)
    (transport : JsonRpcNotification → McpResult Unit) (method : String)
    (params : Except String OrderedValue) :
    LifecycleClient Version Capabilities Implementation :=
  let self := { self with returned := some .other }
  if self.client.state = .ready then
    match params with
    | .error _ => self
    | .ok params =>
        match transport ⟨"2.0", method, some params⟩ with
        | .error _ => self.pass .sendNotification 1
        | .ok () =>
            { self.pass .sendNotification 1 with
              notificationsSent := self.notificationsSent + 1 }
  else self

def sendRequest (self : LifecycleClient Version Capabilities Implementation)
    (attempts : ℕ → Attempt) (method : String)
    (params : Except String OrderedValue) :
    Option (LifecycleClient Version Capabilities Implementation) :=
  let (finished, client) :=
    self.client.sendRequest overflowChecks attempts method params
  finished.result.map fun _ =>
    { (self.pass .sendRequest (transmissions finished.events)) with
      client := client
      returned := some .other }

inductive Action (Version Capabilities Implementation : Type) where
  | connect (handshake : Handshake Version Capabilities Implementation)
  | sendRequest (attempts : ℕ → Attempt) (method : String)
      (params : Except String OrderedValue)
  | sendNotification (transport : JsonRpcNotification → McpResult Unit)
      (method : String) (params : Except String OrderedValue)
  | disconnect (transport : McpResult Unit)

def step (self : LifecycleClient Version Capabilities Implementation) :
    Action Version Capabilities Implementation →
      Option (LifecycleClient Version Capabilities Implementation)
  | .connect handshake => self.connect overflowChecks handshake
  | .sendRequest attempts method params =>
      self.sendRequest overflowChecks attempts method params
  | .sendNotification transport method params =>
      some (self.sendNotification transport method params)
  | .disconnect transport => some (self.disconnect transport)

def machine :
    StepMachine (LifecycleClient Version Capabilities Implementation)
      (Action Version Capabilities Implementation) :=
  ⟨step overflowChecks⟩

/-! ## Between calls -/

structure Settled
    (found : LifecycleClient Version Capabilities Implementation) : Prop where
  state : found.client.state = .disconnected ∨ found.client.state = .ready ∨
    ∃ reason, found.client.state = .error reason
  serverInfo : found.serverInfo.isSome = true ↔ found.client.state = .ready
  failed : ∀ error, found.returned = some (.connectFailed error) →
    ∃ reason, found.client.state = .error reason
  passed : ∀ entry ∈ found.passed,
    entry.caller = .connect ∨ entry.state = .ready

/-- The server answers the initialize request with a result that can be read,
and the initialized notification is sent. -/
def Completes (self : LifecycleClient Version Capabilities Implementation)
    (handshake : Handshake Version Capabilities Implementation) : Prop :=
  ∃ params response result initialized confirmation,
    handshake.initializeParams = .ok params ∧
    (initializeCall overflowChecks self.client self.initTimeout
      handshake.attempts params).AnsweredWith
        self.client.config.maxRetries.toNat 0 response ∧
    response.result = some result ∧
    handshake.fromValue result = .ok initialized ∧
    handshake.initializedParams = .ok confirmation ∧
    handshake.sendNotification ⟨"2.0", "initialized", some confirmation⟩ =
      .ok ()

def Keeps (self : LifecycleClient Version Capabilities Implementation) :
    Action Version Capabilities Implementation → Prop
  | .connect handshake =>
      match handshake.transportConnect with
      | .ok () => self.Completes overflowChecks handshake
      | .error _ => self.client.state ≠ .ready
  | _ => True

/-! ## What each stage does -/

section Stages

variable {overflowChecks}
  {self : LifecycleClient Version Capabilities Implementation}
  {handshake : Handshake Version Capabilities Implementation}

/-- A stage of `connect` leaves the server information alone, and what it
passes on, it passes on for `connect`. -/
structure Continued
    (before after : LifecycleClient Version Capabilities Implementation) :
    Prop where
  state : after.client.state = before.client.state
  serverInfo : after.serverInfo = before.serverInfo
  passed : ∀ entry ∈ after.passed,
    entry ∈ before.passed ∨ entry.caller = .connect

theorem Continued.refl : Continued self self :=
  ⟨rfl, rfl, fun _ hentry => Or.inl hentry⟩

theorem Continued.trans
    {middle next : LifecycleClient Version Capabilities Implementation}
    (hfirst : Continued self middle) (hsecond : Continued middle next) :
    Continued self next where
  state := hsecond.state.trans hfirst.state
  serverInfo := hsecond.serverInfo.trans hfirst.serverInfo
  passed := by
    intro entry hentry
    rcases hsecond.passed entry hentry with hold | hnew
    · exact hfirst.passed entry hold
    · exact Or.inr hnew

theorem continued_pass
    (self : LifecycleClient Version Capabilities Implementation) (count : ℕ) :
    Continued self (self.pass .connect count) where
  state := rfl
  serverInfo := rfl
  passed := by
    intro entry hentry
    rcases List.mem_append.mp hentry with hold | hnew
    · exact Or.inl hold
    · rw [List.eq_of_mem_replicate hnew]
      exact Or.inr rfl

theorem sendInitializationRequest_continued :
    Continued self
      (self.sendInitializationRequest overflowChecks handshake).2 := by
  unfold sendInitializationRequest
  cases handshake.initializeParams with
  | error e => exact ⟨rfl, rfl, fun _ hentry => Or.inl hentry⟩
  | ok params => exact ⟨rfl, rfl, fun _ hentry => Or.inl hentry⟩

theorem sendInitializationRequest_ok_iff (response : JsonRpcResponse) :
    (self.sendInitializationRequest overflowChecks handshake).1.result =
        some (.ok response) ↔
      ∃ params, handshake.initializeParams = .ok params ∧
        (initializeCall overflowChecks self.client self.initTimeout
          handshake.attempts params).AnsweredWith
            self.client.config.maxRetries.toNat 0 response := by
  unfold sendInitializationRequest
  cases handshake.initializeParams with
  | error e => simp
  | ok params => simp [McpClient.Call.retry_ok_iff]

theorem sendInitializedNotification_continued
    (self : LifecycleClient Version Capabilities Implementation)
    (handshake : Handshake Version Capabilities Implementation) :
    Continued self (self.sendInitializedNotification handshake).1 := by
  unfold sendInitializedNotification
  cases handshake.initializedParams with
  | error e => exact .refl
  | ok params =>
      have hpassed := self.continued_pass 1
      cases hsent :
          handshake.sendNotification ⟨"2.0", "initialized", some params⟩ with
      | error e => simpa only [hsent] using hpassed
      | ok done =>
          simp only [hsent]
          exact ⟨rfl, rfl, hpassed.passed⟩

theorem sendInitializedNotification_ok_iff
    (self : LifecycleClient Version Capabilities Implementation)
    (handshake : Handshake Version Capabilities Implementation) :
    (self.sendInitializedNotification handshake).2 = .ok () ↔
      ∃ params, handshake.initializedParams = .ok params ∧
        handshake.sendNotification ⟨"2.0", "initialized", some params⟩ =
          .ok () := by
  unfold sendInitializedNotification
  cases handshake.initializedParams with
  | error e => simp
  | ok params =>
      cases hsent :
          handshake.sendNotification ⟨"2.0", "initialized", some params⟩ with
      | error e => simp [hsent]
      | ok done => simp [hsent]

/-- The client once the initialize request has gone out. -/
def requested (overflowChecks : Bool)
    (self : LifecycleClient Version Capabilities Implementation)
    (handshake : Handshake Version Capabilities Implementation) :
    LifecycleClient Version Capabilities Implementation :=
  let sent := (self.setState .initializing).sendInitializationRequest
    overflowChecks handshake
  sent.2.pass .connect (transmissions sent.1.events)

/-- The initialize request is answered, and the answer can be read. -/
def Reads (overflowChecks : Bool)
    (self : LifecycleClient Version Capabilities Implementation)
    (handshake : Handshake Version Capabilities Implementation)
    (response : JsonRpcResponse)
    (initialized : InitializeResponse Version Capabilities Implementation) :
    Prop :=
  ((self.setState .initializing).sendInitializationRequest overflowChecks
      handshake).1.result = some (.ok response) ∧
    ∃ result, response.result = some result ∧
      handshake.fromValue result = .ok initialized

theorem requested_continued :
    Continued (self.setState .initializing)
      (self.requested overflowChecks handshake) :=
  sendInitializationRequest_continued.trans (continued_pass _ _)

/-- Initialization fails before the notification that confirms it, or it is
this notification that decides. -/
theorem performInitialization_cases
    {next : LifecycleClient Version Capabilities Implementation}
    {result : McpResult (ServerInfo Version Capabilities Implementation)}
    (hperform : self.performInitialization overflowChecks handshake =
      some (next, result)) :
    (next = self.requested overflowChecks handshake ∧
      (∃ e, result = .error e) ∧ ∀ response initialized,
        ¬ self.Reads overflowChecks handshake response initialized) ∨
    ∃ response initialized,
      self.Reads overflowChecks handshake response initialized ∧
      next = ((self.requested overflowChecks
        handshake).sendInitializedNotification handshake).1 ∧
      ((∃ serverInfo, result = .ok serverInfo) ↔
        ((self.requested overflowChecks
          handshake).sendInitializedNotification handshake).2 = .ok ()) := by
  unfold performInitialization at hperform
  unfold requested Reads
  generalize (self.setState .initializing).sendInitializationRequest
    overflowChecks handshake = request at hperform ⊢
  obtain ⟨finished, client⟩ := request
  dsimp only at hperform ⊢
  cases hresult : finished.result with
  | none => simp [hresult] at hperform
  | some outcome =>
      cases outcome with
      | error e =>
          simp only [hresult, Option.some.injEq, Prod.mk.injEq] at hperform
          obtain ⟨rfl, rfl⟩ := hperform
          exact Or.inl ⟨rfl, ⟨e, rfl⟩, by simp⟩
      | ok response =>
          cases hbody : response.result with
          | none =>
              simp only [hresult, hbody, Option.some.injEq,
                Prod.mk.injEq] at hperform
              obtain ⟨rfl, rfl⟩ := hperform
              refine Or.inl ⟨rfl, ⟨_, rfl⟩, ?_⟩
              rintro other _ ⟨hother, body, hsome, _⟩
              cases hother
              rw [hbody] at hsome
              cases hsome
          | some body =>
              cases hread : handshake.fromValue body with
              | error e =>
                  simp only [hresult, hbody, hread, Option.some.injEq,
                    Prod.mk.injEq] at hperform
                  obtain ⟨rfl, rfl⟩ := hperform
                  refine Or.inl ⟨rfl, ⟨_, rfl⟩, ?_⟩
                  rintro other _ ⟨hother, value, hvalue, hinitialized⟩
                  cases hother
                  rw [hbody, Option.some.injEq] at hvalue
                  rw [← hvalue, hread] at hinitialized
                  cases hinitialized
              | ok initialized =>
                  refine Or.inr ⟨response, initialized,
                    ⟨rfl, body, hbody, hread⟩, ?_⟩
                  simp only [hresult, hbody, hread] at hperform
                  generalize (client.pass .connect (transmissions
                    finished.events)).sendInitializedNotification handshake =
                      notified at hperform ⊢
                  obtain ⟨notified, outcome⟩ := notified
                  cases outcome with
                  | error e =>
                      simp only [Option.some.injEq, Prod.mk.injEq] at hperform
                      obtain ⟨rfl, rfl⟩ := hperform
                      exact ⟨rfl, by simp⟩
                  | ok done =>
                      simp only [Option.some.injEq, Prod.mk.injEq] at hperform
                      obtain ⟨rfl, rfl⟩ := hperform
                      exact ⟨rfl, by simp⟩

/-- The client completes initialization exactly when the answer is read and
the notification is sent. -/
theorem completes_iff :
    self.Completes overflowChecks handshake ↔
      (∃ response initialized,
        self.Reads overflowChecks handshake response initialized) ∧
      ((self.requested overflowChecks
        handshake).sendInitializedNotification handshake).2 = .ok () := by
  have hanswered : ∀ response,
      ((self.setState .initializing).sendInitializationRequest overflowChecks
        handshake).1.result = some (.ok response) ↔
      ∃ params, handshake.initializeParams = .ok params ∧
        (initializeCall overflowChecks self.client self.initTimeout
          handshake.attempts params).AnsweredWith
            self.client.config.maxRetries.toNat 0 response :=
    fun response => sendInitializationRequest_ok_iff response
  rw [sendInitializedNotification_ok_iff]
  constructor
  · rintro ⟨params, response, result, initialized, confirmation, hparams,
      hanswer, hresult, hread, hconfirmation⟩
    exact ⟨⟨response, initialized,
      (hanswered response).mpr ⟨params, hparams, hanswer⟩, result, hresult,
      hread⟩, confirmation, hconfirmation⟩
  · rintro ⟨⟨response, initialized, hanswer, result, hresult, hread⟩,
      confirmation, hconfirmation⟩
    obtain ⟨params, hparams, hanswer⟩ := (hanswered response).mp hanswer
    exact ⟨params, response, result, initialized, confirmation, hparams,
      hanswer, hresult, hread, hconfirmation⟩

theorem performInitialization_spec
    {next : LifecycleClient Version Capabilities Implementation}
    {result : McpResult (ServerInfo Version Capabilities Implementation)}
    (hperform : self.performInitialization overflowChecks handshake =
      some (next, result)) :
    Continued (self.setState .initializing) next ∧
      ((∃ serverInfo, result = .ok serverInfo) ↔
        self.Completes overflowChecks handshake) := by
  rw [completes_iff]
  rcases performInitialization_cases hperform with ⟨rfl, ⟨e, rfl⟩, hunread⟩ |
    ⟨response, initialized, hreads, rfl, hconfirmed⟩
  · refine ⟨requested_continued, iff_of_false (by simp) ?_⟩
    rintro ⟨⟨response, initialized, hreads⟩, _⟩
    exact hunread response initialized hreads
  · refine ⟨requested_continued.trans
      (sendInitializedNotification_continued _ handshake), ?_⟩
    rw [hconfirmed]
    exact (and_iff_right ⟨response, initialized, hreads⟩).symm

end Stages

/-! ## What each call does -/

section Calls

variable {overflowChecks}
  {self next : LifecycleClient Version Capabilities Implementation}

/-- A call that does not connect passes on only what is asked of a client
that is ready. -/
theorem passed_of_call (caller : Caller) (count : ℕ)
    (hpassed : ∀ entry ∈ self.passed,
      entry.caller = .connect ∨ entry.state = .ready)
    (hready : self.client.state = .ready) :
    ∀ entry ∈ (self.pass caller count).passed,
      entry.caller = .connect ∨ entry.state = .ready := by
  intro entry hentry
  rcases List.mem_append.mp hentry with hold | hnew
  · exact hpassed entry hold
  · rw [List.eq_of_mem_replicate hnew]
    exact Or.inr hready

theorem new_settled (config : ClientConfig) (initTimeout : Duration) :
    Settled (new config initTimeout :
      LifecycleClient Version Capabilities Implementation) where
  state := Or.inl rfl
  serverInfo := by simp [new]
  failed := by simp [new]
  passed := by simp [new]

theorem disconnect_settled (hsettled : Settled self)
    (transport : McpResult Unit) : Settled (self.disconnect transport) where
  state := Or.inl rfl
  serverInfo := by simp [disconnect, setState]
  failed := by simp [disconnect]
  passed := hsettled.passed

theorem sendNotification_settled (hsettled : Settled self)
    (transport : JsonRpcNotification → McpResult Unit) (method : String)
    (params : Except String OrderedValue) :
    Settled (self.sendNotification transport method params) := by
  unfold sendNotification
  have hquiet : Settled { self with returned := some .other } :=
    ⟨hsettled.state, hsettled.serverInfo, by simp, hsettled.passed⟩
  by_cases hready : self.client.state = .ready
  · have hpassed := passed_of_call .sendNotification 1 hsettled.passed hready
    simp only [hready, if_true]
    cases params with
    | error e => exact hquiet
    | ok params =>
        cases htransport : transport ⟨"2.0", method, some params⟩ with
        | error e =>
            simp only [htransport]
            exact ⟨hsettled.state, hsettled.serverInfo, by simp [pass], hpassed⟩
        | ok done =>
            simp only [htransport]
            exact ⟨hsettled.state, hsettled.serverInfo, by simp [pass], hpassed⟩
  · simpa only [hready, if_false] using hquiet

/-- Sending a request leaves the state of the client, and nothing reaches
the transport unless it is ready. -/
theorem sendRequest_client (overflowChecks : Bool) (self : McpClient)
    (attempts : ℕ → Attempt) (method : String)
    (params : Except String OrderedValue) :
    (self.sendRequest overflowChecks attempts method params).2.state =
        self.state ∧
      (self.state ≠ .ready →
        (self.sendRequest overflowChecks attempts method params).1.events =
          []) := by
  unfold McpClient.sendRequest
  by_cases hready : self.state = .ready
  · rw [if_pos hready]
    cases params with
    | error e => exact ⟨rfl, fun hnot => absurd hready hnot⟩
    | ok params => exact ⟨rfl, fun hnot => absurd hready hnot⟩
  · rw [if_neg hready]
    exact ⟨rfl, fun _ => rfl⟩

theorem sendRequest_settled (hsettled : Settled self)
    {attempts : ℕ → Attempt} {method : String}
    {params : Except String OrderedValue}
    (hnext : self.sendRequest overflowChecks attempts method params =
      some next) : Settled next := by
  obtain ⟨hstate, hquiet⟩ :=
    sendRequest_client overflowChecks self.client attempts method params
  unfold sendRequest at hnext
  generalize self.client.sendRequest overflowChecks attempts method params =
    sent at hnext hstate hquiet
  obtain ⟨finished, client⟩ := sent
  simp only [Option.map_eq_some_iff] at hnext
  obtain ⟨_, _, rfl⟩ := hnext
  dsimp only at hstate hquiet
  refine ⟨?_, ?_, by simp, ?_⟩
  · dsimp only
    rw [hstate]
    exact hsettled.state
  · dsimp only [pass]
    rw [hstate]
    exact hsettled.serverInfo
  · by_cases hready : self.client.state = .ready
    · exact passed_of_call _ _ hsettled.passed hready
    · simpa [pass, hquiet hready, transmissions] using hsettled.passed

theorem connect_settled_iff (hsettled : Settled self)
    {handshake : Handshake Version Capabilities Implementation}
    (hnext : self.connect overflowChecks handshake = some next) :
    Settled next ↔ self.Keeps overflowChecks (.connect handshake) := by
  unfold connect at hnext
  cases htransport : handshake.transportConnect with
  | error e =>
      simp only [htransport, Option.some.injEq] at hnext
      subst hnext
      simp only [Keeps, htransport]
      have hinfo := hsettled.serverInfo
      constructor
      · intro hafter hready
        exact absurd (hafter.serverInfo.mp (hinfo.mpr hready)) (by simp [setState])
      · intro hnot
        refine ⟨Or.inr (Or.inr ⟨_, rfl⟩), iff_of_false ?_ (by simp [setState]),
          fun _ _ => ⟨_, rfl⟩, hsettled.passed⟩
        exact fun hsome => hnot (hinfo.mp hsome)
  | ok connected =>
      simp only [htransport] at hnext
      simp only [Keeps, htransport]
      cases hperform : (self.setState .connecting).performInitialization
          overflowChecks handshake with
      | none => simp [hperform] at hnext
      | some performed =>
          obtain ⟨performed, result⟩ := performed
          obtain ⟨hcontinued, hcompletes⟩ := performInitialization_spec hperform
          have hpassed : ∀ entry ∈ performed.passed,
              entry.caller = .connect ∨ entry.state = .ready := by
            intro entry hentry
            rcases hcontinued.passed entry hentry with hold | hnew
            · exact hsettled.passed entry hold
            · exact Or.inl hnew
          have hiff : (∃ serverInfo, result = .ok serverInfo) ↔
              self.Completes overflowChecks handshake := hcompletes
          rw [← hiff]
          cases result with
          | error e =>
              simp only [hperform, Option.some.injEq] at hnext
              subst hnext
              -- the early return leaves the client initializing
              refine iff_of_false ?_ (by simp)
              intro hafter
              have hstate : performed.client.state = .initializing :=
                hcontinued.state
              simpa [hstate] using hafter.state
          | ok serverInfo =>
              simp only [hperform, Option.some.injEq] at hnext
              subst hnext
              refine iff_of_true ?_ ⟨serverInfo, rfl⟩
              exact ⟨Or.inr (Or.inl rfl), by simp [setState], by simp, hpassed⟩

end Calls

/-- Between any calls the client is as a caller may find it, exactly when
every attempt to connect either completes or fails in the transport on a
client that was not ready. -/
theorem throughout_settled_iff (config : ClientConfig) (initTimeout : Duration)
    (trace : List (Action Version Capabilities Implementation)) :
    (machine overflowChecks).Throughout Settled
        (new config initTimeout :
          LifecycleClient Version Capabilities Implementation) trace ↔
      (machine overflowChecks).Along (Keeps overflowChecks)
        (new config initTimeout) trace := by
  apply StepMachine.throughout_iff_along ?_ (fun _ hsettled => hsettled) ?_
    (new_settled config initTimeout)
  · intro before action after hbefore hstep hkeeps
    cases action with
    | connect handshake => exact (connect_settled_iff hbefore hstep).mpr hkeeps
    | sendRequest attempts method params =>
        exact sendRequest_settled hbefore hstep
    | sendNotification transport method params =>
        simp only [machine, step, Option.some.injEq] at hstep
        subst hstep
        exact sendNotification_settled hbefore transport method params
    | disconnect transport =>
        simp only [machine, step, Option.some.injEq] at hstep
        subst hstep
        exact disconnect_settled hbefore transport
  · intro before action after hbefore hstep hafter
    cases action with
    | connect handshake => exact (connect_settled_iff hbefore hstep).mp hafter
    | sendRequest attempts method params => trivial
    | sendNotification transport method params => trivial
    | disconnect transport => trivial

/-! ## A server that refuses to be initialized -/

def refusedAttempt : Attempt where
  outgoing := .new
  outgoingAt := Auth.smallInstant
  outgoingMillis := 0
  transport request _ := .ok
    (.failure request.id ⟨-32602, "Unsupported protocol version", none⟩)
  incoming := .new
  incomingAt := Auth.smallInstant
  incomingMillis := 0

def refusedHandshake : Handshake String Unit String where
  transportConnect := .ok ()
  initializeParams := .ok ⟨.null, .null⟩
  attempts _ := refusedAttempt
  fromValue _ := .error "invalid type"
  initializedParams := .ok ⟨.null, .null⟩
  sendNotification _ := .ok ()
  connectedAt := 0

/-- The server answers the initialize request with an error, `connect`
returns an error, and the client stays initializing. -/
theorem refusedHandshake_not_settled :
    ¬ (machine true).Throughout Settled
      (new McpClient.retryingClient.config (Duration.fromSecs 30))
      [.connect refusedHandshake] := by
  intro hthrough
  have hrun : ((machine true).run
      (new McpClient.retryingClient.config (Duration.fromSecs 30))
      [.connect refusedHandshake]).map (fun reached => reached.client.state) =
        some .initializing := by
    decide +kernel
  obtain ⟨reached, hreached, hstate⟩ := Option.map_eq_some_iff.mp hrun
  have hsettled := hthrough _ (List.prefix_refl _) reached hreached
  simpa [hstate] using hsettled.state

end LifecycleClient

end Core
end Acdp
