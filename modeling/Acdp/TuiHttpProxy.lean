import Acdp.TuiClientProxy

/-!
# The relay of an HTTP session

Messages are posted one by one; requests pass the interceptors and wait in a
channel, from which the backend task takes them, passes them through the
interceptors once more and sends them on.  Responses go out on a channel for
the subscribers of the session.  When a backend is gone another one may be
started.
-/

namespace Acdp
namespace Tui

open Acdp.Core Json
open ClientProxy (expectedError givenBy)
open Transport (Backend BackendKind Exchange Received SendWorld lineMessage
  newline readMessageLine)

/-- A request as it was posted, and as it came out of the interceptors. -/
structure Queued where
  original : JsonRpcMessage
  message : JsonRpcMessage

inductive Phase where
  | creating
  | relaying (backend : Backend)
  | ended (outcome : Except String Unit)

/-- A backend has been asked for, or a restart announced. -/
inductive Mark where
  | created
  | announced (restart : ℕ)
  deriving DecidableEq, Repr

/-- `posted` are the messages that were posted, `refusals` what was sent to
the subscribers in place of a response, and `earlier` what the backends that
are gone have written. -/
structure HttpProxy where
  autoRestart : Bool
  kind : BackendKind
  restartCount : ℕ
  phase : Phase
  requests : List Queued
  subscribers : ℕ
  posted : List JsonRpcMessage
  refusals : List JsonRpcResponse
  earlier : List Bytes
  ledger : RelayLedger
  trail : List Mark
  totalErrors : ℕ

namespace HttpProxy

def start (autoRestart : Bool) (kind : BackendKind) : HttpProxy where
  autoRestart := autoRestart
  kind := kind
  restartCount := 0
  phase := .creating
  requests := []
  subscribers := 0
  posted := []
  refusals := []
  earlier := []
  ledger := .new
  trail := []
  totalErrors := 0

def maxRestarts : ℕ := 5

inductive Action where
  | post (message : JsonRpcMessage) (verdict : Verdict)
  | subscribe
  | unsubscribe
  | createBackend (outcome : Except String McpClient)
  | backendSends (chunk : Bytes)
  | backendCloses
  | backendWaits
  | requestBranch (verdict : Verdict) (world : SendWorld)
  | requestsClose
  | backendBranch (verdict : Verdict)

section Steps

variable (json : SerdeJson) (self : HttpProxy)

def hasEnded : Bool :=
  match self.phase with
  | .ended _ => true
  | _ => false

def refusal (id : RequestId) (code : Int32) (message : String)
    (data : Option OrderedValue) : JsonRpcResponse :=
  .failure id ⟨code, message, data⟩

/-- `serde_json::json!({"error": e.to_string()})`. -/
def errorData (error : String) : OrderedValue :=
  ⟨.object [("error", .str error)], .object (List.pairwise_singleton _ _)
    (List.forall_mem_singleton.mpr (.str error))⟩

def refuse (response : JsonRpcResponse) : HttpProxy :=
  { self with refusals := self.refusals ++ [response] }

/-- The message goes to the interceptors and into the channel; a notification
is accepted, and a response is a bad request. -/
def handleMcpRequest (message : JsonRpcMessage) (verdict : Verdict) :
    HttpProxy :=
  match message with
  | .notification _ => self
  | .response _ => self
  | .request request =>
      match verdict with
      | .error error =>
          self.refuse (refusal request.id (-32603) "Internal error"
            (some (errorData error)))
      | .ok result =>
          if result.block then
            refuse { self with ledger := self.ledger.block message }
              (refusal request.id (-32000) "Message blocked by interceptor"
                none)
          else if self.hasEnded then
            self.refuse (refusal request.id (-32603)
              "Failed to forward request to backend" none)
          else
            { self with
              requests := self.requests ++ [⟨message, result.message⟩] }

/-- Out of the inner loop: the backend is let go, and if restarts are left
another one is created. -/
def leave (backend : Backend) : HttpProxy :=
  { self with
    earlier := self.earlier ++ [backend.arrived]
    phase :=
      if self.autoRestart = true ∧ self.restartCount < maxRestarts then
        .creating
      else .ended (.ok ()) }

def relay (backend : Backend) : HttpProxy :=
  { self with phase := .relaying backend }

def createBackend (outcome : Except String McpClient) : HttpProxy :=
  let marked := { self with trail := self.trail ++ [Mark.created] }
  match outcome with
  | .ok client => marked.relay (self.kind.connect client)
  | .error error =>
      { marked with
        totalErrors := self.totalErrors + 1
        phase :=
          .ended (.error ("Failed to create backend connection: " ++ error)) }

def handleRequest (backend : Backend) (queued : Queued) (verdict : Verdict)
    (world : SendWorld) : HttpProxy :=
  match verdict with
  | .error _ => self.leave backend
  | .ok result =>
      if result.block then
        relay { self with ledger := self.ledger.block queued.original }
          backend.drop
      else
        let sent := backend.send world result.message
        let forwarded :=
          { self with
            ledger :=
              self.ledger.forward queued.original result.message sent.1 }
        match sent.1.result with
        | .error _ => forwarded.leave sent.2
        | .ok () => forwarded.relay sent.2.drop

/-- A response that nobody has subscribed to is dropped. -/
def handleResponse (given : JsonRpcMessage) (verdict : Verdict) : HttpProxy :=
  match verdict with
  | .error _ => self
  | .ok result =>
      if result.block then self
      else if self.subscribers = 0 then self
      else
        { self with ledger := self.ledger.deliver given result.message }

/-- The backend has closed its connection. -/
def handleClosed (backend : Backend) : HttpProxy :=
  if self.autoRestart = true ∧ self.restartCount < maxRestarts then
    leave { self with
      restartCount := self.restartCount + 1
      trail := self.trail ++ [.announced (self.restartCount + 1)] } backend
  else
    { self with
      earlier := self.earlier ++ [backend.arrived]
      totalErrors := self.totalErrors + 1
      phase := .ended (.ok ()) }

def handleReceived (backend : Backend) (verdict : Verdict) :
    Received → HttpProxy
  | .blank => self.relay backend
  | .message given => (self.handleResponse given verdict).relay backend
  | .closed => self.handleClosed backend
  | .failed error =>
      if expectedError error then self.relay backend else self.leave backend

/-- The backend of the inner loop. -/
def backend : Option Backend :=
  match self.phase with
  | .relaying backend => some backend
  | _ => none

def step : Action → Option HttpProxy
  | .post message verdict =>
      some (handleMcpRequest
        { self with posted := self.posted ++ [message] } message verdict)
  | .subscribe => some { self with subscribers := self.subscribers + 1 }
  | .unsubscribe => some { self with subscribers := self.subscribers - 1 }
  | .createBackend outcome =>
      match self.phase with
      | .creating => some (self.createBackend outcome)
      | _ => none
  | .backendSends chunk =>
      (self.backend.bind (·.onStdout (LineReader.arrive · chunk))).map
        self.relay
  | .backendCloses =>
      (self.backend.bind (·.onStdout (some ·.close))).map self.relay
  | .backendWaits =>
      (self.backend.bind (·.onStdout (LineReader.poll newline))).map self.relay
  | .requestBranch verdict world =>
      self.backend.bind fun backend =>
        match self.requests with
        | queued :: rest =>
            some (handleRequest { self with requests := rest } backend queued
              verdict world)
        | [] => none
  | .requestsClose =>
      self.backend.bind fun backend =>
        if self.requests = [] then
          some { self with
            earlier := self.earlier ++ [backend.arrived]
            phase := .ended (.ok ()) }
        else none
  | .backendBranch verdict =>
      self.backend.bind fun backend =>
        (backend.recv json).map fun (received, backend) =>
          self.handleReceived backend verdict received

end Steps

def machine (json : SerdeJson) : StepMachine HttpProxy Action where
  step := step json

/-! ## What the relay owes -/

/-- The responses in what a process has written. -/
def responsesIn (json : SerdeJson) (output : Bytes) : List JsonRpcResponse :=
  (splitLines newline output).filterMap
    (fun line => (lineMessage json line).bind responseOf)

def arrived (self : HttpProxy) : Bytes :=
  match self.backend with
  | some backend => backend.arrived
  | none => []

/-- The responses that the backends have given. -/
def responses (json : SerdeJson) (self : HttpProxy) : List JsonRpcResponse :=
  self.earlier.flatMap (responsesIn json) ++ responsesIn json self.arrived

/-- No input is left unread. -/
def Idle (self : HttpProxy) : Prop :=
  self.requests = [] ∧
    ∀ backend, self.backend = some backend → backend.left = []

def Complete (json : SerdeJson) (self : HttpProxy) : Prop :=
  self.Idle → Relays self.posted (self.responses json) self.ledger

/-- The interceptors let the request pass or block it; then the backend takes
it once and does not answer on the spot. -/
structure GoesOut (backend : Backend) (queued : Queued) (verdict : Verdict)
    (world : SendWorld) : Prop where
  free : backend.taken = []
  judged : ∃ result, verdict = .ok result
  kept : ∀ result, verdict = .ok result → result.block = false →
    KeepsRequestId queued.original result.message ∧
    backend.TransmitsOnce world result.message ∧
    backend.AnswersNothing world result.message

/-- The condition on each step. -/
def Meets (json : SerdeJson) (self : HttpProxy) : Action → Prop
  | .post message verdict =>
      (∀ notification, message ≠ .notification notification) ∧
        ∀ request, message = .request request →
          ∃ result, verdict = .ok result ∧
            (result.block = false → self.hasEnded = false)
  | .requestBranch verdict world =>
      ∀ backend queued rest, self.backend = some backend →
        self.requests = queued :: rest →
        GoesOut backend queued verdict world
  | .requestsClose =>
      ∀ backend, self.backend = some backend → backend.left = []
  | .backendBranch verdict =>
      ∀ backend received next, self.backend = some backend →
        backend.recv json = some (received, next) →
        (∀ error, received = .failed error → expectedError error = false →
          next.left = []) ∧
        ∀ response, received = .message (.response response) →
          0 < self.subscribers ∧
            ∃ result, verdict = .ok result ∧ result.block = false ∧
              KeepsResponseId (.response response) result.message
  | _ => True

/-! ## Nothing is owed -/

/-- The responses in the lines that a backend has handed out. -/
def handedOut (json : SerdeJson) (backend : Backend) :
    List JsonRpcResponse :=
  backend.lines.filterMap (fun line => (lineMessage json line).bind responseOf)

/-- The account is balanced for the requests that have left the channel, and
those that have not are in it. -/
def Account (json : SerdeJson) (self : HttpProxy)
    (given : List JsonRpcResponse) : Prop :=
  ∃ calls,
    Balanced calls (self.earlier.flatMap (responsesIn json) ++ given)
      self.ledger ∧
    (self.posted.filter isCall).Perm
      ((calls ++ self.requests.map Queued.original).filter isCall)

def received (json : SerdeJson) (self : HttpProxy) : List JsonRpcResponse :=
  match self.backend with
  | some backend => handedOut json backend
  | none => []

structure Sound (json : SerdeJson) (proxy : HttpProxy) : Prop where
  backend : ∀ backend, proxy.backend = some backend → backend.Sound
  account : proxy.Account json (proxy.received json)

variable {json : SerdeJson} {self next : HttpProxy}

/-! ### What a step does -/

section StepCases

variable {verdict : Verdict} {world : SendWorld}

theorem step_createBackend {outcome : Except String McpClient}
    (hstep : self.step json (.createBackend outcome) = some next) :
    self.phase = .creating ∧ next = self.createBackend outcome := by
  cases hphase : self.phase with
  | creating =>
      simp only [step, hphase, Option.some.injEq] at hstep
      exact ⟨rfl, hstep.symm⟩
  | relaying backend => simp [step, hphase] at hstep
  | ended outcome => simp [step, hphase] at hstep

/-- Whatever becomes of the output of the backend, it stays in use. -/
theorem exists_relay_of_onStdout
    {change : LineReader UInt8 → Option (LineReader UInt8)}
    (hstep : (self.backend.bind (·.onStdout change)).map self.relay =
      some next) :
    ∃ before after, self.backend = some before ∧
      before.onStdout change = some after ∧ next = self.relay after := by
  obtain ⟨after, hafter, rfl⟩ := Option.map_eq_some_iff.mp hstep
  obtain ⟨before, hbefore, hchanged⟩ := Option.bind_eq_some_iff.mp hafter
  exact ⟨before, after, hbefore, hchanged, rfl⟩

theorem step_requestBranch
    (hstep : self.step json (.requestBranch verdict world) = some next) :
    ∃ backend queued rest, self.backend = some backend ∧
      self.requests = queued :: rest ∧
      next = handleRequest { self with requests := rest } backend queued
        verdict world := by
  obtain ⟨backend, hbackend, hbranch⟩ := Option.bind_eq_some_iff.mp hstep
  cases hrequests : self.requests with
  | nil =>
      rw [hrequests] at hbranch
      cases hbranch
  | cons queued rest =>
      rw [hrequests] at hbranch
      cases hbranch
      exact ⟨backend, queued, rest, hbackend, rfl, rfl⟩

theorem step_requestsClose
    (hstep : self.step json .requestsClose = some next) :
    ∃ backend, self.backend = some backend ∧
      next = { self with
        earlier := self.earlier ++ [backend.arrived]
        phase := .ended (.ok ()) } := by
  obtain ⟨backend, hbackend, hbranch⟩ := Option.bind_eq_some_iff.mp hstep
  split_ifs at hbranch
  cases hbranch
  exact ⟨backend, hbackend, rfl⟩

theorem step_backendBranch
    (hstep : self.step json (.backendBranch verdict) = some next) :
    ∃ before received backend, self.backend = some before ∧
      before.recv json = some (received, backend) ∧
      next = self.handleReceived backend verdict received := by
  obtain ⟨before, hbefore, hbranch⟩ := Option.bind_eq_some_iff.mp hstep
  obtain ⟨⟨received, backend⟩, hrecv, rfl⟩ := Option.map_eq_some_iff.mp hbranch
  exact ⟨before, received, backend, hbefore, hrecv, rfl⟩

end StepCases

theorem start_sound (json : SerdeJson) (autoRestart : Bool)
    (kind : BackendKind) : (start autoRestart kind).Sound json where
  backend _ hbackend := by cases hbackend
  account := ⟨[], Balanced.new, List.Perm.refl _⟩

theorem handedOut_of_left {backend : Backend} (hbackend : backend.Sound)
    (hleft : backend.left = []) :
    handedOut json backend = responsesIn json backend.arrived := by
  unfold handedOut responsesIn
  rw [hbackend.splitLines_of_left hleft]

theorem Sound.complete (hsound : self.Sound json) : self.Complete json := by
  rintro ⟨hrequests, hleft⟩
  obtain ⟨calls, hbalanced, hposted⟩ := hsound.account
  rw [hrequests, List.map_nil, List.append_nil] at hposted
  have hreceived : self.received json = responsesIn json self.arrived := by
    unfold received arrived
    cases hbackend : self.backend with
    | none => rfl
    | some backend =>
        exact handedOut_of_left (hsound.backend backend hbackend)
          (hleft backend hbackend)
  rw [hreceived] at hbalanced
  have hrelays := hbalanced.relays
  exact ⟨hposted.trans hrelays.settled, hrelays.once, hrelays.delivered,
    hrelays.ids⟩

theorem Sound.of_backend (hsound : self.Sound json) {backend : Backend}
    (hbackend : self.backend = some backend) :
    backend.Sound ∧ self.Account json (handedOut json backend) := by
  refine ⟨hsound.backend backend hbackend, ?_⟩
  have haccount := hsound.account
  unfold received at haccount
  rw [hbackend] at haccount
  exact haccount

theorem Account.relay {backend : Backend} (hbackend : backend.Sound)
    (haccount : self.Account json (handedOut json backend)) :
    (self.relay backend).Sound json where
  backend := by
    rintro _ ⟨rfl⟩
    exact hbackend
  account := haccount

/-- Without a backend everything that was given is of those before. -/
theorem Account.over {backend : Backend} (hbackend : backend.Sound)
    (hleft : backend.left = [])
    (haccount : self.Account json (handedOut json backend)) {phase : Phase}
    {totalErrors : ℕ} (hphase : ∀ backend, phase ≠ .relaying backend) :
    Sound json { self with
      earlier := self.earlier ++ [backend.arrived]
      phase := phase
      totalErrors := totalErrors } := by
  have hnone : HttpProxy.backend { self with
      earlier := self.earlier ++ [backend.arrived]
      phase := phase
      totalErrors := totalErrors } = none := by
    unfold HttpProxy.backend
    cases phase with
    | creating => rfl
    | ended outcome => rfl
    | relaying other => exact absurd rfl (hphase other)
  constructor
  · intro other hother
    rw [hnone] at hother
    cases hother
  · obtain ⟨calls, hbalanced, hposted⟩ := haccount
    refine ⟨calls, ?_, hposted⟩
    unfold received
    rw [hnone, List.flatMap_append, List.append_nil]
    simpa [handedOut_of_left hbackend hleft] using hbalanced

theorem Account.leave {backend : Backend} (hbackend : backend.Sound)
    (hleft : backend.left = [])
    (haccount : self.Account json (handedOut json backend)) :
    (self.leave backend).Sound json := by
  refine haccount.over hbackend hleft ?_
  intro other
  split_ifs
  · exact Phase.noConfusion
  · exact Phase.noConfusion

theorem handedOut_congr {backend other : Backend}
    (hlines : other.lines = backend.lines) :
    handedOut json other = handedOut json backend := by
  unfold handedOut
  rw [hlines]

/-! ## Messages that are posted -/

theorem post_sound {message : JsonRpcMessage} {verdict : Verdict}
    (hsound : self.Sound json)
    (hmeets : self.Meets json (.post message verdict)) :
    (handleMcpRequest { self with posted := self.posted ++ [message] } message
      verdict).Sound json := by
  obtain ⟨hnotification, hrequest⟩ := hmeets
  obtain ⟨calls, hbalanced, hposted⟩ := hsound.account
  cases message with
  | notification notification => exact absurd rfl (hnotification notification)
  | response response =>
      refine ⟨hsound.backend, calls, hbalanced, ?_⟩
      dsimp only [handleMcpRequest]
      rw [List.filter_append]
      simpa [isCall] using hposted
  | request request =>
      obtain ⟨result, rfl, hopen⟩ := hrequest request rfl
      have hmore : ∀ others : List JsonRpcMessage,
          (calls ++ self.requests.map Queued.original ++
            [JsonRpcMessage.request request]).Perm others →
          ((self.posted ++ [JsonRpcMessage.request request]).filter
            isCall).Perm
            (others.filter isCall) := by
        intro others hothers
        refine List.Perm.trans ?_ (hothers.filter _)
        rw [List.filter_append, List.filter_append]
        exact hposted.append_right _
      rw [handleMcpRequest]
      dsimp only
      split_ifs with hblock hended
      · refine ⟨hsound.backend, calls ++ [.request request],
          hbalanced.block _, hmore _ ?_⟩
        dsimp only [refuse]
        rw [List.append_assoc, List.append_assoc]
        exact List.Perm.append_left _ List.perm_append_comm
      · have hfalse : self.hasEnded = false := hopen (by simpa using hblock)
        have htrue : self.hasEnded = true := hended
        rw [hfalse] at htrue
        cases htrue
      · refine ⟨hsound.backend, calls, hbalanced, hmore _ ?_⟩
        dsimp only
        rw [List.map_append, List.append_assoc]
        exact List.Perm.refl _

/-! ## Steps of the backend task -/

theorem requestBranch_sound {verdict : Verdict} {world : SendWorld}
    {backend : Backend} {queued : Queued} {rest : List Queued}
    (hsound : self.Sound json) (hbackend : self.backend = some backend)
    (hrequests : self.requests = queued :: rest)
    (hout : GoesOut backend queued verdict world) :
    (handleRequest { self with requests := rest } backend queued verdict
      world).Sound json := by
  obtain ⟨hreader, calls, hbalanced, hposted⟩ := hsound.of_backend hbackend
  obtain ⟨result, rfl⟩ := hout.judged
  have hmoved : calls ++ self.requests.map Queued.original =
      calls ++ [queued.original] ++ rest.map Queued.original := by
    rw [hrequests]
    simp
  rw [hmoved] at hposted
  unfold handleRequest
  dsimp only
  split_ifs with hblock
  · obtain ⟨hdrop, _, hlines⟩ := hreader.drop hout.free
    refine Account.relay hdrop ⟨calls ++ [queued.original], ?_, hposted⟩
    rw [handedOut_congr hlines]
    exact hbalanced.block _
  · obtain ⟨hkeeps, honce, hanswers⟩ :=
      hout.kept result rfl (by simpa using hblock)
    obtain ⟨harrived, hsame, hfree, hsent⟩ :=
      @Transport.Backend.send_frame backend world result.message
    have hforwarded : Account json
        { self with
          requests := rest
          ledger := self.ledger.forward queued.original result.message
            (backend.send world result.message).1 }
        (handedOut json (backend.send world result.message).2) := by
      refine ⟨calls ++ [queued.original], ?_, hposted⟩
      rw [handedOut_congr hsame]
      exact hbalanced.forward hkeeps
        (fun _ => (Transport.Backend.send_transmits_iff _ _ _).mpr honce)
        ((Transport.Backend.send_answers_iff _ _ _).mpr hanswers)
    cases hresult : (backend.send world result.message).1.result with
    | error error =>
        have hnothing : (backend.send world result.message).2.left = [] := by
          rw [Transport.Backend.send_left]
          exact Transport.Backend.left_of_send_error backend world honce
            hresult
        exact hforwarded.leave (hsent hreader) hnothing
    | ok _ =>
        obtain ⟨hdrop, _, hlines⟩ :=
          (hsent hreader).drop (hfree.trans hout.free)
        refine Account.relay hdrop ?_
        rw [handedOut_congr hlines]
        exact hforwarded

theorem handleResponse_account {given : JsonRpcMessage} {verdict : Verdict}
    {before : List JsonRpcResponse} (haccount : self.Account json before)
    (hback : ∀ response, given = .response response →
      0 < self.subscribers ∧
        ∃ result, verdict = .ok result ∧ result.block = false ∧
          KeepsResponseId (.response response) result.message) :
    (self.handleResponse given verdict).Account json
      (before ++ (responseOf given).toList) := by
  obtain ⟨calls, hbalanced, hposted⟩ := haccount
  have hdelivered : ∀ written, KeepsResponseId given written →
      Account json { self with ledger := self.ledger.deliver given written }
        (before ++ (responseOf given).toList) := by
    intro written hkeeps
    refine ⟨calls, ?_, hposted⟩
    rw [← List.append_assoc]
    exact hbalanced.deliver hkeeps
  have hquiet : responseOf given = none → self.Account json
      (before ++ (responseOf given).toList) := by
    intro hnone
    rw [hnone, Option.toList_none, List.append_nil]
    exact ⟨calls, hbalanced, hposted⟩
  have hother : responseOf given = none →
      (self.handleResponse given verdict).Account json
        (before ++ (responseOf given).toList) := by
    intro hnone
    have hkeeps : ∀ written, KeepsResponseId given written := by
      rintro written response rfl
      cases hnone
    unfold handleResponse
    cases verdict with
    | error error => exact hquiet hnone
    | ok result =>
        dsimp only
        split_ifs
        · exact hquiet hnone
        · exact hquiet hnone
        · exact hdelivered _ (hkeeps _)
  cases given with
  | request request => exact hother rfl
  | notification notification => exact hother rfl
  | response response =>
      obtain ⟨hsubscribed, result, rfl, hpassed, hkeeps⟩ :=
        hback response rfl
      unfold handleResponse
      dsimp only
      rw [if_neg (by simp [hpassed]), if_neg (by omega)]
      exact hdelivered _ hkeeps

theorem backendBranch_sound {verdict : Verdict} {before backend : Backend}
    {received : Received} (hsound : self.Sound json)
    (hbefore : self.backend = some before)
    (hrecv : before.recv json = some (received, backend))
    (hlost : ∀ error, received = .failed error → expectedError error = false →
      backend.left = [])
    (hback : ∀ response, received = .message (.response response) →
      0 < self.subscribers ∧
        ∃ result, verdict = .ok result ∧ result.block = false ∧
          KeepsResponseId (.response response) result.message) :
    (self.handleReceived backend verdict received).Sound json := by
  obtain ⟨hreader, haccount⟩ := hsound.of_backend hbefore
  obtain ⟨hbackend, _, hcases⟩ := Transport.Backend.recv_cases hreader hrecv
  have hlines : handedOut json backend =
      handedOut json before ++ givenBy received := by
    unfold handedOut
    rcases hcases with ⟨line, hlines, rfl⟩ |
      ⟨hlines, ⟨rfl, _⟩ | ⟨error, rfl⟩⟩
    · rw [hlines, List.filterMap_append,
        ClientProxy.givenBy_readMessageLine]
    · rw [hlines, givenBy, List.append_nil]
    · rw [hlines, givenBy, List.append_nil]
  have hquiet : givenBy received = [] →
      self.Account json (handedOut json backend) := by
    intro hnone
    rw [hlines, hnone, List.append_nil]
    exact haccount
  cases received with
  | blank => exact Account.relay hbackend (hquiet rfl)
  | message given =>
      refine Account.relay hbackend ?_
      rw [hlines]
      apply handleResponse_account haccount
      rintro response rfl
      exact hback response rfl
  | closed =>
      have hleft : backend.left = [] := by
        rcases hcases with ⟨line, hsplit, hclosed⟩ |
          ⟨_, ⟨_, hleft⟩ | ⟨error, herror⟩⟩
        · exact absurd hclosed.symm
            (Transport.readMessageLine_ne_closed json line)
        · exact hleft
        · cases herror
      rw [handleReceived, handleClosed]
      split_ifs
      · have hannounced : Account json { self with
            restartCount := self.restartCount + 1
            trail := self.trail ++ [.announced (self.restartCount + 1)] }
            (handedOut json backend) := hquiet rfl
        exact hannounced.leave hbackend hleft
      · exact (hquiet rfl).over hbackend hleft (fun _ => Phase.noConfusion)
  | failed error =>
      rw [handleReceived]
      split_ifs with hexpected
      · exact Account.relay hbackend (hquiet rfl)
      · exact (hquiet rfl).leave hbackend
          (hlost error rfl (by simpa using hexpected))

/-! ## Backends that begin, write and end -/

theorem handedOut_connect (client : McpClient) (kind : BackendKind) :
    handedOut json (kind.connect client) = [] := by
  cases kind with
  | process command => rfl
  | upstreamHttpSse url => rfl
  | upstreamHttpStream url => rfl

theorem createBackend_sound (hsound : self.Sound json)
    (hphase : self.phase = .creating) (outcome : Except String McpClient) :
    (self.createBackend outcome).Sound json := by
  have hnone : self.backend = none := by
    unfold HttpProxy.backend
    rw [hphase]
  have haccount := hsound.account
  unfold received at haccount
  rw [hnone] at haccount
  cases outcome with
  | ok client =>
      refine Account.relay
        (Transport.Backend.connect_sound client self.kind) ?_
      rw [handedOut_connect]
      exact haccount
  | error error =>
      refine ⟨?_, haccount⟩
      intro backend hbackend
      cases hbackend

theorem onStdout_sound {change : LineReader UInt8 → Option (LineReader UInt8)}
    (hsound : self.Sound json)
    (hchange : ∀ reader other, reader.Sound newline →
      change reader = some other →
      other.Sound newline ∧ other.lines = reader.lines)
    (hstep : (self.backend.bind (·.onStdout change)).map self.relay =
      some next) : next.Sound json := by
  obtain ⟨before, after, hbefore, hchanged, rfl⟩ :=
    exists_relay_of_onStdout hstep
  obtain ⟨hreader, haccount⟩ := hsound.of_backend hbefore
  cases before with
  | upstream stream client => cases hchanged
  | process stdout =>
      obtain ⟨other, hother, rfl⟩ := Option.map_eq_some_iff.mp hchanged
      obtain ⟨hother', hlines⟩ := hchange stdout other hreader hother
      have hsame : handedOut json (.process other) =
          handedOut json (.process stdout) := handedOut_congr hlines
      refine Account.relay hother' ?_
      rw [hsame]
      exact haccount

theorem requestsClose_sound {backend : Backend} (hsound : self.Sound json)
    (hbackend : self.backend = some backend) (hleft : backend.left = []) :
    Sound json { self with
      earlier := self.earlier ++ [backend.arrived]
      phase := .ended (.ok ()) } := by
  obtain ⟨hreader, haccount⟩ := hsound.of_backend hbackend
  exact haccount.over hreader hleft (fun _ => Phase.noConfusion)

theorem step_sound {action : Action} (hsound : self.Sound json)
    (hmeets : self.Meets json action)
    (hstep : self.step json action = some next) : next.Sound json := by
  cases action with
  | post message verdict =>
      cases hstep
      exact post_sound hsound hmeets
  | subscribe =>
      cases hstep
      exact ⟨hsound.backend, hsound.account⟩
  | unsubscribe =>
      cases hstep
      exact ⟨hsound.backend, hsound.account⟩
  | createBackend outcome =>
      obtain ⟨hphase, rfl⟩ := step_createBackend hstep
      exact createBackend_sound hsound hphase outcome
  | backendSends chunk =>
      refine onStdout_sound hsound ?_ hstep
      intro reader other hreader hother
      exact ⟨hreader.arrive hother, ClientProxy.arrive_lines hother⟩
  | backendCloses =>
      refine onStdout_sound hsound ?_ hstep
      rintro reader _ hreader ⟨rfl⟩
      exact ⟨hreader.close, rfl⟩
  | backendWaits =>
      refine onStdout_sound hsound ?_ hstep
      intro reader other hreader hother
      exact ⟨hreader.poll hother, ClientProxy.poll_lines hother⟩
  | requestBranch verdict world =>
      obtain ⟨backend, queued, rest, hbackend, hrequests, rfl⟩ :=
        step_requestBranch hstep
      exact requestBranch_sound hsound hbackend hrequests
        (hmeets backend queued rest hbackend hrequests)
  | requestsClose =>
      obtain ⟨backend, hbackend, rfl⟩ := step_requestsClose hstep
      exact requestsClose_sound hsound hbackend (hmeets backend hbackend)
  | backendBranch verdict =>
      obtain ⟨before, received, backend, hbefore, hrecv, rfl⟩ :=
        step_backendBranch hstep
      obtain ⟨hlost, hback⟩ := hmeets before received backend hbefore hrecv
      exact backendBranch_sound hsound hbefore hrecv hlost hback

/-- In a run whose steps all meet the condition the relay owes nothing
whenever it has read everything. -/
theorem throughout_complete {autoRestart : Bool} {kind : BackendKind}
    {trace : List Action}
    (halong : (machine json).Along (Meets json) (start autoRestart kind)
      trace) :
    (machine json).Throughout (Complete json) (start autoRestart kind)
      trace := by
  refine StepMachine.throughout_of_along ?_
    (fun found (hsound : Sound json found) => hsound.complete)
    (start_sound json autoRestart kind) halong
  intro before action after hsound hstep hmeets
  exact step_sound hsound hmeets hstep

end HttpProxy

/-! ## Both front ends -/

section FrontEnds

variable (json : SerdeJson) (autoRestart : Bool) (kind : BackendKind)
  (client : McpClient) (clientTrace : List ClientProxy.Action)
  (sessionTrace : List HttpProxy.Action)

/-- Neither relay owes anything when it has read everything. -/
def RelaysCompletely : Prop :=
  (ClientProxy.machine json).Throughout (ClientProxy.Complete json)
      (ClientProxy.start autoRestart kind client) clientTrace ∧
    (HttpProxy.machine json).Throughout (HttpProxy.Complete json)
      (HttpProxy.start autoRestart kind) sessionTrace

theorem relaysCompletely_of_along
    (hclient : (ClientProxy.machine json).Along (ClientProxy.Meets json)
      (ClientProxy.start autoRestart kind client) clientTrace)
    (hsession : (HttpProxy.machine json).Along (HttpProxy.Meets json)
      (HttpProxy.start autoRestart kind) sessionTrace) :
    RelaysCompletely json autoRestart kind client clientTrace sessionTrace :=
  ⟨ClientProxy.throughout_complete hclient,
    HttpProxy.throughout_complete hsession⟩

end FrontEnds

def pingRequest : JsonRpcRequest := ⟨"2.0", .number 1, "ping", none⟩

/-- Every text is the document of the request. -/
def pingJson : SerdeJson where
  parse _ :=
    .ok (.obj [("jsonrpc", .str "2.0"), ("id", .int 1), ("method", .str "ping")])
  floats := ⟨fun _ => "", fun _ => none⟩
  mismatch _ := ""

def pingVerdict : Verdict :=
  .ok (InterceptionResult.passThrough (.request pingRequest))

def openPipe : SendWorld where
  written := .ok ()
  overflowChecks := false
  attempts _ := ⟨.new, Auth.smallInstant, 0, fun _ _ => .error (.internal ""), .new,
    Auth.smallInstant, 0⟩
  notified := .ok ()

def readyClient : McpClient where
  config := ⟨⟨30, 0, by decide⟩, 3, ⟨1, 0, by decide⟩⟩
  state := .ready
  stats := {}
  requestCounter := 0
  sessionId := none

def pingTrace : List ClientProxy.Action :=
  [.clientSends [123, newline], .clientBranch pingVerdict openPipe]

def pingSession : List HttpProxy.Action :=
  [.createBackend (.ok readyClient), .post (.request pingRequest) pingVerdict,
    .requestBranch pingVerdict openPipe]

theorem pingJson_message (text : String) :
    pingJson.message text = .ok (.request pingRequest) := rfl

theorem eq_of_lineMessage_pingJson {line : Bytes} {message : JsonRpcMessage}
    (hline : lineMessage pingJson line = some message) :
    message = .request pingRequest := by
  unfold lineMessage readMessageLine at hline
  cases hdecode : Transport.decodeUtf8 line with
  | none => simp [hdecode] at hline
  | some text =>
      rw [hdecode] at hline
      dsimp only at hline
      by_cases hblank : Text.trim text = ""
      · simp [hblank] at hline
      · rw [if_neg hblank, pingJson_message] at hline
        cases hline
        rfl

theorem keepsRequestId_refl (message : JsonRpcMessage) :
    KeepsRequestId message message := by
  rintro before after rfl hafter
  cases hafter
  rfl

/-- A ping that the interceptors let pass goes out over either front end. -/
theorem pingTraces_relaysCompletely :
    RelaysCompletely pingJson true (.process "server") readyClient pingTrace
      pingSession := by
  apply relaysCompletely_of_along
  · refine StepMachine.Along.cons rfl trivial ?_
    intro next hstep
    refine ⟨?_, trivial⟩
    intro line rest hread hline
    refine ⟨fun _ => rfl, ?_⟩
    intro message hmessage
    rw [eq_of_lineMessage_pingJson hmessage]
    refine ⟨fun _ => ⟨_, rfl⟩, ?_⟩
    rintro result ⟨⟩ _
    exact ⟨keepsRequestId_refl _, fun _ => rfl, trivial⟩
  · refine StepMachine.Along.cons rfl trivial ?_
    refine StepMachine.Along.cons rfl ?_ ?_
    · refine ⟨fun _ => JsonRpcMessage.noConfusion, ?_⟩
      rintro request ⟨⟩
      exact ⟨_, rfl, fun _ => rfl⟩
    intro next hstep
    refine ⟨?_, trivial⟩
    rintro backend queued rest ⟨⟩ ⟨⟩
    refine ⟨rfl, ⟨_, rfl⟩, ?_⟩
    rintro result ⟨⟩ _
    exact ⟨keepsRequestId_refl _, rfl, trivial⟩

def initialized : JsonRpcMessage :=
  .notification ⟨"2.0", "notifications/initialized", none⟩

/-- A notification that is posted is accepted and goes nowhere. -/
theorem not_relaysCompletely :
    ¬ ∀ json autoRestart kind client clientTrace sessionTrace,
      RelaysCompletely json autoRestart kind client clientTrace
        sessionTrace := by
  intro hall
  have hsession := (hall pingJson false (.process "server") readyClient []
    [.createBackend (.ok readyClient),
      .post initialized
        (.ok (InterceptionResult.passThrough initialized))]).2
  have hrelays := hsession _ (List.prefix_refl _) _ rfl
    ⟨rfl, by rintro backend ⟨⟩; rfl⟩
  have hlength := hrelays.settled.length_eq
  cases hlength

end Tui
end Acdp
