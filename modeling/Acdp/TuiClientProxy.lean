import Acdp.TuiRelay

/-!
# The relay loop for one client

The loop waits for a line of the client and for a message of the backend, and
the one that is ready first is handled to its end; what the other read has
taken by then is given up.  It owes nothing as long as the backend is one that
is received from, no read is given up with part of a line, and neither the
interceptors nor the pipes fail on a message.
-/

namespace Acdp
namespace Tui

open Acdp.Core Json
open Transport (Backend BackendKind Exchange Received SendWorld decodeUtf8
  lineMessage newline readMessageLine)

/-- `outcome` is set when the loop is over. -/
structure ClientProxy where
  autoRestart : Bool
  client : LineReader UInt8
  backend : Backend
  outcome : Option (Except String Unit)
  ledger : RelayLedger

namespace ClientProxy

def start (autoRestart : Bool) (kind : BackendKind) (client : McpClient) :
    ClientProxy where
  autoRestart := autoRestart
  client := .new
  backend := kind.connect client
  outcome := none
  ledger := .new

/-- What happens around the loop, and its two branches with what they meet. -/
inductive Action where
  | clientSends (chunk : Bytes)
  | clientCloses
  | clientWaits
  | backendSends (chunk : Bytes)
  | backendCloses
  | backendWaits
  | clientBranch (verdict : Verdict) (world : SendWorld)
  | backendBranch (verdict : Verdict) (written : Except String Unit)

section Branches

variable (json : SerdeJson) (self : ClientProxy)

/-- The errors of `recv` that the loop expects. -/
def expectedError (error : String) : Bool :=
  Text.contains error "HTTP-SSE receive not implemented" ||
    Text.contains error "HTTP-Stream receive not implemented"

def stop (outcome : Except String Unit) : ClientProxy :=
  { self with outcome := some outcome }

/-- The branch for the client is done: the read of the backend is given up. -/
def afterClient : ClientProxy := { self with backend := self.backend.drop }

def afterBackend : ClientProxy := { self with client := self.client.drop }

def handleClientMessage (verdict : Verdict) (world : SendWorld)
    (message : JsonRpcMessage) : ClientProxy :=
  match verdict with
  | .error error => self.stop (.error ("Interceptor error: " ++ error))
  | .ok result =>
      if result.block then
        afterClient { self with ledger := self.ledger.block message }
      else
        let sent := self.backend.send world result.message
        let forwarded :=
          { self with
            backend := sent.2
            ledger := self.ledger.forward message result.message sent.1 }
        match sent.1.result with
        | .error error => forwarded.stop (.error error)
        | .ok () => forwarded.afterClient

def handleClientLine (verdict : Verdict) (world : SendWorld) (line : Bytes) :
    ClientProxy :=
  match decodeUtf8 line with
  | none =>
      self.stop (.error
        "Client read error: stream did not contain valid UTF-8")
  | some text =>
      if Text.trim text = "" then self.afterClient
      else
        match json.message (Text.trim text) with
        | .error _ =>
            self.stop
              (.error "Failed to parse JSON-RPC message from client")
        | .ok message => self.handleClientMessage verdict world message

def clientBranch (verdict : Verdict) (world : SendWorld) :
    Option ClientProxy :=
  (self.client.readLine newline).map fun (line, rest) =>
    if line = [] then { self with client := rest }.stop (.ok ())
    else
      { self with client := rest.record line }.handleClientLine json verdict
        world line

/-- The message is written as text and read again before it is handled. -/
def reread (message : JsonRpcMessage) : Except String JsonRpcMessage :=
  json.message (Text.trim (print (message.serialize json.floats)))

def handleBackendMessage (verdict : Verdict) (written : Except String Unit)
    (given : JsonRpcMessage) : ClientProxy :=
  match reread json given with
  | .error _ =>
      self.stop (.error "Failed to parse JSON-RPC message from backend")
  | .ok _ =>
      match verdict with
      | .error error => self.stop (.error ("Interceptor error: " ++ error))
      | .ok result =>
          if result.block then self.afterBackend
          else
            match written with
            | .error error => self.stop (.error error)
            | .ok () =>
                afterBackend { self with
                  ledger := self.ledger.deliver given result.message }

def handleReceived (verdict : Verdict) (written : Except String Unit) :
    Received → ClientProxy
  | .blank => self
  | .message given => self.handleBackendMessage json verdict written given
  | .closed =>
      self.stop
        (if self.autoRestart then
          .error "Backend connection closed - restart not yet implemented"
        else .ok ())
  | .failed error =>
      if expectedError error then self.afterBackend
      else self.stop (.error error)

def backendBranch (verdict : Verdict) (written : Except String Unit) :
    Option ClientProxy :=
  (self.backend.recv json).map fun (received, backend) =>
    { self with backend := backend }.handleReceived json verdict written
      received

def act : Action → Option ClientProxy
  | .clientSends chunk =>
      (self.client.arrive chunk).map ({ self with client := · })
  | .clientCloses => some { self with client := self.client.close }
  | .clientWaits =>
      (self.client.poll newline).map ({ self with client := · })
  | .backendSends chunk =>
      (self.backend.onStdout (LineReader.arrive · chunk)).map
        ({ self with backend := · })
  | .backendCloses =>
      (self.backend.onStdout (some ·.close)).map ({ self with backend := · })
  | .backendWaits =>
      (self.backend.onStdout (LineReader.poll newline)).map
        ({ self with backend := · })
  | .clientBranch verdict world => self.clientBranch json verdict world
  | .backendBranch verdict written => self.backendBranch json verdict written

def step (action : Action) : Option ClientProxy :=
  if self.outcome.isNone then self.act json action else none

end Branches

def machine (json : SerdeJson) : StepMachine ClientProxy Action where
  step := step json

/-! ## What the relay owes -/

/-- The messages that the client has sent. -/
def calls (json : SerdeJson) (self : ClientProxy) : List JsonRpcMessage :=
  (splitLines newline self.client.arrived).filterMap (lineMessage json)

/-- The responses that a process has given. -/
def responses (json : SerdeJson) (self : ClientProxy) :
    List JsonRpcResponse :=
  (splitLines newline self.backend.arrived).filterMap
    (fun line => (lineMessage json line).bind responseOf)

/-- No input is left unread. -/
def Idle (self : ClientProxy) : Prop :=
  self.client.left = [] ∧ self.backend.left = []

def Complete (json : SerdeJson) (self : ClientProxy) : Prop :=
  self.Idle → Relays (self.calls json) (self.responses json) self.ledger

/-- The interceptors let the message pass as it is identified, or block it,
and the backend takes it once and does not answer on the spot. -/
structure GetsThrough (backend : Backend) (message : JsonRpcMessage)
    (verdict : Verdict) (world : SendWorld) : Prop where
  judged : isCall message = true → ∃ result, verdict = .ok result
  kept : ∀ result, verdict = .ok result → result.block = false →
    KeepsRequestId message result.message ∧
    (isCall message = true → backend.TransmitsOnce world result.message) ∧
    backend.AnswersNothing world result.message

/-- A response is read again, let pass under its identifier, and written. -/
def GetsBack (json : SerdeJson) (given : JsonRpcMessage) (verdict : Verdict)
    (written : Except String Unit) : Prop :=
  ∃ read result, reread json given = .ok read ∧ verdict = .ok result ∧
    result.block = false ∧ KeepsResponseId given result.message ∧
    written = .ok ()

/-- After this the loop goes on, and the read of the client is given up. -/
def givesUpClient : Received → Bool
  | .message _ => true
  | .failed error => expectedError error
  | _ => false

/-- The condition on each step. -/
def Meets (json : SerdeJson) (self : ClientProxy) : Action → Prop
  | .clientBranch verdict world =>
      ∀ line rest, self.client.readLine newline = some (line, rest) →
        line ≠ [] →
        ((∀ error, readMessageLine json line ≠ .failed error) →
          self.backend.taken = []) ∧
        ∀ message, lineMessage json line = some message →
          GetsThrough self.backend message verdict world
  | .backendBranch verdict written =>
      ∀ received backend, self.backend.recv json = some (received, backend) →
        (givesUpClient received = true → self.client.taken = []) ∧
        ∀ response, received = .message (.response response) →
          GetsBack json (.response response) verdict written
  | _ => True

/-! ## Nothing is owed -/

/-- The readers are sound, and the account of the lines they have handed out
is balanced. -/
structure Sound (json : SerdeJson) (proxy : ClientProxy) : Prop where
  client : proxy.client.Sound newline
  backend : proxy.backend.Sound
  balanced : Balanced (proxy.client.lines.filterMap (lineMessage json))
    (proxy.backend.lines.filterMap
      (fun line => (lineMessage json line).bind responseOf)) proxy.ledger

variable {json : SerdeJson} {self next : ClientProxy}

theorem start_sound (json : SerdeJson) (autoRestart : Bool)
    (kind : BackendKind) (client : McpClient) :
    (start autoRestart kind client).Sound json where
  client := LineReader.new_sound
  backend := Transport.Backend.connect_sound client kind
  balanced := by
    cases kind with
    | process command => exact Balanced.new
    | upstreamHttpSse url => exact Balanced.new
    | upstreamHttpStream url => exact Balanced.new

theorem Sound.complete (hsound : self.Sound json) : self.Complete json := by
  rintro ⟨hclient, hbackend⟩
  have hcalls : splitLines newline self.client.arrived = self.client.lines := by
    have hfaithful := hsound.client.faithful
    unfold LineReader.Faithful at hfaithful
    rw [hclient] at hfaithful
    exact hfaithful.trans (List.append_nil _)
  have hresponses := hsound.backend.splitLines_of_left hbackend
  unfold calls responses
  rw [hcalls, hresponses]
  exact hsound.balanced.relays

theorem Sound.stop (hsound : self.Sound json) (outcome : Except String Unit) :
    (self.stop outcome).Sound json :=
  ⟨hsound.client, hsound.backend, hsound.balanced⟩

theorem Sound.afterClient (hsound : self.Sound json)
    (htaken : self.backend.taken = []) : self.afterClient.Sound json := by
  obtain ⟨hdrop, _, hlines⟩ := hsound.backend.drop htaken
  refine ⟨hsound.client, hdrop, ?_⟩
  unfold ClientProxy.afterClient
  rw [hlines]
  exact hsound.balanced

theorem Sound.afterBackend (hsound : self.Sound json)
    (htaken : self.client.taken = []) : self.afterBackend.Sound json :=
  ⟨hsound.client.drop htaken, hsound.backend, hsound.balanced⟩

theorem Sound.onStdout {change : LineReader UInt8 → Option (LineReader UInt8)}
    (hsound : self.Sound json)
    (hchange : ∀ reader other, reader.Sound newline →
      change reader = some other →
      other.Sound newline ∧ other.lines = reader.lines)
    {backend : Backend} (hbackend : self.backend.onStdout change = some backend) :
    Sound json { self with backend := backend } := by
  cases hkind : self.backend with
  | upstream stream client =>
      rw [hkind] at hbackend
      cases hbackend
  | process stdout =>
      rw [hkind] at hbackend
      obtain ⟨other, hother, rfl⟩ := Option.map_eq_some_iff.mp hbackend
      have hstdout := hsound.backend
      rw [hkind] at hstdout
      obtain ⟨hsound', hlines⟩ := hchange stdout other hstdout hother
      refine ⟨hsound.client, hsound', ?_⟩
      have hbalanced := hsound.balanced
      rw [hkind] at hbalanced
      change Balanced _ (other.lines.filterMap _) _
      rw [hlines]
      exact hbalanced

theorem arrive_lines {reader other : LineReader UInt8} {chunk : Bytes}
    (harrive : reader.arrive chunk = some other) :
    other.lines = reader.lines := by
  unfold LineReader.arrive at harrive
  split_ifs at harrive
  cases harrive
  rfl

theorem poll_lines {reader other : LineReader UInt8}
    (hpoll : reader.poll newline = some other) :
    other.lines = reader.lines := by
  unfold LineReader.poll at hpoll
  split_ifs at hpoll
  cases hpoll
  rfl

/-! ## The branch for the client -/

theorem handleClientMessage_sound {verdict : Verdict} {world : SendWorld}
    {message : JsonRpcMessage} {calls : List JsonRpcMessage}
    (hclient : self.client.Sound newline) (hbackend : self.backend.Sound)
    (hbalanced : Balanced calls
      (self.backend.lines.filterMap
        (fun line => (lineMessage json line).bind responseOf)) self.ledger)
    (hlines : self.client.lines.filterMap (lineMessage json) =
      calls ++ [message])
    (htaken : self.backend.taken = [])
    (hthrough : GetsThrough self.backend message verdict world) :
    (self.handleClientMessage verdict world message).Sound json := by
  unfold handleClientMessage
  cases hverdict : verdict with
  | error error =>
      have hskip : isCall message = false := by
        cases hcall : isCall message with
        | false => rfl
        | true =>
            obtain ⟨result, hresult⟩ := hthrough.judged hcall
            rw [hverdict] at hresult
            cases hresult
      refine ⟨hclient, hbackend, ?_⟩
      change Balanced (self.client.lines.filterMap _) _ self.ledger
      rw [hlines]
      exact hbalanced.skip hskip
  | ok result =>
      dsimp only
      split_ifs with hblock
      · have hblocked : Sound json
            { self with ledger := self.ledger.block message } := by
          refine ⟨hclient, hbackend, ?_⟩
          dsimp only
          rw [hlines]
          exact hbalanced.block message
        exact hblocked.afterClient htaken
      · obtain ⟨hkeeps, honce, hanswers⟩ :=
          hthrough.kept result hverdict (by simpa using hblock)
        obtain ⟨_, hsame, hfree, hsent⟩ :=
          @Transport.Backend.send_frame self.backend world result.message
        have hforwarded : Sound json
            { self with
              backend := (self.backend.send world result.message).2
              ledger := self.ledger.forward message result.message
                (self.backend.send world result.message).1 } := by
          refine ⟨hclient, hsent hbackend, ?_⟩
          dsimp only
          rw [hlines, hsame]
          exact hbalanced.forward hkeeps
            (fun hcall => (Transport.Backend.send_transmits_iff _ _ _).mpr
              (honce hcall))
            ((Transport.Backend.send_answers_iff _ _ _).mpr hanswers)
        cases (self.backend.send world result.message).1.result with
        | error error => exact hforwarded.stop _
        | ok _ => exact hforwarded.afterClient (hfree.trans htaken)

theorem lineMessage_eq_none_of {line : Bytes}
    (hline : ∀ message, readMessageLine json line ≠ .message message) :
    lineMessage json line = none := by
  unfold lineMessage
  split
  · rename_i message hmessage
    exact absurd hmessage (hline message)
  · rfl

/-- A line that is no message changes nothing of the account. -/
theorem sound_of_noMessage {line : Bytes} {rest : LineReader UInt8}
    (hsound : self.Sound json)
    (hread : self.client.readLine newline = some (line, rest))
    (hline : line ≠ []) (hnone : lineMessage json line = none) :
    Sound json { self with client := rest.record line } := by
  refine ⟨hsound.client.readLine hread hline, hsound.backend, ?_⟩
  have hlines : (rest.record line).lines = self.client.lines ++ [line] :=
    congrArg (· ++ [line]) (LineReader.readLine_frame hread).2.2
  dsimp only
  rw [hlines, List.filterMap_append]
  simpa [hnone] using hsound.balanced

theorem clientBranch_sound {verdict : Verdict} {world : SendWorld}
    (hsound : self.Sound json)
    (hmeets : self.Meets json (.clientBranch verdict world))
    (hbranch : self.clientBranch json verdict world = some next) :
    next.Sound json := by
  obtain ⟨⟨line, rest⟩, hread, hreturn⟩ := Option.map_eq_some_iff.mp hbranch
  dsimp only at hreturn
  split_ifs at hreturn with hline
  · rw [hline] at hread
    obtain ⟨_, _, hrest⟩ := LineReader.eq_of_readLine_nil hread
    rw [← hreturn, hrest]
    exact hsound.stop _
  · obtain ⟨hfree, hthrough⟩ := hmeets line rest hread hline
    have hreader := hsound.client.readLine hread hline
    have hlines : (rest.record line).lines = self.client.lines ++ [line] :=
      congrArg (· ++ [line]) (LineReader.readLine_frame hread).2.2
    rw [← hreturn]
    unfold handleClientLine
    cases hdecode : decodeUtf8 line with
    | none =>
        have hnone : lineMessage json line = none :=
          lineMessage_eq_none_of (by simp [readMessageLine, hdecode])
        exact (sound_of_noMessage hsound hread hline hnone).stop _
    | some text =>
        dsimp only
        split_ifs with hblank
        · have hread' : readMessageLine json line = .blank := by
            simp [readMessageLine, hdecode, hblank]
          have hnone : lineMessage json line = none :=
            lineMessage_eq_none_of (by simp [hread'])
          exact (sound_of_noMessage hsound hread hline hnone).afterClient
            (hfree (by simp [hread']))
        · cases hmessage : json.message (Text.trim text) with
          | error error =>
              have hnone : lineMessage json line = none :=
                lineMessage_eq_none_of (by
                  simp [readMessageLine, hdecode, hblank, hmessage])
              exact (sound_of_noMessage hsound hread hline hnone).stop _
          | ok message =>
              have hread' : readMessageLine json line = .message message := by
                simp [readMessageLine, hdecode, hblank, hmessage]
              have hsome : lineMessage json line = some message := by
                simp [lineMessage, hread']
              refine handleClientMessage_sound hreader hsound.backend
                hsound.balanced ?_ (hfree (by simp [hread']))
                (hthrough message hsome)
              dsimp only
              rw [hlines, List.filterMap_append]
              simp [hsome]

/-! ## The branch for the backend -/

/-- Whatever becomes of a message that is no response, the account stays
balanced. -/
theorem handleBackendMessage_sound {verdict : Verdict}
    {written : Except String Unit} {given : JsonRpcMessage}
    (hsound : self.Sound json)
    (hdelivered : ∀ result, Sound json { self with
      ledger := self.ledger.deliver given result })
    (hfree : self.client.taken = []) :
    (self.handleBackendMessage json verdict written given).Sound json := by
  unfold handleBackendMessage
  cases reread json given with
  | error error => exact hsound.stop _
  | ok read =>
      cases verdict with
      | error error => exact hsound.stop _
      | ok result =>
          dsimp only
          split_ifs
          · exact hsound.afterBackend hfree
          · cases written with
            | error error => exact hsound.stop _
            | ok _ => exact (hdelivered _).afterBackend hfree

theorem handleBackendMessage_sound_of_getsBack {verdict : Verdict}
    {written : Except String Unit} {given : JsonRpcMessage}
    (hdelivered : ∀ result, KeepsResponseId given result →
      Sound json { self with ledger := self.ledger.deliver given result })
    (hfree : self.client.taken = [])
    (hback : GetsBack json given verdict written) :
    (self.handleBackendMessage json verdict written given).Sound json := by
  obtain ⟨read, result, hreread, hverdict, hpassed, hkeeps, hwritten⟩ := hback
  unfold handleBackendMessage
  rw [hreread, hverdict, hwritten]
  dsimp only
  rw [if_neg (by simp [hpassed])]
  exact (hdelivered _ hkeeps).afterBackend hfree

/-- The responses that are received. -/
def givenBy : Received → List JsonRpcResponse
  | .message given => (responseOf given).toList
  | .blank => []
  | .closed => []
  | .failed _ => []

theorem givenBy_readMessageLine (json : SerdeJson) (line : Bytes) :
    [line].filterMap (fun line => (lineMessage json line).bind responseOf) =
      givenBy (readMessageLine json line) := by
  unfold lineMessage
  cases hline : readMessageLine json line with
  | message given => cases given <;> simp [hline, givenBy, responseOf]
  | blank => simp [hline, givenBy]
  | closed => simp [hline, givenBy]
  | failed error => simp [hline, givenBy]

theorem handleReceived_sound {verdict : Verdict}
    {written : Except String Unit} {received : Received}
    {responses : List JsonRpcResponse}
    (hclient : self.client.Sound newline) (hbackend : self.backend.Sound)
    (hbalanced : Balanced (self.client.lines.filterMap (lineMessage json))
      responses self.ledger)
    (hlines : self.backend.lines.filterMap
        (fun line => (lineMessage json line).bind responseOf) =
      responses ++ givenBy received)
    (hfree : givesUpClient received = true → self.client.taken = [])
    (hback : ∀ response, received = .message (.response response) →
      GetsBack json (.response response) verdict written) :
    (self.handleReceived json verdict written received).Sound json := by
  have hquiet : givenBy received = [] → self.Sound json := by
    intro hnone
    refine ⟨hclient, hbackend, ?_⟩
    rw [hlines, hnone, List.append_nil]
    exact hbalanced
  cases received with
  | blank => exact hquiet rfl
  | closed => exact (hquiet rfl).stop _
  | failed error =>
      rw [handleReceived]
      split_ifs with hexpected
      · exact (hquiet rfl).afterBackend (hfree hexpected)
      · exact (hquiet rfl).stop _
  | message given =>
      have hdelivered : ∀ result, KeepsResponseId given result →
          Sound json { self with
            ledger := self.ledger.deliver given result } := by
        intro result hkeeps
        refine ⟨hclient, hbackend, ?_⟩
        dsimp only
        rw [hlines]
        exact hbalanced.deliver hkeeps
      cases given with
      | response response =>
          exact handleBackendMessage_sound_of_getsBack hdelivered (hfree rfl)
            (hback response rfl)
      | request request =>
          exact handleBackendMessage_sound (hquiet rfl)
            (fun result => hdelivered result (fun _ h => by cases h))
            (hfree rfl)
      | notification notification =>
          exact handleBackendMessage_sound (hquiet rfl)
            (fun result => hdelivered result (fun _ h => by cases h))
            (hfree rfl)

theorem backendBranch_sound {verdict : Verdict}
    {written : Except String Unit} (hsound : self.Sound json)
    (hmeets : self.Meets json (.backendBranch verdict written))
    (hbranch : self.backendBranch json verdict written = some next) :
    next.Sound json := by
  obtain ⟨⟨received, backend⟩, hrecv, rfl⟩ :=
    Option.map_eq_some_iff.mp hbranch
  obtain ⟨hfree, hback⟩ := hmeets received backend hrecv
  obtain ⟨hbackend, _, hcases⟩ :=
    Transport.Backend.recv_cases hsound.backend hrecv
  refine handleReceived_sound hsound.client hbackend hsound.balanced ?_ hfree
    hback
  rcases hcases with ⟨line, hlines, rfl⟩ |
    ⟨hlines, ⟨rfl, _⟩ | ⟨error, rfl⟩⟩
  · dsimp only
    rw [hlines, List.filterMap_append]
    congr 1
    exact givenBy_readMessageLine json line
  · dsimp only
    rw [hlines, givenBy, List.append_nil]
  · dsimp only
    rw [hlines, givenBy, List.append_nil]

theorem act_sound {action : Action} (hsound : self.Sound json)
    (hmeets : self.Meets json action)
    (hact : self.act json action = some next) : next.Sound json := by
  cases action with
  | clientSends chunk =>
      obtain ⟨reader, hreader, rfl⟩ := Option.map_eq_some_iff.mp hact
      refine ⟨hsound.client.arrive hreader, hsound.backend, ?_⟩
      dsimp only
      rw [arrive_lines hreader]
      exact hsound.balanced
  | clientCloses =>
      cases hact
      exact ⟨hsound.client.close, hsound.backend, hsound.balanced⟩
  | clientWaits =>
      obtain ⟨reader, hreader, rfl⟩ := Option.map_eq_some_iff.mp hact
      refine ⟨hsound.client.poll hreader, hsound.backend, ?_⟩
      dsimp only
      rw [poll_lines hreader]
      exact hsound.balanced
  | backendSends chunk =>
      obtain ⟨backend, hbackend, rfl⟩ := Option.map_eq_some_iff.mp hact
      refine hsound.onStdout ?_ hbackend
      intro reader other hreader hother
      exact ⟨hreader.arrive hother, arrive_lines hother⟩
  | backendCloses =>
      obtain ⟨backend, hbackend, rfl⟩ := Option.map_eq_some_iff.mp hact
      refine hsound.onStdout ?_ hbackend
      rintro reader _ hreader ⟨rfl⟩
      exact ⟨hreader.close, rfl⟩
  | backendWaits =>
      obtain ⟨backend, hbackend, rfl⟩ := Option.map_eq_some_iff.mp hact
      refine hsound.onStdout ?_ hbackend
      intro reader other hreader hother
      exact ⟨hreader.poll hother, poll_lines hother⟩
  | clientBranch verdict world => exact clientBranch_sound hsound hmeets hact
  | backendBranch verdict written =>
      exact backendBranch_sound hsound hmeets hact

/-- In a run whose steps meet the condition the relay owes nothing whenever it
has read everything. -/
theorem throughout_complete {autoRestart : Bool} {kind : BackendKind}
    {client : McpClient} {trace : List Action}
    (halong : (machine json).Along (Meets json)
      (start autoRestart kind client) trace) :
    (machine json).Throughout (Complete json) (start autoRestart kind client)
      trace := by
  refine StepMachine.throughout_of_along ?_
    (fun found (hsound : Sound json found) => hsound.complete)
    (start_sound json autoRestart kind client) halong
  intro before action after hsound hstep hmeets
  change (if before.outcome.isNone then before.act json action else none) =
    some after at hstep
  split_ifs at hstep
  exact act_sound hsound hmeets hstep

end ClientProxy

end Tui
end Acdp
