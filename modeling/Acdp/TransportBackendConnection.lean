import Acdp.CoreClient
import Acdp.TransportStdioLoop

/-!
# Connections to a backend

A backend is a process that speaks line by line, or an upstream server behind
a client.  Sending to a process writes a line, and its answers are received
later; sending a request to a server waits for the answer, gives it up, and
receiving always fails.
-/

namespace Acdp
namespace Transport

open Acdp.Core Json

inductive BackendKind where
  | process (command : String)
  | upstreamHttpSse (url : String)
  | upstreamHttpStream (url : String)
  deriving DecidableEq, Repr

def detectTransportFromUrl (url : String) : Option String :=
  if Text.contains url "/stream" || Text.contains url "/message" then
    some "http-stream"
  else if Text.startsWith url "http://" || Text.startsWith url "https://" then
    some "http-sse"
  else none

/-- The kind of backend that is asked for; whether it can be had is another
matter. -/
def createBackendConnection (backendUrl backendCommand backendTransport :
    Option String) : Except String BackendKind :=
  match backendUrl with
  | some url =>
      let transport :=
        (backendTransport.or (detectTransportFromUrl url)).getD "http-sse"
      if transport = "http-sse" then .ok (.upstreamHttpSse url)
      else if transport = "http-stream" then .ok (.upstreamHttpStream url)
      else .error ("Unsupported transport: " ++ transport)
  | none =>
      match backendCommand with
      | some command =>
          if command = "" then
            .error "backend_command is empty and backend_url not set"
          else .ok (.process command)
      | none => .error "Either backend_url or backend_command must be set"

/-- What comes of sending a message: how often it went out, what was answered
at once, and what `send` returns. -/
structure Exchange where
  transmissions : ℕ
  answers : List JsonRpcResponse
  result : Except String Unit

/-- What `send` meets: the pipe to a process, or the client of a server. -/
structure SendWorld where
  written : Except String Unit
  overflowChecks : Bool
  attempts : ℕ → Attempt
  notified : McpResult Unit

def answerOf : Event → Option JsonRpcResponse
  | .transmitted _ (.ok response) => some response
  | _ => none

def nullParams : OrderedValue := ⟨.null, .null⟩

namespace Upstream

/-- The response is not looked at. -/
def sendRequest (client : McpClient) (world : SendWorld)
    (request : JsonRpcRequest) : Exchange × McpClient :=
  let (finished, client) := client.sendRequest world.overflowChecks
    world.attempts request.method (.ok (request.params.getD nullParams))
  (⟨finished.events.countP Event.transmits,
    finished.events.filterMap answerOf,
    match finished.result with
    | some (.ok _) => .ok ()
    | some (.error error) => .error error.display
    | none => .error "attempt to multiply with overflow"⟩, client)

def sendNotification (client : McpClient) (world : SendWorld) : Exchange :=
  if client.state = .ready then
    match world.notified with
    | .ok () => ⟨1, [], .ok ()⟩
    | .error error => ⟨0, [], .error error.display⟩
  else
    ⟨0, [], .error (McpError.protocol (.notInitialized
      "Client not ready for notifications")).display⟩

end Upstream

/-- What a call of `recv` returns; with `blank` it goes on to the next line. -/
inductive Received where
  | message (message : JsonRpcMessage)
  | blank
  | closed
  | failed (error : String)

def receiveNotImplemented (stream : Bool) : String :=
  (if stream then "HTTP-Stream" else "HTTP-SSE") ++
    " receive not implemented in this context - use client's response handling"

/-- `stream` tells the two kinds of upstream server apart. -/
inductive Backend where
  | process (stdout : LineReader UInt8)
  | upstream (stream : Bool) (client : McpClient)

/-- The backend at the start of a connection. -/
def BackendKind.connect (client : McpClient) : BackendKind → Backend
  | .process _ => .process .new
  | .upstreamHttpSse _ => .upstream false client
  | .upstreamHttpStream _ => .upstream true client

/-- What a line of a process or of a client says. -/
def readMessageLine (json : SerdeJson) (line : Bytes) : Received :=
  match decodeUtf8 line with
  | none => .failed "stream did not contain valid UTF-8"
  | some text =>
      if Text.trim text = "" then .blank
      else
        match json.message (Text.trim text) with
        | .ok message => .message message
        | .error error => .failed error

theorem readMessageLine_ne_closed (json : SerdeJson) (line : Bytes) :
    readMessageLine json line ≠ .closed := by
  unfold readMessageLine
  cases decodeUtf8 line with
  | none => exact Received.noConfusion
  | some text =>
      dsimp only
      split_ifs
      · exact Received.noConfusion
      · cases json.message (Text.trim text) with
        | ok message => exact Received.noConfusion
        | error error => exact Received.noConfusion

/-- The message of a line, if it is one. -/
def lineMessage (json : SerdeJson) (line : Bytes) : Option JsonRpcMessage :=
  match readMessageLine json line with
  | .message message => some message
  | _ => none

namespace Backend

variable (json : SerdeJson) (self : Backend)

def send (world : SendWorld) (message : JsonRpcMessage) :
    Exchange × Backend :=
  match self with
  | .process stdout =>
      match world.written with
      | .ok () => (⟨1, [], .ok ()⟩, .process stdout)
      | .error error => (⟨0, [], .error error⟩, .process stdout)
  | .upstream stream client =>
      match message with
      | .request request =>
          let (exchange, client) := Upstream.sendRequest client world request
          (exchange, .upstream stream client)
      | .notification _ =>
          (Upstream.sendNotification client world, .upstream stream client)
      | .response _ =>
          (⟨0, [], .error "Cannot send response as request to upstream"⟩,
            .upstream stream client)

/-- The call returns, or is not ready to. -/
def recv : Option (Received × Backend) :=
  match self with
  | .upstream stream client =>
      some (.failed (receiveNotImplemented stream), .upstream stream client)
  | .process stdout =>
      (stdout.readLine newline).map fun (line, rest) =>
        if line = [] then (.closed, .process rest)
        else (readMessageLine json line, .process (rest.record line))

/-- What the output of a process does to the reader. -/
def onStdout (change : LineReader UInt8 → Option (LineReader UInt8)) :
    Option Backend :=
  match self with
  | .process stdout => (change stdout).map .process
  | .upstream _ _ => none

/-- A call of `recv` is given up. -/
def drop : Backend :=
  match self with
  | .process stdout => .process stdout.drop
  | .upstream stream client => .upstream stream client

/-- What has arrived and was not received. -/
def left : Bytes :=
  match self with
  | .process stdout => stdout.left
  | .upstream _ _ => []

/-- What a call of `recv` under way has taken of a line. -/
def taken : Bytes :=
  match self with
  | .process stdout => stdout.taken
  | .upstream _ _ => []

def arrived : Bytes :=
  match self with
  | .process stdout => stdout.arrived
  | .upstream _ _ => []

def lines : List Bytes :=
  match self with
  | .process stdout => stdout.lines
  | .upstream _ _ => []

end Backend

/-! ## Backends that are received from faithfully -/

namespace Backend

def Sound (backend : Backend) : Prop :=
  match backend with
  | .process stdout => stdout.Sound newline
  | .upstream _ _ => True

variable {json : SerdeJson} {self next : Backend}

theorem connect_sound (client : McpClient) (kind : BackendKind) :
    (kind.connect client).Sound := by
  cases kind with
  | process command => exact LineReader.new_sound
  | upstreamHttpSse url => trivial
  | upstreamHttpStream url => trivial

theorem Sound.splitLines_of_left (hsound : self.Sound) (hleft : self.left = []) :
    splitLines newline self.arrived = self.lines := by
  cases self with
  | process stdout =>
      have hfaithful := hsound.faithful
      unfold LineReader.Faithful at hfaithful
      change stdout.left = [] at hleft
      rw [hleft] at hfaithful
      exact hfaithful.trans (List.append_nil _)
  | upstream stream client => rfl

theorem send_frame (world : SendWorld) (message : JsonRpcMessage) :
    (self.send world message).2.arrived = self.arrived ∧
      (self.send world message).2.lines = self.lines ∧
      (self.send world message).2.taken = self.taken ∧
      (self.Sound → (self.send world message).2.Sound) := by
  cases self with
  | process stdout =>
      unfold send
      cases world.written with
      | ok _ => exact ⟨rfl, rfl, rfl, id⟩
      | error error => exact ⟨rfl, rfl, rfl, id⟩
  | upstream stream client =>
      unfold send
      cases message with
      | request request => exact ⟨rfl, rfl, rfl, fun _ => trivial⟩
      | notification notification => exact ⟨rfl, rfl, rfl, fun _ => trivial⟩
      | response response => exact ⟨rfl, rfl, rfl, fun _ => trivial⟩

theorem send_left (world : SendWorld) (message : JsonRpcMessage) :
    (self.send world message).2.left = self.left := by
  cases self with
  | process stdout =>
      unfold send
      cases world.written <;> rfl
  | upstream stream client =>
      unfold send
      cases message <;> rfl

theorem Sound.drop (hsound : self.Sound) (htaken : self.taken = []) :
    self.drop.Sound ∧ self.drop.arrived = self.arrived ∧
      self.drop.lines = self.lines := by
  cases self with
  | process stdout => exact ⟨LineReader.Sound.drop hsound htaken, rfl, rfl⟩
  | upstream stream client => exact ⟨trivial, rfl, rfl⟩

/-- The lines that a call of `recv` adds, and what it returns for them. -/
theorem recv_cases (hsound : self.Sound) {received : Received}
    (hrecv : self.recv json = some (received, next)) :
    next.Sound ∧ next.arrived = self.arrived ∧
      ((∃ line, next.lines = self.lines ++ [line] ∧
          received = readMessageLine json line) ∨
        (next.lines = self.lines ∧
          (received = .closed ∧ next.left = [] ∨
            ∃ error, received = .failed error))) := by
  cases self with
  | upstream stream client =>
      obtain ⟨rfl, rfl⟩ := Prod.mk.inj (Option.some.inj hrecv)
      exact ⟨trivial, rfl, Or.inr ⟨rfl, Or.inr ⟨_, rfl⟩⟩⟩
  | process stdout =>
      obtain ⟨⟨line, rest⟩, hread, hreturn⟩ := Option.map_eq_some_iff.mp hrecv
      dsimp only at hreturn
      have hframe := LineReader.readLine_frame hread
      split_ifs at hreturn with hline
      · obtain ⟨rfl, rfl⟩ := Prod.mk.inj hreturn
        rw [hline] at hread
        obtain ⟨_, hleft, rfl⟩ := LineReader.eq_of_readLine_nil hread
        exact ⟨hsound, rfl, Or.inr ⟨rfl, Or.inl ⟨rfl, hleft⟩⟩⟩
      · obtain ⟨rfl, rfl⟩ := Prod.mk.inj hreturn
        refine ⟨LineReader.Sound.readLine hsound hread hline, hframe.1,
          Or.inl ⟨line, ?_, rfl⟩⟩
        change rest.lines ++ [line] = _
        rw [hframe.2.2]
        rfl

end Backend

/-! ## What goes out

A process is sent a message once if its pipe takes it, and answers nothing on
the spot.  A server is sent a request as often as the attempts of its client
get past the interceptors.
-/

end Transport

namespace Core
namespace McpClient
namespace Call

variable (call : Call)

/-- The loop gets to the attempt that is `k` after the first one. -/
def Made (first k : ℕ) : Prop :=
  ∀ earlier < k, call.Continues (first + earlier)

theorem made_zero (first : ℕ) : call.Made first 0 :=
  fun earlier hearlier => absurd hearlier (Nat.not_lt_zero earlier)

theorem made_succ_iff (first k : ℕ) :
    call.Made first (k + 1) ↔
      call.Continues first ∧ call.Made (first + 1) k := by
  have hshift : ∀ earlier, first + 1 + earlier = first + (earlier + 1) := by
    intro earlier
    omega
  constructor
  · intro hmade
    refine ⟨hmade 0 (Nat.succ_pos k), ?_⟩
    intro earlier hearlier
    rw [hshift]
    exact hmade (earlier + 1) (Nat.succ_lt_succ hearlier)
  · rintro ⟨hfirst, hmade⟩ earlier hearlier
    cases earlier with
    | zero => exact hfirst
    | succ earlier =>
        rw [← hshift]
        exact hmade earlier (Nat.succ_lt_succ_iff.mp hearlier)

open Classical in
/-- The events of a call are those of the attempts that are made, apart from
the sleep between them. -/
theorem countP_retry_events {counted : Event → Bool}
    (hslept : ∀ delay, counted (.slept delay) = false) (remaining : ℕ) :
    ∀ (first : ℕ) (stats : ClientStats),
      (call.retry remaining first stats).events.countP counted =
        ∑ k ∈ Finset.range (remaining + 1),
          if call.Made first k then
            (call.sent (first + k)).events.countP counted
          else 0 := by
  induction remaining with
  | zero =>
      intro first stats
      rw [call.retry_events_last stats (Or.inl rfl), Finset.sum_range_one,
        if_pos (call.made_zero first), Nat.add_zero]
  | succ remaining ih =>
      intro first stats
      rw [Finset.sum_range_succ', if_pos (call.made_zero first), Nat.add_zero]
      by_cases hcontinues : call.Continues first
      · obtain ⟨delay, later, hevents⟩ :=
          call.retry_events_next remaining stats hcontinues
        rw [hevents, List.countP_append,
          List.countP_cons_of_neg (by simp [hslept]), ih (first + 1) later,
          Nat.add_comm]
        congr 1
        apply Finset.sum_congr rfl
        intro k _
        have hshift : first + 1 + k = first + (k + 1) := by omega
        simp only [made_succ_iff, hcontinues, true_and, hshift]
      · rw [call.retry_events_last stats (Or.inr hcontinues)]
        symm
        apply (Nat.add_eq_right).mpr
        apply Finset.sum_eq_zero
        intro k _
        rw [if_neg]
        intro hmade
        exact hcontinues ((call.made_succ_iff first k).mp hmade).1

open Classical in
theorem countP_transmits_sent (attempt : ℕ) :
    (call.sent attempt).events.countP Event.transmits =
      if call.Refused attempt then 0 else 1 := by
  obtain ⟨outgoing, houtgoing⟩ : ∃ outgoing,
      interceptOutgoing call.metadata (call.attempts attempt) call.request =
        .ok outgoing :=
    (call.attempts attempt).outgoing.processMessage_isOk _ _ _ _ _
  rw [refused_iff houtgoing]
  cases hblock : outgoing.block with
  | true =>
      obtain ⟨e, hsent⟩ := sent_of_refused houtgoing hblock
      rw [hsent]
      simp [Event.transmits]
  | false =>
      cases htransport : (call.attempts attempt).transport
          (finalRequest outgoing call.request) call.timeout with
      | error e =>
          rw [sent_of_unanswered houtgoing hblock htransport]
          simp [Event.transmits]
      | ok response =>
          obtain ⟨incoming, hincoming⟩ : ∃ incoming,
              interceptIncoming call.metadata (call.attempts attempt)
                response = .ok incoming :=
            (call.attempts attempt).incoming.processMessage_isOk _ _ _ _ _
          obtain ⟨result, hsent, _⟩ :=
            sent_of_answered houtgoing hblock htransport hincoming
          rw [hsent]
          simp [Event.transmits, List.countP_cons]

/-- Just an attempt that goes out and is not answered with an error has an
answer. -/
theorem answers_sent_iff (attempt : ℕ) :
    (call.sent attempt).events.countP Event.answers = 0 ↔
      call.Refused attempt ∨ call.Unanswered attempt := by
  obtain ⟨outgoing, houtgoing⟩ : ∃ outgoing,
      interceptOutgoing call.metadata (call.attempts attempt) call.request =
        .ok outgoing :=
    (call.attempts attempt).outgoing.processMessage_isOk _ _ _ _ _
  rw [refused_iff houtgoing]
  cases hblock : outgoing.block with
  | true =>
      obtain ⟨e, hsent⟩ := sent_of_refused houtgoing hblock
      rw [hsent]
      exact iff_of_true rfl (Or.inl rfl)
  | false =>
      rw [unanswered_iff houtgoing hblock]
      cases htransport : (call.attempts attempt).transport
          (finalRequest outgoing call.request) call.timeout with
      | error e =>
          rw [sent_of_unanswered houtgoing hblock htransport]
          exact iff_of_true rfl (Or.inr ⟨e, rfl⟩)
      | ok response =>
          obtain ⟨incoming, hincoming⟩ : ∃ incoming,
              interceptIncoming call.metadata (call.attempts attempt)
                response = .ok incoming :=
            (call.attempts attempt).incoming.processMessage_isOk _ _ _ _ _
          obtain ⟨result, hsent, _⟩ :=
            sent_of_answered houtgoing hblock htransport hincoming
          rw [hsent]
          simp [Event.answers]

/-- Just one of the attempts that are made gets past the interceptors. -/
def GoesOutOnce : Prop :=
  ∃! k, (k ≤ call.config.maxRetries.toNat ∧ call.Made 0 k) ∧ ¬ call.Refused k

/-- None of the attempts that are made is answered. -/
def AnswersNothing : Prop :=
  ∀ k ≤ call.config.maxRetries.toNat, call.Made 0 k →
    call.Refused k ∨ call.Unanswered k

theorem goesOutOnce_iff (stats : ClientStats) :
    (call.retry call.config.maxRetries.toNat 0 stats).events.countP
        Event.transmits = 1 ↔ call.GoesOutOnce := by
  classical
  have hcard : (call.retry call.config.maxRetries.toNat 0 stats).events.countP
      Event.transmits =
        ((Finset.range (call.config.maxRetries.toNat + 1)).filter
          (fun k => call.Made 0 k ∧ ¬ call.Refused k)).card := by
    rw [call.countP_retry_events (fun _ => rfl), Finset.card_filter]
    apply Finset.sum_congr rfl
    intro k _
    rw [countP_transmits_sent, Nat.zero_add]
    split_ifs <;> simp_all
  rw [hcard, Finset.card_eq_one, Finset.singleton_iff_unique_mem]
  apply existsUnique_congr
  intro k
  rw [Finset.mem_filter, Finset.mem_range, Nat.lt_succ_iff, and_assoc]

theorem answersNothing_iff (stats : ClientStats) :
    (call.retry call.config.maxRetries.toNat 0 stats).events.countP
        Event.answers = 0 ↔ call.AnswersNothing := by
  classical
  rw [call.countP_retry_events (fun _ => rfl), Finset.sum_eq_zero_iff]
  apply forall_congr'
  intro k
  rw [Finset.mem_range, Nat.lt_succ_iff]
  apply imp_congr_right
  intro _
  rw [ite_eq_right_iff, Nat.zero_add, answers_sent_iff]

end Call
end McpClient
end Core

namespace Transport

open Acdp.Core Json

/-- The call that a request to an upstream server makes. -/
def Upstream.callOf (client : McpClient) (world : SendWorld)
    (request : JsonRpcRequest) : McpClient.Call :=
  client.callFor world.overflowChecks world.attempts request.method
    (request.params.getD nullParams)

namespace Upstream

variable {client : McpClient} {world : SendWorld} {request : JsonRpcRequest}

theorem sendRequest_of_not_ready (hready : client.state ≠ .ready) :
    (sendRequest client world request).1.transmissions = 0 ∧
      (sendRequest client world request).1.answers = [] := by
  unfold sendRequest McpClient.sendRequest
  rw [if_neg hready]
  exact ⟨rfl, rfl⟩

theorem sendRequest_of_ready (hready : client.state = .ready) :
    let events := ((callOf client world request).retry
      client.config.maxRetries.toNat 0 client.stats).events
    (sendRequest client world request).1.transmissions =
        events.countP Event.transmits ∧
      (sendRequest client world request).1.answers =
        events.filterMap answerOf := by
  unfold sendRequest McpClient.sendRequest
  rw [if_pos hready]
  exact ⟨rfl, rfl⟩

theorem filterMap_answerOf_eq_nil_iff {events : List Event} :
    events.filterMap answerOf = [] ↔ events.countP Event.answers = 0 := by
  rw [List.filterMap_eq_nil_iff, List.countP_eq_zero]
  refine forall_congr' fun event => imp_congr_right fun _ => ?_
  cases event with
  | intercepted message direction result => simp [answerOf, Event.answers]
  | transmitted request answer =>
      cases answer <;> simp [answerOf, Event.answers]
  | slept delay => simp [answerOf, Event.answers]

end Upstream

namespace Backend

variable (self : Backend) (world : SendWorld)

/-- The pipe takes the message; or the client of a server is ready and gets it
out once. -/
def TransmitsOnce : JsonRpcMessage → Prop :=
  match self with
  | .process _ => fun _ => world.written = .ok ()
  | .upstream _ client => fun message =>
      client.state = .ready ∧
        match message with
        | .request request => (Upstream.callOf client world request).GoesOutOnce
        | .notification _ => world.notified = .ok ()
        | .response _ => False

/-- A process does not answer on the spot, and a server whose client is ready
answers none of the attempts at a request. -/
def AnswersNothing : JsonRpcMessage → Prop :=
  match self with
  | .process _ => fun _ => True
  | .upstream _ client => fun message =>
      match message with
      | .request request => client.state = .ready →
          (Upstream.callOf client world request).AnswersNothing
      | _ => True

theorem send_transmits_iff (message : JsonRpcMessage) :
    (self.send world message).1.transmissions = 1 ↔
      self.TransmitsOnce world message := by
  cases self with
  | process stdout =>
      unfold send TransmitsOnce
      cases world.written <;> simp
  | upstream stream client =>
      cases message with
      | request request =>
          change (Upstream.sendRequest client world request).1.transmissions =
            1 ↔ client.state = .ready ∧
              (Upstream.callOf client world request).GoesOutOnce
          by_cases hready : client.state = .ready
          · rw [(Upstream.sendRequest_of_ready hready).1, and_iff_right hready]
            exact (Upstream.callOf client world request).goesOutOnce_iff _
          · rw [(Upstream.sendRequest_of_not_ready hready).1]
            exact iff_of_false Nat.zero_ne_one (fun hboth => hready hboth.1)
      | notification notification =>
          change (Upstream.sendNotification client world).transmissions = 1 ↔
            client.state = .ready ∧ world.notified = .ok ()
          unfold Upstream.sendNotification
          split_ifs with hready
          · cases world.notified <;> simp [hready]
          · simp [hready]
      | response response => simp [send, TransmitsOnce]

theorem send_answers_iff (message : JsonRpcMessage) :
    (self.send world message).1.answers = [] ↔
      self.AnswersNothing world message := by
  cases self with
  | process stdout =>
      unfold send AnswersNothing
      cases world.written <;> simp
  | upstream stream client =>
      cases message with
      | request request =>
          change (Upstream.sendRequest client world request).1.answers = [] ↔
            (client.state = .ready →
              (Upstream.callOf client world request).AnswersNothing)
          by_cases hready : client.state = .ready
          · rw [(Upstream.sendRequest_of_ready hready).2,
              Upstream.filterMap_answerOf_eq_nil_iff, forall_prop_of_true hready]
            exact (Upstream.callOf client world request).answersNothing_iff _
          · rw [(Upstream.sendRequest_of_not_ready hready).2]
            exact iff_of_true rfl (fun htrue => absurd htrue hready)
      | notification notification =>
          refine iff_of_true ?_ trivial
          change (Upstream.sendNotification client world).answers = []
          unfold Upstream.sendNotification
          split_ifs
          · cases world.notified <;> rfl
          · rfl
      | response response => exact iff_of_true rfl trivial

/-- Where a message goes out, an error of `send` leaves no output behind. -/
theorem left_of_send_error {message : JsonRpcMessage}
    (honce : self.TransmitsOnce world message) {error : String}
    (hresult : (self.send world message).1.result = .error error) :
    self.left = [] := by
  cases self with
  | process stdout =>
      have hwritten : world.written = .ok () := honce
      simp [send, hwritten] at hresult
  | upstream stream client => rfl

end Backend

end Transport
end Acdp
