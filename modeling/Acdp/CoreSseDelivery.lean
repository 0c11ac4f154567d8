import Acdp.CoreHttpSseTransport

/-!
# Delivery through event streams

Every stream has a task that sends the messages of its events into a channel,
and the transport holds the receiving end of the last stream it opened.  A
waiting call takes messages off that end until the awaited response comes, and
`receive_message` takes them one by one.  A run conserves the messages in all
its states exactly when a waiting call meets nothing but its response and no
stream is replaced while it still has messages to deliver.
-/

namespace Acdp
namespace Core

structure SseChannel where
  stream : Option ℕ
  opened : ℕ
  queue : List JsonRpcMessage
  call : Option JsonRpcRequest
  arrived : List JsonRpcMessage
  claimed : List (JsonRpcRequest × JsonRpcResponse)
  received : List JsonRpcMessage

namespace SseChannel

def initial : SseChannel := ⟨none, 0, [], none, [], [], []⟩

/-- `handle_sse_response`: the previous receiving end is dropped with what it
holds, and the call waits on the new one. -/
def openStream (self : SseChannel) (request : JsonRpcRequest) : SseChannel :=
  { self with
    stream := some self.opened
    opened := self.opened + 1
    queue := []
    call := some request }

/-- An event on a stream.  Sending fails once the receiving end is gone. -/
def event (json : SerdeJson) (self : SseChannel) (stream : ℕ)
    (data : String) : SseChannel :=
  match HttpSseTransport.sseMessage json data with
  | none => self
  | some message =>
      let self := { self with arrived := self.arrived ++ [message] }
      if self.stream = some stream then
        { self with queue := self.queue ++ [message] }
      else self

/-- One round of the waiting loop: the message is the awaited response, or it
is dropped. -/
def poll (self : SseChannel) (request : JsonRpcRequest) : SseChannel :=
  match self.queue with
  | [] => self
  | message :: rest =>
      match HttpSseTransport.awaited request.id.display message with
      | some response =>
          { self with
            queue := rest
            call := none
            claimed := self.claimed ++ [(request, response)] }
      | none => { self with queue := rest }

def receiveMessage (self : SseChannel) : SseChannel :=
  match self.queue with
  | [] => self
  | message :: rest =>
      { self with queue := rest, received := self.received ++ [message] }

inductive Action where
  /-- A call whose reply opens a stream. -/
  | openStream (request : JsonRpcRequest)
  /-- A call whose reply says that the response comes on the stream in
  place. -/
  | accept (request : JsonRpcRequest)
  /-- A call that returns without waiting. -/
  | direct (request : JsonRpcRequest)
  | event (stream : ℕ) (data : String)
  | poll
  | giveUp
  | receiveMessage

def machine (json : SerdeJson) : StepMachine SseChannel Action where
  step self action :=
    match action, self.call with
    | .openStream request, none => some (self.openStream request)
    | .accept request, none => some { self with call := some request }
    | .direct _, none => some self
    | .event stream data, _ =>
        if stream < self.opened then some (self.event json stream data)
        else none
    | .poll, some request => some (self.poll request)
    | .giveUp, some _ => some { self with call := none }
    | .receiveMessage, none => some self.receiveMessage
    | _, _ => none

/-! ## The property -/

def ledger (self : SseChannel) : Ledger JsonRpcMessage where
  arrived := self.arrived
  handed := self.claimed.map (fun entry => .response entry.2)
  received := self.received
  queued := self.queue

structure Conserves (channel : SseChannel) : Prop where
  delivered : channel.ledger.Conserved
  claimed : ∀ entry ∈ channel.claimed, entry.2.id = entry.1.id

def Keeps (json : SerdeJson) (self : SseChannel) : Action → Prop
  | .openStream _ => self.queue = []
  | .event stream data =>
      HttpSseTransport.sseMessage json data ≠ none →
        self.stream = some stream
  | .poll => ∀ request message rest, self.call = some request →
      self.queue = message :: rest →
      ∃ response, message = .response response ∧ response.id = request.id
  | _ => True

theorem conserves_initial : initial.Conserves := by
  constructor
  · exact Ledger.conserved_empty
  · simp [initial]

theorem awaited_eq_some_iff (requestId : String) (message : JsonRpcMessage)
    (response : JsonRpcResponse) :
    HttpSseTransport.awaited requestId message = some response ↔
      message = .response response ∧ response.id.display = requestId := by
  cases message with
  | request req => simp [HttpSseTransport.awaited]
  | notification notif => simp [HttpSseTransport.awaited]
  | response resp =>
      by_cases hkey : resp.id.display = requestId
      · simp only [HttpSseTransport.awaited, hkey, if_true, Option.some.injEq,
          JsonRpcMessage.response.injEq]
        constructor
        · intro hsame
          rw [← hsame]
          exact ⟨rfl, hkey⟩
        · exact fun hboth => hboth.1
      · simp only [HttpSseTransport.awaited, hkey, if_false, reduceCtorEq,
          JsonRpcMessage.response.injEq, false_iff, not_and]
        intro hsame
        rw [← hsame]
        exact hkey

/-! ## Steps -/

theorem Conserves.event {json : SerdeJson} {self : SseChannel}
    (hconserves : self.Conserves) {stream : ℕ} {data : String}
    (hkeeps : self.Keeps json (.event stream data)) :
    (self.event json stream data).Conserves := by
  unfold SseChannel.event
  cases hmessage : HttpSseTransport.sseMessage json data with
  | none => exact hconserves
  | some message =>
      have hstream : self.stream = some stream :=
        hkeeps (by rw [hmessage]; simp)
      simp only [hstream, if_true]
      exact ⟨hconserves.delivered.enqueue message, hconserves.claimed⟩

theorem Conserves.keeps_event {json : SerdeJson} {self : SseChannel}
    (hconserves : self.Conserves) {stream : ℕ} {data : String}
    (hnext : (self.event json stream data).Conserves) :
    self.Keeps json (.event stream data) := by
  intro hmessage
  obtain ⟨message, hsome⟩ := Option.ne_none_iff_exists'.mp hmessage
  by_contra hstream
  have hlost : (self.event json stream data).ledger =
      self.ledger.lose message := by
    simp only [SseChannel.event, hsome, hstream, if_false]
    rfl
  apply hconserves.delivered.not_lose message
  rw [← hlost]
  exact hnext.delivered

theorem Conserves.poll {self : SseChannel} (hconserves : self.Conserves)
    {request : JsonRpcRequest}
    (hkeeps : ∀ message rest, self.queue = message :: rest →
      ∃ response, message = .response response ∧ response.id = request.id) :
    (self.poll request).Conserves := by
  unfold SseChannel.poll
  cases hqueue : self.queue with
  | nil => exact hconserves
  | cons message rest =>
      obtain ⟨response, hresponse, hid⟩ := hkeeps message rest hqueue
      have hawaited :
          HttpSseTransport.awaited request.id.display message =
            some response :=
        (awaited_eq_some_iff _ _ _).mpr ⟨hresponse, by rw [hid]⟩
      have hledger := hconserves.delivered
      rw [ledger, hqueue, hresponse] at hledger
      simp only [hawaited]
      constructor
      · simpa [ledger] using hledger.claim
      · intro entry hentry
        rcases List.mem_append.mp hentry with hold | hnew
        · exact hconserves.claimed entry hold
        · rw [List.mem_singleton] at hnew
          rw [hnew]
          exact hid

theorem Conserves.keeps_poll {self : SseChannel}
    (hconserves : self.Conserves) {request : JsonRpcRequest}
    (hnext : (self.poll request).Conserves) (message : JsonRpcMessage)
    (rest : List JsonRpcMessage) (hqueue : self.queue = message :: rest) :
    ∃ response, message = .response response ∧ response.id = request.id := by
  unfold SseChannel.poll at hnext
  rw [hqueue] at hnext
  cases hawaited : HttpSseTransport.awaited request.id.display message with
  | some response =>
      simp only [hawaited] at hnext
      refine ⟨response, ((awaited_eq_some_iff _ _ _).mp hawaited).1, ?_⟩
      exact hnext.claimed (request, response)
        (List.mem_append_right _ List.mem_cons_self)
  | none =>
      -- The message was dropped, so the account does not balance.
      simp only [hawaited] at hnext
      have hlength : rest.length = self.queue.length :=
        hconserves.delivered.queued_length_eq hnext.delivered
      rw [hqueue, List.length_cons] at hlength
      omega

theorem Conserves.receiveMessage {self : SseChannel}
    (hconserves : self.Conserves) : self.receiveMessage.Conserves := by
  unfold SseChannel.receiveMessage
  cases hqueue : self.queue with
  | nil => exact hconserves
  | cons message rest =>
      have hledger := hconserves.delivered
      rw [ledger, hqueue] at hledger
      exact ⟨hledger.receive, hconserves.claimed⟩

theorem Conserves.openStream {self : SseChannel}
    (hconserves : self.Conserves) (hqueue : self.queue = [])
    (request : JsonRpcRequest) : (self.openStream request).Conserves := by
  have hledger := hconserves.delivered
  rw [ledger, hqueue] at hledger
  exact ⟨hledger, hconserves.claimed⟩

/-! ## Runs -/

theorem machine_step_cases {json : SerdeJson} {self next : SseChannel}
    {action : Action} (hstep : (machine json).step self action = some next) :
    (∃ request, action = .openStream request ∧
        next = self.openStream request) ∨
      (∃ request, action = .accept request ∧
        next = { self with call := some request }) ∨
      (∃ request, action = .direct request ∧ next = self) ∨
      (∃ stream data, action = .event stream data ∧
        next = self.event json stream data) ∨
      (∃ request, action = .poll ∧ self.call = some request ∧
        next = self.poll request) ∨
      (action = .giveUp ∧ next = { self with call := none }) ∨
      (action = .receiveMessage ∧ next = self.receiveMessage) := by
  cases action with
  | event stream data =>
      simp only [machine] at hstep
      split_ifs at hstep
      simp_all
  | _ =>
      cases hcall : self.call with
      | none => simp_all [machine]
      | some call => simp_all [machine]

theorem Conserves.step {json : SerdeJson} {self next : SseChannel}
    {action : Action} (hconserves : self.Conserves)
    (hstep : (machine json).step self action = some next)
    (hkeeps : self.Keeps json action) : next.Conserves := by
  rcases machine_step_cases hstep with
    ⟨request, rfl, rfl⟩ | ⟨request, rfl, rfl⟩ | ⟨request, rfl, rfl⟩ |
    ⟨stream, data, rfl, rfl⟩ | ⟨request, rfl, hcall, rfl⟩ | ⟨rfl, rfl⟩ |
    ⟨rfl, rfl⟩
  · exact hconserves.openStream hkeeps request
  · exact ⟨hconserves.delivered, hconserves.claimed⟩
  · exact hconserves
  · exact hconserves.event hkeeps
  · apply hconserves.poll
    intro message rest hqueue
    exact hkeeps request message rest hcall hqueue
  · exact ⟨hconserves.delivered, hconserves.claimed⟩
  · exact hconserves.receiveMessage

theorem Conserves.keeps_of_next {json : SerdeJson} {self next : SseChannel}
    {action : Action} (hconserves : self.Conserves)
    (hstep : (machine json).step self action = some next)
    (hnext : next.Conserves) : self.Keeps json action := by
  rcases machine_step_cases hstep with
    ⟨request, rfl, rfl⟩ | ⟨request, rfl, rfl⟩ | ⟨request, rfl, rfl⟩ |
    ⟨stream, data, rfl, rfl⟩ | ⟨request, rfl, hcall, rfl⟩ | ⟨rfl, rfl⟩ |
    ⟨rfl, rfl⟩
  · have hlength : ([] : List JsonRpcMessage).length = self.queue.length :=
      hconserves.delivered.queued_length_eq hnext.delivered
    exact List.eq_nil_of_length_eq_zero hlength.symm
  · trivial
  · trivial
  · exact hconserves.keeps_event hnext
  · intro other message rest hother hqueue
    rw [hcall, Option.some.injEq] at hother
    rw [← hother]
    exact hconserves.keeps_poll hnext message rest hqueue
  · trivial
  · trivial

/-- A run conserves the messages of its streams in every state exactly when
all its steps keep them. -/
theorem sseMachine_conserves_iff (json : SerdeJson) (trace : List Action) :
    (machine json).Throughout Conserves initial trace ↔
      (machine json).Along (Keeps json) initial trace :=
  StepMachine.throughout_iff_along
    (fun _ _ _ hconserves hstep hkeeps => hconserves.step hstep hkeeps)
    (fun _ hconserves => hconserves)
    (fun _ _ _ hconserves hstep hnext =>
      hconserves.keeps_of_next hstep hnext)
    conserves_initial trace

/-! ## A notification before the response -/

def progressData : String :=
  "\x7b\"jsonrpc\":\"2.0\",\"method\":\"notifications/progress\"\x7d"

def answerData : String :=
  "\x7b\"jsonrpc\":\"2.0\",\"id\":1,\"result\":\"done\"\x7d"

def streamJson : SerdeJson where
  parse text :=
    if text = progressData then
      .ok (.obj [("jsonrpc", .str "2.0"),
        ("method", .str "notifications/progress")])
    else if text = answerData then
      .ok (.obj [("jsonrpc", .str "2.0"), ("id", .int 1),
        ("result", .str "done")])
    else .error "expected value"
  floats := ⟨fun _ => "0.0", fun _ => some 0⟩
  mismatch _ := "data did not match any variant"

def progressTrace : List Action :=
  [.openStream (.withoutParams (.number 1) "tools/call"),
    .event 0 progressData, .event 0 answerData, .poll, .poll]

def summary (self : SseChannel) : ℕ × ℕ × ℕ × ℕ :=
  (self.ledger.arrived.length, self.ledger.handed.length,
    self.ledger.received.length, self.ledger.queued.length)

/-- The call gets its response; the notification before it is gone. -/
theorem progressTrace_drops_notification :
    ((machine streamJson).run initial progressTrace).map summary =
        some (2, 1, 0, 0) ∧
      ¬ (machine streamJson).Throughout Conserves initial progressTrace := by
  have hlost : ((machine streamJson).run initial progressTrace).map summary =
      some (2, 1, 0, 0) := by
    rfl
  refine ⟨hlost, ?_⟩
  intro hthrough
  obtain ⟨reached, hreached, hsummary⟩ := Option.map_eq_some_iff.mp hlost
  have hlength := (hthrough progressTrace (List.prefix_refl _) reached
    hreached).delivered.length_eq
  simp only [summary, Prod.mk.injEq] at hsummary
  omega

end SseChannel

end Core
end Acdp
