import Acdp.MessageLedger
import Acdp.StepMachine

/-!
# The buffered client of the monitor

Messages go through a channel to a background task, which sends them over a
connection or keeps them in a buffer, and flushes the buffer when it connects.
A flush moves the whole buffer into a local list, and what follows a message
that cannot be sent is dropped with that list.  Nothing is lost before the
buffer has been full, exactly when no message but the last one of a flush
fails.
-/

namespace Acdp
namespace Transport

def maxBufferSize : ℕ := 10000

/-- In milliseconds. -/
def initialReconnectDelay : ℕ := 1000

def maxReconnectDelay : ℕ := 30000

def reconnectBackoffFactor : ℕ := 2

def channelCapacity : ℕ := 1000

variable {IpcMessage : Type}

/-- Where the task waits: for a branch of its loop, or for the client to send a
message, with those that it is to send after it. -/
inductive ClientTask (IpcMessage : Type) where
  | selecting
  | sending (message : IpcMessage)
  | flushing (message : IpcMessage) (rest : List IpcMessage)
  | stopped

def ClientTask.isRunning : ClientTask IpcMessage → Bool
  | .stopped => false
  | _ => true

/-- What the task has in its hands. -/
def ClientTask.held : ClientTask IpcMessage → List IpcMessage
  | .sending message => [message]
  | .flushing message rest => message :: rest
  | _ => []

/-- `received` lists the messages that the task has taken off the channel,
`delivered` those that a connection has taken, and `full` says whether the
buffer has ever reached its bound. -/
structure BufferedIpcClient (IpcMessage : Type) where
  channel : List IpcMessage
  buffer : List IpcMessage
  connected : Bool
  reconnectDelay : ℕ
  task : ClientTask IpcMessage
  received : List IpcMessage
  delivered : List IpcMessage
  full : Bool

namespace BufferedIpcClient

def new : BufferedIpcClient IpcMessage where
  channel := []
  buffer := []
  connected := false
  reconnectDelay := initialReconnectDelay
  task := .selecting
  received := []
  delivered := []
  full := false

def pushBack (self : BufferedIpcClient IpcMessage) (message : IpcMessage) :
    BufferedIpcClient IpcMessage :=
  if self.buffer.length < maxBufferSize then
    { self with
      buffer := self.buffer ++ [message]
      full := self.full || decide (maxBufferSize ≤ self.buffer.length + 1) }
  else self

/-- There is no result where the caller waits for room in the channel. -/
def send (self : BufferedIpcClient IpcMessage) (message : IpcMessage) :
    Option (BufferedIpcClient IpcMessage) :=
  if self.task.isRunning then
    if self.channel.length < channelCapacity then
      some { self with channel := self.channel ++ [message] }
    else none
  else some (self.pushBack message)

def receive (self : BufferedIpcClient IpcMessage) :
    Option (BufferedIpcClient IpcMessage) :=
  match self.task, self.channel with
  | .selecting, message :: channel =>
      let self := { self with
        channel := channel
        received := self.received ++ [message] }
      some (if self.connected then { self with task := .sending message }
        else self.pushBack message)
  | _, _ => none

def deliver (self : BufferedIpcClient IpcMessage) (message : IpcMessage)
    (task : ClientTask IpcMessage) : BufferedIpcClient IpcMessage :=
  { self with delivered := self.delivered ++ [message], task := task }

/-- The connection is given up and the message put back. -/
def failSend (self : BufferedIpcClient IpcMessage) (message : IpcMessage) :
    BufferedIpcClient IpcMessage :=
  { self with connected := false, task := .selecting }.pushBack message

def nextFlush : List IpcMessage → ClientTask IpcMessage
  | [] => .selecting
  | message :: rest => .flushing message rest

/-- `IpcClient::send` returns. -/
def finishSend (self : BufferedIpcClient IpcMessage) (sent : Bool) :
    Option (BufferedIpcClient IpcMessage) :=
  match self.task with
  | .sending message =>
      some (if sent then self.deliver message .selecting
        else self.failSend message)
  | .flushing message rest =>
      some (if sent then self.deliver message (nextFlush rest)
        else self.failSend message)
  | _ => none

/-- The timer branch, `elapsed` milliseconds after the last attempt to
connect. -/
def tick (self : BufferedIpcClient IpcMessage) (elapsed : ℕ)
    (connects : Bool) : Option (BufferedIpcClient IpcMessage) :=
  match self.task with
  | .selecting =>
      some
        (if self.connected = false ∧ self.reconnectDelay ≤ elapsed then
          if connects then
            { self with
              connected := true
              reconnectDelay := initialReconnectDelay
              buffer := []
              task := nextFlush self.buffer }
          else
            { self with
              reconnectDelay :=
                min (self.reconnectDelay * reconnectBackoffFactor)
                  maxReconnectDelay }
        else self)
  | _ => none

/-- `shutdown` ends the loop between two branches. -/
def shutdown (self : BufferedIpcClient IpcMessage) :
    Option (BufferedIpcClient IpcMessage) :=
  match self.task with
  | .selecting => some { self with task := .stopped, channel := [] }
  | _ => none

/-- Dropping the client aborts the task wherever it waits. -/
def drop (self : BufferedIpcClient IpcMessage) :
    BufferedIpcClient IpcMessage :=
  { self with task := .stopped, channel := [] }

inductive Action (IpcMessage : Type) where
  | send (message : IpcMessage)
  | receive
  | finishSend (sent : Bool)
  | tick (elapsed : ℕ) (connects : Bool)
  | shutdown
  | drop

def step (self : BufferedIpcClient IpcMessage) :
    Action IpcMessage → Option (BufferedIpcClient IpcMessage)
  | .send message => self.send message
  | .receive => self.receive
  | .finishSend sent => self.finishSend sent
  | .tick elapsed connects => self.tick elapsed connects
  | .shutdown => self.shutdown
  | .drop => some self.drop

def machine : StepMachine (BufferedIpcClient IpcMessage) (Action IpcMessage) :=
  ⟨step⟩

/-! ## The account of received messages -/

def ledger (self : BufferedIpcClient IpcMessage) : Ledger IpcMessage where
  arrived := self.received
  handed := []
  received := self.delivered
  queued := self.task.held ++ self.buffer

/-- Before shutdown, and as long as the buffer has not been full, every
received message is delivered, in the buffer, or about to be sent. -/
def LosesNothing (self : BufferedIpcClient IpcMessage) : Prop :=
  self.task.isRunning = true → self.full = false →
    self.received.Perm (self.delivered ++ (self.task.held ++ self.buffer))

def Keeps (self : BufferedIpcClient IpcMessage) : Action IpcMessage → Prop
  | .finishSend false =>
      ∀ message rest, self.task = .flushing message rest →
        self.full = false → rest = []
  | _ => True

structure Sound (found : BufferedIpcClient IpcMessage) : Prop where
  /-- While there is a connection, nothing waits in the buffer. -/
  flushed : found.connected = true → found.buffer = []
  connected : found.task.held ≠ [] → found.connected = true
  room : found.full = false → found.buffer.length < maxBufferSize
  conserved : found.full = false → found.ledger.Conserved

def Invariant (found : BufferedIpcClient IpcMessage) : Prop :=
  found.task.isRunning = true → found.Sound

@[simp] theorem held_nextFlush (messages : List IpcMessage) :
    (nextFlush messages).held = messages := by
  cases messages with
  | nil => rfl
  | cons message rest => rfl

section Steps

variable {self next : BufferedIpcClient IpcMessage}

theorem Sound.losesNothing (hsound : self.Sound) : self.LosesNothing := by
  intro _ hfull
  exact (hsound.conserved hfull).once

@[simp] theorem pushBack_task (self : BufferedIpcClient IpcMessage)
    (message : IpcMessage) : (self.pushBack message).task = self.task := by
  unfold pushBack
  split_ifs
  · rfl
  · rfl

theorem isRunning_of_step {action : Action IpcMessage}
    (hstep : self.step action = some next)
    (hrunning : next.task.isRunning = true) :
    self.task.isRunning = true := by
  by_contra hstopped
  cases htask : self.task with
  | stopped =>
      cases action with
      | send message =>
          simp only [step, send, htask, ClientTask.isRunning,
            Bool.false_eq_true, if_false, Option.some.injEq] at hstep
          rw [← hstep, pushBack_task, htask] at hrunning
          cases hrunning
      | receive => simp [step, receive, htask] at hstep
      | finishSend sent => simp [step, finishSend, htask] at hstep
      | tick elapsed connects => simp [step, tick, htask] at hstep
      | shutdown => simp [step, shutdown, htask] at hstep
      | drop =>
          simp only [step, drop, Option.some.injEq] at hstep
          rw [← hstep] at hrunning
          cases hrunning
  | selecting => exact hstopped (by rw [htask]; rfl)
  | sending message => exact hstopped (by rw [htask]; rfl)
  | flushing message rest => exact hstopped (by rw [htask]; rfl)

theorem Sound.send (hsound : self.Sound)
    (hrunning : self.task.isRunning = true) {message : IpcMessage}
    (hnext : self.send message = some next) : next.Sound := by
  simp only [BufferedIpcClient.send, hrunning, if_true] at hnext
  split_ifs at hnext with hroom
  rw [Option.some.injEq] at hnext
  rw [← hnext]
  exact ⟨hsound.flushed, hsound.connected, hsound.room, hsound.conserved⟩

/-- A task with nothing in its hands and no connection puts a message into the
buffer. -/
theorem sound_pushBack {message : IpcMessage} (hheld : self.task.held = [])
    (hdisconnected : self.connected = false)
    (hroom : self.full = false → self.buffer.length < maxBufferSize)
    (hconserved : self.full = false →
      (⟨self.received, [], self.delivered, self.buffer ++ [message]⟩ :
        Ledger IpcMessage).Conserved) :
    (self.pushBack message).Sound := by
  unfold pushBack
  by_cases hlength : self.buffer.length < maxBufferSize
  · rw [if_pos hlength]
    have hfull : ∀ bound : Bool, (self.full || bound) = false →
        self.full = false ∧ bound = false := fun _ => Bool.or_eq_false_iff.mp
    refine ⟨by simp [hdisconnected], fun hholds => absurd hheld hholds, ?_, ?_⟩
    · intro hnot
      have hbound := of_decide_eq_false (hfull _ hnot).2
      simp only [List.length_append, List.length_singleton]
      omega
    · intro hnot
      have haccount := hconserved (hfull _ hnot).1
      change (⟨self.received, [], self.delivered,
        self.task.held ++ (self.buffer ++ [message])⟩ :
          Ledger IpcMessage).Conserved
      rwa [hheld, List.nil_append]
  · rw [if_neg hlength]
    have hfull : self.full ≠ false := fun hnot => hlength (hroom hnot)
    exact ⟨by simp [hdisconnected], fun hholds => absurd hheld hholds,
      fun hnot => absurd hnot hfull, fun hnot => absurd hnot hfull⟩

theorem Sound.receive (hsound : self.Sound) (hnext : self.receive = some next) :
    next.Sound := by
  unfold BufferedIpcClient.receive at hnext
  cases htask : self.task with
  | selecting =>
      have hheld : self.task.held = [] := by simp [ClientTask.held, htask]
      cases hchannel : self.channel with
      | nil => simp [htask, hchannel] at hnext
      | cons message channel =>
          simp only [htask, hchannel, Option.some.injEq] at hnext
          have haccount : self.full = false →
              (⟨self.received ++ [message], [], self.delivered,
                self.buffer ++ [message]⟩ : Ledger IpcMessage).Conserved := by
            intro hfull
            have henqueued := (hsound.conserved hfull).enqueue message
            simpa [Ledger.enqueue, ledger, hheld] using henqueued
          by_cases hconnected : self.connected = true
          · rw [if_pos hconnected] at hnext
            rw [← hnext]
            have hempty := hsound.flushed hconnected
            refine ⟨fun _ => hempty, fun _ => hconnected, hsound.room, ?_⟩
            intro hfull
            simpa [ledger, ClientTask.held, hempty] using haccount hfull
          · rw [if_neg hconnected] at hnext
            rw [← hnext]
            exact sound_pushBack (by simp [ClientTask.held]) (by simpa using hconnected)
              hsound.room haccount
  | sending message => simp [htask] at hnext
  | flushing message rest => simp [htask] at hnext
  | stopped => simp [htask] at hnext

theorem Sound.tick (hsound : self.Sound) {elapsed : ℕ} {connects : Bool}
    (hnext : self.tick elapsed connects = some next) : next.Sound := by
  unfold BufferedIpcClient.tick at hnext
  cases htask : self.task with
  | selecting =>
      have hheld : self.task.held = [] := by simp [ClientTask.held, htask]
      simp only [htask, Option.some.injEq] at hnext
      split_ifs at hnext with hdue hconnects
      · -- the buffer goes into the hands of the task as a whole
        rw [← hnext]
        refine ⟨fun _ => rfl, fun _ => rfl, ?_, ?_⟩
        · intro _
          simp [maxBufferSize]
        · intro hfull
          have hconserved := hsound.conserved hfull
          simpa [ledger, hheld] using hconserved
      · rw [← hnext]
        rw [htask] at hheld
        refine ⟨hsound.flushed, fun hholds => absurd hheld hholds,
          hsound.room, ?_⟩
        simpa only [ledger, htask] using hsound.conserved
      · rwa [← hnext]
  | sending message => simp [htask] at hnext
  | flushing message rest => simp [htask] at hnext
  | stopped => simp [htask] at hnext

theorem Sound.deliver (hsound : self.Sound) {message : IpcMessage}
    {rest : List IpcMessage} (hheld : self.task.held = message :: rest) :
    (self.deliver message (nextFlush rest)).Sound := by
  have hconnected := hsound.connected (by simp [hheld])
  refine ⟨hsound.flushed, fun _ => hconnected, hsound.room, ?_⟩
  intro hfull
  have hconserved := hsound.conserved hfull
  rw [ledger, hheld] at hconserved
  simpa [ledger, BufferedIpcClient.deliver] using hconserved.receive

/-- A message that could not be sent goes back alone. -/
theorem Sound.failSend (hsound : self.Sound) {message : IpcMessage}
    {rest : List IpcMessage} (hheld : self.task.held = message :: rest)
    (hlast : self.full = false → rest = []) :
    (self.failSend message).Sound := by
  have hempty := hsound.flushed (hsound.connected (by simp [hheld]))
  apply sound_pushBack
  · rfl
  · rfl
  · exact hsound.room
  · intro hfull
    have hconserved := hsound.conserved hfull
    simpa [ledger, hheld, hlast hfull, hempty] using hconserved

theorem Sound.finishSend (hsound : self.Sound) {sent : Bool}
    (hnext : self.finishSend sent = some next)
    (hkeeps : self.Keeps (.finishSend sent)) : next.Sound := by
  unfold BufferedIpcClient.finishSend at hnext
  cases htask : self.task with
  | sending message =>
      have hheld : self.task.held = [message] := by rw [htask]; rfl
      simp only [htask, Option.some.injEq] at hnext
      rw [← hnext]
      cases sent with
      | true => exact hsound.deliver hheld
      | false => exact hsound.failSend hheld (fun _ => rfl)
  | flushing message rest =>
      have hheld : self.task.held = message :: rest := by rw [htask]; rfl
      simp only [htask, Option.some.injEq] at hnext
      rw [← hnext]
      cases sent with
      | true => exact hsound.deliver hheld
      | false => exact hsound.failSend hheld (hkeeps message rest htask)
  | selecting => simp [htask] at hnext
  | stopped => simp [htask] at hnext

theorem Invariant.step (hinvariant : self.Invariant)
    {action : Action IpcMessage} (hstep : self.step action = some next)
    (hkeeps : self.Keeps action) : next.Invariant := by
  intro hafter
  have hrunning := isRunning_of_step hstep hafter
  have hsound := hinvariant hrunning
  cases action with
  | send message => exact hsound.send hrunning hstep
  | receive => exact hsound.receive hstep
  | finishSend sent => exact hsound.finishSend hstep hkeeps
  | tick elapsed connects => exact hsound.tick hstep
  | shutdown =>
      cases htask : self.task with
      | selecting =>
          simp only [BufferedIpcClient.step, shutdown, htask,
            Option.some.injEq] at hstep
          rw [← hstep] at hafter
          cases hafter
      | sending message =>
          simp [BufferedIpcClient.step, shutdown, htask] at hstep
      | flushing message rest =>
          simp [BufferedIpcClient.step, shutdown, htask] at hstep
      | stopped => simp [BufferedIpcClient.step, shutdown, htask] at hstep
  | drop =>
      simp only [BufferedIpcClient.step, drop, Option.some.injEq] at hstep
      rw [← hstep] at hafter
      cases hafter

/-- The messages after one that fails are gone from every list. -/
theorem Invariant.keeps_of_next (hinvariant : self.Invariant)
    {action : Action IpcMessage} (hstep : self.step action = some next)
    (hnext : next.LosesNothing) : self.Keeps action := by
  cases action with
  | finishSend sent =>
      cases sent with
      | true => trivial
      | false =>
          intro message rest htask hfull
          have hsound := hinvariant (by rw [htask]; rfl)
          have hheld : self.task.held = message :: rest := by rw [htask]; rfl
          have hempty := hsound.flushed (hsound.connected (by simp [hheld]))
          have hbefore := (hsound.conserved hfull).length_eq
          rw [ledger, hheld] at hbefore
          simp only [BufferedIpcClient.step, BufferedIpcClient.finishSend,
            htask, Option.some.injEq, Bool.false_eq_true, if_false] at hstep
          have hroom : (0 : ℕ) < maxBufferSize := by decide
          have hbound : ¬ maxBufferSize ≤ 1 := by decide
          have hput : next =
              { self with
                connected := false
                task := .selecting
                buffer := [message] } := by
            rw [← hstep, BufferedIpcClient.failSend, BufferedIpcClient.pushBack]
            simp [hempty, hroom, hbound]
          rw [hput] at hnext
          have hafter := (hnext rfl hfull).length_eq
          simp only [hempty, ClientTask.held, List.append_nil,
            List.nil_append, List.length_nil, List.length_append,
            List.length_cons] at hbefore hafter
          exact List.length_eq_zero_iff.mp (by omega)
  | send message => trivial
  | receive => trivial
  | tick elapsed connects => trivial
  | shutdown => trivial
  | drop => trivial

end Steps

theorem new_invariant : (new : BufferedIpcClient IpcMessage).Invariant := by
  intro _
  refine ⟨fun _ => rfl, fun hholds => absurd rfl hholds, ?_, ?_⟩
  · intro _
    simp [new, maxBufferSize]
  · intro _
    exact Ledger.conserved_empty

/-- No received message is lost before the buffer has been full, exactly when
no message fails in a flush with others behind it. -/
theorem throughout_losesNothing_iff (trace : List (Action IpcMessage)) :
    machine.Throughout LosesNothing new trace ↔
      machine.Along Keeps new trace := by
  apply StepMachine.throughout_iff_along ?_ ?_ ?_ new_invariant
  · intro before action after hinvariant hstep hkeeps
    exact hinvariant.step hstep hkeeps
  · intro reached hinvariant hrunning
    exact (hinvariant hrunning).losesNothing hrunning
  · intro before action after hinvariant hstep hafter
    exact hinvariant.keeps_of_next hstep hafter

/-! ## A flush that fails at its first message -/

def failedFlush : List (Action String) :=
  [.send "first", .send "second", .receive, .receive, .tick 1000 true,
    .finishSend false]

/-- The second message is neither delivered nor in the buffer. -/
theorem failedFlush_loses :
    (machine.run new failedFlush).map (fun reached =>
        (reached.received, reached.delivered, reached.buffer)) =
        some (["first", "second"], [], ["first"]) ∧
      ¬ machine.Throughout LosesNothing new failedFlush := by
  have hreached : (machine.run new failedFlush).map (fun reached =>
      ((reached.received, reached.delivered, reached.buffer),
        reached.task.isRunning, reached.full, reached.task.held)) =
      some ((["first", "second"], [], ["first"]), true, false, []) := by
    decide +kernel
  obtain ⟨reached, hrun, hlists⟩ := Option.map_eq_some_iff.mp hreached
  simp only [Prod.mk.injEq] at hlists
  obtain ⟨⟨hreceived, hdelivered, hbuffer⟩, hrunning, hfull, hheld⟩ := hlists
  refine ⟨by simp [hrun, hreceived, hdelivered, hbuffer], ?_⟩
  intro hthrough
  have hlength := (hthrough failedFlush (List.prefix_refl _) reached hrun
    hrunning hfull).length_eq
  simp [hreceived, hdelivered, hbuffer, hheld] at hlength

end BufferedIpcClient

end Transport
end Acdp
