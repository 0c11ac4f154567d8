import Acdp.TransportBufferedIpc

/-!
# The order of buffered messages

Messages reach a connection on three ways: on their own while there is one,
from the buffer when a new one is made, and from the buffer again after a
failure.  A message goes into the buffer only where the task has no
connection or has just given it up, and then the buffer holds nothing that was
received later.  What was delivered, what the task has in its hands and what
waits in the buffer thus follow the order of receipt in every state.
-/

namespace Acdp
namespace Transport

variable {IpcMessage : Type}

@[simp] theorem ClientTask.held_selecting :
    (ClientTask.selecting : ClientTask IpcMessage).held = [] := rfl

namespace BufferedIpcClient

/-- A stopped task receives no message any more; what it leaves in its hands
is lost. -/
structure Orderly (found : BufferedIpcClient IpcMessage) : Prop where
  inOrder : found.delivered.Sublist found.received
  once : found.received.Nodup → found.delivered.Nodup
  waiting : found.task.isRunning = true →
    (found.delivered ++ (found.task.held ++ found.buffer)).Sublist
      found.received
  bounded : found.buffer.length ≤ maxBufferSize
  initial_le : initialReconnectDelay ≤ found.reconnectDelay
  le_max : found.reconnectDelay ≤ maxReconnectDelay

/-- The part of the state that decides the order: what is delivered, held and
buffered, in this order, against what is received. -/
structure Line (found : BufferedIpcClient IpcMessage) : Prop where
  flushed : found.connected = true → found.buffer = []
  connected : found.task.held ≠ [] → found.connected = true
  waiting : (found.delivered ++ (found.task.held ++ found.buffer)).Sublist
    found.received

structure Ordered (found : BufferedIpcClient IpcMessage) : Prop where
  line : found.task.isRunning = true → found.Line
  inOrder : found.delivered.Sublist found.received
  bounded : found.buffer.length ≤ maxBufferSize
  initial_le : initialReconnectDelay ≤ found.reconnectDelay
  le_max : found.reconnectDelay ≤ maxReconnectDelay

theorem Ordered.orderly {found : BufferedIpcClient IpcMessage}
    (hordered : found.Ordered) : found.Orderly where
  inOrder := hordered.inOrder
  once := fun hnodup => hordered.inOrder.nodup hnodup
  waiting := fun hrunning => (hordered.line hrunning).waiting
  bounded := hordered.bounded
  initial_le := hordered.initial_le
  le_max := hordered.le_max

theorem new_ordered : (new : BufferedIpcClient IpcMessage).Ordered where
  line := fun _ =>
    ⟨fun _ => rfl, fun hholds => absurd rfl hholds, List.Sublist.refl []⟩
  inOrder := List.Sublist.refl []
  bounded := Nat.zero_le _
  initial_le := le_refl initialReconnectDelay
  le_max := by simp [new, initialReconnectDelay, maxReconnectDelay]

section Steps

variable {self next : BufferedIpcClient IpcMessage}

theorem pushBack_bounded (hbounded : self.buffer.length ≤ maxBufferSize)
    (message : IpcMessage) :
    (self.pushBack message).buffer.length ≤ maxBufferSize := by
  unfold pushBack
  split_ifs with hroom
  · simp only [List.length_append, List.length_singleton]
    omega
  · exact hbounded

/-- Only the buffer and the note that it was full change. -/
theorem pushBack_eq (self : BufferedIpcClient IpcMessage)
    (message : IpcMessage) :
    ∃ buffer full, self.pushBack message =
        { self with buffer := buffer, full := full } ∧
      buffer.Sublist (self.buffer ++ [message]) := by
  unfold pushBack
  split_ifs with hroom
  · exact ⟨_, _, rfl, List.Sublist.refl _⟩
  · exact ⟨self.buffer, self.full, rfl, List.sublist_append_left _ _⟩

/-- A message may be put behind the buffer of a task that holds nothing, where
it was the last one received. -/
theorem line_pushBack {message : IpcMessage} (hheld : self.task.held = [])
    (hdisconnected : self.connected = false)
    (hwaiting : (self.delivered ++ (self.buffer ++ [message])).Sublist
      self.received) :
    (self.pushBack message).Line := by
  obtain ⟨buffer, full, hpushed, hbuffer⟩ := self.pushBack_eq message
  rw [hpushed]
  refine ⟨by simp [hdisconnected], fun hholds => absurd hheld hholds, ?_⟩
  change (self.delivered ++ (self.task.held ++ buffer)).Sublist self.received
  rw [hheld, List.nil_append]
  exact (hbuffer.append_left self.delivered).trans hwaiting

theorem Ordered.pushBack (hordered : self.Ordered) {message : IpcMessage}
    (hline : self.task.isRunning = true → (self.pushBack message).Line) :
    (self.pushBack message).Ordered := by
  have hbounded := pushBack_bounded hordered.bounded message
  obtain ⟨buffer, full, hpushed, _⟩ := self.pushBack_eq message
  rw [hpushed] at hline hbounded ⊢
  exact ⟨hline, hordered.inOrder, hbounded, hordered.initial_le,
    hordered.le_max⟩

theorem Ordered.send (hordered : self.Ordered) {message : IpcMessage}
    (hnext : self.send message = some next) : next.Ordered := by
  unfold BufferedIpcClient.send at hnext
  split_ifs at hnext with hrunning hroom
  · rw [Option.some.injEq] at hnext
    rw [← hnext]
    refine ⟨?_, hordered.inOrder, hordered.bounded, hordered.initial_le,
      hordered.le_max⟩
    intro _
    have hline := hordered.line hrunning
    exact ⟨hline.flushed, hline.connected, hline.waiting⟩
  · rw [Option.some.injEq] at hnext
    rw [← hnext]
    exact hordered.pushBack (fun hruns => absurd hruns hrunning)

theorem Ordered.receive (hordered : self.Ordered)
    (hnext : self.receive = some next) : next.Ordered := by
  unfold BufferedIpcClient.receive at hnext
  cases htask : self.task with
  | selecting =>
      cases hchannel : self.channel with
      | nil => simp [htask, hchannel] at hnext
      | cons message channel =>
          simp only [htask, hchannel, Option.some.injEq] at hnext
          have hline := hordered.line (by rw [htask]; rfl)
          have hbehind : (self.delivered ++ (self.buffer ++ [message])).Sublist
              (self.received ++ [message]) := by
            have hwaiting := hline.waiting
            rw [htask, ClientTask.held_selecting, List.nil_append] at hwaiting
            rw [← List.append_assoc]
            exact hwaiting.append (List.Sublist.refl [message])
          have hinOrder : self.delivered.Sublist
              (self.received ++ [message]) :=
            hordered.inOrder.trans (List.sublist_append_left _ _)
          by_cases hconnected : self.connected = true
          · rw [if_pos hconnected] at hnext
            rw [← hnext]
            have hempty := hline.flushed hconnected
            refine ⟨fun _ => ⟨fun _ => hempty, fun _ => hconnected, ?_⟩,
              hinOrder, hordered.bounded, hordered.initial_le, hordered.le_max⟩
            simpa [ClientTask.held, hempty] using hbehind
          · rw [if_neg hconnected] at hnext
            rw [← hnext]
            apply Ordered.pushBack
            · refine ⟨?_, hinOrder, hordered.bounded, hordered.initial_le,
                hordered.le_max⟩
              intro _
              refine ⟨fun hconnects => absurd hconnects hconnected,
                fun hholds => absurd rfl hholds, ?_⟩
              refine ((List.sublist_append_left _ [message]).append_left
                self.delivered).trans hbehind
            · intro _
              exact line_pushBack rfl (by simpa using hconnected) hbehind
  | sending message => simp [htask] at hnext
  | flushing message rest => simp [htask] at hnext
  | stopped => simp [htask] at hnext

theorem Ordered.tick (hordered : self.Ordered) {elapsed : ℕ} {connects : Bool}
    (hnext : self.tick elapsed connects = some next) : next.Ordered := by
  unfold BufferedIpcClient.tick at hnext
  cases htask : self.task with
  | selecting =>
      simp only [htask, Option.some.injEq] at hnext
      have hline := hordered.line (by rw [htask]; rfl)
      split_ifs at hnext with hdue hconnects
      · -- the whole buffer is taken, in its order
        rw [← hnext]
        have hdelay : initialReconnectDelay ≤ maxReconnectDelay := by decide
        refine ⟨fun _ => ⟨fun _ => rfl, fun _ => rfl, ?_⟩, hordered.inOrder,
          Nat.zero_le _, le_refl initialReconnectDelay, hdelay⟩
        simpa [htask] using hline.waiting
      · rw [← hnext]
        have hinitial := hordered.initial_le
        have hwaiting := hline.waiting
        rw [htask] at hwaiting
        refine ⟨fun _ => ⟨hline.flushed, fun hholds => absurd rfl hholds,
          hwaiting⟩, hordered.inOrder, hordered.bounded, ?_, min_le_right _ _⟩
        simp only [initialReconnectDelay, maxReconnectDelay,
          reconnectBackoffFactor] at hinitial ⊢
        omega
      · rwa [← hnext]
  | sending message => simp [htask] at hnext
  | flushing message rest => simp [htask] at hnext
  | stopped => simp [htask] at hnext

theorem Ordered.deliver (hordered : self.Ordered) {message : IpcMessage}
    {rest : List IpcMessage} (hrunning : self.task.isRunning = true)
    (hheld : self.task.held = message :: rest) :
    (self.deliver message (nextFlush rest)).Ordered := by
  have hline := hordered.line hrunning
  have hconnected := hline.connected (by simp [hheld])
  have hwaiting : ((self.delivered ++ [message]) ++
      ((nextFlush rest).held ++ self.buffer)).Sublist self.received := by
    simpa [hheld] using hline.waiting
  exact ⟨fun _ => ⟨hline.flushed, fun _ => hconnected, hwaiting⟩,
    (List.sublist_append_left _ _).trans hwaiting, hordered.bounded,
    hordered.initial_le, hordered.le_max⟩

/-- The buffer is empty as long as there is a connection, so the message that
is put back is alone in it. -/
theorem Ordered.failSend (hordered : self.Ordered) {message : IpcMessage}
    {rest : List IpcMessage} (hrunning : self.task.isRunning = true)
    (hheld : self.task.held = message :: rest) :
    (self.failSend message).Ordered := by
  have hline := hordered.line hrunning
  have hempty := hline.flushed (hline.connected (by simp [hheld]))
  have halone : (self.delivered ++ (self.buffer ++ [message])).Sublist
      self.received := by
    have hfirst : [message].Sublist (message :: rest) :=
      List.singleton_sublist.mpr List.mem_cons_self
    have hwaiting := hline.waiting
    rw [hheld, hempty, List.append_nil] at hwaiting
    rw [hempty, List.nil_append]
    exact (hfirst.append_left self.delivered).trans hwaiting
  unfold BufferedIpcClient.failSend
  apply Ordered.pushBack
  · refine ⟨?_, hordered.inOrder, hordered.bounded, hordered.initial_le,
      hordered.le_max⟩
    intro _
    refine ⟨fun _ => hempty, fun hholds => absurd rfl hholds, ?_⟩
    simpa [ClientTask.held, hempty] using hordered.inOrder
  · intro _
    exact line_pushBack rfl rfl halone

theorem Ordered.finishSend (hordered : self.Ordered) {sent : Bool}
    (hnext : self.finishSend sent = some next) : next.Ordered := by
  unfold BufferedIpcClient.finishSend at hnext
  cases htask : self.task with
  | sending message =>
      have hrunning : self.task.isRunning = true := by rw [htask]; rfl
      have hheld : self.task.held = [message] := by rw [htask]; rfl
      simp only [htask, Option.some.injEq] at hnext
      rw [← hnext]
      cases sent with
      | true => exact hordered.deliver hrunning hheld
      | false => exact hordered.failSend hrunning hheld
  | flushing message rest =>
      have hrunning : self.task.isRunning = true := by rw [htask]; rfl
      have hheld : self.task.held = message :: rest := by rw [htask]; rfl
      simp only [htask, Option.some.injEq] at hnext
      rw [← hnext]
      cases sent with
      | true => exact hordered.deliver hrunning hheld
      | false => exact hordered.failSend hrunning hheld
  | selecting => simp [htask] at hnext
  | stopped => simp [htask] at hnext

/-- The buffer is left as it is. -/
theorem Ordered.stop (hordered : self.Ordered) :
    ({ self with task := .stopped, channel := [] } :
      BufferedIpcClient IpcMessage).Ordered :=
  ⟨fun hruns => Bool.noConfusion hruns, hordered.inOrder, hordered.bounded,
    hordered.initial_le, hordered.le_max⟩

theorem Ordered.shutdown (hordered : self.Ordered)
    (hnext : self.shutdown = some next) : next.Ordered := by
  unfold BufferedIpcClient.shutdown at hnext
  cases htask : self.task with
  | selecting =>
      simp only [htask, Option.some.injEq] at hnext
      rw [← hnext]
      exact hordered.stop
  | sending message => simp [htask] at hnext
  | flushing message rest => simp [htask] at hnext
  | stopped => simp [htask] at hnext

theorem Ordered.step (hordered : self.Ordered) {action : Action IpcMessage}
    (hstep : self.step action = some next) : next.Ordered := by
  cases action with
  | send message => exact hordered.send hstep
  | receive => exact hordered.receive hstep
  | finishSend sent => exact hordered.finishSend hstep
  | tick elapsed connects => exact hordered.tick hstep
  | shutdown => exact hordered.shutdown hstep
  | drop =>
      rw [BufferedIpcClient.step, Option.some.injEq] at hstep
      rw [← hstep]
      exact hordered.stop

end Steps

/-- Whatever is received, sent, refused or reconnected, and in which order. -/
theorem throughout_orderly (trace : List (Action IpcMessage)) :
    machine.Throughout Orderly new trace := by
  intro before _ reached hrun
  have hkeep : ∀ (found : BufferedIpcClient IpcMessage)
      (action : Action IpcMessage) (after : BufferedIpcClient IpcMessage),
      found.Ordered → machine.step found action = some after →
        after.Ordered := by
    intro found action after hordered hstep
    exact hordered.step hstep
  exact (StepMachine.run_invariant hkeep new_ordered hrun).orderly

end BufferedIpcClient

end Transport
end Acdp
