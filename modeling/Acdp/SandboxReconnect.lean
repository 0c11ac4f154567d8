import Acdp.SandboxExecution

/-!
# Replaying the buffered output

A call of `reconnect` copies the buffered lines into the channels of a new
stream while it holds the lock for reading; nobody reads these channels before
the call returns.  It returns by itself, the stream has the lines that were
buffered, and the lock becomes free again for the tasks that buffer the
output, exactly when neither buffer has more lines than a channel has room
for.
-/

namespace Acdp
namespace Sandbox

/-! ## One call -/

/-- A call under way: what it has sent into the two channels, and what it has
still to send. -/
structure ReconnectCall where
  stdout : List Bytes
  stdoutRest : List Bytes
  stderr : List Bytes
  stderrRest : List Bytes
  result : Option ExecutionResult

namespace ReconnectCall

def start (state : ExecutionState) : ReconnectCall where
  stdout := []
  stdoutRest := state.stdoutBuffer
  stderr := []
  stderrRest := state.stderrBuffer
  result := state.result

/-- The next line is sent, if there is room for it. -/
def send (self : ReconnectCall) : Option ReconnectCall :=
  match self.stdoutRest, self.stderrRest with
  | line :: rest, _ =>
      if self.stdout.length < streamCapacity then
        some { self with stdout := self.stdout ++ [line], stdoutRest := rest }
      else none
  | [], line :: rest =>
      if self.stderr.length < streamCapacity then
        some { self with stderr := self.stderr ++ [line], stderrRest := rest }
      else none
  | [], [] => none

def finish (self : ReconnectCall) : Option ExecutionStream :=
  if self.stdoutRest = [] ∧ self.stderrRest = [] then
    some ⟨self.stdout, self.stderr, self.result⟩
  else none

def machine : StepMachine ReconnectCall Unit := ⟨fun call _ => call.send⟩

/-- The call comes to its end by itself. -/
def Returns (call : ReconnectCall) : Prop :=
  ∃ reached, machine.Reaches call reached ∧ reached.finish.isSome = true

/-- The call sends these lines, and has not sent more than there is room
for. -/
structure Carries (stdout stderr : List Bytes) (call : ReconnectCall) :
    Prop where
  stdout : call.stdout ++ call.stdoutRest = stdout
  stderr : call.stderr ++ call.stderrRest = stderr
  stdout_le : call.stdout.length ≤ streamCapacity
  stderr_le : call.stderr.length ≤ streamCapacity

variable {stdout stderr : List Bytes} {call next : ReconnectCall}

theorem start_carries (state : ExecutionState) :
    (start state).Carries state.stdoutBuffer state.stderrBuffer where
  stdout := rfl
  stderr := rfl
  stdout_le := Nat.zero_le _
  stderr_le := Nat.zero_le _

theorem Carries.send (hcarries : call.Carries stdout stderr)
    (hnext : call.send = some next) : next.Carries stdout stderr := by
  unfold ReconnectCall.send at hnext
  split at hnext
  · next line rest hrest =>
      rw [Option.ite_none_right_eq_some, Option.some.injEq] at hnext
      obtain ⟨hroom, rfl⟩ := hnext
      refine ⟨?_, hcarries.stderr, ?_, hcarries.stderr_le⟩
      · rw [← hcarries.stdout, hrest]
        simp
      · rw [List.length_append]
        exact hroom
  · next line rest hstdout hrest =>
      rw [Option.ite_none_right_eq_some, Option.some.injEq] at hnext
      obtain ⟨hroom, rfl⟩ := hnext
      refine ⟨hcarries.stdout, ?_, hcarries.stdout_le, ?_⟩
      · rw [← hcarries.stderr, hrest]
        simp
      · rw [List.length_append]
        exact hroom
  · cases hnext

theorem Carries.finish (hcarries : call.Carries stdout stderr)
    {stream : ExecutionStream} (hfinish : call.finish = some stream) :
    stream.stdout = stdout ∧ stream.stderr = stderr ∧
      stdout.length ≤ streamCapacity ∧ stderr.length ≤ streamCapacity := by
  rw [ReconnectCall.finish, Option.ite_none_right_eq_some,
    Option.some.injEq] at hfinish
  obtain ⟨⟨hstdout, hstderr⟩, rfl⟩ := hfinish
  have hout := hcarries.stdout
  have herr := hcarries.stderr
  rw [hstdout, List.append_nil] at hout
  rw [hstderr, List.append_nil] at herr
  exact ⟨hout, herr, hout ▸ hcarries.stdout_le, herr ▸ hcarries.stderr_le⟩

/-- How many lines the call has still to send. -/
def unsent (self : ReconnectCall) : ℕ :=
  self.stdoutRest.length + self.stderrRest.length

/-- Where everything fits, a line that is left can be sent. -/
theorem Carries.exists_send (hcarries : call.Carries stdout stderr)
    (hstdout : stdout.length ≤ streamCapacity)
    (hstderr : stderr.length ≤ streamCapacity)
    (hopen : call.finish = none) :
    ∃ next, call.send = some next ∧ next.unsent < call.unsent := by
  have hout := congrArg List.length hcarries.stdout
  have herr := congrArg List.length hcarries.stderr
  rw [List.length_append] at hout herr
  unfold ReconnectCall.send
  cases hrest : call.stdoutRest with
  | cons line rest =>
      rw [hrest, List.length_cons] at hout
      dsimp only
      rw [if_pos (by omega)]
      exact ⟨_, rfl, by simp [unsent, hrest]⟩
  | nil =>
      cases hlast : call.stderrRest with
      | cons line rest =>
          rw [hlast, List.length_cons] at herr
          dsimp only
          rw [if_pos (by omega)]
          exact ⟨_, rfl, by simp [unsent, hrest, hlast]⟩
      | nil => simp [ReconnectCall.finish, hrest, hlast] at hopen

theorem Carries.returns (hcarries : call.Carries stdout stderr)
    (hstdout : stdout.length ≤ streamCapacity)
    (hstderr : stderr.length ≤ streamCapacity) : call.Returns := by
  induction hcount : call.unsent using Nat.strong_induction_on
    generalizing call with
  | _ count ih =>
      cases hopen : call.finish with
      | some stream =>
          exact ⟨call, StepMachine.reaches_refl _ _, by rw [hopen]; rfl⟩
      | none =>
          obtain ⟨next, hnext, hless⟩ :=
            hcarries.exists_send hstdout hstderr hopen
          obtain ⟨reached, hreached, hfinish⟩ :=
            ih next.unsent (hcount ▸ hless) (hcarries.send hnext) rfl
          have hstep : machine.step call () = some next := hnext
          have hfirst : machine.Reaches call next :=
            (StepMachine.reaches_refl _ _).next hstep
          exact ⟨reached, hfirst.trans hreached, hfinish⟩

/-- A call returns by itself exactly when both channels have room for all
their lines. -/
theorem Carries.returns_iff (hcarries : call.Carries stdout stderr) :
    call.Returns ↔
      stdout.length ≤ streamCapacity ∧ stderr.length ≤ streamCapacity := by
  constructor
  · rintro ⟨reached, ⟨trace, hrun⟩, hfinish⟩
    have hreached : reached.Carries stdout stderr :=
      StepMachine.run_invariant
        (fun _ _ _ hcarries hnext => hcarries.send hnext) hcarries hrun
    obtain ⟨stream, hstream⟩ := Option.isSome_iff_exists.mp hfinish
    exact (hreached.finish hstream).2.2
  · rintro ⟨hstdout, hstderr⟩
    exact hcarries.returns hstdout hstderr

end ReconnectCall

/-! ## What the other steps leave alone -/

namespace Execution

variable {self next : Execution}

theorem write_eq {state : ExecutionState}
    (hnext : self.write state = some next) :
    self.reconnects = 0 ∧ next.reconnects = 0 ∧ next.state = state := by
  rw [write, Option.ite_none_right_eq_some, Option.some.injEq] at hnext
  obtain ⟨hfree, rfl⟩ := hnext
  exact ⟨hfree, hfree, rfl⟩

/-- The step writes no line and begins or ends no call of `reconnect`. -/
def LeavesBuffers : Action → Prop
  | .stdoutLine _ => False
  | .stderrLine _ => False
  | .reconnect => False
  | .dropReconnect => False
  | _ => True

theorem step_frame {action : Action} (haction : LeavesBuffers action)
    (hnext : self.step action = some next) :
    next.reconnects = self.reconnects ∧
      next.state.stdoutBuffer = self.state.stdoutBuffer ∧
      next.state.stderrBuffer = self.state.stderrBuffer := by
  cases action with
  | stdoutLine line => exact haction.elim
  | stderrLine line => exact haction.elim
  | reconnect => exact haction.elim
  | dropReconnect => exact haction.elim
  | cancel =>
      simp only [step, cancel] at hnext
      split at hnext
      · obtain ⟨hbefore, hafter, hstate⟩ := write_eq hnext
        rw [hbefore, hafter, hstate]
        exact ⟨rfl, rfl, rfl⟩
      · cases hnext
  | intoStream =>
      simp only [step, intoStream] at hnext
      split at hnext
      · obtain rfl := Option.some.inj hnext
        exact ⟨rfl, rfl, rfl⟩
      · cases hnext
  | monitor =>
      simp only [step, monitor] at hnext
      split at hnext
      · obtain rfl := Option.some.inj hnext
        exact ⟨rfl, rfl, rfl⟩
      · cases hnext
  | setRunning =>
      simp only [step, setRunning] at hnext
      split at hnext
      · obtain ⟨hbefore, hafter, hstate⟩ := write_eq hnext
        rw [hafter, hstate]
        exact ⟨hbefore.symm, rfl, rfl⟩
      · cases hnext
  | receiveResult result =>
      simp only [step, receiveResult] at hnext
      split at hnext
      · obtain ⟨hbefore, hafter, hstate⟩ := write_eq hnext
        rw [hafter, hstate]
        exact ⟨hbefore.symm, rfl, rfl⟩
      · obtain rfl := Option.some.inj hnext
        exact ⟨rfl, rfl, rfl⟩
      · cases hnext
  | readState =>
      rw [read_eq hnext]
      exact ⟨rfl, rfl, rfl⟩
  | wait =>
      rw [wait_eq hnext]
      exact ⟨rfl, rfl, rfl⟩
  | queueWriter =>
      rw [step, queueWriter, Option.ite_none_left_eq_some,
        Option.some.injEq] at hnext
      rw [← hnext.2]
      exact ⟨rfl, rfl, rfl⟩

theorem stdoutLine_eq {line : Bytes}
    (hnext : self.stdoutLine line = some next) :
    self.reconnects = 0 ∧ next.reconnects = 0 ∧
      next.state = self.state.pushStdout line maxBufferedLines := by
  rw [stdoutLine, Option.ite_none_right_eq_some] at hnext
  exact write_eq hnext.2

theorem stderrLine_eq {line : Bytes}
    (hnext : self.stderrLine line = some next) :
    self.reconnects = 0 ∧ next.reconnects = 0 ∧
      next.state = self.state.pushStderr line maxBufferedLines := by
  rw [stderrLine, Option.ite_none_right_eq_some] at hnext
  exact write_eq hnext.2

theorem dropReconnect_eq (hnext : self.dropReconnect = some next) :
    self.reconnects = next.reconnects + 1 ∧ next.state = self.state := by
  unfold dropReconnect at hnext
  split at hnext
  · cases hnext
  · next hone =>
      obtain rfl := Option.some.inj hnext
      exact ⟨hone, rfl⟩
  · next count hmore =>
      obtain rfl := Option.some.inj hnext
      exact ⟨hmore, rfl⟩

theorem exists_dropReconnect (hreader : self.reconnects ≠ 0) :
    ∃ next, self.dropReconnect = some next := by
  unfold dropReconnect
  split
  · next hnone => exact absurd hnone hreader
  · exact ⟨_, rfl⟩
  · exact ⟨_, rfl⟩

end Execution

/-! ## Calls beside the monitor -/

/-- A stream that was returned, and the lines recorded up to then. -/
structure Replayed where
  stream : ExecutionStream
  stdoutLines : List Bytes
  stderrLines : List Bytes

/-- The execution, whose readers are the calls under way; all lines recorded
so far; and what the calls have returned. -/
structure Replay where
  execution : Execution
  calls : List ReconnectCall
  stdoutLines : List Bytes
  stderrLines : List Bytes
  returned : List Replayed

inductive ReplayAction where
  | execution (action : Execution.Action)
  | reconnect
  | send (index : ℕ)
  | finish (index : ℕ)
  | giveUp (index : ℕ)

namespace Replay

def new : Replay := ⟨.new, [], [], [], []⟩

/-- What the execution does beside the calls of `reconnect`. -/
def executionStep (self : Replay) (action : Execution.Action) :
    Option Replay :=
  match action with
  | .reconnect => none
  | .dropReconnect => none
  | .stdoutLine line =>
      (self.execution.stdoutLine line).map (fun execution =>
        { self with
          execution := execution
          stdoutLines := self.stdoutLines ++ [line] })
  | .stderrLine line =>
      (self.execution.stderrLine line).map (fun execution =>
        { self with
          execution := execution
          stderrLines := self.stderrLines ++ [line] })
  | action =>
      (self.execution.step action).map (fun execution =>
        { self with execution := execution })

/-- The call gets the lock for reading. -/
def reconnect (self : Replay) : Option Replay :=
  self.execution.read.map (fun execution =>
    { self with
      execution := { execution with reconnects := execution.reconnects + 1 }
      calls := self.calls ++ [.start execution.state] })

def send (self : Replay) (index : ℕ) : Option Replay := do
  let call ← self.calls[index]?
  let sent ← call.send
  some { self with calls := self.calls.set index sent }

/-- The call releases the lock and is over. -/
def release (self : Replay) (index : ℕ) : Option Replay :=
  self.execution.dropReconnect.map (fun execution =>
    { self with execution := execution, calls := self.calls.eraseIdx index })

def finish (self : Replay) (index : ℕ) : Option Replay := do
  let call ← self.calls[index]?
  let stream ← call.finish
  let released ← self.release index
  some { released with
    returned := self.returned ++ [⟨stream, self.stdoutLines, self.stderrLines⟩] }

def giveUp (self : Replay) (index : ℕ) : Option Replay := do
  let _ ← self.calls[index]?
  self.release index

def step (self : Replay) : ReplayAction → Option Replay
  | .execution action => self.executionStep action
  | .reconnect => self.reconnect
  | .send index => self.send index
  | .finish index => self.finish index
  | .giveUp index => self.giveUp index

def machine : StepMachine Replay ReplayAction := ⟨step⟩

/-- The most recent lines, as many as are buffered. -/
def lastLines (lines : List Bytes) : List Bytes :=
  lines.drop (lines.length - maxBufferedLines)

/-- The steps that the calls take by themselves. -/
def OfCalls : ReplayAction → Prop
  | .send _ => True
  | .finish _ => True
  | _ => False

/-- The calls under way come to their ends by themselves and leave the lock to
those that write. -/
def Frees (self : Replay) : Prop :=
  ∃ trace freed, (∀ action ∈ trace, OfCalls action) ∧
    machine.run self trace = some freed ∧ freed.calls = [] ∧
    freed.execution.reconnects = 0

structure Replays (found : Replay) : Prop where
  returns : ∀ call ∈ found.calls, call.Returns
  exact : ∀ replayed ∈ found.returned,
    replayed.stream.stdout = lastLines replayed.stdoutLines ∧
      replayed.stream.stderr = lastLines replayed.stderrLines
  frees : found.Frees

/-- Neither buffer has more lines than a channel has room for when a call gets
the lock. -/
def Fits (self : Replay) : ReplayAction → Prop
  | .reconnect =>
      self.execution.state.stdoutBuffer.length ≤ streamCapacity ∧
        self.execution.state.stderrBuffer.length ≤ streamCapacity
  | _ => True

/-- What holds in every state: the readers are the calls under way, which
carry the buffers; the buffers have the most recent lines. -/
structure Sound (found : Replay) : Prop where
  readers : found.execution.reconnects = found.calls.length
  carries : ∀ call ∈ found.calls,
    call.Carries found.execution.state.stdoutBuffer
      found.execution.state.stderrBuffer
  stdout : found.execution.state.stdoutBuffer = lastLines found.stdoutLines
  stderr : found.execution.state.stderrBuffer = lastLines found.stderrLines
  exact : ∀ replayed ∈ found.returned,
    replayed.stream.stdout = lastLines replayed.stdoutLines ∧
      replayed.stream.stderr = lastLines replayed.stderrLines

theorem new_sound : new.Sound where
  readers := rfl
  carries := fun _ hmem => absurd hmem List.not_mem_nil
  stdout := rfl
  stderr := rfl
  exact := fun _ hmem => absurd hmem List.not_mem_nil

theorem pushLine_lastLines (lines : List Bytes) (line : Bytes) :
    ExecutionState.pushLine (lastLines lines) line maxBufferedLines =
      lastLines (lines ++ [line]) := by
  unfold ExecutionState.pushLine lastLines
  rw [List.length_drop, List.length_append, List.length_singleton]
  split_ifs with hfull
  · have hcount : lines.length + 1 - maxBufferedLines =
        lines.length - maxBufferedLines + 1 := by
      omega
    rw [hcount, List.tail_drop, List.drop_append_of_le_length]
    have hpositive : 0 < maxBufferedLines := by decide
    omega
  · have hnone : lines.length - maxBufferedLines = 0 := by omega
    have hnext : lines.length + 1 - maxBufferedLines = 0 := by omega
    rw [hnone, hnext, List.drop_zero, List.drop_zero]

section Steps

variable {found next : Replay}

/-- What a step of the execution does to the buffers: it leaves them as they
are, or it writes a line, which it does only while nobody reads. -/
theorem executionStep_cases {action : Execution.Action}
    (hnext : found.executionStep action = some next) :
    ∃ execution,
      (next = { found with execution := execution } ∧
        execution.reconnects = found.execution.reconnects ∧
        execution.state.stdoutBuffer = found.execution.state.stdoutBuffer ∧
        execution.state.stderrBuffer =
          found.execution.state.stderrBuffer) ∨
      found.execution.reconnects = 0 ∧ execution.reconnects = 0 ∧
        ((∃ line,
          next = { found with
            execution := execution
            stdoutLines := found.stdoutLines ++ [line] } ∧
          execution.state =
            found.execution.state.pushStdout line maxBufferedLines) ∨
        ∃ line,
          next = { found with
            execution := execution
            stderrLines := found.stderrLines ++ [line] } ∧
          execution.state =
            found.execution.state.pushStderr line maxBufferedLines) := by
  have hother (hleaves : Execution.LeavesBuffers action)
      (hstep : (found.execution.step action).map (fun execution =>
        { found with execution := execution }) = some next) :
      ∃ execution, next = { found with execution := execution } ∧
        execution.reconnects = found.execution.reconnects ∧
        execution.state.stdoutBuffer = found.execution.state.stdoutBuffer ∧
        execution.state.stderrBuffer =
          found.execution.state.stderrBuffer := by
    obtain ⟨execution, hexecution, rfl⟩ := Option.map_eq_some_iff.mp hstep
    exact ⟨execution, rfl, Execution.step_frame hleaves hexecution⟩
  cases action with
  | reconnect => cases hnext
  | dropReconnect => cases hnext
  | stdoutLine line =>
      obtain ⟨execution, hexecution, rfl⟩ := Option.map_eq_some_iff.mp hnext
      obtain ⟨hbefore, hafter, hstate⟩ := Execution.stdoutLine_eq hexecution
      exact ⟨execution, Or.inr ⟨hbefore, hafter, Or.inl ⟨line, rfl, hstate⟩⟩⟩
  | stderrLine line =>
      obtain ⟨execution, hexecution, rfl⟩ := Option.map_eq_some_iff.mp hnext
      obtain ⟨hbefore, hafter, hstate⟩ := Execution.stderrLine_eq hexecution
      exact ⟨execution, Or.inr ⟨hbefore, hafter, Or.inr ⟨line, rfl, hstate⟩⟩⟩
  | cancel => exact (hother trivial hnext).imp fun _ => Or.inl
  | intoStream => exact (hother trivial hnext).imp fun _ => Or.inl
  | monitor => exact (hother trivial hnext).imp fun _ => Or.inl
  | setRunning => exact (hother trivial hnext).imp fun _ => Or.inl
  | receiveResult result => exact (hother trivial hnext).imp fun _ => Or.inl
  | readState => exact (hother trivial hnext).imp fun _ => Or.inl
  | wait => exact (hother trivial hnext).imp fun _ => Or.inl
  | queueWriter => exact (hother trivial hnext).imp fun _ => Or.inl

theorem Sound.calls_eq_nil (hsound : found.Sound)
    (hfree : found.execution.reconnects = 0) : found.calls = [] :=
  List.length_eq_zero_iff.mp (hsound.readers.symm.trans hfree)

/-- While there is no call the buffers may change, as long as they have the
most recent lines. -/
theorem Sound.written (hsound : found.Sound)
    (hfree : found.execution.reconnects = 0) {execution : Execution}
    (hafter : execution.reconnects = 0) {stdoutLines stderrLines : List Bytes}
    (hstdout : execution.state.stdoutBuffer = lastLines stdoutLines)
    (hstderr : execution.state.stderrBuffer = lastLines stderrLines) :
    ({ found with
      execution := execution
      stdoutLines := stdoutLines
      stderrLines := stderrLines } : Replay).Sound := by
  have hcalls := hsound.calls_eq_nil hfree
  refine ⟨?_, ?_, hstdout, hstderr, hsound.exact⟩
  · dsimp only
    rw [hafter, hcalls]
    rfl
  · intro call hcall
    dsimp only at hcall
    rw [hcalls] at hcall
    exact absurd hcall List.not_mem_nil

theorem Sound.executionStep (hsound : found.Sound) {action : Execution.Action}
    (hnext : found.executionStep action = some next) : next.Sound := by
  obtain ⟨execution, ⟨rfl, hreaders, hstdout, hstderr⟩ |
    ⟨hfree, hafter, hline⟩⟩ := executionStep_cases hnext
  · refine ⟨hreaders.trans hsound.readers, ?_, hstdout.trans hsound.stdout,
      hstderr.trans hsound.stderr, hsound.exact⟩
    intro call hcall
    dsimp only
    rw [hstdout, hstderr]
    exact hsound.carries call hcall
  · rcases hline with ⟨line, rfl, hstate⟩ | ⟨line, rfl, hstate⟩ <;>
      apply hsound.written hfree hafter <;> rw [hstate]
    · rw [← pushLine_lastLines, ← hsound.stdout]
      rfl
    · rw [← hsound.stderr]
      rfl
    · rw [← hsound.stdout]
      rfl
    · rw [← pushLine_lastLines, ← hsound.stderr]
      rfl

theorem Sound.reconnect (hsound : found.Sound)
    (hnext : found.reconnect = some next) : next.Sound := by
  obtain ⟨execution, hread, rfl⟩ := Option.map_eq_some_iff.mp hnext
  obtain rfl := Execution.read_eq hread
  refine ⟨?_, ?_, hsound.stdout, hsound.stderr, hsound.exact⟩
  · dsimp only
    rw [hsound.readers, List.length_append]
    rfl
  · intro call hcall
    rcases List.mem_append.mp hcall with hold | hnew
    · exact hsound.carries call hold
    · rw [List.mem_singleton.mp hnew]
      exact ReconnectCall.start_carries found.execution.state

theorem send_eq {index : ℕ} (hnext : found.send index = some next) :
    ∃ call sent, found.calls[index]? = some call ∧ call.send = some sent ∧
      next = { found with calls := found.calls.set index sent } := by
  simp only [send, Option.bind_eq_bind, Option.bind_eq_some_iff,
    Option.some.injEq] at hnext
  obtain ⟨call, hcall, sent, hsent, rfl⟩ := hnext
  exact ⟨call, sent, hcall, hsent, rfl⟩

theorem Sound.send (hsound : found.Sound) {index : ℕ}
    (hnext : found.send index = some next) : next.Sound := by
  obtain ⟨call, sent, hcall, hsent, rfl⟩ := send_eq hnext
  refine ⟨?_, ?_, hsound.stdout, hsound.stderr, hsound.exact⟩
  · dsimp only
    rw [List.length_set]
    exact hsound.readers
  · intro other hother
    rcases List.mem_or_eq_of_mem_set hother with hold | rfl
    · exact hsound.carries other hold
    · exact (hsound.carries call (List.mem_of_getElem? hcall)).send hsent

theorem Sound.release (hsound : found.Sound) {index : ℕ}
    {call : ReconnectCall} (hcall : found.calls[index]? = some call)
    (hnext : found.release index = some next) : next.Sound := by
  obtain ⟨execution, hdrop, rfl⟩ := Option.map_eq_some_iff.mp hnext
  obtain ⟨hreaders, hstate⟩ := Execution.dropReconnect_eq hdrop
  obtain ⟨hindex, _⟩ := List.getElem?_eq_some_iff.mp hcall
  refine ⟨?_, ?_, ?_, ?_, hsound.exact⟩
  · dsimp only
    rw [List.length_eraseIdx_of_lt hindex, ← hsound.readers, hreaders]
    rfl
  · intro other hother
    dsimp only
    rw [hstate]
    exact hsound.carries other (List.mem_of_mem_eraseIdx hother)
  · dsimp only
    rw [hstate]
    exact hsound.stdout
  · dsimp only
    rw [hstate]
    exact hsound.stderr

theorem finish_eq {index : ℕ} (hnext : found.finish index = some next) :
    ∃ call stream released, found.calls[index]? = some call ∧
      call.finish = some stream ∧ found.release index = some released ∧
      next = { released with
        returned := found.returned ++
          [⟨stream, found.stdoutLines, found.stderrLines⟩] } := by
  simp only [finish, Option.bind_eq_bind, Option.bind_eq_some_iff,
    Option.some.injEq] at hnext
  obtain ⟨call, hcall, stream, hstream, released, hreleased, rfl⟩ := hnext
  exact ⟨call, stream, released, hcall, hstream, hreleased, rfl⟩

theorem Sound.finish (hsound : found.Sound) {index : ℕ}
    (hnext : found.finish index = some next) : next.Sound := by
  obtain ⟨call, stream, released, hcall, hstream, hreleased, rfl⟩ :=
    finish_eq hnext
  have hafter := hsound.release hcall hreleased
  refine ⟨hafter.readers, hafter.carries, hafter.stdout, hafter.stderr, ?_⟩
  intro replayed hreplayed
  rcases List.mem_append.mp hreplayed with hold | hnew
  · exact hsound.exact replayed hold
  · obtain ⟨hstdout, hstderr, _, _⟩ :=
      (hsound.carries call (List.mem_of_getElem? hcall)).finish hstream
    rw [List.mem_singleton.mp hnew]
    exact ⟨hstdout.trans hsound.stdout, hstderr.trans hsound.stderr⟩

theorem Sound.step (hsound : found.Sound) {action : ReplayAction}
    (hnext : Replay.step found action = some next) : next.Sound := by
  cases action with
  | execution action => exact hsound.executionStep hnext
  | reconnect => exact hsound.reconnect hnext
  | send index => exact hsound.send hnext
  | finish index => exact hsound.finish hnext
  | giveUp index =>
      simp only [Replay.step, Replay.giveUp, Option.bind_eq_bind,
        Option.bind_eq_some_iff] at hnext
      obtain ⟨call, hcall, hreleased⟩ := hnext
      exact hsound.release hcall hreleased

/-! ### The calls come to their ends -/

/-- What the first call sends by itself, it sends beside the others. -/
theorem run_sends {call reached : ReconnectCall} {rest : List ReconnectCall}
    {trace : List Unit}
    (hrun : ReconnectCall.machine.run call trace = some reached)
    (hcalls : found.calls = call :: rest) :
    machine.run found (List.replicate trace.length (.send 0)) =
      some { found with calls := reached :: rest } := by
  induction trace generalizing call found with
  | nil =>
      obtain rfl := Option.some.inj hrun
      rw [List.length_nil, List.replicate_zero, StepMachine.run_nil, ← hcalls]
  | cons action trace ih =>
      rw [StepMachine.run_cons, Option.bind_eq_some_iff] at hrun
      obtain ⟨sent, hsent, hrest⟩ := hrun
      change call.send = some sent at hsent
      have hstep : machine.step found (.send 0) =
          some { found with calls := sent :: rest } := by
        change found.send 0 = _
        simp [Replay.send, hcalls, hsent]
      rw [List.length_cons, List.replicate_succ, StepMachine.run_cons, hstep,
        Option.bind_some]
      exact ih hrest rfl

theorem Sound.exists_finish (hsound : found.Sound) {call : ReconnectCall}
    {rest : List ReconnectCall} (hcalls : found.calls = call :: rest)
    (hfinish : call.finish.isSome = true) :
    ∃ next, found.finish 0 = some next ∧ next.calls = rest := by
  obtain ⟨stream, hstream⟩ := Option.isSome_iff_exists.mp hfinish
  have hreader : found.execution.reconnects ≠ 0 := by
    rw [hsound.readers, hcalls]
    exact Nat.succ_ne_zero _
  obtain ⟨execution, hdrop⟩ := Execution.exists_dropReconnect hreader
  refine ⟨{ found with
    execution := execution
    calls := rest
    returned := found.returned ++
      [⟨stream, found.stdoutLines, found.stderrLines⟩] }, ?_, rfl⟩
  simp [Replay.finish, Replay.release, hcalls, hstream, hdrop]

/-- Calls that return one by one leave the lock. -/
theorem Sound.frees (hsound : found.Sound)
    (hreturns : ∀ call ∈ found.calls, call.Returns) : found.Frees := by
  induction hcount : found.calls.length generalizing found with
  | zero =>
      have hcalls := List.length_eq_zero_iff.mp hcount
      exact ⟨[], found, by simp, rfl, hcalls, hsound.readers.trans hcount⟩
  | succ count ih =>
      obtain ⟨call, rest, hcalls⟩ := List.exists_cons_of_length_eq_add_one hcount
      obtain ⟨reached, ⟨sends, hsends⟩, hfinish⟩ :=
        hreturns call (by rw [hcalls]; exact List.mem_cons_self)
      have hsent := run_sends hsends hcalls
      have hsoundSent := StepMachine.run_invariant
        (fun _ _ _ hsound hnext => hsound.step hnext) hsound hsent
      obtain ⟨next, hnext, hrest⟩ := hsoundSent.exists_finish rfl hfinish
      have hsoundNext := hsoundSent.finish hnext
      have hothers : ∀ other ∈ next.calls, other.Returns := by
        intro other hother
        rw [hrest] at hother
        apply hreturns
        rw [hcalls]
        exact List.mem_cons_of_mem call hother
      obtain ⟨trace, freed, htrace, hrun, hfreed⟩ :=
        ih hsoundNext hothers (by rw [hrest]; simpa [hcalls] using hcount)
      refine ⟨List.replicate sends.length (.send 0) ++ .finish 0 :: trace,
        freed, ?_, ?_, hfreed⟩
      · intro action haction
        rcases List.mem_append.mp haction with hsend | hlater
        · rw [List.eq_of_mem_replicate hsend]
          trivial
        · rcases List.mem_cons.mp hlater with rfl | hlater
          · trivial
          · exact htrace action hlater
      · have hstep : machine.step { found with calls := reached :: rest }
            (.finish 0) = some next := hnext
        rw [StepMachine.run_append, hsent, Option.bind_some,
          StepMachine.run_cons, hstep, Option.bind_some]
        exact hrun

end Steps

/-! ## Whole runs -/

structure Invariant (found : Replay) : Prop where
  sound : found.Sound
  fits : found.calls ≠ [] →
    found.execution.state.stdoutBuffer.length ≤ streamCapacity ∧
      found.execution.state.stderrBuffer.length ≤ streamCapacity

theorem new_invariant : new.Invariant where
  sound := new_sound
  fits := fun hcalls => absurd rfl hcalls

section Runs

variable {found next : Replay}

theorem Invariant.replays (hinvariant : found.Invariant) :
    found.Replays := by
  have hreturns : ∀ call ∈ found.calls, call.Returns := by
    intro call hcall
    rw [(hinvariant.sound.carries call hcall).returns_iff]
    exact hinvariant.fits (List.ne_nil_of_mem hcall)
  exact ⟨hreturns, hinvariant.sound.exact, hinvariant.sound.frees hreturns⟩

/-- The buffers only change while no call is under way. -/
theorem Sound.executionStep_frame (hsound : found.Sound)
    {action : Execution.Action}
    (hnext : found.executionStep action = some next) :
    next.calls = found.calls ∧ (found.calls ≠ [] →
      next.execution.state.stdoutBuffer =
          found.execution.state.stdoutBuffer ∧
        next.execution.state.stderrBuffer =
          found.execution.state.stderrBuffer) := by
  obtain ⟨execution, ⟨rfl, _, hstdout, hstderr⟩ | ⟨hfree, _, hline⟩⟩ :=
    executionStep_cases hnext
  · exact ⟨rfl, fun _ => ⟨hstdout, hstderr⟩⟩
  · have hcalls := hsound.calls_eq_nil hfree
    rcases hline with ⟨line, rfl, _⟩ | ⟨line, rfl, _⟩ <;>
      exact ⟨rfl, fun hsome => absurd hcalls hsome⟩

theorem Invariant.release (hinvariant : found.Invariant) {index : ℕ}
    (hnext : found.release index = some next) (hcalls : next.calls ≠ []) :
    next.execution.state.stdoutBuffer.length ≤ streamCapacity ∧
      next.execution.state.stderrBuffer.length ≤ streamCapacity := by
  obtain ⟨execution, hdrop, rfl⟩ := Option.map_eq_some_iff.mp hnext
  dsimp only
  rw [(Execution.dropReconnect_eq hdrop).2]
  apply hinvariant.fits
  rintro hnone
  apply hcalls
  dsimp only
  rw [hnone]
  rfl

theorem Invariant.step (hinvariant : found.Invariant) {action : ReplayAction}
    (hnext : Replay.step found action = some next) (hfits : found.Fits action) :
    next.Invariant := by
  refine ⟨hinvariant.sound.step hnext, ?_⟩
  intro hcalls
  cases action with
  | execution action =>
      obtain ⟨hsame, hbuffers⟩ := hinvariant.sound.executionStep_frame hnext
      rw [hsame] at hcalls
      obtain ⟨hstdout, hstderr⟩ := hbuffers hcalls
      rw [hstdout, hstderr]
      exact hinvariant.fits hcalls
  | reconnect =>
      obtain ⟨execution, hread, rfl⟩ := Option.map_eq_some_iff.mp hnext
      obtain rfl := Execution.read_eq hread
      exact hfits
  | send index =>
      obtain ⟨call, sent, hcall, _, rfl⟩ := send_eq hnext
      exact hinvariant.fits
        (List.ne_nil_of_mem (List.mem_of_getElem? hcall))
  | finish index =>
      obtain ⟨call, stream, released, _, _, hreleased, rfl⟩ := finish_eq hnext
      have hreleasedFits := hinvariant.release hreleased
      exact hreleasedFits hcalls
  | giveUp index =>
      simp only [Replay.step, Replay.giveUp, Option.bind_eq_bind,
        Option.bind_eq_some_iff] at hnext
      obtain ⟨call, _, hreleased⟩ := hnext
      exact hinvariant.release hreleased hcalls

/-- A call that got the lock and returns by itself finds that everything
fits. -/
theorem fits_of_next {action : ReplayAction}
    (hnext : Replay.step found action = some next)
    (hreplays : next.Replays) : found.Fits action := by
  cases action with
  | reconnect =>
      obtain ⟨execution, hread, rfl⟩ := Option.map_eq_some_iff.mp hnext
      obtain rfl := Execution.read_eq hread
      have hreturns := hreplays.returns _
        (List.mem_append_right _ (List.mem_singleton_self _))
      exact (ReconnectCall.start_carries
        found.execution.state).returns_iff.mp hreturns
  | execution action => trivial
  | send index => trivial
  | finish index => trivial
  | giveUp index => trivial

end Runs

/-- In every state of a run, the calls of `reconnect` return by themselves
with the most recent lines and leave the lock, exactly when each of them finds
no more lines in a buffer than fit into a channel. -/
theorem throughout_replays_iff (trace : List ReplayAction) :
    machine.Throughout Replays new trace ↔ machine.Along Fits new trace := by
  apply StepMachine.throughout_iff_along ?_ ?_ ?_ new_invariant
  · intro before action after hinvariant hnext hfits
    exact hinvariant.step hnext hfits
  · intro reached hinvariant
    exact hinvariant.replays
  · intro before action after _ hnext hafter
    exact fits_of_next hnext hafter

/-! ## A buffer that is longer than a channel -/

def longTrace : List ReplayAction :=
  [.execution .monitor, .execution .setRunning] ++
    List.replicate 129 (.execution (.stdoutLine [104, 105])) ++ [.reconnect]

/-- With one line more than fits, the call never returns. -/
theorem longTrace_not_replays :
    (machine.run new longTrace).map (fun reached =>
        (reached.calls.map (fun call => call.stdoutRest.length),
          reached.execution.reconnects)) = some ([129], 1) ∧
      ¬ machine.Throughout Replays new longTrace := by
  have hrun : (machine.run new longTrace).map (fun reached =>
        (reached.calls.map (fun call => call.stdoutRest.length),
          reached.execution.reconnects)) = some ([129], 1) := by
    decide +kernel
  refine ⟨hrun, ?_⟩
  intro hthrough
  obtain ⟨reached, hreached, hfacts⟩ := Option.map_eq_some_iff.mp hrun
  rw [Prod.mk.injEq, List.map_eq_singleton_iff] at hfacts
  obtain ⟨⟨call, hcalls, hrest⟩, _⟩ := hfacts
  have hsound : reached.Sound := StepMachine.run_invariant
    (fun _ _ _ hsound hnext => hsound.step hnext) new_sound hreached
  have hcall : call ∈ reached.calls := by
    rw [hcalls]
    exact List.mem_singleton_self call
  have hreturns := (hthrough longTrace (List.prefix_refl _) reached
    hreached).returns call hcall
  have hcarries := hsound.carries call hcall
  have hfits := (hcarries.returns_iff.mp hreturns).1
  rw [← hcarries.stdout, List.length_append, hrest] at hfits
  have hcapacity : streamCapacity = 128 := rfl
  omega

end Replay

end Sandbox
end Acdp
