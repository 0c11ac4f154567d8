import Acdp.SandboxTypes
import Acdp.StepMachine

/-!
# Monitored executions

The state of an execution is behind a read-write lock.  Before it is
monitored, its handle can cancel it; monitoring takes the handle, and a
background task then writes that the execution runs and, with the result, how
it ended.  A call of `reconnect` that has no room for the buffered output
keeps the lock for reading, and a writer that waits for the lock keeps later
readers out.  The status settles in every run, and waiting for a settled
execution returns, exactly as long as no cancelled handle is monitored and no
writer queues behind such a call once the status is settled.
-/

namespace Acdp
namespace Sandbox

inductive ExecutionStatus where
  | queued
  | running
  | completed
  | failed
  | cancelled
deriving DecidableEq

def ExecutionStatus.isTerminal : ExecutionStatus → Bool
  | .completed => true
  | .failed => true
  | .cancelled => true
  | _ => false

def ExecutionStatus.terminal? (self : ExecutionStatus) :
    Option ExecutionStatus :=
  if self.isTerminal then some self else none

structure ExecutionState where
  status : ExecutionStatus
  result : Option ExecutionResult
  stdoutBuffer : List Bytes
  stderrBuffer : List Bytes

namespace ExecutionState

def new : ExecutionState where
  status := .queued
  result := none
  stdoutBuffer := []
  stderrBuffer := []

def pushLine (buffer : List Bytes) (line : Bytes) (maxLines : ℕ) :
    List Bytes :=
  if maxLines ≤ buffer.length then buffer.tail ++ [line]
  else buffer ++ [line]

def pushStdout (self : ExecutionState) (line : Bytes) (maxLines : ℕ) :
    ExecutionState :=
  { self with stdoutBuffer := pushLine self.stdoutBuffer line maxLines }

def pushStderr (self : ExecutionState) (line : Bytes) (maxLines : ℕ) :
    ExecutionState :=
  { self with stderrBuffer := pushLine self.stderrBuffer line maxLines }

def finish (self : ExecutionState) (result : ExecutionResult) :
    ExecutionState :=
  { self with
    status := if result.success then .completed else .failed
    result := some result }

/-- What one turn of the loop of `wait` returns; where it is nothing, the loop
goes on. -/
def waitTurn (self : ExecutionState) : Option ExecutionResult :=
  if self.status.isTerminal then self.result else none

end ExecutionState

def maxBufferedLines : ℕ := 1000

/-- The capacity of the channels of a stream. -/
def streamCapacity : ℕ := 128

/-- Who has the execution: its handle until that is taken, by the monitor or
with its stream. -/
inductive Holder where
  | handle
  | monitored
  | streamTaken
deriving DecidableEq

/-- The background task: about to write that the execution runs, waiting for
the result, or at its end. -/
inductive Background where
  | unspawned
  | starting
  | awaiting
  | ended

/-- `reconnects` counts the calls of `reconnect` that hold the lock and wait
for room in a channel that nobody reads, and `writerQueued` says whether a
writer waits for the lock.  `settled` is the first terminal status there
was. -/
structure Execution where
  state : ExecutionState
  holder : Holder
  background : Background
  reconnects : ℕ
  writerQueued : Bool
  settled : Option ExecutionStatus

namespace Execution

def new : Execution where
  state := .new
  holder := .handle
  background := .unspawned
  reconnects := 0
  writerQueued := false
  settled := none

/-- A write under the lock. -/
def write (self : Execution) (state : ExecutionState) : Option Execution :=
  if self.reconnects = 0 then
    some { self with
      state := state
      settled := self.settled.or state.status.terminal? }
  else none

def cancel (self : Execution) : Option Execution :=
  match self.holder with
  | .handle => self.write { self.state with status := .cancelled }
  | _ => none

def intoStream (self : Execution) : Option Execution :=
  match self.holder with
  | .handle => some { self with holder := .streamTaken }
  | _ => none

def monitor (self : Execution) : Option Execution :=
  match self.holder with
  | .handle => some { self with holder := .monitored, background := .starting }
  | _ => none

/-- The first write of the background task. -/
def setRunning (self : Execution) : Option Execution :=
  match self.background with
  | .starting =>
      { self with background := .awaiting }.write
        { self.state with status := .running }
  | _ => none

/-- The tasks that buffer the output run from then on until the output
ends. -/
def buffers (self : Execution) : Bool :=
  match self.background with
  | .awaiting => true
  | .ended => true
  | _ => false

def stdoutLine (self : Execution) (line : Bytes) : Option Execution :=
  if self.buffers then self.write (self.state.pushStdout line maxBufferedLines)
  else none

def stderrLine (self : Execution) (line : Bytes) : Option Execution :=
  if self.buffers then self.write (self.state.pushStderr line maxBufferedLines)
  else none

/-- The result arrives, or its channel is closed without one. -/
def receiveResult (self : Execution) (result : Option ExecutionResult) :
    Option Execution :=
  match self.background, result with
  | .awaiting, some result =>
      { self with background := .ended }.write (self.state.finish result)
  | .awaiting, none => some { self with background := .ended }
  | _, _ => none

/-- A call that reads the state and returns. -/
def read (self : Execution) : Option Execution :=
  if self.holder ≠ .streamTaken ∧ self.writerQueued = false then some self
  else none

def wait (self : Execution) : Option Execution :=
  match self.holder with
  | .monitored => self.read
  | _ => none

def reconnect (self : Execution) : Option Execution :=
  self.read.map (fun self =>
    if self.state.stdoutBuffer.length ≤ streamCapacity ∧
        self.state.stderrBuffer.length ≤ streamCapacity then self
    else { self with reconnects := self.reconnects + 1 })

/-- The caller gives up a call of `reconnect`. -/
def dropReconnect (self : Execution) : Option Execution :=
  match self.reconnects with
  | 0 => none
  | 1 => some { self with reconnects := 0, writerQueued := false }
  | count + 2 => some { self with reconnects := count + 1 }

/-- A task that has something to write waits for the lock. -/
def queueWriter (self : Execution) : Option Execution :=
  if self.reconnects = 0 then none
  else some { self with writerQueued := true }

inductive Action where
  | cancel
  | intoStream
  | monitor
  | setRunning
  | stdoutLine (line : Bytes)
  | stderrLine (line : Bytes)
  | receiveResult (result : Option ExecutionResult)
  | readState
  | wait
  | reconnect
  | dropReconnect
  | queueWriter

def step (self : Execution) : Action → Option Execution
  | .cancel => self.cancel
  | .intoStream => self.intoStream
  | .monitor => self.monitor
  | .setRunning => self.setRunning
  | .stdoutLine line => self.stdoutLine line
  | .stderrLine line => self.stderrLine line
  | .receiveResult result => self.receiveResult result
  | .readState => self.read
  | .wait => self.wait
  | .reconnect => self.reconnect
  | .dropReconnect => self.dropReconnect
  | .queueWriter => self.queueWriter

def machine : StepMachine Execution Action := ⟨step⟩

/-! ## The life of a status -/

structure Settles (found : Execution) : Prop where
  absorbed : ∀ status, found.settled = some status →
    found.state.status = status
  result_iff : found.state.result.isSome = true ↔
    found.state.status = .completed ∨ found.state.status = .failed
  returns : found.holder = .monitored →
    found.state.status.isTerminal = true →
      found.writerQueued = false ∧ found.state.waitTurn.isSome = true

/-- A cancelled handle is not monitored, and nothing is written late behind a
call of `reconnect` that waits. -/
def Keeps (self : Execution) : Action → Prop
  | .monitor => self.state.status ≠ .cancelled
  | .queueWriter => self.state.status.isTerminal = false
  | _ => True

/-- What the background task has written where it stands. -/
def Written (found : Execution) : Prop :=
  match found.background with
  | .unspawned =>
      found.holder ≠ .monitored ∧ found.state.result = none ∧
        found.state.stdoutBuffer = [] ∧ found.state.stderrBuffer = [] ∧
        (found.state.status = .queued ∨ found.state.status = .cancelled)
  | .starting =>
      found.holder = .monitored ∧ found.state.result = none ∧
        found.state.status = .queued
  | .awaiting =>
      found.holder = .monitored ∧ found.state.result = none ∧
        found.state.status = .running
  | .ended =>
      found.holder = .monitored ∧
        ((found.state.result = none ∧ found.state.status = .running) ∨
          (found.state.result.isSome = true ∧
            (found.state.status = .completed ∨
              found.state.status = .failed)))

structure Invariant (found : Execution) : Prop where
  written : found.Written
  settled : found.settled = found.state.status.terminal?
  queued : found.writerQueued = true →
    found.reconnects ≠ 0 ∧ found.state.status.isTerminal = false
  readers : found.reconnects ≠ 0 → found.holder = .monitored

theorem new_invariant : new.Invariant where
  written := ⟨Holder.noConfusion, rfl, rfl, rfl, Or.inl rfl⟩
  settled := rfl
  queued := Bool.noConfusion
  readers := fun hreaders => absurd rfl hreaders

section Steps

variable {self next : Execution}

theorem Invariant.settles (hinvariant : self.Invariant) : self.Settles := by
  have hwritten := hinvariant.written
  unfold Written at hwritten
  constructor
  · intro status hstatus
    have hsettled := hinvariant.settled
    rw [hstatus, ExecutionStatus.terminal?] at hsettled
    split_ifs at hsettled
    exact (Option.some.inj hsettled).symm
  · cases hbackground : self.background with
    | unspawned =>
        simp only [hbackground] at hwritten
        obtain ⟨_, hresult, _, _, hstatus | hstatus⟩ := hwritten
        · simp [hresult, hstatus]
        · simp [hresult, hstatus]
    | starting =>
        simp only [hbackground] at hwritten
        simp [hwritten.2.1, hwritten.2.2]
    | awaiting =>
        simp only [hbackground] at hwritten
        simp [hwritten.2.1, hwritten.2.2]
    | ended =>
        simp only [hbackground] at hwritten
        rcases hwritten.2 with ⟨hresult, hstatus⟩ | ⟨hresult, hstatus⟩
        · simp [hresult, hstatus]
        · exact iff_of_true hresult hstatus
  · intro hmonitored hterminal
    have hqueued : self.writerQueued = false := by
      rw [← Bool.not_eq_true]
      intro hqueued
      have hopen := (hinvariant.queued hqueued).2
      rw [hterminal] at hopen
      cases hopen
    refine ⟨hqueued, ?_⟩
    rw [ExecutionState.waitTurn, if_pos hterminal]
    cases hbackground : self.background with
    | unspawned =>
        simp only [hbackground] at hwritten
        exact absurd hmonitored hwritten.1
    | starting =>
        simp only [hbackground] at hwritten
        rw [hwritten.2.2] at hterminal
        cases hterminal
    | awaiting =>
        simp only [hbackground] at hwritten
        rw [hwritten.2.2] at hterminal
        cases hterminal
    | ended =>
        simp only [hbackground] at hwritten
        rcases hwritten.2 with ⟨_, hstatus⟩ | ⟨hresult, _⟩
        · rw [hstatus] at hterminal
          cases hterminal
        · exact hresult

/-- A write keeps the invariant where it fits the background task and leaves
a terminal status alone. -/
theorem Invariant.write (hinvariant : self.Invariant)
    {background : Background} {state : ExecutionState}
    (hnext : ({ self with background := background } : Execution).write state =
      some next)
    (hwritten : ({ self with background := background, state := state } :
      Execution).Written)
    (hkept : self.state.status.isTerminal = true →
      state.status = self.state.status) :
    next.Invariant := by
  unfold Execution.write at hnext
  split_ifs at hnext with hfree
  rw [Option.some.injEq] at hnext
  rw [← hnext]
  refine ⟨hwritten, ?_, ?_, hinvariant.readers⟩
  · change self.settled.or state.status.terminal? = state.status.terminal?
    rw [hinvariant.settled]
    by_cases hterminal : self.state.status.isTerminal = true
    · rw [hkept hterminal, Option.or_self]
    · rw [ExecutionStatus.terminal?, if_neg hterminal, Option.none_or]
  · intro hqueued
    exact absurd hfree (hinvariant.queued hqueued).1

theorem Invariant.cancel (hinvariant : self.Invariant)
    (hnext : self.cancel = some next) : next.Invariant := by
  have hwritten := hinvariant.written
  unfold Execution.cancel at hnext
  unfold Written at hwritten
  cases hholder : self.holder with
  | handle =>
      simp only [hholder] at hnext
      cases hbackground : self.background with
      | unspawned =>
          simp only [hbackground] at hwritten
          obtain ⟨hheld, hresult, hstdout, hstderr, hstatus⟩ := hwritten
          apply hinvariant.write hnext
          · unfold Written
            simp only [hbackground]
            exact ⟨hheld, hresult, hstdout, hstderr, Or.inr trivial⟩
          · intro hterminal
            rcases hstatus with hstatus | hstatus
            · rw [hstatus] at hterminal
              cases hterminal
            · exact hstatus.symm
      | starting => simp [hbackground, hholder] at hwritten
      | awaiting => simp [hbackground, hholder] at hwritten
      | ended => simp [hbackground, hholder] at hwritten
  | monitored => simp [hholder] at hnext
  | streamTaken => simp [hholder] at hnext

theorem Invariant.intoStream (hinvariant : self.Invariant)
    (hnext : self.intoStream = some next) : next.Invariant := by
  have hwritten := hinvariant.written
  unfold Execution.intoStream at hnext
  unfold Written at hwritten
  cases hholder : self.holder with
  | handle =>
      simp only [hholder, Option.some.injEq] at hnext
      have hreaders : ¬ self.reconnects ≠ 0 := by
        intro hreaders
        rw [hinvariant.readers hreaders] at hholder
        cases hholder
      rw [← hnext]
      refine ⟨?_, hinvariant.settled, hinvariant.queued,
        fun hwaiting => absurd hwaiting hreaders⟩
      unfold Written
      cases hbackground : self.background with
      | unspawned =>
          simp only [hbackground] at hwritten ⊢
          exact ⟨Holder.noConfusion, hwritten.2⟩
      | starting => simp [hbackground, hholder] at hwritten
      | awaiting => simp [hbackground, hholder] at hwritten
      | ended => simp [hbackground, hholder] at hwritten
  | monitored => simp [hholder] at hnext
  | streamTaken => simp [hholder] at hnext

theorem Invariant.monitor (hinvariant : self.Invariant)
    (hnext : self.monitor = some next)
    (hkeeps : self.state.status ≠ .cancelled) : next.Invariant := by
  have hwritten := hinvariant.written
  unfold Execution.monitor at hnext
  unfold Written at hwritten
  cases hholder : self.holder with
  | handle =>
      simp only [hholder, Option.some.injEq] at hnext
      rw [← hnext]
      refine ⟨?_, hinvariant.settled, hinvariant.queued, fun _ => rfl⟩
      cases hbackground : self.background with
      | unspawned =>
          simp only [hbackground] at hwritten
          obtain ⟨_, hresult, _, _, hstatus⟩ := hwritten
          exact ⟨rfl, hresult, hstatus.resolve_right hkeeps⟩
      | starting => simp [hbackground, hholder] at hwritten
      | awaiting => simp [hbackground, hholder] at hwritten
      | ended => simp [hbackground, hholder] at hwritten
  | monitored => simp [hholder] at hnext
  | streamTaken => simp [hholder] at hnext

theorem Invariant.setRunning (hinvariant : self.Invariant)
    (hnext : self.setRunning = some next) : next.Invariant := by
  have hwritten := hinvariant.written
  unfold Execution.setRunning at hnext
  unfold Written at hwritten
  cases hbackground : self.background with
  | starting =>
      simp only [hbackground] at hnext hwritten
      obtain ⟨hmonitored, hresult, hstatus⟩ := hwritten
      apply hinvariant.write hnext
      · exact ⟨hmonitored, hresult, rfl⟩
      · intro hterminal
        rw [hstatus] at hterminal
        cases hterminal
  | unspawned => simp [hbackground] at hnext
  | awaiting => simp [hbackground] at hnext
  | ended => simp [hbackground] at hnext

/-- The buffers matter to nobody else. -/
theorem Invariant.buffer (hinvariant : self.Invariant)
    {state : ExecutionState} (hnext : self.write state = some next)
    (hbuffers : self.buffers = true)
    (hstatus : state.status = self.state.status)
    (hresult : state.result = self.state.result) : next.Invariant := by
  have hwritten := hinvariant.written
  have hsame : ({ self with background := self.background } :
    Execution).write state = some next := hnext
  apply hinvariant.write hsame
  · unfold Execution.buffers at hbuffers
    unfold Written at hwritten ⊢
    cases hbackground : self.background with
    | unspawned => simp [hbackground] at hbuffers
    | starting => simp [hbackground] at hbuffers
    | awaiting =>
        simp only [hbackground] at hwritten ⊢
        rwa [hstatus, hresult]
    | ended =>
        simp only [hbackground] at hwritten ⊢
        rwa [hstatus, hresult]
  · intro _
    exact hstatus

theorem Invariant.stdoutLine (hinvariant : self.Invariant) {line : Bytes}
    (hnext : self.stdoutLine line = some next) : next.Invariant := by
  unfold Execution.stdoutLine at hnext
  split_ifs at hnext with hbuffers
  exact hinvariant.buffer hnext hbuffers rfl rfl

theorem Invariant.stderrLine (hinvariant : self.Invariant) {line : Bytes}
    (hnext : self.stderrLine line = some next) : next.Invariant := by
  unfold Execution.stderrLine at hnext
  split_ifs at hnext with hbuffers
  exact hinvariant.buffer hnext hbuffers rfl rfl

theorem Invariant.receiveResult (hinvariant : self.Invariant)
    {result : Option ExecutionResult}
    (hnext : self.receiveResult result = some next) : next.Invariant := by
  have hwritten := hinvariant.written
  unfold Execution.receiveResult at hnext
  unfold Written at hwritten
  cases hbackground : self.background with
  | awaiting =>
      simp only [hbackground] at hwritten
      obtain ⟨hmonitored, hnone, hstatus⟩ := hwritten
      cases result with
      | none =>
          simp only [hbackground, Option.some.injEq] at hnext
          rw [← hnext]
          exact ⟨⟨hmonitored, Or.inl ⟨hnone, hstatus⟩⟩, hinvariant.settled,
            hinvariant.queued, hinvariant.readers⟩
      | some result =>
          simp only [hbackground] at hnext
          apply hinvariant.write hnext
          · refine ⟨hmonitored, Or.inr ⟨rfl, ?_⟩⟩
            cases hsuccess : result.success with
            | true => exact Or.inl (by simp [ExecutionState.finish, hsuccess])
            | false => exact Or.inr (by simp [ExecutionState.finish, hsuccess])
          · intro hterminal
            rw [hstatus] at hterminal
            cases hterminal
  | unspawned => simp [hbackground] at hnext
  | starting => simp [hbackground] at hnext
  | ended => simp [hbackground] at hnext

theorem read_eq (hnext : self.read = some next) : next = self := by
  unfold Execution.read at hnext
  split_ifs at hnext
  exact (Option.some.inj hnext).symm

theorem wait_eq (hnext : self.wait = some next) : next = self := by
  unfold Execution.wait at hnext
  split at hnext
  · exact read_eq hnext
  · cases hnext

theorem Invariant.reconnect (hinvariant : self.Invariant)
    (hnext : self.reconnect = some next) : next.Invariant := by
  unfold Execution.reconnect at hnext
  obtain ⟨found, hread, hfound⟩ := Option.map_eq_some_iff.mp hnext
  rw [read_eq hread] at hfound
  split_ifs at hfound with hroom
  · rwa [← hfound]
  · rw [← hfound]
    refine ⟨hinvariant.written, hinvariant.settled, ?_, ?_⟩
    · intro hqueued
      exact ⟨Nat.succ_ne_zero _, (hinvariant.queued hqueued).2⟩
    · -- only a monitored execution has output in its buffers
      intro _
      have hwritten := hinvariant.written
      unfold Written at hwritten
      cases hbackground : self.background with
      | unspawned =>
          simp only [hbackground] at hwritten
          simp [hwritten.2.2.1, hwritten.2.2.2.1] at hroom
      | starting =>
          simp only [hbackground] at hwritten
          exact hwritten.1
      | awaiting =>
          simp only [hbackground] at hwritten
          exact hwritten.1
      | ended =>
          simp only [hbackground] at hwritten
          exact hwritten.1

theorem Invariant.dropReconnect (hinvariant : self.Invariant)
    (hnext : self.dropReconnect = some next) : next.Invariant := by
  unfold Execution.dropReconnect at hnext
  split at hnext
  · cases hnext
  · rw [Option.some.injEq] at hnext
    rw [← hnext]
    exact ⟨hinvariant.written, hinvariant.settled, Bool.noConfusion,
      fun hreaders => absurd rfl hreaders⟩
  · rename_i count hcount
    rw [Option.some.injEq] at hnext
    rw [← hnext]
    have hreaders : self.reconnects ≠ 0 := by
      rw [hcount]
      exact Nat.succ_ne_zero _
    refine ⟨hinvariant.written, hinvariant.settled, ?_,
      fun _ => hinvariant.readers hreaders⟩
    intro hqueued
    exact ⟨Nat.succ_ne_zero _, (hinvariant.queued hqueued).2⟩

theorem Invariant.queueWriter (hinvariant : self.Invariant)
    (hnext : self.queueWriter = some next)
    (hkeeps : self.state.status.isTerminal = false) : next.Invariant := by
  unfold Execution.queueWriter at hnext
  split_ifs at hnext with hfree
  rw [Option.some.injEq] at hnext
  rw [← hnext]
  exact ⟨hinvariant.written, hinvariant.settled,
    fun _ => ⟨hfree, hkeeps⟩, hinvariant.readers⟩

theorem Invariant.step (hinvariant : self.Invariant) {action : Action}
    (hstep : self.step action = some next) (hkeeps : self.Keeps action) :
    next.Invariant := by
  cases action with
  | cancel => exact hinvariant.cancel hstep
  | intoStream => exact hinvariant.intoStream hstep
  | monitor => exact hinvariant.monitor hstep hkeeps
  | setRunning => exact hinvariant.setRunning hstep
  | stdoutLine line => exact hinvariant.stdoutLine hstep
  | stderrLine line => exact hinvariant.stderrLine hstep
  | receiveResult result => exact hinvariant.receiveResult hstep
  | readState =>
      rw [read_eq hstep]
      exact hinvariant
  | wait =>
      rw [wait_eq hstep]
      exact hinvariant
  | reconnect => exact hinvariant.reconnect hstep
  | dropReconnect => exact hinvariant.dropReconnect hstep
  | queueWriter => exact hinvariant.queueWriter hstep hkeeps

/-- A cancelled execution has no result for `wait`, and a queued writer keeps
`wait` out. -/
theorem Invariant.keeps_of_next (hinvariant : self.Invariant)
    {action : Action} (hstep : self.step action = some next)
    (hnext : next.Settles) : self.Keeps action := by
  cases action with
  | monitor =>
      intro hcancelled
      change self.monitor = some next at hstep
      unfold Execution.monitor at hstep
      split at hstep
      · rw [Option.some.injEq] at hstep
        have hstatus : next.state.status = .cancelled := by
          rw [← hstep]
          exact hcancelled
        have hmonitored : next.holder = .monitored := by rw [← hstep]
        have hreturned := (hnext.returns hmonitored (by rw [hstatus]; rfl)).2
        rw [ExecutionState.waitTurn, hstatus] at hreturned
        have hresult := hnext.result_iff.mp hreturned
        rw [hstatus] at hresult
        rcases hresult with hother | hother
        · cases hother
        · cases hother
      · cases hstep
  | queueWriter =>
      change self.queueWriter = some next at hstep
      unfold Execution.queueWriter at hstep
      split_ifs at hstep with hfree
      rw [Option.some.injEq] at hstep
      change self.state.status.isTerminal = false
      rw [← Bool.not_eq_true]
      intro hterminal
      have hmonitored : next.holder = .monitored := by
        rw [← hstep]
        exact hinvariant.readers hfree
      have hafter : next.state.status.isTerminal = true := by
        rw [← hstep]
        exact hterminal
      have hqueued := (hnext.returns hmonitored hafter).1
      rw [← hstep] at hqueued
      cases hqueued
  | cancel => trivial
  | intoStream => trivial
  | setRunning => trivial
  | stdoutLine line => trivial
  | stderrLine line => trivial
  | receiveResult result => trivial
  | readState => trivial
  | wait => trivial
  | reconnect => trivial
  | dropReconnect => trivial

end Steps

/-- The status settles in a run, and `wait` returns once it has, exactly when
every step keeps to the condition. -/
theorem throughout_settles_iff (trace : List Action) :
    machine.Throughout Settles new trace ↔ machine.Along Keeps new trace := by
  apply StepMachine.throughout_iff_along ?_ ?_ ?_ new_invariant
  · intro before action after hinvariant hstep hkeeps
    exact hinvariant.step hstep hkeeps
  · intro reached hinvariant
    exact hinvariant.settles
  · intro before action after hinvariant hstep hafter
    exact hinvariant.keeps_of_next hstep hafter

/-! ## A cancelled handle that is monitored -/

def cancelledRun : List Action := [.cancel, .monitor, .setRunning]

/-- The execution was cancelled and runs again. -/
theorem cancelledRun_runs :
    (machine.run new cancelledRun).map
        (fun reached => (reached.settled, reached.state.status)) =
      some (some .cancelled, .running) ∧
    ¬ machine.Throughout Settles new cancelledRun := by
  have hreached : (machine.run new cancelledRun).map
      (fun reached => (reached.settled, reached.state.status)) =
      some (some .cancelled, .running) := by
    decide +kernel
  refine ⟨hreached, ?_⟩
  intro hthrough
  obtain ⟨reached, hrun, hstatus⟩ := Option.map_eq_some_iff.mp hreached
  rw [Prod.mk.injEq] at hstatus
  have habsorbed := (hthrough cancelledRun (List.prefix_refl _) reached
    hrun).absorbed .cancelled hstatus.1
  rw [hstatus.2] at habsorbed
  cases habsorbed

end Execution

end Sandbox
end Acdp
