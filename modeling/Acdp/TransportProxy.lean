import Acdp.TransportStdioLoop

/-!
# The proxy between two standard streams

The proxy starts the child, hands it to the handler, and starts it again after
an error, at most `maxRestarts` times and with a longer pause each time.  The
handler is the same for every child.
-/

namespace Acdp
namespace Transport

open Acdp.Core

/-- A new child, with the pipes that it has. -/
structure Child where
  stdin : Bool
  stdout : Bool
  stderr : Bool

/-- The first pipe that cannot be taken from the child. -/
def Child.missingPipe (self : Child) : Option String :=
  if !self.stdin then some "Failed to get child stdin"
  else if !self.stdout then some "Failed to get child stdout"
  else if !self.stderr then some "Failed to get child stderr"
  else none

inductive ProxyPhase where
  | starting
  | communicating (communication : Communication)
  | stopped (result : Except String Unit)

/-- The handler is the one between two children: while there is a child, it is
as the child found it.  `accepted` lists the queries taken up for the children
before, and `backoffs` the pauses made. -/
structure McpProxy where
  command : String
  useShell : Bool
  handler : StdioHandler
  accepted : List Responder
  restartCount : ℕ
  backoffs : List ℕ
  phase : ProxyPhase

namespace McpProxy

def maxRestarts : ℕ := 5

def autoRestartEnabled : Bool := true

def new (command : String) (useShell : Bool) (handler : StdioHandler) :
    McpProxy where
  command := command
  useShell := useShell
  handler := handler
  accepted := []
  restartCount := 0
  backoffs := []
  phase := .starting

/-- What the system makes of the command is given. -/
def startMcpServer (self : McpProxy) (spawned : Except String Child) :
    Except String Child :=
  if self.command = "" then .error "No command specified"
  else if self.useShell then spawned
  else if self.command.toList.all Text.isWhiteSpace then .error "Empty command"
  else spawned

def mayRestart (self : McpProxy) : Bool :=
  autoRestartEnabled && decide (self.restartCount < maxRestarts)

/-- The pause is of 1, 2, 4, 8 and 16 seconds. -/
def restart (self : McpProxy) : McpProxy :=
  let restartCount := self.restartCount + 1
  { self with
    restartCount := restartCount
    backoffs := self.backoffs ++ [1 <<< min (restartCount - 1) 4]
    phase := .starting }

def stop (self : McpProxy) (result : Except String Unit) : McpProxy :=
  { self with phase := .stopped result }

def isCrash (error : String) : Bool :=
  Text.contains error "crashed" || Text.contains error "exited with status"

def afterCommunication (self : McpProxy) : Except String Unit → McpProxy
  | .ok () => self.stop (.ok ())
  | .error error =>
      if isCrash error && self.mayRestart then self.restart
      else if isCrash error then self.stop (.error error)
      else if self.mayRestart then self.restart
      else self.stop (.error error)

def handleCommunication (self : McpProxy) (child : Child) : McpProxy :=
  match child.missingPipe with
  | some error => self.afterCommunication (.error error)
  | none =>
      { self with phase := .communicating (.start self.handler self.accepted) }

inductive ProxyAction where
  | spawn (spawned : Except String Child)
  | loop (action : Communication.LoopAction)
  | returns

def step (json : SerdeJson) (self : McpProxy) : ProxyAction → Option McpProxy
  | .spawn spawned =>
      match self.phase with
      | .starting =>
          match self.startMcpServer spawned with
          | .error error =>
              some (if self.mayRestart then self.restart
                else self.stop (.error error))
          | .ok child => some (self.handleCommunication child)
      | _ => none
  | .loop action =>
      match self.phase with
      | .communicating communication =>
          (communication.step json action).map
            (fun next => { self with phase := .communicating next })
      | _ => none
  | .returns =>
      match self.phase with
      | .communicating communication =>
          communication.outcome.map fun outcome =>
            { self with
              handler := communication.handler
              accepted := communication.accepted }.afterCommunication outcome
      | _ => none

def machine (json : SerdeJson) : StepMachine McpProxy ProxyAction :=
  ⟨step json⟩

variable {json : SerdeJson} {self next : McpProxy}

/-! ## What follows a communication -/

/-- The proxy goes on to a new child or stops, with its handler as it is. -/
structure Between (before after : McpProxy) : Prop where
  handler : after.handler = before.handler
  accepted : after.accepted = before.accepted
  phase : ∀ communication, after.phase ≠ .communicating communication

theorem restart_between (self : McpProxy) : Between self self.restart :=
  ⟨rfl, rfl, fun _ => ProxyPhase.noConfusion⟩

theorem stop_between (self : McpProxy) (result : Except String Unit) :
    Between self (self.stop result) :=
  ⟨rfl, rfl, fun _ => ProxyPhase.noConfusion⟩

/-- Whether an error is a crash makes no difference. -/
theorem afterCommunication_error (self : McpProxy) (error : String) :
    self.afterCommunication (.error error) =
      if self.mayRestart then self.restart else self.stop (.error error) := by
  cases hcrash : isCrash error <;> cases hmay : self.mayRestart <;>
    simp [afterCommunication, hcrash, hmay]

theorem afterCommunication_between (self : McpProxy)
    (outcome : Except String Unit) :
    Between self (self.afterCommunication outcome) := by
  cases outcome with
  | ok value => exact self.stop_between (.ok ())
  | error error =>
      rw [afterCommunication_error]
      split_ifs
      · exact self.restart_between
      · exact self.stop_between _

/-! ## The steps of the proxy -/

/-- A child is started, or the proxy is between two children; a communication
goes on; or it returns. -/
theorem step_cases {action : ProxyAction}
    (hstep : self.step json action = some next) :
    (∃ spawned, action = .spawn spawned ∧ self.phase = .starting ∧
      (Between self next ∨
        next = { self with
          phase := .communicating (.start self.handler self.accepted) })) ∨
    (∃ inner communication after, action = .loop inner ∧
      self.phase = .communicating communication ∧
      communication.step json inner = some after ∧
      next = { self with phase := .communicating after }) ∨
    ∃ communication outcome, action = .returns ∧
      self.phase = .communicating communication ∧
      communication.outcome = some outcome ∧
      next = { self with
        handler := communication.handler
        accepted := communication.accepted }.afterCommunication outcome := by
  cases action with
  | spawn spawned =>
      left
      cases hphase : self.phase with
      | communicating communication => simp [step, hphase] at hstep
      | stopped result => simp [step, hphase] at hstep
      | starting =>
          refine ⟨spawned, rfl, rfl, ?_⟩
          cases hstarted : self.startMcpServer spawned with
          | error error =>
              simp only [step, hphase, hstarted, Option.some.injEq] at hstep
              rw [← hstep]
              split_ifs
              · exact Or.inl self.restart_between
              · exact Or.inl (self.stop_between _)
          | ok child =>
              simp only [step, hphase, hstarted, Option.some.injEq] at hstep
              rw [← hstep, handleCommunication]
              cases child.missingPipe with
              | some error =>
                  exact Or.inl (self.afterCommunication_between _)
              | none => exact Or.inr rfl
  | loop inner =>
      right; left
      cases hphase : self.phase with
      | starting => simp [step, hphase] at hstep
      | stopped result => simp [step, hphase] at hstep
      | communicating communication =>
          simp only [step, hphase] at hstep
          obtain ⟨after, hafter, hnext⟩ := Option.map_eq_some_iff.mp hstep
          exact ⟨inner, communication, after, rfl, rfl, hafter, hnext.symm⟩
  | returns =>
      right; right
      cases hphase : self.phase with
      | starting => simp [step, hphase] at hstep
      | stopped result => simp [step, hphase] at hstep
      | communicating communication =>
          simp only [step, hphase] at hstep
          obtain ⟨outcome, houtcome, hnext⟩ := Option.map_eq_some_iff.mp hstep
          exact ⟨communication, outcome, rfl, rfl, houtcome, hnext.symm⟩

end McpProxy
end Transport
end Acdp
