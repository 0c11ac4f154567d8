import Acdp.TransportProxy
import Acdp.TransportStdioTransparency

/-!
# Restarts after a crash

A child that fails is restarted where the loop finds it out by waiting for it.
The end of its output, a signal or a failed write may be seen first: the loop
is then left as if all were well, and the proxy stops.
-/

namespace Acdp
namespace Transport

open Acdp.Core

namespace Communication

variable {json : SerdeJson} {self next : Communication}

end Communication

namespace McpProxy

variable {json : SerdeJson} {self next : McpProxy}

/-- A communication that ends after a crash ends with an error, and the proxy
goes on to the next child as long as it may. -/
structure Recovers (json : SerdeJson) (found : McpProxy) : Prop where
  reported : ∀ communication, found.phase = .communicating communication →
    communication.crashed = true →
      ∀ outcome, communication.outcome = some outcome →
        ∃ error, outcome = .error error
  restarts : ∀ communication, found.phase = .communicating communication →
    communication.crashed = true → found.restartCount < maxRestarts →
      ∀ next, found.step json .returns = some next →
        next.phase = .starting ∧
          next.restartCount = found.restartCount + 1

/-- The pauses made are the first of the table. -/
structure Paused (found : McpProxy) : Prop where
  count : found.restartCount ≤ maxRestarts
  backoffs : found.backoffs = [1, 2, 4, 8, 16].take found.restartCount

theorem paused_restart (hpaused : self.Paused) (hmay : self.mayRestart = true) :
    self.restart.Paused := by
  have hcount : self.restartCount < maxRestarts := by
    simpa [mayRestart, autoRestartEnabled] using hmay
  refine ⟨hcount, ?_⟩
  simp only [restart, hpaused.backoffs]
  unfold maxRestarts at hcount
  interval_cases self.restartCount <;> rfl

theorem paused_afterCommunication (self : McpProxy) (hpaused : self.Paused)
    (outcome : Except String Unit) :
    (self.afterCommunication outcome).Paused := by
  cases outcome with
  | ok value => exact ⟨hpaused.count, hpaused.backoffs⟩
  | error error =>
      rw [afterCommunication_error]
      split_ifs with hmay
      · exact paused_restart hpaused hmay
      · exact ⟨hpaused.count, hpaused.backoffs⟩

theorem step_paused (hpaused : self.Paused) {action : ProxyAction}
    (hstep : self.step json action = some next) : next.Paused := by
  rcases step_cases hstep with ⟨spawned, rfl, hphase, _⟩ |
    ⟨inner, communication, reached, _, _, _, rfl⟩ |
    ⟨communication, outcome, _, _, _, rfl⟩
  · simp only [step, hphase] at hstep
    cases hstarted : self.startMcpServer spawned with
    | error error =>
        simp only [hstarted, Option.some.injEq] at hstep
        rw [← hstep]
        split_ifs with hmay
        · exact paused_restart hpaused hmay
        · exact ⟨hpaused.count, hpaused.backoffs⟩
    | ok child =>
        simp only [hstarted, Option.some.injEq] at hstep
        rw [← hstep, handleCommunication]
        cases child.missingPipe with
        | some error =>
            exact self.paused_afterCommunication hpaused (.error error)
        | none => exact ⟨hpaused.count, hpaused.backoffs⟩
  · exact ⟨hpaused.count, hpaused.backoffs⟩
  · exact paused_afterCommunication
      { self with
        handler := communication.handler
        accepted := communication.accepted }
      ⟨hpaused.count, hpaused.backoffs⟩ outcome

/-- In every run the proxy restarts at most `maxRestarts` times, each time
after a pause twice as long. -/
theorem throughout_paused (json : SerdeJson) (command : String)
    (useShell : Bool) (handler : StdioHandler) (trace : List ProxyAction) :
    (machine json).Throughout Paused (new command useShell handler) trace := by
  have hnew : (new command useShell handler).Paused := ⟨Nat.zero_le _, rfl⟩
  have hkeep : ∀ before action after, Paused before →
      (machine json).step before action = some after → Paused after :=
    fun _ _ _ hpaused hstep => step_paused hpaused hstep
  intro before _ reached hrun
  exact StepMachine.run_invariant hkeep hnew hrun

end McpProxy
end Transport
end Acdp
