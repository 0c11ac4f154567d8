import Acdp.CommonGencode
import Acdp.EffectLoop
import Acdp.SandboxTypes
import Acdp.Utf8Decoding

/-!
# The interpreter of execution plans

The interpreter runs the nodes of a plan in turn and keeps a store with one
value for each capability.  The runtime, the file system and the code
generator, which is told about results, are an environment that answers each
node as it likes.  The effects of a run are its calls of the runtime and of
the file system.  A node acts only under a token that permits its sink, and
what it writes is the latest output of its own capability.
-/

namespace Acdp
namespace Sandbox

open Auth (Uuid)
open Common

/-! ## Capability checks -/

inductive PlanError where
  | noNodes
  | mounts
  | network
  | missing (capability : CapabilityId)
  | notPermitted (capability : CapabilityId) (sink : CapabilitySink)
  | noValue (capability : CapabilityId)
  | nodeFailed (nodeId : String) (error : Option String)
  | resultChannel (nodeId : String)
  | environment (error : String)
  | noExecutableNodes

/-- Why a run of the interpreter gives no result: an error, or an answer that
never comes. -/
inductive Stop where
  | failed (error : PlanError)
  | waiting

def ensureCapability (plan : ExecutionPlan) (capabilityId : CapabilityId)
    (sink : CapabilitySink) : Except PlanError CapabilityToken :=
  match plan.policy.capabilities.find? (fun cap => cap.id = capabilityId) with
  | none => .error (.missing capabilityId)
  | some token =>
      if sink ∈ token.allowedSinks then .ok token
      else .error (.notPermitted capabilityId sink)

/-- The first token with the identifier lists the sink. -/
def Permits (plan : ExecutionPlan) (capability : CapabilityId)
    (sink : CapabilitySink) : Prop :=
  ∃ token, plan.policy.capabilities.find? (fun cap => cap.id = capability) =
      some token ∧
    sink ∈ token.allowedSinks

theorem ensureCapability_cases (plan : ExecutionPlan)
    (capability : CapabilityId) (sink : CapabilitySink) :
    (∃ token, ensureCapability plan capability sink = .ok token ∧
      Permits plan capability sink) ∨
    ∃ error, ensureCapability plan capability sink = .error error ∧
      ¬ Permits plan capability sink := by
  unfold ensureCapability
  cases htoken : plan.policy.capabilities.find?
      (fun cap => cap.id = capability) with
  | none =>
      refine Or.inr ⟨_, rfl, ?_⟩
      rintro ⟨token, hfound, _⟩
      rw [htoken] at hfound
      cases hfound
  | some token =>
      by_cases hsink : sink ∈ token.allowedSinks
      · exact Or.inl ⟨token, by simp only [if_pos hsink],
          token, htoken, hsink⟩
      · refine Or.inr ⟨.notPermitted capability sink,
          by simp only [if_neg hsink], ?_⟩
        rintro ⟨other, hfound, hother⟩
        rw [htoken, Option.some.injEq] at hfound
        rw [← hfound] at hother
        exact hsink hother

/-! ## The environment -/

inductive Effect where
  | execute (request : ExecutionRequest)
  | readToString (path : String)
  | write (path : String) (data : Bytes)

def Effect.sink : Effect → CapabilitySink
  | .execute _ => .sandboxExecution
  | .readToString _ => .fileRead
  | .write _ _ => .fileWrite

/-- What the code generator is told about a plan or a node of it. -/
inductive OutcomeMetadata where
  | error (text : String)
  | result (planId : Uuid) (nodeId : String) (exitCode : ℤ) (timedOut : Bool)
      (stdoutPreview stderrPreview : String) (error : Option String)

/-- Answers by the position of the node that asks.  A node asks for each thing
at most once, so the answers may be any at all, and what the environment does
may depend on all that came before. -/
structure Environment where
  execute : ℕ → ExecutionRequest → Except Stop ExecutionStream
  readToString : ℕ → String → Except Stop String
  write : ℕ → String → Bytes → Except Stop Unit
  recordExecutionOutcome : ℕ → Bool → OutcomeMetadata → Except Stop Unit

/-! ## The interpreter -/

structure InterpreterState where
  valueStore : CapabilityId → Option String
  lastOutput : Option CapabilityId

def InterpreterState.initial : InterpreterState where
  valueStore := fun _ => none
  lastOutput := none

def storeValue (map : CapabilityId → Option String)
    (capability : CapabilityId) (value : String) :
    CapabilityId → Option String :=
  Function.update map capability (some value)

def InterpreterState.output (self : InterpreterState)
    (capability : CapabilityId) (value : String) : InterpreterState where
  valueStore := storeValue self.valueStore capability value
  lastOutput := some capability

section Interpreter

variable (plan : ExecutionPlan) (environment : Environment)

def ensureNodeCapability (capability : CapabilityId) (sink : CapabilitySink) :
    Acting Effect Stop CapabilityToken :=
  .attempt ((ensureCapability plan capability sink).mapError .failed)

def executionRequest (code : String) : ExecutionRequest :=
  match plan.policy.timeoutSecs with
  | some timeout => (ExecutionRequest.new code).withTimeout timeout
  | none => ExecutionRequest.new code

def preview (text : String) : String :=
  String.ofList (text.toList.take 200)

def recordPlanResult (position : ℕ) (nodeId : String)
    (result : ExecutionResult) (stdout stderr : String) : Except Stop Unit :=
  environment.recordExecutionOutcome position result.success
    (.result plan.planId nodeId result.exitCode result.timedOut
      (preview stdout) (preview stderr) result.error)

/-- The output of a stream, and what the code generator answers to its
result. -/
def stdoutText (stream : ExecutionStream) : String :=
  fromUtf8Lossy stream.stdout.flatten

def stderrText (stream : ExecutionStream) : String :=
  fromUtf8Lossy stream.stderr.flatten

/-- A node that runs code, after its stream has been read to the end. -/
def finishExecution (position : ℕ) (nodeId : String)
    (capability : CapabilityId) (state : InterpreterState)
    (stream : ExecutionStream) : Acting Effect Stop InterpreterState :=
  match stream.result with
  | some result => do
      .attempt (recordPlanResult plan environment position nodeId result
        (stdoutText stream) (stderrText stream))
      if result.success then
        pure (state.output capability (stdoutText stream))
      else .stop (.failed (.nodeFailed nodeId result.error))
  | none => .stop (.failed (.resultChannel nodeId))

def interpretNode (position : ℕ) (node : PlanNode) (state : InterpreterState) :
    Acting Effect Stop InterpreterState :=
  match node.kind with
  | .runPython code capability => do
      let _ ← ensureNodeCapability plan capability .sandboxExecution
      let request := executionRequest plan code
      .perform (.execute request)
      let stream ← .attempt (environment.execute position request)
      finishExecution plan environment position node.id capability state stream
  | .readFile path outputCapability => do
      let _ ← ensureNodeCapability plan outputCapability .fileRead
      .perform (.readToString path)
      let content ← .attempt (environment.readToString position path)
      pure (state.output outputCapability content)
  | .writeFile path inputCapability => do
      let _ ← ensureNodeCapability plan inputCapability .fileWrite
      match state.valueStore inputCapability with
      | none => .stop (.failed (.noValue inputCapability))
      | some value => do
          .perform (.write path (asBytes value))
          .attempt (environment.write position path (asBytes value))
          pure state
  | .emit inputCapability => do
      let _ ← ensureNodeCapability plan inputCapability .emit
      pure { state with lastOutput := some inputCapability }

/-- The code generator is told about a plan that is refused; where it fails,
its error is the one returned. -/
def refuse (position : ℕ) (text : String) (error : PlanError) :
    Acting (ℕ × Effect) Stop Bytes := do
  .attempt (environment.recordExecutionOutcome position false (.error text))
  .stop (.failed error)

/-- The last output, as the only chunk of the stream that is returned. -/
def finishPlan (state : InterpreterState) : Acting (ℕ × Effect) Stop Bytes :=
  match state.lastOutput with
  | none =>
      refuse environment plan.graph.nodes.length
        "plan produced no executable nodes" .noExecutableNodes
  | some finalId => pure (asBytes ((state.valueStore finalId).getD ""))

def interpretPlan : Acting (ℕ × Effect) Stop Bytes :=
  if plan.graph.nodes = [] then
    refuse environment 0 "plan contains no nodes" .noNodes
  else if plan.policy.mounts ≠ [] then
    refuse environment 0 "mounts are not supported yet" .mounts
  else if plan.policy.network ≠ .disabled then
    refuse environment 0 "network access is not supported yet" .network
  else do
    let state ← Acting.loop (interpretNode plan environment) 0
      plan.graph.nodes .initial
    finishPlan plan environment state

end Interpreter

end Sandbox
end Acdp
