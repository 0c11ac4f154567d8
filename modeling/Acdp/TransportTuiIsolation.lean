import Acdp.TransportStdioLoop
import Acdp.TransportStdioTransparency

/-!
# Queries of the monitor beside the requests of the user

The responses to both come on the one stream of the child.  A response to a
query completes it and is passed on to the user as well, so the two are kept
apart exactly as long as no response to a query comes that the interceptors
let through, and no other response bears the identifier of a query.
-/

namespace Acdp
namespace Transport

open Acdp.Core Json
open StdioHandler (captured)

/-- A response to a query completes it, with an error if it is blocked, and is
not written to the user; any other is written unless it is blocked, and
completes nothing. -/
structure Handled.Isolated (entry : Handled) : Prop where
  injected : entry.injectedFor ≠ [] →
    entry.written = none ∧
      ∃ responder ∈ entry.injectedFor, ∃ completion,
        entry.completed = [(responder, completion)] ∧
          (entry.blocked = true → completion.error.isSome = true)
  other : entry.injectedFor = [] →
    entry.completed = [] ∧
      (entry.blocked = false → entry.written.isSome = true)

namespace Communication

variable (json : SerdeJson)

/-- What the interceptors make of the response keeps it apart: a response to a
query is blocked, with an error response to it in its place, and any other
has not the identifier of a pending query. -/
def KeptApart (self : Communication) (response : JsonRpcResponse)
    (clock : Clock) : Prop :=
  ∀ result, (self.handler.interceptMessage .incoming (.response response)
      clock).result = .ok result →
    (self.injectedFor response.id ≠ [] →
      result.block = true ∧ ∃ back pending,
        result.message = .response back ∧
        self.handler.pendingQueries.lookup back.id.display = some pending ∧
        pending.responder ∈ self.injectedFor response.id ∧
        back.error.isSome = true) ∧
    (self.injectedFor response.id = [] → ∀ back,
      result.message = .response back →
        self.handler.pendingQueries.lookup back.id.display = none)

def KeepsApart (self : Communication) : LoopAction → Prop
  | .event _ => True
  | .branch branch =>
      ∀ output clock response,
        self.incoming branch = some (output, clock) →
        json.message (Text.trim output) = .ok (.response response) →
          self.KeptApart response clock

def AllIsolated (found : Communication) : Prop :=
  ∀ entry ∈ found.handled, entry.Isolated

variable {json} {self next : Communication}

theorem captured_eq_nil_iff (floats : FloatText) (clock : Clock)
    (handler : StdioHandler) (message : JsonRpcMessage) :
    captured floats clock handler message = [] ↔
      ∀ back, message = .response back →
        handler.pendingQueries.lookup back.id.display = none := by
  cases message with
  | request request => simp [captured]
  | notification notification => simp [captured]
  | response response =>
      cases hlookup : handler.pendingQueries.lookup response.id.display with
      | none => simp [captured, hlookup]
      | some pending => simp [captured, hlookup]

theorem captured_completes_iff (floats : FloatText) (clock : Clock)
    (handler : StdioHandler) (message : JsonRpcMessage)
    (responders : List Responder) :
    (∃ responder ∈ responders, ∃ completion,
      captured floats clock handler message = [(responder, completion)] ∧
        completion.error.isSome = true) ↔
      ∃ back pending, message = .response back ∧
        handler.pendingQueries.lookup back.id.display = some pending ∧
        pending.responder ∈ responders ∧ back.error.isSome = true := by
  cases message with
  | request request => simp [captured]
  | notification notification => simp [captured]
  | response response =>
      cases hlookup : handler.pendingQueries.lookup response.id.display with
      | none => simp [captured, hlookup]
      | some pending =>
          simp [captured, hlookup, TuiQueryCompletion.fromResponse]

theorem handledLine_isolated_iff (output : String) (clock : Clock) :
    (∀ entry ∈ self.handledLine
        (self.handler.processIncoming json output clock), entry.Isolated) ↔
      ∀ response,
        json.message (Text.trim output) = .ok (.response response) →
          self.KeptApart response clock := by
  rcases self.handledLine_eq output clock with
    ⟨hother, hnone⟩ | ⟨response, result, written, hread, hresult, hwritten,
      hentry⟩
  · rw [hnone]
    exact iff_of_true (by simp)
      (fun response hread => absurd hread (hother response))
  · rw [hentry, List.forall_mem_singleton]
    have hcompletes := captured_completes_iff json.floats clock self.handler
      result.message (self.injectedFor response.id)
    have hnothing := captured_eq_nil_iff json.floats clock self.handler
      result.message
    constructor
    · rintro hisolated other hother back hback
      rw [hread, Except.ok.injEq, JsonRpcMessage.response.injEq] at hother
      subst hother
      rw [hresult, Except.ok.injEq] at hback
      subst hback
      constructor
      · intro hinjected
        obtain ⟨hnone, responder, hmem, completion, hcompleted, herror⟩ :=
          hisolated.injected hinjected
        have hblock := hwritten.mpr hnone
        exact ⟨hblock, hcompletes.mp
          ⟨responder, hmem, completion, hcompleted, herror hblock⟩⟩
      · intro hinjected
        exact hnothing.mp (hisolated.other hinjected).1
    · intro hapart
      obtain ⟨hinjected, hother⟩ := hapart response hread result hresult
      constructor
      · intro hfor
        obtain ⟨hblock, hback⟩ := hinjected hfor
        obtain ⟨responder, hmem, completion, hcompleted, herror⟩ :=
          hcompletes.mpr hback
        exact ⟨hwritten.mp hblock, responder, hmem, completion, hcompleted,
          fun _ => herror⟩
      · intro hfor
        refine ⟨hnothing.mpr (hother hfor), ?_⟩
        intro hpassed
        rw [Option.isSome_iff_ne_none]
        intro hnone
        rw [hwritten.mpr hnone] at hpassed
        cases hpassed

/-! ## Every step -/

theorem branch_isolated_iff {branch : Branch} {turn : Turn}
    (hturn : self.turn json branch = some turn) :
    (∀ entry ∈ turn.handled, entry.Isolated) ↔
      self.KeepsApart json (.branch branch) := by
  rcases turn_cases hturn with ⟨hincoming, _, hcarries⟩ |
    ⟨job, written, clock, interceptorDelayMs, rfl, rfl⟩ |
    ⟨output, clock, hincoming, hcarries⟩
  · rw [hcarries.handled]
    exact iff_of_true (by simp) (by simp [KeepsApart, hincoming])
  · exact iff_of_true (by simp [queryTurn, unchanged])
      (by simp [KeepsApart, incoming])
  · rw [hcarries.handled, handledLine_isolated_iff]
    constructor
    · intro hall _ _ response hline hresponse
      rw [hincoming, Option.some.injEq, Prod.mk.injEq] at hline
      obtain ⟨rfl, rfl⟩ := hline
      exact hall response hresponse
    · intro hall response hresponse
      exact hall output clock response hincoming hresponse

/-- The responses to queries and those to requests of the user are kept apart
exactly under the condition. -/
theorem throughout_allIsolated_iff (json : SerdeJson) (handler : StdioHandler)
    (accepted : List Responder) (trace : List LoopAction) :
    (machine json).Throughout AllIsolated (start handler accepted) trace ↔
      (machine json).Along (KeepsApart json) (start handler accepted)
        trace := by
  have hstart : AllIsolated (start handler accepted) :=
    fun entry hentry => absurd hentry List.not_mem_nil
  refine StepMachine.throughout_iff_along ?_ (fun _ hisolated => hisolated) ?_
    hstart trace
  · intro before action after hisolated hstep hkeeps
    obtain ⟨_, ⟨event, rfl, hevent⟩ | ⟨branch, turn, rfl, hturn, rfl⟩⟩ :=
      step_cases hstep
    · unfold AllIsolated
      rw [(event_around hevent).handled]
      exact hisolated
    · intro entry hentry
      rcases List.mem_append.mp hentry with hold | hnew
      · exact hisolated entry hold
      · exact (branch_isolated_iff hturn).mpr hkeeps entry hnew
  · intro before action after hisolated hstep hafter
    obtain ⟨_, ⟨event, rfl, hevent⟩ | ⟨branch, turn, rfl, hturn, rfl⟩⟩ :=
      step_cases hstep
    · trivial
    · exact (branch_isolated_iff hturn).mp (fun entry hentry =>
        hafter entry (List.mem_append_right _ hentry))

/-! ## A query and its answer -/

def statusJob : TuiQueryJob where
  correlationId := FixedBytes.filled 16 0
  query := "status"
  mcpMethod := none
  mcpParams := none
  responder := ⟨7⟩

def statusPayload : Json :=
  StdioHandler.queryPayload tableFloats (uuidText statusJob.correlationId)
    "tools/list" StdioHandler.emptyParams

def statusAnswer : Json :=
  .obj [("jsonrpc", .str "2.0"),
    ("id", .str (uuidText statusJob.correlationId))]

def statusJson : SerdeJson where
  parse text :=
    if text = print statusPayload then .ok statusPayload
    else if text = print statusAnswer then .ok statusAnswer
    else .error "expected value at line 1 column 1"
  floats := tableFloats
  mismatch _ :=
    "data did not match any variant of untagged enum JsonRpcMessage"

def monitoredHandler : StdioHandler :=
  { StdioHandler.plainHandler with queryRx := some ⟨0⟩ }

def statusTrace : List LoopAction :=
  [.branch (.query (some statusJob) .ok StdioHandler.plainClock 0.0),
    .event (.arrives .stdout (asBytes (print statusAnswer ++ "\n"))),
    .branch (.stdoutLine .ok StdioHandler.plainClock)]

/-- The answer to the query is handed to the user as well. -/
theorem statusTrace_leaks :
    ((machine statusJson).run (start monitoredHandler []) statusTrace).map
        (fun reached => (reached.handled.map Handled.injectedFor,
          reached.handler.completions.map Prod.fst, reached.toUser.length)) =
      some ([[⟨7⟩]], [⟨7⟩], 1) ∧
      ¬ (machine statusJson).Throughout AllIsolated (start monitoredHandler [])
        statusTrace := by
  have hreached : ((machine statusJson).run (start monitoredHandler [])
      statusTrace).map (fun reached =>
        (reached.handled.map (fun entry =>
            (entry.injectedFor, entry.written.isSome)),
          reached.handler.completions.map Prod.fst, reached.toUser.length)) =
      some ([([⟨7⟩], true)], [⟨7⟩], 1) := by
    decide +kernel
  obtain ⟨reached, hrun, hvalues⟩ := Option.map_eq_some_iff.mp hreached
  simp only [Prod.mk.injEq] at hvalues
  obtain ⟨hhandled, hcompletions, huser⟩ := hvalues
  obtain ⟨entry, hentries, hentry⟩ := List.map_eq_singleton_iff.mp hhandled
  obtain ⟨hinjected, hwritten⟩ := Prod.mk.inj hentry
  constructor
  · rw [hrun, Option.map_some, hentries, List.map_singleton, hinjected,
      hcompletions, huser]
  · intro hthrough
    have hisolated := hthrough statusTrace (List.prefix_refl _) reached hrun
      entry (by rw [hentries]; exact List.mem_singleton_self entry)
    have hnone := (hisolated.injected (by rw [hinjected]; simp)).1
    rw [hnone] at hwritten
    cases hwritten

end Communication
end Transport
end Acdp
