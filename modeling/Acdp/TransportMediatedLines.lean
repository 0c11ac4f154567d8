import Acdp.TransportStdioLoop
import Acdp.TransportValidation

/-!
# Lines that have been let through

A guard among the interceptors speaks for all that the stdio handler writes.
In every run of its loop a line for the child or for the user is the text of a
message with the property that is guarded, or a line that is no message.
-/

namespace Acdp
namespace Transport

open Acdp.Core Json

namespace StdioHandler

variable {property : JsonRpcMessage → Prop} {json : SerdeJson}
  {self : StdioHandler} {content text : String} {clock : Clock}

/-- The text of a message with the property, or one that is no message. -/
def Mediated (property : JsonRpcMessage → Prop) (json : SerdeJson)
    (text : String) : Prop :=
  (∃ e, json.message (Text.trim text) = .error e) ∨
    ∃ message, property message ∧
      text = print (message.serialize json.floats) ++ "\n"

/-- The interceptors are the same; their statistics may be others. -/
def SameInterceptors (self next : StdioHandler) : Prop :=
  next.interceptorManager.interceptors = self.interceptorManager.interceptors

theorem interceptMessage_interceptors (direction : MessageDirection)
    (message : JsonRpcMessage) :
    (self.interceptMessage direction message clock).manager.interceptors =
      self.interceptorManager.interceptors := by
  unfold interceptMessage InterceptorManager.processMessageWithMetadata
  dsimp only
  split <;> rfl

theorem processLine_mediated {direction : MessageDirection}
    {observe : StdioHandler → JsonRpcMessage → StdioHandler} {modified : Bool}
    (hguarded : self.interceptorManager.Guarded property)
    (hresult : (processLine direction observe json self content clock).result =
      .ok (text, modified)) : Mediated property json text := by
  rcases processLine_cases direction observe json self content clock with
    ⟨e, hread, hline⟩ | ⟨message, result, _, hintercepted, hline⟩
  · rw [hline, Except.ok.injEq, Prod.mk.injEq] at hresult
    rw [← hresult.1]
    exact Or.inl ⟨e, hread⟩
  · rw [hline, deliver] at hresult
    cases hblock : result.block with
    | true =>
        rw [hblock, if_pos rfl] at hresult
        cases hresult
    | false =>
        rw [hblock, if_neg Bool.false_ne_true, Except.ok.injEq,
          Prod.mk.injEq] at hresult
        have hproperty := hguarded.processMessage message direction
          self.interceptionMetadata clock.now clock.elapsedMillis hintercepted
          hblock
        exact Or.inr ⟨result.message, hproperty, hresult.1.symm⟩

theorem processLine_sameInterceptors {direction : MessageDirection}
    {observe : StdioHandler → JsonRpcMessage → StdioHandler}
    (hobserve : ∀ handler message,
      (observe handler message).interceptorManager =
        handler.interceptorManager) :
    SameInterceptors self
      (processLine direction observe json self content clock).handler := by
  unfold SameInterceptors
  rcases processLine_cases direction observe json self content clock with
    ⟨e, _, hline⟩ | ⟨message, result, _, _, hline⟩
  · rw [hline]
  · rw [hline, deliver_handler, hobserve]
    exact interceptMessage_interceptors direction message

theorem processOutgoing_sameInterceptors :
    SameInterceptors self (processOutgoing json self content clock).handler :=
  processLine_sameInterceptors (fun _ _ => rfl)

theorem processIncoming_sameInterceptors :
    SameInterceptors self
      (processIncoming json self content clock).handler := by
  apply processLine_sameInterceptors
  intro handler message
  obtain ⟨tools, heq⟩ :=
    captureQueryResponse_eq json.floats clock handler message
  rw [heq]

/-- A query goes through the interceptors like a line of the user. -/
theorem processTuiQuery_mediated (job : TuiQueryJob) (written : Written)
    (interceptorDelayMs : Float) :
    ∃ raw, SameInterceptors (processOutgoing json self raw clock).handler
        (self.processTuiQuery json job written clock
          interceptorDelayMs).handler ∧
      ∀ text ∈ (self.processTuiQuery json job written clock
          interceptorDelayMs).text,
        ∃ modified, (processOutgoing json self raw clock).result =
          .ok (text, modified) := by
  refine ⟨print (queryPayload json.floats (uuidText job.correlationId)
    (self.queryRequest job).1 (self.queryRequest job).2) ++ "\n", ?_⟩
  unfold processTuiQuery
  dsimp only
  cases hresult : (processOutgoing json self
      (print (queryPayload json.floats (uuidText job.correlationId)
        (self.queryRequest job).1 (self.queryRequest job).2) ++ "\n")
      clock).result with
  | error e => exact ⟨rfl, fun _ hnone => by cases hnone⟩
  | ok out =>
      obtain ⟨processedInput, modified⟩ := out
      cases written with
      | failed e => exact ⟨rfl, fun _ hnone => by cases hnone⟩
      | flushFailed e =>
          refine ⟨rfl, ?_⟩
          intro text htext
          rw [← Option.some.inj htext]
          exact ⟨modified, rfl⟩
      | ok =>
          refine ⟨rfl, ?_⟩
          intro text htext
          rw [← Option.some.inj htext]
          exact ⟨modified, rfl⟩

end StdioHandler

namespace Communication

open StdioHandler (Mediated SameInterceptors)

variable {property : JsonRpcMessage → Prop} {json : SerdeJson}
  {self next : Communication}

/-- A branch writes mediated texts only, and keeps the interceptors. -/
structure Turn.Keeps (property : JsonRpcMessage → Prop) (json : SerdeJson)
    (before : Communication) (turn : Turn) : Prop where
  handler : SameInterceptors before.handler turn.handler
  toChild : ∀ text ∈ turn.toChild, Mediated property json text
  toUser : ∀ text ∈ turn.toUser, Mediated property json text

/-- What has been written so far is mediated, and what will be, too. -/
structure Guarded (property : JsonRpcMessage → Prop) (json : SerdeJson)
    (reached : Communication) : Prop where
  manager : reached.handler.interceptorManager.Guarded property
  toChild : ∀ text ∈ reached.toChild, Mediated property json text
  toUser : ∀ text ∈ reached.toUser, Mediated property json text

/-- A branch that writes nothing. -/
theorem Turn.Keeps.silent {turn : Turn}
    (hhandler : SameInterceptors self.handler turn.handler)
    (htoChild : turn.toChild = []) (htoUser : turn.toUser = []) :
    Turn.Keeps property json self turn where
  handler := hhandler
  toChild text htext := by
    rw [htoChild] at htext
    cases htext
  toUser text htext := by
    rw [htoUser] at htext
    cases htext

theorem userTurn_keeps
    (hguarded : self.handler.interceptorManager.Guarded property)
    (line : Bytes) (user : LineReader UInt8) (written : StdioHandler.Written)
    (clock : Clock) :
    Turn.Keeps property json self
      (self.userTurn json line user written clock) := by
  have hsame : ∀ input, SameInterceptors self.handler
      (self.handler.processOutgoing json input clock).handler :=
    fun input => StdioHandler.processOutgoing_sameInterceptors
  rcases self.userTurn_cases line user written clock with
    ⟨_, hturn⟩ | ⟨input, _, _, hrest⟩
  · rw [hturn]
    exact .silent rfl rfl rfl
  · rcases hrest with ⟨e, _, hturn⟩ | ⟨text, modified, hresult,
      ⟨_, hturn⟩ | ⟨_, hturn⟩⟩
    · rw [hturn]
      exact .silent (hsame input) rfl rfl
    · rw [hturn]
      refine ⟨hsame input, ?_, fun _ hnone => absurd hnone List.not_mem_nil⟩
      intro written hwritten
      rw [List.mem_singleton.mp hwritten]
      exact StdioHandler.processLine_mediated hguarded hresult
    · rw [hturn]
      exact .silent (hsame input) rfl rfl

theorem stdoutTurn_keeps
    (hguarded : self.handler.interceptorManager.Guarded property)
    (line : Bytes) (stdout : LineReader UInt8)
    (written : StdioHandler.Written) (clock : Clock) :
    Turn.Keeps property json self
      (self.stdoutTurn json line stdout written clock) := by
  have hsame : ∀ output, SameInterceptors self.handler
      (self.handler.processIncoming json output clock).handler :=
    fun output => StdioHandler.processIncoming_sameInterceptors
  rcases self.stdoutTurn_cases line stdout written clock with
    ⟨_, handler, hhandler, hturn⟩ | ⟨output, _, _, hrest⟩
  · rw [hturn]
    rcases hhandler with rfl | rfl
    · exact .silent rfl rfl rfl
    · exact .silent rfl rfl rfl
  · rcases hrest with ⟨e, _, hturn⟩ | ⟨text, modified, hresult,
      ⟨_, hturn⟩ | ⟨_, hturn⟩⟩
    · rw [hturn]
      exact .silent (hsame output) rfl rfl
    · rw [hturn]
      refine ⟨hsame output, fun _ hnone => absurd hnone List.not_mem_nil, ?_⟩
      intro written hwritten
      rw [List.mem_singleton.mp hwritten]
      exact StdioHandler.processLine_mediated hguarded hresult
    · rw [hturn]
      refine ⟨hsame output, fun _ hnone => absurd hnone List.not_mem_nil, ?_⟩
      intro written hwritten
      rw [List.mem_singleton.mp hwritten]
      exact StdioHandler.processLine_mediated hguarded hresult

theorem queryTurn_keeps
    (hguarded : self.handler.interceptorManager.Guarded property)
    (job : TuiQueryJob) (written : StdioHandler.Written) (clock : Clock)
    (interceptorDelayMs : Float) :
    Turn.Keeps property json self
      (self.queryTurn json job written clock interceptorDelayMs) := by
  obtain ⟨raw, hsame, htext⟩ := self.handler.processTuiQuery_mediated job written
    interceptorDelayMs
  refine ⟨?_, ?_, fun _ hnone => absurd hnone List.not_mem_nil⟩
  · have hfiltered : SameInterceptors self.handler
        (self.handler.processOutgoing json raw clock).handler :=
      StdioHandler.processOutgoing_sameInterceptors
    exact Eq.trans hsame hfiltered
  · intro text hmem
    obtain ⟨modified, hresult⟩ := htext text (Option.mem_toList.mp hmem)
    exact StdioHandler.processLine_mediated hguarded hresult

theorem turn_keeps
    (hguarded : self.handler.interceptorManager.Guarded property)
    {branch : Branch} {turn : Turn}
    (hturn : self.turn json branch = some turn) :
    Turn.Keeps property json self turn := by
  cases branch with
  | shutdown =>
      simp only [Communication.turn] at hturn
      split_ifs at hturn
      rw [← Option.some.inj hturn]
      exact .silent rfl rfl rfl
  | tick =>
      rw [← Option.some.inj hturn]
      exact .silent rfl rfl rfl
  | query job written clock interceptorDelayMs =>
      obtain ⟨_, _, rfl⟩ := Option.map_eq_some_iff.mp hturn
      cases job with
      | some job => exact queryTurn_keeps hguarded job written clock _
      | none => exact .silent rfl rfl rfl
  | userLine written clock =>
      obtain ⟨_, _, rfl⟩ := Option.map_eq_some_iff.mp hturn
      exact userTurn_keeps hguarded _ _ written clock
  | stdoutLine written clock =>
      obtain ⟨_, _, rfl⟩ := Option.map_eq_some_iff.mp hturn
      exact stdoutTurn_keeps hguarded _ _ written clock
  | stderrLine =>
      obtain ⟨_, _, rfl⟩ := Option.map_eq_some_iff.mp hturn
      exact .silent rfl rfl rfl
  | readError stream =>
      rw [← Option.some.inj hturn]
      cases stream <;> exact .silent rfl rfl rfl
  | waitError error =>
      rw [← Option.some.inj hturn]
      exact .silent rfl rfl rfl
  | wait =>
      obtain ⟨status, _, rfl⟩ := Option.map_eq_some_iff.mp hturn
      simp only [waitTurn]
      split_ifs <;> exact .silent rfl rfl rfl

theorem manager_of_event {event : Event}
    (hguarded : self.handler.interceptorManager.Guarded property)
    (hmanager : ∀ manager, event = .reconfigures manager →
      manager.Guarded property)
    (hevent : self.event event = some next) :
    next.handler.interceptorManager.Guarded property := by
  cases event with
  | reconfigures manager =>
      rw [← Option.some.inj hevent]
      exact hmanager manager rfl
  | arrives stream chunk =>
      obtain ⟨reader, _, rfl⟩ := Option.map_eq_some_iff.mp hevent
      cases stream <;> exact hguarded
  | closes stream =>
      rw [← Option.some.inj hevent]
      cases stream <;> exact hguarded
  | polls stream =>
      obtain ⟨reader, _, rfl⟩ := Option.map_eq_some_iff.mp hevent
      cases stream <;> exact hguarded
  | exits status =>
      simp only [Communication.event] at hevent
      split_ifs at hevent
      rw [← Option.some.inj hevent]
      exact hguarded
  | signalsShutdown =>
      rw [← Option.some.inj hevent]
      exact hguarded

theorem Guarded.step {action : LoopAction}
    (hguarded : Guarded property json self)
    (hmanager : ∀ manager, action = .event (.reconfigures manager) →
      manager.Guarded property)
    (hstep : (machine json).step self action = some next) :
    Guarded property json next := by
  obtain ⟨_, ⟨event, rfl, hevent⟩ | ⟨branch, turn, rfl, hturn, rfl⟩⟩ :=
    step_cases hstep
  · have haround := event_around hevent
    refine ⟨?_, ?_, ?_⟩
    · exact manager_of_event hguarded.manager (fun manager hreconfigures =>
        hmanager manager (congrArg LoopAction.event hreconfigures)) hevent
    · rw [haround.toChild]
      exact hguarded.toChild
    · rw [haround.toUser]
      exact hguarded.toUser
  · have hkeeps := turn_keeps hguarded.manager hturn
    refine ⟨?_, ?_, ?_⟩
    · have hsame : SameInterceptors self.handler (self.conclude turn).handler := by
        unfold conclude
        cases turn.ending <;> exact hkeeps.handler
      exact hguarded.manager.of_same hsame
    · exact List.forall_mem_append.mpr ⟨hguarded.toChild, hkeeps.toChild⟩
    · exact List.forall_mem_append.mpr ⟨hguarded.toUser, hkeeps.toUser⟩

theorem Guarded.run {trace : List LoopAction} {finished : Communication}
    (hguarded : Guarded property json self)
    (hmanagers : ∀ manager, .event (.reconfigures manager) ∈ trace →
      manager.Guarded property)
    (hrun : (machine json).run self trace = some finished) :
    Guarded property json finished := by
  induction trace generalizing self with
  | nil =>
      rw [StepMachine.run_nil, Option.some.injEq] at hrun
      rw [← hrun]
      exact hguarded
  | cons action rest ih =>
      rw [StepMachine.run_cons] at hrun
      obtain ⟨next, hstep, hrest⟩ := Option.bind_eq_some_iff.mp hrun
      apply ih (hguarded.step _ hstep) _ hrest
      · intro manager haction
        exact hmanagers manager (haction ▸ List.mem_cons_self)
      · intro manager hmanager
        exact hmanagers manager (List.mem_cons_of_mem action hmanager)

/-- As long as every manager in use has the strict validation, whatever the
interceptors before it do: all that is written to the child and to the user is
the text of a valid message, or a line that is no message. -/
theorem run_writes_valid {json : SerdeJson} {handler : StdioHandler}
    {accepted : List Responder} {trace : List LoopAction}
    {finished : Communication}
    (hstart : Validating handler.interceptorManager)
    (hreconfigured : ∀ manager, .event (.reconfigures manager) ∈ trace →
      Validating manager)
    (hrun : (machine json).run (start handler accepted) trace =
      some finished) :
    (∀ text ∈ finished.toChild, Mediated Valid json text) ∧
      ∀ text ∈ finished.toUser, Mediated Valid json text := by
  have hguarded : Guarded Valid json (start handler accepted) :=
    ⟨hstart.guarded, fun _ hnone => absurd hnone List.not_mem_nil,
      fun _ hnone => absurd hnone List.not_mem_nil⟩
  have hfinished := hguarded.run
    (fun manager hmem => (hreconfigured manager hmem).guarded) hrun
  exact ⟨hfinished.toChild, hfinished.toUser⟩

/-! ### A line that is no message -/

def emptyObjectJson : SerdeJson where
  parse text :=
    if text = "\x7b\x7d" then .ok (.obj [])
    else .error "expected value at line 1 column 1"
  floats := tableFloats
  mismatch _ :=
    "data did not match any variant of untagged enum JsonRpcMessage"

def validatingHandler : StdioHandler :=
  .withInterceptors {} (InterceptorManager.after downgradingCalls) none none

/-- The user enters the two braces and a newline. -/
def emptyObjectTrace : List LoopAction :=
  [.event (.arrives .user [123, 125, 10]),
    .branch (.userLine .ok ⟨Auth.smallInstant, 0, 0⟩)]

theorem run_writes_valid_emptyObject :
    ∃ finished, (machine emptyObjectJson).run (start validatingHandler [])
        emptyObjectTrace = some finished ∧
      (∀ text ∈ finished.toChild, Mediated Valid emptyObjectJson text) ∧
        ∀ text ∈ finished.toUser, Mediated Valid emptyObjectJson text := by
  have hsome : ((machine emptyObjectJson).run (start validatingHandler [])
      emptyObjectTrace).isSome = true := by decide +kernel
  obtain ⟨finished, hrun⟩ := Option.isSome_iff_exists.mp hsome
  refine ⟨finished, hrun, ?_⟩
  apply run_writes_valid validating_downgradingCalls _ hrun
  intro manager hmem
  simp [emptyObjectTrace] at hmem

end Communication
end Transport
end Acdp
