import Acdp.ListPositions
import Acdp.StepMachine
import Acdp.TransportStdioHandler

/-!
# Answers to monitor requests

The monitor sends queries and structured requests over its connections.  For
each the server queues a job and waits for the job's responder: inline for a
query, in a task of its own for a structured request.  The transport side
completes a job or drops it, be it that it stops or that another job takes the
place of this one among those that wait for the backend.
-/

namespace Acdp
namespace Transport

open Acdp.Core Json
open Auth (Uuid)

inductive TuiRequest where
  | tuiQuery (query : String) (correlationId : Uuid)
  | tuiMcpRequest (method : String) (params : Option OrderedValue)
      (correlationId : Uuid)

namespace TuiRequest

def correlationId : TuiRequest → Uuid
  | .tuiQuery _ correlationId => correlationId
  | .tuiMcpRequest _ _ correlationId => correlationId

def job : TuiRequest → Responder → TuiQueryJob
  | .tuiQuery query correlationId, responder =>
      ⟨correlationId, query, none, none, responder⟩
  | .tuiMcpRequest method params correlationId, responder =>
      ⟨correlationId, method, some method, params, responder⟩

/-- The texts of the errors: without a queue, with a queue that is closed, and
with a job that is dropped, which nobody tells of a structured request. -/
def unavailable : TuiRequest → String
  | .tuiQuery _ _ => "Proxy not ready to process queries"
  | .tuiMcpRequest _ _ _ => "Query processing not available"

def notQueued : TuiRequest → String
  | .tuiQuery _ _ => "Proxy transport unavailable"
  | .tuiMcpRequest _ _ _ => "Failed to queue request: channel closed"

def handlerDropped : TuiRequest → Option String
  | .tuiQuery _ _ => some "Proxy query handler dropped"
  | .tuiMcpRequest _ _ _ => none

end TuiRequest

structure TuiQueryResponse where
  correlationId : Uuid
  response : String
  error : Option String
  ttftMs : Option Float
  tokensPerSec : Option Float
  totalTokens : Option ℕ
  interceptorDelayMs : Option Float

namespace TuiQueryResponse

def ofCompletion (correlationId : Uuid) (completion : TuiQueryCompletion) :
    TuiQueryResponse where
  correlationId := correlationId
  response := completion.response
  error := completion.error
  ttftMs := completion.ttftMs
  tokensPerSec := completion.tokensPerSec
  totalTokens := completion.totalTokens
  interceptorDelayMs := completion.interceptorDelayMs

/-- `send_query_error`. -/
def queryError (correlationId : Uuid) (message : String) : TuiQueryResponse :=
  ofCompletion correlationId (.failed message)

end TuiQueryResponse

/-- Where the handling of a request is: before the queue, before the
responder, told by the responder, or at its end, with an answer or without. -/
inductive Phase where
  | sending
  | waiting
  | completed (completion : TuiQueryCompletion)
  | dropped
  | answered
  | silent

inductive Move where
  | queue
  | refuse
  | complete (completion : TuiQueryCompletion)
  | drop
  | resume

structure Handling where
  connection : ℕ
  request : TuiRequest
  phase : Phase

namespace Handling

/-- The next phase, and what is handed to the client of the monitor. -/
def move (queueClosed : Bool) (self : Handling) :
    Move → Option (Phase × Option TuiQueryResponse)
  | .queue =>
      match self.phase with
      | .sending => if queueClosed then none else some (.waiting, none)
      | _ => none
  | .refuse =>
      match self.phase with
      | .sending =>
          if queueClosed then
            some (.answered, some (.queryError self.request.correlationId
              self.request.notQueued))
          else none
      | _ => none
  | .complete completion =>
      match self.phase with
      | .waiting => some (.completed completion, none)
      | _ => none
  | .drop =>
      match self.phase with
      | .waiting => some (.dropped, none)
      | _ => none
  | .resume =>
      match self.phase with
      | .completed completion =>
          some (.answered,
            some (.ofCompletion self.request.correlationId completion))
      | .dropped =>
          match self.request.handlerDropped with
          | some message =>
              some (.answered,
                some (.queryError self.request.correlationId message))
          | none => some (.silent, none)
      | _ => none

/-- `handle_message` has not returned, so the connection takes no other
message. -/
def holdsConnection (self : Handling) : Bool :=
  match self.phase, self.request with
  | .answered, _ => false
  | .silent, _ => false
  | .sending, _ => true
  | _, .tuiQuery _ _ => true
  | _, .tuiMcpRequest _ _ _ => false

/-- A structured request whose job is dropped. -/
def Lost (self : Handling) : Prop :=
  self.request.handlerDropped = none ∧
    (self.phase = .dropped ∨ self.phase = .silent)

end Handling

inductive IpcEvent where
  | receive (connection : ℕ) (request : TuiRequest)
  | closeQueue
  | move (index : ℕ) (move : Move)

/-- `handed` lists what has been handed to the client, each with the request
that it was handed for. -/
structure ProxyIpcServer where
  hasQueue : Bool
  queueClosed : Bool
  jobs : List TuiQueryJob
  handlings : List Handling
  handed : List (ℕ × TuiQueryResponse)

namespace ProxyIpcServer

def new (hasQueue : Bool) : ProxyIpcServer := ⟨hasQueue, false, [], [], []⟩

def receive (self : ProxyIpcServer) (connection : ℕ) (request : TuiRequest) :
    Option ProxyIpcServer :=
  if self.handlings.any (fun handling =>
      handling.connection == connection && handling.holdsConnection) then none
  else if self.hasQueue then
    some { self with
      handlings := self.handlings ++ [⟨connection, request, .sending⟩] }
  else
    some { self with
      handlings := self.handlings ++ [⟨connection, request, .answered⟩]
      handed := self.handed ++ [(self.handlings.length,
        .queryError request.correlationId request.unavailable)] }

def moved (self : ProxyIpcServer) (index : ℕ) (handling : Handling)
    (move : Move) (outcome : Phase × Option TuiQueryResponse) :
    ProxyIpcServer :=
  { self with
    jobs := self.jobs ++
      match move with
      | .queue => [handling.request.job ⟨index⟩]
      | _ => []
    handlings := self.handlings.set index { handling with phase := outcome.1 }
    handed := self.handed ++ outcome.2.toList.map (fun response =>
      (index, response)) }

def step (self : ProxyIpcServer) : IpcEvent → Option ProxyIpcServer
  | .receive connection request => self.receive connection request
  | .closeQueue => some { self with queueClosed := true }
  | .move index move =>
      match self.handlings[index]? with
      | some handling =>
          (handling.move self.queueClosed move).map
            (self.moved index handling move)
      | none => none

def machine : StepMachine ProxyIpcServer IpcEvent := ⟨step⟩

/-! ## One answer for each request -/

/-- What has been handed to the client for the request. -/
def answers (self : ProxyIpcServer) (index : ℕ) : List TuiQueryResponse :=
  (self.handed.filter (fun entry => entry.1 = index)).map Prod.snd

/-- Nothing is left to do for any request. -/
def Settled (self : ProxyIpcServer) : Prop :=
  ∀ handling ∈ self.handlings,
    handling.phase = .answered ∨ handling.phase = .silent

/-- Every request has one answer, under its own identifier. -/
def AnsweredOnce (self : ProxyIpcServer) : Prop :=
  ∀ index handling, self.handlings[index]? = some handling →
    (self.answers index).map TuiQueryResponse.correlationId =
      [handling.request.correlationId]

/-- The step does not drop the job of a structured request. -/
def DropsNoRequest (self : ProxyIpcServer) : IpcEvent → Prop
  | .move index .drop =>
      ∀ handling, self.handlings[index]? = some handling →
        handling.request.handlerDropped.isSome = true
  | _ => True

def NoneLost (self : ProxyIpcServer) : Prop :=
  ∀ handling ∈ self.handlings, ¬ handling.Lost

/-- A request is answered in its last phase and not before, and only the loss
of its job leaves it without an answer. -/
structure Invariant (server : ProxyIpcServer) : Prop where
  answered : ∀ index handling, server.handlings[index]? = some handling →
    handling.phase = .answered →
      (server.answers index).map TuiQueryResponse.correlationId =
        [handling.request.correlationId]
  unanswered : ∀ index handling, server.handlings[index]? = some handling →
    handling.phase ≠ .answered → server.answers index = []
  fresh : ∀ index, server.handlings.length ≤ index → server.answers index = []
  silent : ∀ handling ∈ server.handlings,
    handling.phase = .silent → handling.request.handlerDropped = none

/-! ### What a move does -/

inductive Moves (queueClosed : Bool) (handling : Handling) :
    Move → Phase → Option TuiQueryResponse → Prop
  | queue (hphase : handling.phase = .sending)
      (hqueue : queueClosed = false) :
      Moves queueClosed handling .queue .waiting none
  | refuse (hphase : handling.phase = .sending)
      (hqueue : queueClosed = true) :
      Moves queueClosed handling .refuse .answered
        (some (.queryError handling.request.correlationId
          handling.request.notQueued))
  | complete (hphase : handling.phase = .waiting)
      (completion : TuiQueryCompletion) :
      Moves queueClosed handling (.complete completion) (.completed completion)
        none
  | drop (hphase : handling.phase = .waiting) :
      Moves queueClosed handling .drop .dropped none
  | answer {completion : TuiQueryCompletion}
      (hphase : handling.phase = .completed completion) :
      Moves queueClosed handling .resume .answered
        (some (.ofCompletion handling.request.correlationId completion))
  | report (hphase : handling.phase = .dropped) {message : String}
      (htext : handling.request.handlerDropped = some message) :
      Moves queueClosed handling .resume .answered
        (some (.queryError handling.request.correlationId message))
  | forget (hphase : handling.phase = .dropped)
      (htext : handling.request.handlerDropped = none) :
      Moves queueClosed handling .resume .silent none

theorem moves_of_move {handling : Handling} {queueClosed : Bool} {move : Move}
    {phase : Phase} {response : Option TuiQueryResponse}
    (hmove : handling.move queueClosed move = some (phase, response)) :
    Moves queueClosed handling move phase response := by
  cases move with
  | queue =>
      cases hphase : handling.phase <;>
        simp only [Handling.move, hphase, reduceCtorEq] at hmove
      cases hqueue : queueClosed with
      | true => simp [hqueue] at hmove
      | false =>
          simp only [hqueue, Bool.false_eq_true, if_false, Option.some.injEq,
            Prod.mk.injEq] at hmove
          rw [← hmove.1, ← hmove.2]
          exact .queue hphase rfl
  | refuse =>
      cases hphase : handling.phase <;>
        simp only [Handling.move, hphase, reduceCtorEq] at hmove
      cases hqueue : queueClosed with
      | false => simp [hqueue] at hmove
      | true =>
          simp only [hqueue, if_true, Option.some.injEq,
            Prod.mk.injEq] at hmove
          rw [← hmove.1, ← hmove.2]
          exact .refuse hphase rfl
  | complete completion =>
      cases hphase : handling.phase <;>
        simp only [Handling.move, hphase, reduceCtorEq, Option.some.injEq,
          Prod.mk.injEq] at hmove
      rw [← hmove.1, ← hmove.2]
      exact .complete hphase completion
  | drop =>
      cases hphase : handling.phase <;>
        simp only [Handling.move, hphase, reduceCtorEq, Option.some.injEq,
          Prod.mk.injEq] at hmove
      rw [← hmove.1, ← hmove.2]
      exact .drop hphase
  | resume =>
      cases hphase : handling.phase <;>
        simp only [Handling.move, hphase, reduceCtorEq, Option.some.injEq,
          Prod.mk.injEq] at hmove
      case completed completion =>
        rw [← hmove.1, ← hmove.2]
        exact .answer hphase
      case dropped =>
        cases htext : handling.request.handlerDropped with
        | none =>
            simp only [htext, Option.some.injEq, Prod.mk.injEq] at hmove
            rw [← hmove.1, ← hmove.2]
            exact .forget hphase htext
        | some message =>
            simp only [htext, Option.some.injEq, Prod.mk.injEq] at hmove
            rw [← hmove.1, ← hmove.2]
            exact .report hphase htext

/-- What a step does: a request comes in, the queue is closed, or a request is
moved on. -/
inductive Steps (self : ProxyIpcServer) : IpcEvent → ProxyIpcServer → Prop
  | enqueue {connection : ℕ} {request : TuiRequest} :
      Steps self (.receive connection request)
        { self with
          handlings := self.handlings ++ [⟨connection, request, .sending⟩] }
  | reject {connection : ℕ} {request : TuiRequest} :
      Steps self (.receive connection request)
        { self with
          handlings := self.handlings ++ [⟨connection, request, .answered⟩]
          handed := self.handed ++ [(self.handlings.length,
            .queryError request.correlationId request.unavailable)] }
  | closeQueue : Steps self .closeQueue { self with queueClosed := true }
  | move {index : ℕ} {handling : Handling} {move : Move} {phase : Phase}
      {response : Option TuiQueryResponse}
      (hhandling : self.handlings[index]? = some handling)
      (hmoves : Moves self.queueClosed handling move phase response) :
      Steps self (.move index move)
        (self.moved index handling move (phase, response))

theorem steps_of_step {self next : ProxyIpcServer} {event : IpcEvent}
    (hstep : self.step event = some next) : Steps self event next := by
  cases event with
  | receive connection request =>
      change self.receive connection request = some next at hstep
      unfold receive at hstep
      split_ifs at hstep with hbusy hqueue
      · rw [Option.some.injEq] at hstep
        rw [← hstep]
        exact .enqueue
      · rw [Option.some.injEq] at hstep
        rw [← hstep]
        exact .reject
  | closeQueue =>
      cases hstep
      exact .closeQueue
  | move index move =>
      cases hhandling : self.handlings[index]? with
      | none => simp [step, hhandling] at hstep
      | some handling =>
          simp only [step, hhandling, Option.map_eq_some_iff] at hstep
          obtain ⟨⟨phase, response⟩, hmove, hnext⟩ := hstep
          rw [← hnext]
          exact .move hhandling (moves_of_move hmove)

/-! ### Answers along a run -/

theorem answers_moved (self : ProxyIpcServer) (index : ℕ)
    (handling : Handling) (move : Move) (phase : Phase)
    (response : Option TuiQueryResponse) (other : ℕ) :
    (self.moved index handling move (phase, response)).answers other =
      self.answers other ++ if index = other then response.toList else [] := by
  cases response with
  | none => simp [moved, answers]
  | some answer =>
      by_cases hother : index = other
      · simp [moved, answers, hother]
      · simp [moved, answers, hother]

theorem Moves.before {queueClosed : Bool} {handling : Handling} {move : Move}
    {phase : Phase} {response : Option TuiQueryResponse}
    (hmoves : Moves queueClosed handling move phase response) :
    handling.phase ≠ .answered ∧ handling.phase ≠ .silent := by
  cases hmoves with
  | queue hphase hqueue => simp [hphase]
  | refuse hphase hqueue => simp [hphase]
  | complete hphase completion => simp [hphase]
  | drop hphase => simp [hphase]
  | answer hphase => simp [hphase]
  | report hphase htext => simp [hphase]
  | forget hphase htext => simp [hphase]

/-- The answer is handed over with the last phase and bears the identifier of
the request; nothing is handed over before. -/
theorem Moves.response_eq {queueClosed : Bool} {handling : Handling}
    {move : Move} {phase : Phase} {response : Option TuiQueryResponse}
    (hmoves : Moves queueClosed handling move phase response) :
    (phase = .answered → response.toList.map TuiQueryResponse.correlationId =
        [handling.request.correlationId]) ∧
      (phase ≠ .answered → response = none) := by
  cases hmoves with
  | queue hphase hqueue => simp
  | refuse hphase hqueue =>
      exact ⟨fun _ => rfl, fun hanswered => (hanswered rfl).elim⟩
  | complete hphase completion => simp
  | drop hphase => simp
  | answer hphase =>
      exact ⟨fun _ => rfl, fun hanswered => (hanswered rfl).elim⟩
  | report hphase htext =>
      exact ⟨fun _ => rfl, fun hanswered => (hanswered rfl).elim⟩
  | forget hphase htext => simp

theorem new_invariant (hasQueue : Bool) : (new hasQueue).Invariant where
  answered index handling hhandling := by simp [new] at hhandling
  unanswered index handling hhandling := by simp [new] at hhandling
  fresh index _ := rfl
  silent handling hmem := by simp [new] at hmem

variable {self next : ProxyIpcServer}

/-- A request that comes in, with the answer it has at once. -/
def appended (self : ProxyIpcServer) (handling : Handling)
    (response : Option TuiQueryResponse) : ProxyIpcServer :=
  { self with
    handlings := self.handlings ++ [handling]
    handed := self.handed ++ response.toList.map (fun answer =>
      (self.handlings.length, answer)) }

theorem answers_appended (self : ProxyIpcServer) (handling : Handling)
    (response : Option TuiQueryResponse) (index : ℕ) :
    (self.appended handling response).answers index =
      self.answers index ++
        if self.handlings.length = index then response.toList else [] := by
  cases response with
  | none => simp [appended, answers]
  | some answer =>
      by_cases hindex : self.handlings.length = index
      · simp [appended, answers, hindex]
      · simp [appended, answers, hindex]

theorem Invariant.append (hinvariant : self.Invariant) {handling : Handling}
    {response : Option TuiQueryResponse}
    (hanswered : handling.phase = .answered →
      response.toList.map TuiQueryResponse.correlationId =
        [handling.request.correlationId])
    (hnone : handling.phase ≠ .answered → response = none)
    (hsilent : handling.phase ≠ .silent) :
    (self.appended handling response).Invariant where
  answered index found hfound hphase := by
    rw [answers_appended]
    rcases Positions.getElem?_append_cases hfound with hold | ⟨hindex, hnew⟩
    · have hlt := (List.getElem?_eq_some_iff.mp hold).1
      rw [if_neg (Nat.ne_of_gt hlt), List.append_nil]
      exact hinvariant.answered index found hold hphase
    · rw [hinvariant.fresh index hindex.ge, if_pos hindex.symm, List.nil_append,
        ← hnew]
      rw [← hnew] at hphase
      exact hanswered hphase
  unanswered index found hfound hphase := by
    rw [answers_appended]
    rcases Positions.getElem?_append_cases hfound with hold | ⟨hindex, hnew⟩
    · have hlt := (List.getElem?_eq_some_iff.mp hold).1
      rw [if_neg (Nat.ne_of_gt hlt), List.append_nil]
      exact hinvariant.unanswered index found hold hphase
    · rw [← hnew] at hphase
      rw [hinvariant.fresh index hindex.ge, hnone hphase]
      simp
  fresh index hlength := by
    have hlonger : self.handlings.length < index := by
      simpa [appended] using hlength
    rw [answers_appended, if_neg (Nat.ne_of_lt hlonger), List.append_nil]
    exact hinvariant.fresh index hlonger.le
  silent found hfound hphase := by
    rcases List.mem_append.mp hfound with hold | hnew
    · exact hinvariant.silent found hold hphase
    · rw [List.mem_singleton.mp hnew] at hphase
      exact (hsilent hphase).elim

theorem Invariant.moved (hinvariant : self.Invariant) {index : ℕ}
    {handling : Handling} {move : Move} {phase : Phase}
    {response : Option TuiQueryResponse}
    (hhandling : self.handlings[index]? = some handling)
    (hmoves : Moves self.queueClosed handling move phase response) :
    (self.moved index handling move (phase, response)).Invariant where
  answered other found hfound hphase := by
    rw [answers_moved]
    rcases Positions.getElem?_set_cases hfound with ⟨hsame, hnew⟩ | ⟨hne, hold⟩
    · rw [if_pos hsame, ← hsame,
        hinvariant.unanswered index handling hhandling hmoves.before.1,
        List.nil_append, ← hnew]
      rw [← hnew] at hphase
      exact hmoves.response_eq.1 hphase
    · rw [if_neg hne, List.append_nil]
      exact hinvariant.answered other found hold hphase
  unanswered other found hfound hphase := by
    rw [answers_moved]
    rcases Positions.getElem?_set_cases hfound with ⟨hsame, hnew⟩ | ⟨hne, hold⟩
    · rw [← hnew] at hphase
      rw [← hsame,
        hinvariant.unanswered index handling hhandling hmoves.before.1,
        hmoves.response_eq.2 hphase]
      simp
    · rw [if_neg hne, List.append_nil]
      exact hinvariant.unanswered other found hold hphase
  fresh other hlength := by
    have hlt := (List.getElem?_eq_some_iff.mp hhandling).1
    have hlonger : self.handlings.length ≤ other := by
      simpa [ProxyIpcServer.moved] using hlength
    rw [answers_moved, if_neg (Nat.ne_of_lt (hlt.trans_le hlonger)),
      List.append_nil]
    exact hinvariant.fresh other hlonger
  silent found hfound hphase := by
    obtain ⟨other, hother⟩ := List.mem_iff_getElem?.mp hfound
    rcases Positions.getElem?_set_cases hother with ⟨_, hnew⟩ | ⟨_, hold⟩
    · rw [← hnew] at hphase ⊢
      cases hmoves with
      | forget _ htext => exact htext
      | queue => cases hphase
      | refuse => cases hphase
      | complete => cases hphase
      | drop => cases hphase
      | answer => cases hphase
      | report => cases hphase
    · exact hinvariant.silent found (List.mem_of_getElem? hold) hphase

theorem Invariant.step (hinvariant : self.Invariant) {event : IpcEvent}
    (hsteps : Steps self event next) : next.Invariant := by
  cases hsteps with
  | @enqueue connection request =>
      have happended : ({ self with
          handlings := self.handlings ++ [⟨connection, request, .sending⟩] } :
          ProxyIpcServer) =
            self.appended ⟨connection, request, .sending⟩ none := by
        simp [appended]
      rw [happended]
      exact hinvariant.append Phase.noConfusion (fun _ => rfl)
        Phase.noConfusion
  | @reject connection request =>
      change (self.appended ⟨connection, request, .answered⟩
        (some (.queryError request.correlationId request.unavailable))).Invariant
      exact hinvariant.append (fun _ => rfl) (fun hphase => (hphase rfl).elim)
        Phase.noConfusion
  | closeQueue =>
      exact ⟨hinvariant.answered, hinvariant.unanswered, hinvariant.fresh,
        hinvariant.silent⟩
  | move hhandling hmoves => exact hinvariant.moved hhandling hmoves

/-! ### Lost requests along a run -/

theorem Moves.lost_iff {queueClosed : Bool} {handling : Handling} {move : Move}
    {phase : Phase} {response : Option TuiQueryResponse}
    (hmoves : Moves queueClosed handling move phase response) :
    ({ handling with phase := phase } : Handling).Lost ↔
      handling.Lost ∨
        (move = .drop ∧ handling.request.handlerDropped = none) := by
  cases hmoves with
  | queue hphase hqueue => simp [Handling.Lost, hphase]
  | refuse hphase hqueue => simp [Handling.Lost, hphase]
  | complete hphase completion => simp [Handling.Lost, hphase]
  | drop hphase => simp [Handling.Lost, hphase]
  | answer hphase => simp [Handling.Lost, hphase]
  | report hphase htext => simp [Handling.Lost, htext]
  | forget hphase htext => simp [Handling.Lost, hphase, htext]

theorem dropsNoRequest_move_iff {index : ℕ} {handling : Handling}
    (hhandling : self.handlings[index]? = some handling) (move : Move) :
    self.DropsNoRequest (.move index move) ↔
      ¬ (move = .drop ∧ handling.request.handlerDropped = none) := by
  cases move with
  | drop =>
      simp only [DropsNoRequest, hhandling, Option.some.injEq, forall_eq',
        true_and]
      rw [← ne_eq, Option.ne_none_iff_isSome]
  | queue => simp [DropsNoRequest]
  | refuse => simp [DropsNoRequest]
  | complete completion => simp [DropsNoRequest]
  | resume => simp [DropsNoRequest]

theorem noneLost_append_iff {handling : Handling} (hkept : ¬ handling.Lost)
    (response : Option TuiQueryResponse) :
    (self.appended handling response).NoneLost ↔ self.NoneLost := by
  simp only [NoneLost, appended, List.forall_mem_append,
    List.forall_mem_singleton, hkept, not_false_iff, and_true]

theorem noneLost_moved_iff {index : ℕ} {handling : Handling} {move : Move}
    {phase : Phase} {response : Option TuiQueryResponse}
    (hhandling : self.handlings[index]? = some handling)
    (hmoves : Moves self.queueClosed handling move phase response) :
    (self.moved index handling move (phase, response)).NoneLost ↔
      self.NoneLost ∧
        ¬ (move = .drop ∧ handling.request.handlerDropped = none) := by
  have hset : ∀ found, found ∈ self.handlings.set index
      { handling with phase := phase } ↔
        found = { handling with phase := phase } ∨
          ∃ other, index ≠ other ∧ self.handlings[other]? = some found := by
    intro found
    rw [List.mem_iff_getElem?]
    constructor
    · rintro ⟨other, hother⟩
      rcases Positions.getElem?_set_cases hother with ⟨_, hnew⟩ | ⟨hne, hold⟩
      · exact Or.inl hnew.symm
      · exact Or.inr ⟨other, hne, hold⟩
    · rintro (hnew | ⟨other, hne, hold⟩)
      · refine ⟨index, ?_⟩
        rw [List.getElem?_set_self (List.getElem?_eq_some_iff.mp hhandling).1,
          hnew]
      · refine ⟨other, ?_⟩
        rw [List.getElem?_set_ne hne, hold]
  constructor
  · intro hkept
    have hnew := hkept _ ((hset _).mpr (Or.inl rfl))
    rw [hmoves.lost_iff, not_or] at hnew
    refine ⟨?_, hnew.2⟩
    intro found hfound
    obtain ⟨other, hother⟩ := List.mem_iff_getElem?.mp hfound
    by_cases hsame : index = other
    · rw [← hsame, hhandling, Option.some.injEq] at hother
      rw [← hother]
      exact hnew.1
    · exact hkept found ((hset found).mpr (Or.inr ⟨other, hsame, hother⟩))
  · rintro ⟨hkept, hdrop⟩ found hfound
    rcases (hset found).mp hfound with hnew | ⟨other, _, hold⟩
    · rw [hnew, hmoves.lost_iff, not_or]
      exact ⟨hkept handling (List.mem_of_getElem? hhandling), hdrop⟩
    · exact hkept found (List.mem_of_getElem? hold)

/-- Nothing is lost after a step just when nothing was lost before and the
step drops no structured request. -/
theorem noneLost_step_iff {event : IpcEvent}
    (hsteps : Steps self event next) :
    next.NoneLost ↔ self.NoneLost ∧ self.DropsNoRequest event := by
  cases hsteps with
  | @enqueue connection request =>
      have happended : ({ self with
          handlings := self.handlings ++ [⟨connection, request, .sending⟩] } :
          ProxyIpcServer) =
            self.appended ⟨connection, request, .sending⟩ none := by
        simp [appended]
      rw [happended, noneLost_append_iff (by simp [Handling.Lost])]
      simp [DropsNoRequest]
  | @reject connection request =>
      change (self.appended ⟨connection, request, .answered⟩
        (some (.queryError request.correlationId
          request.unavailable))).NoneLost ↔ _
      rw [noneLost_append_iff (by simp [Handling.Lost])]
      simp [DropsNoRequest]
  | closeQueue => simp [NoneLost, DropsNoRequest]
  | @move index handling move phase response hhandling hmoves =>
      rw [noneLost_moved_iff hhandling hmoves,
        dropsNoRequest_move_iff hhandling]

/-- Nothing is lost at the end of a run just when no step of it drops a
structured request. -/
theorem along_dropsNoRequest_iff {trace : List IpcEvent}
    (hkept : self.NoneLost) (hrun : machine.run self trace = some next) :
    machine.Along DropsNoRequest self trace ↔ next.NoneLost := by
  induction trace generalizing self with
  | nil =>
      rw [StepMachine.run_nil, Option.some.injEq] at hrun
      rw [← hrun]
      exact iff_of_true trivial hkept
  | cons event rest ih =>
      rw [StepMachine.run_cons, Option.bind_eq_some_iff] at hrun
      obtain ⟨middle, hstep, hrest⟩ := hrun
      have hsteps := steps_of_step hstep
      constructor
      · intro halong
        obtain ⟨hcondition, hlater⟩ := halong middle hstep
        have hmiddle := (noneLost_step_iff hsteps).mpr ⟨hkept, hcondition⟩
        exact (ih hmiddle hrest).mp hlater
      · intro hend reached hreached
        rw [hstep, Option.some.injEq] at hreached
        rw [← hreached]
        -- what is lost stays lost, so nothing was lost in the middle
        have hmiddle : middle.NoneLost := by
          by_contra hlost
          have hkeep : ∀ state action after, ¬ NoneLost state →
              machine.step state action = some after → ¬ NoneLost after := by
            intro state action after hstate hafter hnone
            exact hstate ((noneLost_step_iff (steps_of_step hafter)).mp hnone).1
          exact StepMachine.run_invariant hkeep hlost hrest hend
        exact ⟨((noneLost_step_iff hsteps).mp hmiddle).2,
          (ih hmiddle hrest).mpr hend⟩

/-! ### Settled runs -/

theorem answeredOnce_iff_noneLost (hinvariant : self.Invariant)
    (hsettled : self.Settled) : self.AnsweredOnce ↔ self.NoneLost := by
  constructor
  · intro honce handling hmem hlost
    obtain ⟨index, hindex⟩ := List.mem_iff_getElem?.mp hmem
    have hanswers := honce index handling hindex
    have hphase : handling.phase ≠ .answered := by
      rcases hlost.2 with hphase | hphase
      · simp [hphase]
      · simp [hphase]
    rw [hinvariant.unanswered index handling hindex hphase] at hanswers
    cases hanswers
  · intro hnone index handling hindex
    have hmem := List.mem_of_getElem? hindex
    rcases hsettled handling hmem with hphase | hphase
    · exact hinvariant.answered index handling hindex hphase
    · exact (hnone handling hmem
        ⟨hinvariant.silent handling hmem hphase, Or.inr hphase⟩).elim

/-- How far a request is from its last phase. -/
def work : Phase → ℕ
  | .sending => 3
  | .waiting => 2
  | .completed _ => 1
  | .dropped => 1
  | .answered => 0
  | .silent => 0

def remainingWork (self : ProxyIpcServer) : ℕ :=
  (self.handlings.map (fun handling => work handling.phase)).sum

/-- A request that is not in its last phase can be moved on, by the queue, by
the transport side or by the task that waits for it. -/
theorem exists_move (queueClosed : Bool) {handling : Handling}
    (hopen : ¬ (handling.phase = .answered ∨ handling.phase = .silent)) :
    ∃ move phase response,
      handling.move queueClosed move = some (phase, response) ∧
        work phase < work handling.phase := by
  cases hphase : handling.phase with
  | sending =>
      cases hqueue : queueClosed with
      | true =>
          exact ⟨.refuse, .answered, some (.queryError
            handling.request.correlationId handling.request.notQueued),
            by simp [Handling.move, hphase], by decide⟩
      | false =>
          exact ⟨.queue, .waiting, none, by simp [Handling.move, hphase],
            by decide⟩
  | waiting =>
      exact ⟨.drop, .dropped, none, by simp [Handling.move, hphase],
        by decide⟩
  | completed completion =>
      exact ⟨.resume, .answered, some (.ofCompletion
        handling.request.correlationId completion),
        by simp [Handling.move, hphase], Nat.one_pos⟩
  | dropped =>
      cases htext : handling.request.handlerDropped with
      | some message =>
          exact ⟨.resume, .answered, some (.queryError
            handling.request.correlationId message),
            by simp [Handling.move, hphase, htext], by decide⟩
      | none =>
          exact ⟨.resume, .silent, none,
            by simp [Handling.move, hphase, htext], by decide⟩
  | answered => exact (hopen (Or.inl hphase)).elim
  | silent => exact (hopen (Or.inr hphase)).elim

theorem remainingWork_moved_lt {index : ℕ} {handling : Handling} {move : Move}
    {phase : Phase} {response : Option TuiQueryResponse}
    (hhandling : self.handlings[index]? = some handling)
    (hless : work phase < work handling.phase) :
    (self.moved index handling move (phase, response)).remainingWork <
      self.remainingWork := by
  obtain ⟨hlt, hget⟩ := List.getElem?_eq_some_iff.mp hhandling
  have hparts : ∀ other : Handling, ((self.handlings.set index other).map
      (fun handling => work handling.phase)).sum =
        ((self.handlings.take index).map
          (fun handling => work handling.phase)).sum + work other.phase +
        ((self.handlings.drop (index + 1)).map
          (fun handling => work handling.phase)).sum := by
    intro other
    rw [List.set_eq_take_append_cons_drop, if_pos hlt]
    simp only [List.map_append, List.map_cons, List.sum_append, List.sum_cons]
    omega
  have hself := hparts handling
  rw [← hget, List.set_getElem_self hlt, hget] at hself
  unfold remainingWork moved
  rw [hself, hparts]
  simp only
  omega

/-- Every state can be settled by moves alone. -/
theorem exists_settled (self : ProxyIpcServer) :
    ∃ (moves : List (ℕ × Move)) (reached : ProxyIpcServer),
      machine.run self (moves.map (fun move => .move move.1 move.2)) =
          some reached ∧
        reached.Settled := by
  induction hwork : self.remainingWork using Nat.strong_induction_on
    generalizing self with
  | _ bound ih =>
      by_cases hsettled : self.Settled
      · exact ⟨[], self, rfl, hsettled⟩
      · unfold Settled at hsettled
        push Not at hsettled
        obtain ⟨handling, hmem, hanswered, hsilent⟩ := hsettled
        obtain ⟨index, hindex⟩ := List.mem_iff_getElem?.mp hmem
        obtain ⟨move, phase, response, hmove, hless⟩ :=
          exists_move self.queueClosed (not_or.mpr ⟨hanswered, hsilent⟩)
        have hstep : self.step (.move index move) =
            some (self.moved index handling move (phase, response)) := by
          simp only [step, hindex, hmove, Option.map_some]
        have hfewer : (self.moved index handling move
            (phase, response)).remainingWork < self.remainingWork :=
          remainingWork_moved_lt hindex hless
        rw [hwork] at hfewer
        obtain ⟨moves, reached, hrun, hreached⟩ := ih _ hfewer _ rfl
        refine ⟨(index, move) :: moves, reached, ?_, hreached⟩
        rw [List.map_cons, StepMachine.run_cons]
        change (self.step (.move index move)).bind _ = _
        rw [hstep]
        exact hrun

/-- No request has an answer before its last phase, nor then any other than
one under its own identifier. -/
def AnsweredAtEnd (self : ProxyIpcServer) : Prop :=
  ∀ index handling, self.handlings[index]? = some handling →
    self.answers index = [] ∨ handling.phase = .answered ∧
      (self.answers index).map TuiQueryResponse.correlationId =
        [handling.request.correlationId]

theorem Invariant.answeredAtEnd (hinvariant : self.Invariant) :
    self.AnsweredAtEnd := by
  intro index handling hindex
  by_cases hphase : handling.phase = .answered
  · exact Or.inr ⟨hphase, hinvariant.answered index handling hindex hphase⟩
  · exact Or.inl (hinvariant.unanswered index handling hindex hphase)

/-- In every run no request is answered twice or before its end; once the run
has settled, as any run can, every request has been answered just when no step
dropped the job of a structured request. -/
theorem run_answeredOnce_iff (hasQueue : Bool) {trace : List IpcEvent}
    {reached : ProxyIpcServer}
    (hrun : machine.run (new hasQueue) trace = some reached) :
    reached.AnsweredAtEnd ∧
      (reached.Settled → (reached.AnsweredOnce ↔
        machine.Along DropsNoRequest (new hasQueue) trace)) ∧
      ∃ (moves : List (ℕ × Move)) (settled : ProxyIpcServer),
        machine.run reached (moves.map (fun move => .move move.1 move.2)) =
            some settled ∧
          settled.Settled := by
  have hinvariant : reached.Invariant :=
    StepMachine.run_invariant
      (fun state action after hstate hafter =>
        hstate.step (steps_of_step hafter))
      (new_invariant hasQueue) hrun
  have hkept : (new hasQueue).NoneLost := by simp [NoneLost, new]
  refine ⟨hinvariant.answeredAtEnd, ?_, reached.exists_settled⟩
  intro hsettled
  rw [answeredOnce_iff_noneLost hinvariant hsettled,
    along_dropsNoRequest_iff hkept hrun]

/-! ### A structured request that is dropped -/

def toolsRequest : TuiRequest := .tuiMcpRequest "tools/list" none nilUuid

def droppedTrace : List IpcEvent :=
  [.receive 0 toolsRequest, .move 0 .queue, .move 0 .drop, .move 0 .resume]

def droppedServer : ProxyIpcServer :=
  ⟨true, false, [toolsRequest.job ⟨0⟩], [⟨0, toolsRequest, .silent⟩], []⟩

theorem droppedTrace_answeredOnce_iff :
    droppedServer.AnsweredAtEnd ∧
      (droppedServer.Settled → (droppedServer.AnsweredOnce ↔
        machine.Along DropsNoRequest (new true) droppedTrace)) ∧
      ∃ (moves : List (ℕ × Move)) (settled : ProxyIpcServer),
        machine.run droppedServer
            (moves.map (fun move => .move move.1 move.2)) = some settled ∧
          settled.Settled := by
  have hrun : machine.run (new true) droppedTrace = some droppedServer := rfl
  exact run_answeredOnce_iff true hrun

/-- The run settles and the request is never answered. -/
theorem droppedTrace_not_answeredOnce :
    machine.run (new true) droppedTrace = some droppedServer ∧
      droppedServer.Settled ∧ droppedServer.answers 0 = [] ∧
      ¬ droppedServer.AnsweredOnce := by
  have hanswers : droppedServer.answers 0 = [] := rfl
  refine ⟨rfl, ?_, hanswers, ?_⟩
  · intro handling hmem
    rw [List.mem_singleton.mp hmem]
    exact Or.inr rfl
  · intro honce
    have hone := honce 0 ⟨0, toolsRequest, .silent⟩ rfl
    rw [hanswers] at hone
    cases hone

end ProxyIpcServer
end Transport
end Acdp
