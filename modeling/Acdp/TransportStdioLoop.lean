import Acdp.ByteStrings
import Acdp.LineReader
import Acdp.StepMachine
import Acdp.TransportStdioHandler

/-!
# The loop of the stdio handler

One call of `handle_communication` waits on eight branches at once, and the
first that is ready runs to its end.  What the others have done by then is
given up: in particular the part of a line that a read has taken.  Between
two branches anything may happen around the loop, and the reads take what
arrives.
-/

namespace Acdp
namespace Transport

open Acdp.Core Json
open StdioHandler (Filtered Queried Written captured captureQueryResponse_eq
  captured_withManager deliver processLine_cases)

/-- `String::from_utf8`. -/
def decodeUtf8 (bytes : Bytes) : Option String :=
  String.fromUTF8? ⟨bytes.toArray⟩

def newline : UInt8 := 10

structure ExitStatus where
  success : Bool
  debugText : String
  deriving DecidableEq, Repr

inductive Stream where
  | user
  | stdout
  | stderr
  deriving DecidableEq, Repr

/-- A response of the child: to which queries it belongs, by the identifiers
of the requests that were sent for them, and what became of it. -/
structure Handled where
  injectedFor : List Responder
  blocked : Bool
  written : Option String
  completed : List (Responder × TuiQueryCompletion)

/-- The state of one call.  The loop is over when there is an outcome; `reaped`
says whether it ended because the child had exited.  `crashed` says that the
child failed before a shutdown signal and before the end of the input,
`accepted` and `injected` list the queries that were taken up and those that
were sent, and `toChild` and `toUser` what was written. -/
structure Communication where
  handler : StdioHandler
  queryRx : Option QueryReceiver
  user : LineReader UInt8
  stdout : LineReader UInt8
  stderr : LineReader UInt8
  exited : Option ExitStatus
  shutdownSignalled : Bool
  outcome : Option (Except String Unit)
  crashed : Bool
  reaped : Bool
  accepted : List Responder
  injected : List (RequestId × Responder)
  handled : List Handled
  toChild : List String
  toUser : List String

namespace Communication

/-- The receiver of queries is taken out of the handler. -/
def start (handler : StdioHandler) (accepted : List Responder) :
    Communication where
  handler := { handler with queryRx := none }
  queryRx := handler.queryRx
  user := .new
  stdout := .new
  stderr := .new
  exited := none
  shutdownSignalled := false
  outcome := none
  crashed := false
  reaped := false
  accepted := accepted
  injected := []
  handled := []
  toChild := []
  toUser := []

/-! ## Around the loop -/

def reader (self : Communication) : Stream → LineReader UInt8
  | .user => self.user
  | .stdout => self.stdout
  | .stderr => self.stderr

def setReader (self : Communication) (stream : Stream)
    (reader : LineReader UInt8) : Communication :=
  match stream with
  | .user => { self with user := reader }
  | .stdout => { self with stdout := reader }
  | .stderr => { self with stderr := reader }

/-- What happens between two branches; `polls` is a read that takes what there
is and goes on waiting. -/
inductive Event where
  | arrives (stream : Stream) (chunk : Bytes)
  | closes (stream : Stream)
  | polls (stream : Stream)
  | exits (status : ExitStatus)
  | signalsShutdown
  | reconfigures (manager : InterceptorManager)

def event (self : Communication) : Event → Option Communication
  | .arrives stream chunk =>
      ((self.reader stream).arrive chunk).map (self.setReader stream)
  | .closes stream =>
      some (self.setReader stream (self.reader stream).close)
  | .polls stream =>
      ((self.reader stream).poll newline).map (self.setReader stream)
  | .exits status =>
      if self.exited.isSome then none
      else
        some { self with
          exited := some status
          crashed :=
            !status.success && !self.shutdownSignalled && !self.user.closed }
  | .signalsShutdown => some { self with shutdownSignalled := true }
  | .reconfigures manager =>
      some { self with
        handler := { self.handler with interceptorManager := manager } }

/-! ## The branches -/

inductive Ending where
  | goesOn
  | breaks
  | fails (error : String)
  deriving DecidableEq, Repr

def Ending.outcome : Ending → Option (Except String Unit)
  | .goesOn => none
  | .breaks => some (.ok ())
  | .fails error => some (.error error)

/-- What a branch leaves, the lists being what it adds. -/
structure Turn where
  handler : StdioHandler
  ending : Ending
  user : LineReader UInt8
  stdout : LineReader UInt8
  stderr : LineReader UInt8
  reaped : Bool
  accepted : List Responder
  injected : List (RequestId × Responder)
  handled : List Handled
  toChild : List String
  toUser : List String

def unchanged (self : Communication) : Turn where
  handler := self.handler
  ending := .goesOn
  user := self.user
  stdout := self.stdout
  stderr := self.stderr
  reaped := false
  accepted := []
  injected := []
  handled := []
  toChild := []
  toUser := []

variable (json : SerdeJson)

/-- The identifier of the request as it was sent for a query. -/
def sentId (job : TuiQueryJob) (queried : Queried) :
    Option RequestId :=
  match queried.text, queried.passed with
  | none, _ => none
  | some _, none => some (.string (uuidText job.correlationId))
  | some _, some (.request request) => some request.id
  | some _, some _ => none

def queryTurn (self : Communication) (job : TuiQueryJob) (written : Written)
    (clock : Clock) (interceptorDelayMs : Float) : Turn :=
  let queried := self.handler.processTuiQuery json job written clock
    interceptorDelayMs
  { self.unchanged with
    handler := queried.handler
    accepted := [job.responder]
    injected := (sentId job queried).toList.map (fun id => (id, job.responder))
    toChild := queried.text.toList }

def userTurn (self : Communication) (line : Bytes) (user : LineReader UInt8)
    (written : Written) (clock : Clock) : Turn :=
  if line = [] then { self.unchanged with user := user, ending := .breaks }
  else
    match decodeUtf8 line with
    | none => { self.unchanged with user := user, ending := .breaks }
    | some input =>
        let filtered := self.handler.processOutgoing json input clock
        let turn := { self.unchanged with
          user := user.record line
          handler := filtered.handler }
        match filtered.result with
        | .error _ => { turn with handler := turn.handler.countFailure }
        | .ok (processedInput, _) =>
            if written = .ok then
              { turn with
                handler := turn.handler.countRequest processedInput
                toChild := [processedInput] }
            else { turn with ending := .breaks }

/-- The queries that the requests with this identifier were sent for. -/
def injectedFor (self : Communication) (id : RequestId) : List Responder :=
  (self.injected.filter (fun entry => entry.1 = id)).map Prod.snd

/-- The account of a line that is a response. -/
def handledLine (self : Communication) (filtered : Filtered) :
    List Handled :=
  match filtered.offered with
  | some (.response response) =>
      [{ injectedFor := self.injectedFor response.id
         blocked := !filtered.result.toBool
         written := filtered.result.toOption.map Prod.fst
         completed := filtered.handler.completions.drop
           self.handler.completions.length }]
  | _ => []

def stdoutTurn (self : Communication) (line : Bytes)
    (stdout : LineReader UInt8) (written : Written) (clock : Clock) : Turn :=
  if line = [] then { self.unchanged with stdout := stdout, ending := .breaks }
  else
    match decodeUtf8 line with
    | none =>
        { self.unchanged with
          stdout := stdout
          handler := self.handler.countFailure
          ending := .breaks }
    | some output =>
        let filtered := self.handler.processIncoming json output clock
        let turn := { self.unchanged with
          stdout := stdout.record line
          handler := filtered.handler
          handled := self.handledLine filtered }
        match filtered.result with
        | .error _ => { turn with handler := turn.handler.countFailure }
        | .ok (processedOutput, _) =>
            if written = .ok then
              { turn with
                handler := turn.handler.countResponse processedOutput
                toUser := [processedOutput] }
            else { turn with ending := .breaks, toUser := [processedOutput] }

def readErrorTurn (self : Communication) : Stream → Turn
  | .user => { self.unchanged with ending := .breaks }
  | .stdout =>
      { self.unchanged with
        handler := self.handler.countFailure
        ending := .breaks }
  | .stderr => self.unchanged

/-- `child.wait()` returns. -/
def waitTurn (self : Communication) : Except String ExitStatus → Turn
  | .error error =>
      { self.unchanged with
        ending := .fails ("Failed to wait for child process: " ++ error) }
  | .ok status =>
      if status.success then
        { self.unchanged with ending := .breaks, reaped := true }
      else
        { self.unchanged with
          handler := self.handler.countFailure
          ending := .fails
            ("Backend process crashed with status " ++ status.debugText)
          reaped := true }

inductive Branch where
  | shutdown
  | tick
  | query (job : Option TuiQueryJob) (written : Written) (clock : Clock)
      (interceptorDelayMs : Float)
  | userLine (written : Written) (clock : Clock)
  | stdoutLine (written : Written) (clock : Clock)
  | stderrLine
  | readError (stream : Stream)
  | waitError (error : String)
  | wait

/-- There is no turn where the branch is not ready. -/
def turn (self : Communication) : Branch → Option Turn
  | .shutdown =>
      if self.shutdownSignalled then
        some { self.unchanged with ending := .breaks }
      else none
  | .tick => some self.unchanged
  | .query job written clock interceptorDelayMs =>
      self.queryRx.map fun _ =>
        match job with
        | some job => self.queryTurn json job written clock interceptorDelayMs
        | none => self.unchanged
  | .userLine written clock =>
      (self.user.readLine newline).map fun (line, user) =>
        self.userTurn json line user written clock
  | .stdoutLine written clock =>
      (self.stdout.readLine newline).map fun (line, stdout) =>
        self.stdoutTurn json line stdout written clock
  | .stderrLine =>
      (self.stderr.readLine newline).map fun (_, stderr) =>
        { self.unchanged with stderr := stderr }
  | .readError stream => some (self.readErrorTurn stream)
  | .waitError error => some (self.waitTurn (.error error))
  | .wait => self.exited.map (fun status => self.waitTurn (.ok status))

/-- The reads are given up, and where the loop is left by `break`, the receiver
goes back into the handler. -/
def conclude (self : Communication) (turn : Turn) : Communication where
  handler :=
    match turn.ending with
    | .breaks => { turn.handler with queryRx := self.queryRx }
    | _ => turn.handler
  queryRx :=
    match turn.ending with
    | .goesOn => self.queryRx
    | _ => none
  user := turn.user.drop
  stdout := turn.stdout.drop
  stderr := turn.stderr.drop
  exited := self.exited
  shutdownSignalled := self.shutdownSignalled
  outcome := turn.ending.outcome
  crashed := self.crashed
  reaped := turn.reaped
  accepted := self.accepted ++ turn.accepted
  injected := self.injected ++ turn.injected
  handled := self.handled ++ turn.handled
  toChild := self.toChild ++ turn.toChild
  toUser := self.toUser ++ turn.toUser

inductive LoopAction where
  | event (event : Event)
  | branch (branch : Branch)

def step (self : Communication) (action : LoopAction) :
    Option Communication :=
  if self.outcome.isSome then none
  else
    match action with
    | .event event => self.event event
    | .branch branch => (self.turn json branch).map self.conclude

def machine : StepMachine Communication LoopAction := ⟨step json⟩

/-! ## Which branches leave the loop -/

/-- The line can be read, and what the interceptors let through is written. -/
def LineGoesOn (result : String → Except String (String × Bool)) (line : Bytes)
    (written : Written) : Prop :=
  line ≠ [] ∧ ∃ text, decodeUtf8 line = some text ∧
    ∀ out, result text = .ok out → written = .ok

def GoesOn (self : Communication) : Branch → Prop
  | .shutdown => False
  | .tick => True
  | .query _ _ _ _ => True
  | .userLine written clock =>
      ∀ line user, self.user.readLine newline = some (line, user) →
        LineGoesOn (fun input =>
          (self.handler.processOutgoing json input clock).result) line written
  | .stdoutLine written clock =>
      ∀ line stdout, self.stdout.readLine newline = some (line, stdout) →
        LineGoesOn (fun output =>
          (self.handler.processIncoming json output clock).result) line written
  | .stderrLine => True
  | .readError stream => stream = .stderr
  | .waitError _ => False
  | .wait => False

variable {json} {self next : Communication}

theorem step_cases {action : LoopAction}
    (hstep : self.step json action = some next) :
    self.outcome = none ∧
      ((∃ event, action = .event event ∧ self.event event = some next) ∨
        ∃ branch turn, action = .branch branch ∧
          self.turn json branch = some turn ∧ next = self.conclude turn) := by
  unfold step at hstep
  cases houtcome : self.outcome with
  | some outcome => simp [houtcome] at hstep
  | none =>
      rw [houtcome, Option.isSome_none, if_neg Bool.false_ne_true] at hstep
      refine ⟨rfl, ?_⟩
      cases action with
      | event event => exact Or.inl ⟨event, rfl, hstep⟩
      | branch branch =>
          obtain ⟨turn, hturn, hnext⟩ := Option.map_eq_some_iff.mp hstep
          exact Or.inr ⟨branch, turn, rfl, hturn, hnext.symm⟩

/-- What happens around the loop leaves its account alone. -/
structure Around (before after : Communication) : Prop where
  handler : ∃ manager,
    after.handler = { before.handler with interceptorManager := manager }
  queryRx : after.queryRx = before.queryRx
  outcome : after.outcome = before.outcome
  reaped : after.reaped = before.reaped
  accepted : after.accepted = before.accepted
  injected : after.injected = before.injected
  handled : after.handled = before.handled
  toChild : after.toChild = before.toChild
  toUser : after.toUser = before.toUser

theorem setReader_around (self : Communication) (stream : Stream)
    (reader : LineReader UInt8) : Around self (self.setReader stream reader) := by
  cases stream with
  | user => exact ⟨⟨_, rfl⟩, rfl, rfl, rfl, rfl, rfl, rfl, rfl, rfl⟩
  | stdout => exact ⟨⟨_, rfl⟩, rfl, rfl, rfl, rfl, rfl, rfl, rfl, rfl⟩
  | stderr => exact ⟨⟨_, rfl⟩, rfl, rfl, rfl, rfl, rfl, rfl, rfl, rfl⟩

theorem event_around {event : Event} (hevent : self.event event = some next) :
    Around self next := by
  cases event with
  | arrives stream chunk =>
      obtain ⟨reader, _, rfl⟩ := Option.map_eq_some_iff.mp hevent
      exact self.setReader_around stream reader
  | closes stream =>
      rw [Communication.event, Option.some.injEq] at hevent
      rw [← hevent]
      exact self.setReader_around stream _
  | polls stream =>
      obtain ⟨reader, _, rfl⟩ := Option.map_eq_some_iff.mp hevent
      exact self.setReader_around stream reader
  | exits status =>
      simp only [Communication.event] at hevent
      split_ifs at hevent
      rw [Option.some.injEq] at hevent
      rw [← hevent]
      exact ⟨⟨_, rfl⟩, rfl, rfl, rfl, rfl, rfl, rfl, rfl, rfl⟩
  | signalsShutdown =>
      rw [Communication.event, Option.some.injEq] at hevent
      rw [← hevent]
      exact ⟨⟨_, rfl⟩, rfl, rfl, rfl, rfl, rfl, rfl, rfl, rfl⟩
  | reconfigures manager =>
      rw [Communication.event, Option.some.injEq] at hevent
      rw [← hevent]
      exact ⟨⟨manager, rfl⟩, rfl, rfl, rfl, rfl, rfl, rfl, rfl, rfl⟩

/-! ## What becomes of a line -/

/-- A line of the user ends the loop, is blocked, or is written to the child,
and the loop ends if that fails. -/
theorem userTurn_cases (line : Bytes) (user : LineReader UInt8)
    (written : Written) (clock : Clock) :
    ((line = [] ∨ decodeUtf8 line = none) ∧
      self.userTurn json line user written clock =
        { self.unchanged with user := user, ending := .breaks }) ∨
    ∃ input, line ≠ [] ∧ decodeUtf8 line = some input ∧
      ((∃ e, (self.handler.processOutgoing json input clock).result =
            .error e ∧
          self.userTurn json line user written clock =
            { self.unchanged with
              user := user.record line
              handler := (self.handler.processOutgoing json input
                clock).handler.countFailure }) ∨
        ∃ text modified,
          (self.handler.processOutgoing json input clock).result =
            .ok (text, modified) ∧
          ((written = .ok ∧ self.userTurn json line user written clock =
              { self.unchanged with
                user := user.record line
                handler := (self.handler.processOutgoing json input
                  clock).handler.countRequest text
                toChild := [text] }) ∨
            (written ≠ .ok ∧ self.userTurn json line user written clock =
              { self.unchanged with
                user := user.record line
                handler := (self.handler.processOutgoing json input
                  clock).handler
                ending := .breaks }))) := by
  unfold userTurn
  by_cases hline : line = []
  · left
    rw [if_pos hline]
    exact ⟨Or.inl hline, rfl⟩
  · rw [if_neg hline]
    cases htext : decodeUtf8 line with
    | none => exact Or.inl ⟨Or.inr rfl, rfl⟩
    | some input =>
        refine Or.inr ⟨input, hline, rfl, ?_⟩
        dsimp only
        cases hresult :
            (self.handler.processOutgoing json input clock).result with
        | error e => exact Or.inl ⟨e, rfl, rfl⟩
        | ok out =>
            refine Or.inr ⟨out.1, out.2, rfl, ?_⟩
            by_cases hwritten : written = .ok
            · exact Or.inl ⟨hwritten, by simp [hwritten]⟩
            · exact Or.inr ⟨hwritten, by simp [hwritten]⟩

theorem stdoutTurn_cases (line : Bytes) (stdout : LineReader UInt8)
    (written : Written) (clock : Clock) :
    ((line = [] ∨ decodeUtf8 line = none) ∧ ∃ handler,
      (handler = self.handler ∨ handler = self.handler.countFailure) ∧
      self.stdoutTurn json line stdout written clock =
        { self.unchanged with
          stdout := stdout
          handler := handler
          ending := .breaks }) ∨
    ∃ output, line ≠ [] ∧ decodeUtf8 line = some output ∧
      ((∃ e, (self.handler.processIncoming json output clock).result =
            .error e ∧
          self.stdoutTurn json line stdout written clock =
            { self.unchanged with
              stdout := stdout.record line
              handler := (self.handler.processIncoming json output
                clock).handler.countFailure
              handled := self.handledLine
                (self.handler.processIncoming json output clock) }) ∨
        ∃ text modified,
          (self.handler.processIncoming json output clock).result =
            .ok (text, modified) ∧
          ((written = .ok ∧ self.stdoutTurn json line stdout written clock =
              { self.unchanged with
                stdout := stdout.record line
                handler := (self.handler.processIncoming json output
                  clock).handler.countResponse text
                handled := self.handledLine
                  (self.handler.processIncoming json output clock)
                toUser := [text] }) ∨
            (written ≠ .ok ∧ self.stdoutTurn json line stdout written clock =
              { self.unchanged with
                stdout := stdout.record line
                handler := (self.handler.processIncoming json output
                  clock).handler
                handled := self.handledLine
                  (self.handler.processIncoming json output clock)
                ending := .breaks
                toUser := [text] }))) := by
  unfold stdoutTurn
  by_cases hline : line = []
  · left
    rw [if_pos hline]
    exact ⟨Or.inl hline, self.handler, Or.inl rfl, rfl⟩
  · rw [if_neg hline]
    cases htext : decodeUtf8 line with
    | none =>
        exact Or.inl ⟨Or.inr rfl, self.handler.countFailure, Or.inr rfl, rfl⟩
    | some output =>
        refine Or.inr ⟨output, hline, rfl, ?_⟩
        dsimp only
        cases hresult :
            (self.handler.processIncoming json output clock).result with
        | error e => exact Or.inl ⟨e, rfl, rfl⟩
        | ok out =>
            refine Or.inr ⟨out.1, out.2, rfl, ?_⟩
            by_cases hwritten : written = .ok
            · exact Or.inl ⟨hwritten, by simp [hwritten]⟩
            · exact Or.inr ⟨hwritten, by simp [hwritten]⟩

theorem not_lineGoesOn {result : String → Except String (String × Bool)}
    {line : Bytes} {written : Written}
    (hunread : line = [] ∨ decodeUtf8 line = none) :
    ¬ LineGoesOn result line written := by
  rintro ⟨hline, text, htext, _⟩
  rcases hunread with hempty | hnone
  · exact hline hempty
  · rw [hnone] at htext
    cases htext

theorem lineGoesOn_iff {result : String → Except String (String × Bool)}
    {line : Bytes} {text : String} (hline : line ≠ [])
    (htext : decodeUtf8 line = some text) (written : Written) :
    LineGoesOn result line written ↔
      ∀ out, result text = .ok out → written = .ok := by
  unfold LineGoesOn
  rw [htext]
  simp [hline]

theorem userTurn_goesOn_iff (line : Bytes) (user : LineReader UInt8)
    (written : Written) (clock : Clock) :
    (self.userTurn json line user written clock).ending = .goesOn ↔
      LineGoesOn (fun input =>
        (self.handler.processOutgoing json input clock).result) line
          written := by
  rcases self.userTurn_cases line user written clock with
    ⟨hunread, hturn⟩ | ⟨input, hline, htext, hrest⟩
  · rw [hturn]
    exact iff_of_false Ending.noConfusion (not_lineGoesOn hunread)
  · rw [lineGoesOn_iff hline htext]
    rcases hrest with ⟨e, hresult, hturn⟩ | ⟨text, modified, hresult,
      ⟨hwritten, hturn⟩ | ⟨hwritten, hturn⟩⟩
    · rw [hturn]
      exact iff_of_true rfl (by simp [hresult])
    · rw [hturn]
      exact iff_of_true rfl (fun _ _ => hwritten)
    · rw [hturn]
      exact iff_of_false Ending.noConfusion
        (fun hall => hwritten (hall _ hresult))

theorem stdoutTurn_goesOn_iff (line : Bytes) (stdout : LineReader UInt8)
    (written : Written) (clock : Clock) :
    (self.stdoutTurn json line stdout written clock).ending = .goesOn ↔
      LineGoesOn (fun output =>
        (self.handler.processIncoming json output clock).result) line
          written := by
  rcases self.stdoutTurn_cases line stdout written clock with
    ⟨hunread, handler, _, hturn⟩ | ⟨output, hline, htext, hrest⟩
  · rw [hturn]
    exact iff_of_false Ending.noConfusion (not_lineGoesOn hunread)
  · rw [lineGoesOn_iff hline htext]
    rcases hrest with ⟨e, hresult, hturn⟩ | ⟨text, modified, hresult,
      ⟨hwritten, hturn⟩ | ⟨hwritten, hturn⟩⟩
    · rw [hturn]
      exact iff_of_true rfl (by simp [hresult])
    · rw [hturn]
      exact iff_of_true rfl (fun _ _ => hwritten)
    · rw [hturn]
      exact iff_of_false Ending.noConfusion
        (fun hall => hwritten (hall _ hresult))

/-- Only where the child is waited for can the loop fail, and only there is it
found out that the child has exited. -/
theorem not_waiting {branch : Branch} {turn : Turn}
    (hturn : self.turn json branch = some turn) (hwait : branch ≠ .wait)
    (herror : ∀ error, branch ≠ .waitError error) :
    turn.reaped = false ∧ ∀ error, turn.ending ≠ .fails error := by
  cases branch with
  | shutdown =>
      simp only [Communication.turn] at hturn
      split_ifs at hturn
      rw [Option.some.injEq] at hturn
      rw [← hturn]
      exact ⟨rfl, fun _ => Ending.noConfusion⟩
  | tick =>
      rw [Communication.turn, Option.some.injEq] at hturn
      rw [← hturn]
      exact ⟨rfl, fun _ => Ending.noConfusion⟩
  | query job written clock interceptorDelayMs =>
      obtain ⟨_, _, rfl⟩ := Option.map_eq_some_iff.mp hturn
      cases job with
      | none => exact ⟨rfl, fun _ => Ending.noConfusion⟩
      | some job => exact ⟨rfl, fun _ => Ending.noConfusion⟩
  | userLine written clock =>
      obtain ⟨⟨line, user⟩, _, rfl⟩ := Option.map_eq_some_iff.mp hturn
      dsimp only
      rcases self.userTurn_cases line user written clock with
        ⟨_, hturn⟩ | ⟨_, _, _, ⟨_, _, hturn⟩ | ⟨_, _, _,
          ⟨_, hturn⟩ | ⟨_, hturn⟩⟩⟩
      all_goals
        rw [hturn]
        exact ⟨rfl, fun _ => Ending.noConfusion⟩
  | stdoutLine written clock =>
      obtain ⟨⟨line, stdout⟩, _, rfl⟩ := Option.map_eq_some_iff.mp hturn
      dsimp only
      rcases self.stdoutTurn_cases line stdout written clock with
        ⟨_, _, _, hturn⟩ | ⟨_, _, _, ⟨_, _, hturn⟩ | ⟨_, _, _,
          ⟨_, hturn⟩ | ⟨_, hturn⟩⟩⟩
      all_goals
        rw [hturn]
        exact ⟨rfl, fun _ => Ending.noConfusion⟩
  | stderrLine =>
      obtain ⟨_, _, rfl⟩ := Option.map_eq_some_iff.mp hturn
      exact ⟨rfl, fun _ => Ending.noConfusion⟩
  | readError stream =>
      rw [Communication.turn, Option.some.injEq] at hturn
      rw [← hturn]
      cases stream with
      | user => exact ⟨rfl, fun _ => Ending.noConfusion⟩
      | stdout => exact ⟨rfl, fun _ => Ending.noConfusion⟩
      | stderr => exact ⟨rfl, fun _ => Ending.noConfusion⟩
  | waitError error => exact absurd rfl (herror error)
  | wait => exact absurd rfl hwait

theorem reaped_iff {branch : Branch} {turn : Turn}
    (hturn : self.turn json branch = some turn) :
    turn.reaped = true ↔ branch = .wait := by
  by_cases hwait : branch = .wait
  · subst hwait
    obtain ⟨status, _, rfl⟩ := Option.map_eq_some_iff.mp hturn
    cases hsuccess : status.success with
    | true => exact iff_of_true (by simp [waitTurn, hsuccess]) rfl
    | false => exact iff_of_true (by simp [waitTurn, hsuccess]) rfl
  · refine iff_of_false ?_ hwait
    by_cases herror : ∃ error, branch = .waitError error
    · obtain ⟨error, rfl⟩ := herror
      rw [Communication.turn, Option.some.injEq] at hturn
      rw [← hturn]
      exact Bool.noConfusion
    · rw [(not_waiting hturn hwait
        (fun error hbranch => herror ⟨error, hbranch⟩)).1]
      exact Bool.noConfusion

theorem goesOn_iff {branch : Branch} {turn : Turn}
    (hturn : self.turn json branch = some turn) :
    turn.ending = .goesOn ↔ self.GoesOn json branch := by
  cases branch with
  | shutdown =>
      simp only [Communication.turn] at hturn
      split_ifs at hturn
      rw [Option.some.injEq] at hturn
      rw [← hturn]
      exact iff_of_false Ending.noConfusion id
  | tick =>
      rw [Communication.turn, Option.some.injEq] at hturn
      rw [← hturn]
      exact iff_of_true rfl trivial
  | query job written clock interceptorDelayMs =>
      obtain ⟨_, _, rfl⟩ := Option.map_eq_some_iff.mp hturn
      cases job with
      | none => exact iff_of_true rfl trivial
      | some job => exact iff_of_true rfl trivial
  | userLine written clock =>
      obtain ⟨⟨line, user⟩, hread, rfl⟩ := Option.map_eq_some_iff.mp hturn
      rw [userTurn_goesOn_iff]
      simp [GoesOn, hread]
  | stdoutLine written clock =>
      obtain ⟨⟨line, stdout⟩, hread, rfl⟩ := Option.map_eq_some_iff.mp hturn
      rw [stdoutTurn_goesOn_iff]
      simp [GoesOn, hread]
  | stderrLine =>
      obtain ⟨_, _, rfl⟩ := Option.map_eq_some_iff.mp hturn
      exact iff_of_true rfl trivial
  | readError stream =>
      rw [Communication.turn, Option.some.injEq] at hturn
      rw [← hturn]
      cases stream with
      | user => exact iff_of_false Ending.noConfusion Stream.noConfusion
      | stdout => exact iff_of_false Ending.noConfusion Stream.noConfusion
      | stderr => exact iff_of_true rfl rfl
  | waitError error =>
      rw [Communication.turn, Option.some.injEq] at hturn
      rw [← hturn]
      exact iff_of_false Ending.noConfusion id
  | wait =>
      obtain ⟨status, _, rfl⟩ := Option.map_eq_some_iff.mp hturn
      cases hsuccess : status.success with
      | true => exact iff_of_false (by simp [waitTurn, hsuccess]) id
      | false => exact iff_of_false (by simp [waitTurn, hsuccess]) id

theorem conclude_outcome_eq_none_iff (turn : Turn) :
    (self.conclude turn).outcome = none ↔ turn.ending = .goesOn := by
  change turn.ending.outcome = none ↔ turn.ending = .goesOn
  cases turn.ending with
  | goesOn => simp [Ending.outcome]
  | breaks => simp [Ending.outcome]
  | fails error => simp [Ending.outcome]

/-! ## What a branch leaves of the queries -/

/-- The line of the child that the branch handles. -/
def incoming (self : Communication) : Branch → Option (String × Clock)
  | .stdoutLine _ clock =>
      (self.stdout.readLine newline).bind fun (line, _) =>
        if line = [] then none
        else (decodeUtf8 line).map (fun output => (output, clock))
  | _ => none

/-- The turn takes up no query, and leaves to the queries what this handler
does. -/
structure Turn.Carries (turn : Turn) (handler : StdioHandler)
    (handled : List Handled) : Prop where
  pendingQueries : turn.handler.pendingQueries = handler.pendingQueries
  completions : turn.handler.completions = handler.completions
  queryRx : turn.handler.queryRx = handler.queryRx
  accepted : turn.accepted = []
  injected : turn.injected = []
  handled : turn.handled = handled

theorem userTurn_carries (line : Bytes) (user : LineReader UInt8)
    (written : Written) (clock : Clock) :
    (self.userTurn json line user written clock).Carries self.handler [] := by
  rcases self.userTurn_cases line user written clock with
    ⟨_, hturn⟩ | ⟨input, _, _, hrest⟩
  · rw [hturn]
    exact ⟨rfl, rfl, rfl, rfl, rfl, rfl⟩
  · obtain ⟨manager, hhandler⟩ :=
      self.handler.processOutgoing_handler json input clock
    rcases hrest with ⟨_, _, hturn⟩ | ⟨_, _, _, ⟨_, hturn⟩ | ⟨_, hturn⟩⟩
    all_goals
      rw [hturn, hhandler]
      exact ⟨rfl, rfl, rfl, rfl, rfl, rfl⟩

theorem stdoutTurn_carries (json : SerdeJson) (line : Bytes)
    (stdout : LineReader UInt8) (written : Written) (clock : Clock) :
    ((line = [] ∨ decodeUtf8 line = none) ∧
      (self.stdoutTurn json line stdout written clock).Carries
        self.handler []) ∨
    ∃ output, line ≠ [] ∧ decodeUtf8 line = some output ∧
      (self.stdoutTurn json line stdout written clock).Carries
        (self.handler.processIncoming json output clock).handler
        (self.handledLine
          (self.handler.processIncoming json output clock)) := by
  rcases self.stdoutTurn_cases line stdout written clock with
    ⟨hunread, _, rfl | rfl, hturn⟩ | ⟨output, hline, htext, hrest⟩
  · exact Or.inl ⟨hunread, by
      rw [hturn]
      exact ⟨rfl, rfl, rfl, rfl, rfl, rfl⟩⟩
  · exact Or.inl ⟨hunread, by
      rw [hturn]
      exact ⟨rfl, rfl, rfl, rfl, rfl, rfl⟩⟩
  · refine Or.inr ⟨output, hline, htext, ?_⟩
    rcases hrest with ⟨_, _, hturn⟩ | ⟨_, _, _, ⟨_, hturn⟩ | ⟨_, hturn⟩⟩
    all_goals
      rw [hturn]
      exact ⟨rfl, rfl, rfl, rfl, rfl, rfl⟩

/-- A branch leaves the queries alone, takes up a query, or handles a line of
the child. -/
theorem turn_cases {branch : Branch} {turn : Turn}
    (hturn : self.turn json branch = some turn) :
    (self.incoming branch = none ∧
      (∀ job written clock interceptorDelayMs,
        branch ≠ .query (some job) written clock interceptorDelayMs) ∧
      turn.Carries self.handler []) ∨
    (∃ job written clock interceptorDelayMs,
      branch = .query (some job) written clock interceptorDelayMs ∧
      turn = self.queryTurn json job written clock interceptorDelayMs) ∨
    ∃ output clock, self.incoming branch = some (output, clock) ∧
      turn.Carries (self.handler.processIncoming json output clock).handler
        (self.handledLine
          (self.handler.processIncoming json output clock)) := by
  cases branch with
  | shutdown =>
      simp only [Communication.turn] at hturn
      split_ifs at hturn
      rw [Option.some.injEq] at hturn
      rw [← hturn]
      exact Or.inl ⟨rfl, fun _ _ _ _ => Branch.noConfusion,
        rfl, rfl, rfl, rfl, rfl, rfl⟩
  | tick =>
      rw [Communication.turn, Option.some.injEq] at hturn
      rw [← hturn]
      exact Or.inl ⟨rfl, fun _ _ _ _ => Branch.noConfusion,
        rfl, rfl, rfl, rfl, rfl, rfl⟩
  | query job written clock interceptorDelayMs =>
      obtain ⟨_, _, rfl⟩ := Option.map_eq_some_iff.mp hturn
      cases job with
      | none =>
          exact Or.inl ⟨rfl, fun _ _ _ _ hbranch => by simp at hbranch,
            rfl, rfl, rfl, rfl, rfl, rfl⟩
      | some job =>
          exact Or.inr (Or.inl ⟨job, written, clock, interceptorDelayMs, rfl,
            rfl⟩)
  | userLine written clock =>
      obtain ⟨⟨line, user⟩, _, rfl⟩ := Option.map_eq_some_iff.mp hturn
      exact Or.inl ⟨rfl, fun _ _ _ _ => Branch.noConfusion,
        self.userTurn_carries line user written clock⟩
  | stdoutLine written clock =>
      obtain ⟨⟨line, stdout⟩, hread, rfl⟩ := Option.map_eq_some_iff.mp hturn
      rcases self.stdoutTurn_carries json line stdout written clock with
        ⟨hunread, hcarries⟩ | ⟨output, hline, htext, hcarries⟩
      · refine Or.inl ⟨?_, fun _ _ _ _ => Branch.noConfusion, hcarries⟩
        rcases hunread with hempty | hnone
        · simp [incoming, hread, hempty]
        · simp [incoming, hread, hnone]
      · exact Or.inr (Or.inr ⟨output, clock,
          by simp [incoming, hread, hline, htext], hcarries⟩)
  | stderrLine =>
      obtain ⟨_, _, rfl⟩ := Option.map_eq_some_iff.mp hturn
      exact Or.inl ⟨rfl, fun _ _ _ _ => Branch.noConfusion,
        rfl, rfl, rfl, rfl, rfl, rfl⟩
  | readError stream =>
      rw [Communication.turn, Option.some.injEq] at hturn
      rw [← hturn]
      cases stream with
      | user =>
          exact Or.inl ⟨rfl, fun _ _ _ _ => Branch.noConfusion,
            rfl, rfl, rfl, rfl, rfl, rfl⟩
      | stdout =>
          exact Or.inl ⟨rfl, fun _ _ _ _ => Branch.noConfusion,
            rfl, rfl, rfl, rfl, rfl, rfl⟩
      | stderr =>
          exact Or.inl ⟨rfl, fun _ _ _ _ => Branch.noConfusion,
            rfl, rfl, rfl, rfl, rfl, rfl⟩
  | waitError error =>
      rw [Communication.turn, Option.some.injEq] at hturn
      rw [← hturn]
      exact Or.inl ⟨rfl, fun _ _ _ _ => Branch.noConfusion,
        rfl, rfl, rfl, rfl, rfl, rfl⟩
  | wait =>
      obtain ⟨status, _, rfl⟩ := Option.map_eq_some_iff.mp hturn
      refine Or.inl ⟨rfl, fun _ _ _ _ => Branch.noConfusion, ?_⟩
      dsimp only [waitTurn]
      split_ifs
      · exact ⟨rfl, rfl, rfl, rfl, rfl, rfl⟩
      · exact ⟨rfl, rfl, rfl, rfl, rfl, rfl⟩

/-- What is added to the account for a line: nothing, unless it is a
response. -/
theorem handledLine_eq (output : String) (clock : Clock) :
    ((∀ response, json.message (Text.trim output) ≠ .ok (.response response)) ∧
      self.handledLine (self.handler.processIncoming json output clock) = []) ∨
    ∃ response result written,
      json.message (Text.trim output) = .ok (.response response) ∧
      (self.handler.interceptMessage .incoming (.response response)
        clock).result = .ok result ∧
      (result.block = true ↔ written = none) ∧
      self.handledLine (self.handler.processIncoming json output clock) =
        [{ injectedFor := self.injectedFor response.id
           blocked := result.block
           written := written
           completed :=
            captured json.floats clock self.handler result.message }] := by
  rcases processLine_cases .incoming
      (StdioHandler.captureQueryResponse json.floats clock) json self.handler
      output clock with ⟨e, hread, hline⟩ | ⟨message, result, hread, hresult,
        hline⟩
  · left
    refine ⟨by simp [hread], ?_⟩
    unfold StdioHandler.processIncoming handledLine
    rw [hline]
  · unfold StdioHandler.processIncoming
    rw [hline]
    cases message with
    | request request =>
        left
        refine ⟨by simp [hread], ?_⟩
        cases hblock : result.block <;> simp [handledLine, deliver, hblock]
    | notification notification =>
        left
        refine ⟨by simp [hread], ?_⟩
        cases hblock : result.block <;> simp [handledLine, deliver, hblock]
    | response response =>
        right
        obtain ⟨tools, hcapture⟩ := captureQueryResponse_eq json.floats clock
          { self.handler with
            interceptorManager := (self.handler.interceptMessage .incoming
              (.response response) clock).manager } result.message
        rw [captured_withManager] at hcapture
        cases hblock : result.block with
        | true =>
            refine ⟨response, result, none, hread, hresult, by simp [hblock], ?_⟩
            simp [handledLine, deliver, hblock, hcapture, Except.toBool,
              Except.toOption]
        | false =>
            refine ⟨response, result,
              some (print (result.message.serialize json.floats) ++ "\n"),
              hread, hresult, by simp [hblock], ?_⟩
            simp [handledLine, deliver, hblock, hcapture, Except.toBool,
              Except.toOption]

end Communication

end Transport
end Acdp
