import Acdp.TransportStdioLoop
import Acdp.TransportStdioTransparency

/-!
# The cached names of tools

A query of the monitor is sent to the first tool the child is known to offer.
The names come from the responses that list tools: the loop hands every
response of the child to a capturing function, and that hands its result to
the cache.  The cache looks for the list where it would be in the whole
response, one level further in.
-/

namespace Acdp
namespace Transport

open Acdp.Core Json

namespace StdioHandler

/-! ## What one line does to the cache -/

/-- The names in the member `tools` of the value, if that is a list. -/
def namesIn (value : Value) : List String :=
  ((value.get "tools").bind TuiQueryCompletion.asArray).elim []
    TuiQueryCompletion.toolNames

def remember (cached : Option (List String)) (names : List String) :
    Option (List String) :=
  if names = [] then cached else some names

/-- The names that a response lists, and the names that the cache takes from
it. -/
def listedNames (response : JsonRpcResponse) : List String :=
  response.result.elim [] (fun result => namesIn result.val)

def notedNames (response : JsonRpcResponse) : List String :=
  response.result.elim [] (fun result =>
    if (result.val.get "tools").isSome then
      (result.val.get "result").elim [] namesIn
    else [])

theorem updateToolsCache_availableTools (self : StdioHandler)
    (response : Value) :
    (self.updateToolsCache response).availableTools =
      remember self.availableTools
        ((response.get "result").elim [] namesIn) := by
  unfold updateToolsCache remember namesIn
  cases response.get "result" with
  | none => rfl
  | some result =>
      rw [Option.bind_some, Option.elim_some]
      cases (result.get "tools").bind TuiQueryCompletion.asArray with
      | none => rfl
      | some tools =>
          exact apply_ite StdioHandler.availableTools _ _ _

theorem noteTools_availableTools (self : StdioHandler)
    (response : JsonRpcResponse) :
    (self.noteTools response).availableTools =
      remember self.availableTools (notedNames response) := by
  unfold noteTools notedNames
  cases response.result with
  | none => rfl
  | some result =>
      rw [Option.elim_some]
      dsimp only
      split_ifs
      · exact self.updateToolsCache_availableTools result.val
      · rfl

theorem captureQueryResponse_availableTools (floats : FloatText)
    (clock : Clock) (self : StdioHandler) (response : JsonRpcResponse) :
    (captureQueryResponse floats clock self (.response response)).availableTools
      = remember self.availableTools (notedNames response) := by
  rw [← noteTools_availableTools, captureQueryResponse]
  cases (self.noteTools response).pendingQueries.lookup
      response.id.display with
  | none => rfl
  | some pending => rfl

/-- What the interceptors make of a line that can be read, and whether they
block it. -/
def intercepted (json : SerdeJson) (self : StdioHandler) (content : String)
    (clock : Clock) : Option (JsonRpcMessage × Bool) :=
  match json.message (Text.trim content) with
  | .error _ => none
  | .ok message =>
      (self.interceptMessage .incoming message clock).result.toOption.map
        (fun result => (result.message, result.block))

/-- The names that the cache takes from a line. -/
def noted (json : SerdeJson) (self : StdioHandler) (content : String)
    (clock : Clock) : List String :=
  match self.intercepted json content clock with
  | some (.response response, _) => notedNames response
  | _ => []

/-- The names that a line lists in a response that is not blocked. -/
def listed (json : SerdeJson) (self : StdioHandler) (content : String)
    (clock : Clock) : List String :=
  match self.intercepted json content clock with
  | some (.response response, false) => listedNames response
  | _ => []

theorem processIncoming_availableTools (json : SerdeJson)
    (self : StdioHandler) (content : String) (clock : Clock) :
    (processIncoming json self content clock).handler.availableTools =
      remember self.availableTools (self.noted json content clock) := by
  unfold processIncoming noted intercepted
  rcases processLine_cases .incoming (captureQueryResponse json.floats clock)
      json self content clock with ⟨e, hread, hline⟩ |
        ⟨message, result, hread, hresult, hline⟩
  · rw [hline, hread]
    rfl
  · rw [hline, deliver_handler, hread]
    simp only [hresult, Except.toOption, Option.map_some]
    cases result.message with
    | response response =>
        exact captureQueryResponse_availableTools json.floats clock _ response
    | request request => rfl
    | notification notification => rfl

@[simp] theorem remember_nil (cached : Option (List String)) :
    remember cached [] = cached := rfl

end StdioHandler

/-! ## The cache in the loop -/

open StdioHandler

namespace Communication

variable {json : SerdeJson} {self next : Communication}

theorem processTuiQuery_availableTools (handler : StdioHandler)
    (job : TuiQueryJob) (written : Written) (clock : Clock)
    (interceptorDelayMs : Float) :
    (handler.processTuiQuery json job written clock
        interceptorDelayMs).handler.availableTools =
      handler.availableTools := by
  obtain ⟨manager, hhandler⟩ := handler.processOutgoing_handler json
    (print (queryPayload json.floats (uuidText job.correlationId)
      (handler.queryRequest job).1 (handler.queryRequest job).2) ++ "\n") clock
  unfold processTuiQuery
  dsimp only
  cases (processOutgoing json handler (print (queryPayload json.floats
      (uuidText job.correlationId) (handler.queryRequest job).1
      (handler.queryRequest job).2) ++ "\n") clock).result with
  | error e =>
      dsimp only
      rw [hhandler]
      rfl
  | ok out =>
      cases written with
      | ok =>
          dsimp only
          rw [hhandler]
          rfl
      | failed e =>
          dsimp only
          rw [hhandler]
          rfl
      | flushFailed e =>
          dsimp only
          rw [hhandler]
          rfl

theorem userTurn_availableTools (line : Bytes) (user : LineReader UInt8)
    (written : Written) (clock : Clock) :
    (self.userTurn json line user written clock).handler.availableTools =
      self.handler.availableTools := by
  rcases self.userTurn_cases line user written clock with
    ⟨_, hturn⟩ | ⟨input, _, _, hrest⟩
  · rw [hturn]
    rfl
  · obtain ⟨manager, hhandler⟩ :=
      self.handler.processOutgoing_handler json input clock
    have htools : (self.handler.processOutgoing json input
        clock).handler.availableTools = self.handler.availableTools := by
      rw [hhandler]
    rcases hrest with ⟨_, _, hturn⟩ | ⟨_, _, _, ⟨_, hturn⟩ | ⟨_, hturn⟩⟩
    all_goals
      exact (congrArg (fun turn : Turn => turn.handler.availableTools)
        hturn).trans htools

/-- The names that the cache takes from the line of a branch, and the names
that the line lists. -/
def notedBy (json : SerdeJson) (self : Communication) (branch : Branch) :
    List String :=
  (self.incoming branch).elim []
    (fun line => self.handler.noted json line.1 line.2)

def listedBy (json : SerdeJson) (self : Communication) (branch : Branch) :
    List String :=
  (self.incoming branch).elim []
    (fun line => self.handler.listed json line.1 line.2)

theorem stdoutTurn_availableTools {line : Bytes} {stdout : LineReader UInt8}
    {written : Written} {clock : Clock}
    (hread : self.stdout.readLine newline = some (line, stdout)) :
    (self.stdoutTurn json line stdout written clock).handler.availableTools =
      remember self.handler.availableTools
        (self.notedBy json (.stdoutLine written clock)) := by
  rcases self.stdoutTurn_cases line stdout written clock with
    ⟨hunread, handler, hhandler, hturn⟩ | ⟨output, hline, htext, hrest⟩
  · have hnothing : self.incoming (.stdoutLine written clock) = none := by
      rcases hunread with hempty | hnone
      · simp [incoming, hread, hempty]
      · simp [incoming, hread, hnone]
    rw [notedBy, hnothing, hturn]
    rcases hhandler with rfl | rfl
    · rfl
    · rfl
  · have hline : self.incoming (.stdoutLine written clock) =
        some (output, clock) := by
      simp [incoming, hread, hline, htext]
    have htools :=
      self.handler.processIncoming_availableTools json output clock
    rw [notedBy, hline, Option.elim_some, ← htools]
    rcases hrest with ⟨_, _, hturn⟩ | ⟨_, _, _, ⟨_, hturn⟩ | ⟨_, hturn⟩⟩
    all_goals
      exact congrArg (fun turn : Turn => turn.handler.availableTools) hturn

theorem turn_availableTools {branch : Branch} {turn : Turn}
    (hturn : self.turn json branch = some turn) :
    turn.handler.availableTools =
      remember self.handler.availableTools (self.notedBy json branch) := by
  cases branch with
  | shutdown =>
      simp only [Communication.turn] at hturn
      split_ifs at hturn
      obtain rfl := Option.some.inj hturn
      rfl
  | tick =>
      obtain rfl := Option.some.inj hturn
      rfl
  | query job written clock interceptorDelayMs =>
      obtain ⟨_, _, rfl⟩ := Option.map_eq_some_iff.mp hturn
      cases job with
      | none => rfl
      | some job =>
          exact processTuiQuery_availableTools self.handler job written clock
            interceptorDelayMs
  | userLine written clock =>
      obtain ⟨⟨line, user⟩, _, rfl⟩ := Option.map_eq_some_iff.mp hturn
      exact self.userTurn_availableTools line user written clock
  | stdoutLine written clock =>
      obtain ⟨⟨line, stdout⟩, hread, rfl⟩ := Option.map_eq_some_iff.mp hturn
      exact self.stdoutTurn_availableTools hread
  | stderrLine =>
      obtain ⟨_, _, rfl⟩ := Option.map_eq_some_iff.mp hturn
      rfl
  | readError stream =>
      obtain rfl := Option.some.inj hturn
      cases stream with
      | user => rfl
      | stdout => rfl
      | stderr => rfl
  | waitError error =>
      obtain rfl := Option.some.inj hturn
      rfl
  | wait =>
      obtain ⟨status, _, rfl⟩ := Option.map_eq_some_iff.mp hturn
      dsimp only [waitTurn]
      split_ifs
      · rfl
      · rfl

/-- The names that one step of the loop lists, if any. -/
def listedIn (json : SerdeJson) (self : Communication) :
    LoopAction → List String
  | .event _ => []
  | .branch branch => self.listedBy json branch

def notedIn (json : SerdeJson) (self : Communication) :
    LoopAction → List String
  | .event _ => []
  | .branch branch => self.notedBy json branch

theorem step_availableTools {action : LoopAction}
    (hstep : self.step json action = some next) :
    next.handler.availableTools =
      remember self.handler.availableTools (self.notedIn json action) := by
  obtain ⟨_, hcases⟩ := step_cases hstep
  rcases hcases with ⟨event, rfl, hevent⟩ | ⟨branch, turn, rfl, hturn, rfl⟩
  · obtain ⟨manager, hhandler⟩ := (event_around hevent).handler
    rw [hhandler]
    rfl
  · have htools := turn_availableTools hturn
    rw [notedIn, ← htools]
    cases hending : turn.ending with
    | goesOn => simp only [conclude, hending]
    | breaks => simp only [conclude, hending]
    | fails error => simp only [conclude, hending]

end Communication

/-! ## The cache against the responses -/

/-- The loop, the names that the most recent response with named tools has
listed, and whether a step that lists none has changed the cache. -/
structure Watched where
  communication : Communication
  latest : Option (List String)
  disturbed : Bool

namespace Watched

variable {json : SerdeJson} {self next : Watched}
  {action : Communication.LoopAction}

def machine (json : SerdeJson) : StepMachine Watched Communication.LoopAction where
  step self action :=
    (self.communication.step json action).map (fun next =>
      { communication := next
        latest :=
          remember self.latest (self.communication.listedIn json action)
        disturbed := self.disturbed ||
          (self.communication.listedIn json action).isEmpty &&
            next.handler.availableTools !=
              self.communication.handler.availableTools })

def cached (self : Watched) : Option (List String) :=
  self.communication.handler.availableTools

/-- Once a response has listed named tools, the first of those of the most
recent one is found; what is cached is the list of that response, and nothing
else has changed it. -/
structure Fresh (watched : Watched) : Prop where
  first : ∀ names, watched.latest = some names →
    watched.communication.handler.getAvailableToolName = names.head?
  cached : watched.cached = none ∨
    ∃ names, names ≠ [] ∧ watched.cached = some names ∧
      watched.latest = some names
  undisturbed : watched.disturbed = false

/-- The step leaves the cache as the listed names would, whatever the cache
takes from the line. -/
def Agrees (json : SerdeJson) (self : Watched)
    (action : Communication.LoopAction) : Prop :=
  remember self.cached (self.communication.notedIn json action) =
    remember self.cached (self.communication.listedIn json action)

/-- The cache holds the names of the most recent response. -/
structure Holds (watched : Watched) : Prop where
  same : watched.cached = watched.latest
  named : ∀ names, watched.latest = some names → names ≠ []
  undisturbed : watched.disturbed = false

theorem Holds.fresh (hholds : self.Holds) : self.Fresh where
  first := by
    intro names hnames
    have hcached : self.communication.handler.availableTools = some names :=
      hholds.same.trans hnames
    rw [getAvailableToolName, hcached, Option.bind_some]
  cached := by
    cases hlatest : self.latest with
    | none => exact Or.inl (hholds.same.trans hlatest)
    | some names =>
        exact Or.inr ⟨names, hholds.named names hlatest,
          hholds.same.trans hlatest, rfl⟩
  undisturbed := hholds.undisturbed

theorem Fresh.cached_eq (hfresh : self.Fresh)
    (hnamed : ∀ names, self.latest = some names → names ≠ []) :
    self.cached = self.latest := by
  rcases hfresh.cached with hnone | ⟨names, _, hcached, hlatest⟩
  · cases hlatest : self.latest with
    | none => exact hnone
    | some names =>
        have hfirst := hfresh.first names hlatest
        have hnothing : self.communication.handler.availableTools = none :=
          hnone
        rw [getAvailableToolName, hnothing, Option.bind_none] at hfirst
        exact absurd (List.head?_eq_none_iff.mp hfirst.symm)
          (hnamed names hlatest)
  · rw [hcached, hlatest]

theorem named_next {names : List String} {latest : Option (List String)}
    (hnamed : ∀ earlier, latest = some earlier → earlier ≠ []) :
    ∀ later, remember latest names = some later → later ≠ [] := by
  intro later hlater
  unfold remember at hlater
  split_ifs at hlater with hempty
  · exact hnamed later hlater
  · rw [← Option.some.inj hlater]
    exact hempty

theorem step_eq_some (hstep : (machine json).step self action = some next) :
    next.cached =
        remember self.cached (self.communication.notedIn json action) ∧
      next.latest =
        remember self.latest (self.communication.listedIn json action) ∧
      next.disturbed = (self.disturbed ||
        (self.communication.listedIn json action).isEmpty &&
          next.cached != self.cached) := by
  obtain ⟨communication, hnext, rfl⟩ := Option.map_eq_some_iff.mp hstep
  exact ⟨Communication.step_availableTools hnext, rfl, rfl⟩

theorem Holds.step (hholds : self.Holds)
    (hstep : (machine json).step self action = some next)
    (hagrees : self.Agrees json action) : next.Holds := by
  obtain ⟨hcached, hlatest, hdisturbed⟩ := step_eq_some hstep
  refine ⟨?_, ?_, ?_⟩
  · rw [hcached, hagrees, hlatest, hholds.same]
  · rw [hlatest]
    exact named_next hholds.named
  · rw [hdisturbed, hholds.undisturbed, hcached, hagrees, Bool.false_or]
    cases self.communication.listedIn json action with
    | nil => simp
    | cons name rest => rfl

theorem Holds.agrees_of_fresh (hholds : self.Holds)
    (hstep : (machine json).step self action = some next)
    (hfresh : next.Fresh) : self.Agrees json action := by
  obtain ⟨hcached, hlatest, _⟩ := step_eq_some hstep
  have hnamed : ∀ names, next.latest = some names → names ≠ [] := by
    rw [hlatest]
    exact named_next hholds.named
  rw [Agrees, ← hcached, hfresh.cached_eq hnamed, hlatest, hholds.same]

/-- A loop that begins with an empty cache. -/
def start (handler : StdioHandler) (accepted : List Responder) : Watched :=
  ⟨Communication.start { handler with availableTools := none } accepted, none,
    false⟩

theorem start_holds (handler : StdioHandler) (accepted : List Responder) :
    (start handler accepted).Holds where
  same := rfl
  named _ hnone := by cases hnone
  undisturbed := rfl

/-- In a run from an empty cache the cache is fresh in every state exactly
where every step leaves in it what the response it handles lists. -/
theorem toolsCache_fresh_iff (json : SerdeJson) (handler : StdioHandler)
    (accepted : List Responder) (trace : List Communication.LoopAction) :
    (machine json).Throughout Fresh (start handler accepted) trace ↔
      (machine json).Along (Agrees json) (start handler accepted) trace :=
  StepMachine.throughout_iff_along
    (fun _ _ _ hholds hstep hagrees => hholds.step hstep hagrees)
    (fun _ hholds => hholds.fresh)
    (fun _ _ _ hholds hstep hfresh => hholds.agrees_of_fresh hstep hfresh)
    (start_holds handler accepted) trace

/-! A response that lists one tool. -/

def toolsAnswer : Json :=
  .obj [("jsonrpc", .str "2.0"), ("id", .int 1),
    ("result", .obj [("tools", .arr [.obj [("name", .str "echo")]])])]

def toolsJson : SerdeJson where
  parse text :=
    if text = print toolsAnswer then .ok toolsAnswer
    else .error "expected value at line 1 column 1"
  floats := tableFloats
  mismatch _ :=
    "data did not match any variant of untagged enum JsonRpcMessage"

def toolsTrace : List Communication.LoopAction :=
  [.event (.arrives .stdout (asBytes (print toolsAnswer ++ "\n"))),
    .branch (.stdoutLine .ok StdioHandler.plainClock)]

/-- The list is handed on to the user, and the cache stays empty. -/
theorem toolsTrace_not_fresh :
    ((machine toolsJson).run (start StdioHandler.plainHandler [])
        toolsTrace).map (fun reached => (reached.latest, reached.cached)) =
      some (some ["echo"], none) ∧
      ¬ (machine toolsJson).Throughout Fresh
        (start StdioHandler.plainHandler []) toolsTrace := by
  have hreached : ((machine toolsJson).run
      (start StdioHandler.plainHandler []) toolsTrace).map
        (fun reached => (reached.latest, reached.cached)) =
      some (some ["echo"], none) := by
    decide +kernel
  refine ⟨hreached, ?_⟩
  intro hthrough
  obtain ⟨reached, hrun, hvalues⟩ := Option.map_eq_some_iff.mp hreached
  obtain ⟨hlatest, hcached⟩ := Prod.mk.inj hvalues
  have hfresh := hthrough toolsTrace (List.prefix_refl _) reached hrun
  have hfirst := hfresh.first ["echo"] hlatest
  have hnothing : reached.communication.handler.availableTools = none :=
    hcached
  rw [getAvailableToolName, hnothing] at hfirst
  cases hfirst

end Watched
end Transport
end Acdp
