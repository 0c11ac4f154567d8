import Acdp.SandboxSelector
import Acdp.SandboxTypes
import Acdp.StepMachine
import Acdp.TextOperations

/-!
# Time limits of executions

A request has a timeout and a decision has a maximal duration.  The process
runtime waits with the first and kills the shell alone, the runtime for V8
waits with the second and leaves the code running, and the runtime for WASM
waits without any.
-/

namespace Acdp
namespace Sandbox

open Auth (Duration)

/-! ## Runtimes -/

/-- A runtime with the limits that it has got. -/
inductive Runtime where
  | process
  | v8 (limits : ResourceLimits)
  | wasm (limits : ResourceLimits)

/-- The runtimes that are compiled in. -/
structure Features where
  process : Bool
  v8 : Bool
  wasm : Bool

/-- An error is the reason of a `RuntimeCreation`; the engine for WASM may
refuse its configuration. -/
def createRuntime (features : Features)
    (engine : ResourceLimits → Except String Unit)
    (decision : RuntimeDecision) : Except String Runtime :=
  match decision.runtimeType with
  | .process =>
      if features.process then .ok .process
      else .error "Process runtime not compiled in"
  | .v8 =>
      if features.v8 then .ok (.v8 decision.limits)
      else .error "V8 runtime not compiled in"
  | .wasm =>
      if features.wasm then
        (engine decision.limits).map fun _ => .wasm decision.limits
      else .error "WASM runtime not compiled in"

def nanosOf (duration : Duration) : ℕ :=
  duration.secs.toNat * 1000000000 + duration.nanos

def ExecutionRequest.deadline (self : ExecutionRequest) : Option ℕ :=
  self.timeoutSecs.map (· * 1000000000)

def ResourceLimits.deadline (self : ResourceLimits) : Option ℕ :=
  self.maxDuration.map nanosOf

/-- When the task that waits for the code stops waiting. -/
def Runtime.deadline (request : ExecutionRequest) : Runtime → Option ℕ
  | .process => request.deadline
  | .v8 limits => limits.deadline
  | .wasm _ => none

/-! ## How the code ends -/

inductive ProcessEnd where
  | spawnFailed (error : String)
  | exited (code : Option ℤ)
  | waitFailed (error : String)

inductive V8End where
  | finished
  | threw (error : String)
  | panicked (error : String)

inductive WasmEnd where
  | parseFailed (error : String)
  | linkFailed (error : String)
  | instantiateFailed (error : String)
  | noStart (error : String)
  | returned
  | exited (status : ℤ)
  | trapped (error : String)
  | panicked

inductive GuestEnd where
  | process (ending : ProcessEnd)
  | v8 (ending : V8End)
  | wasm (ending : WasmEnd)

def ProcessEnd.result (durationMs : ℕ) : ProcessEnd → ExecutionResult
  | .spawnFailed e =>
      ⟨1, durationMs, false, some ("Failed to spawn process: " ++ e)⟩
  | .exited code => ⟨code.getD 1, durationMs, false, none⟩
  | .waitFailed e =>
      ⟨1, durationMs, false, some ("Process wait error: " ++ e)⟩

def V8End.result (durationMs : ℕ) : V8End → ExecutionResult
  | .finished => ⟨0, durationMs, false, none⟩
  | .threw e => ⟨1, durationMs, false, some ("Execution error: " ++ e)⟩
  | .panicked e => ⟨1, durationMs, false, some ("Task panicked: " ++ e)⟩

/-- A task that panics has no result to send. -/
def WasmEnd.result (durationMs : ℕ) : WasmEnd → Option ExecutionResult
  | .parseFailed e =>
      some ⟨1, durationMs, false, some ("Failed to parse WASM module: " ++ e)⟩
  | .linkFailed e =>
      some ⟨1, durationMs, false, some ("Failed to link WASI: " ++ e)⟩
  | .instantiateFailed e =>
      some ⟨1, durationMs, false, some ("Failed to instantiate module: " ++ e)⟩
  | .noStart e =>
      some ⟨1, durationMs, false,
        some ("Failed to get _start function: " ++ e)⟩
  | .returned => some ⟨0, durationMs, false, none⟩
  | .exited status =>
      some ⟨status, durationMs, false,
        if status = 0 then none
        else some ("Program exited with code " ++ toString status)⟩
  | .trapped e =>
      some ⟨1, durationMs, false, some ("Execution error: " ++ e)⟩
  | .panicked => none

/-- The result of an end that is one of the runtime's. -/
def Runtime.resultOf (durationMs : ℕ) :
    Runtime → GuestEnd → Option (Option ExecutionResult)
  | .process, .process ending => some (some (ending.result durationMs))
  | .v8 _, .v8 ending => some (some (ending.result durationMs))
  | .wasm _, .wasm ending => some (ending.result durationMs)
  | _, _ => none

/-! ## Executions -/

inductive GuestStatus where
  | running
  /-- `late` says that the wait for the code had been given up. -/
  | ended (late : Bool)
  | killed
  deriving DecidableEq, Repr

/-- `others` counts the running processes that the shell has started, and
`decided` is what is about to be sent.  The last two fields keep what has
happened: the code was still running when the first deadline expired, and
some code took a step after the report. -/
structure LimitedExecution where
  runtime : Runtime
  request : ExecutionRequest
  limits : ResourceLimits
  now : ℕ
  status : GuestStatus
  others : ℕ
  decided : Option ExecutionResult
  reported : Option ExecutionResult
  overran : Bool
  steppedAfterReport : Bool

namespace LimitedExecution

inductive Event where
  | step
  | fork
  | otherStep
  | otherEnds
  | ends (ending : GuestEnd)
  | passes (nanos : ℕ)
  | report

def start (runtime : Runtime) (decision : RuntimeDecision)
    (request : ExecutionRequest) : LimitedExecution where
  runtime := runtime
  request := request
  limits := decision.limits
  now := 0
  status := .running
  others := 0
  decided := none
  reported := none
  overran := false
  steppedAfterReport := false

/-- The execution on the runtime that is made for the decision. -/
def startedBy (features : Features)
    (engine : ResourceLimits → Except String Unit) (decision : RuntimeDecision)
    (request : ExecutionRequest) : Except String LimitedExecution :=
  (createRuntime features engine decision).map fun runtime =>
    start runtime decision request

/-- The earlier of the two deadlines. -/
def firstDeadline (self : LimitedExecution) : Option ℕ :=
  self.request.deadline.merge min self.limits.deadline

/-- The deadline comes at or before the given instant. -/
def comesBy (deadline : Option ℕ) (now : ℕ) : Bool :=
  deadline.any (fun deadline => deadline ≤ now)

def elapsedMs (self : LimitedExecution) : ℕ := self.now / 1000000

def stepped (self : LimitedExecution) : LimitedExecution :=
  { self with
    steppedAfterReport := self.steppedAfterReport || self.reported.isSome }

/-- `kill` reaches the shell alone; the blocking task of V8 goes on. -/
def timeOut (self : LimitedExecution) : LimitedExecution :=
  match self.runtime with
  | .process =>
      { self with
        status := .killed
        decided := some ⟨0, self.elapsedMs, true, none⟩ }
  | .v8 limits =>
      { self with
        decided := some ⟨124, self.elapsedMs, true,
          limits.maxDuration.map fun duration =>
            "Execution timed out after " ++
              Text.spanText duration.secs.toNat duration.nanos⟩ }
  | .wasm _ => self

/-- Time goes on, perhaps past the first deadline. -/
def later (self : LimitedExecution) (nanos : ℕ) : LimitedExecution :=
  { self with
    now := self.now + nanos
    overran := self.overran || (self.status == .running &&
      comesBy self.firstDeadline (self.now + nanos)) }

/-- The task that waits for running code stops waiting. -/
def Due (self : LimitedExecution) (nanos : ℕ) : Prop :=
  self.status = .running ∧ self.decided = none ∧
    comesBy (self.runtime.deadline self.request) (self.now + nanos) = true

instance (self : LimitedExecution) (nanos : ℕ) : Decidable (self.Due nanos) :=
  decidable_of_iff (self.status = .running ∧ self.decided.isNone = true ∧
    comesBy (self.runtime.deadline self.request) (self.now + nanos) = true)
    (by simp [Due])

/-- A deadline is noticed when it expires, unless the code has ended. -/
def pass (self : LimitedExecution) (nanos : ℕ) : LimitedExecution :=
  if self.Due nanos then (self.later nanos).timeOut else self.later nanos

def step (self : LimitedExecution) : Event → Option LimitedExecution
  | .step => if self.status = .running then some self.stepped else none
  | .fork =>
      match self.runtime with
      | .process =>
          if self.status = .running ∨ 0 < self.others then
            some { self.stepped with others := self.others + 1 }
          else none
      | _ => none
  | .otherStep => if 0 < self.others then some self.stepped else none
  | .otherEnds =>
      if 0 < self.others then some { self with others := self.others - 1 }
      else none
  | .ends ending =>
      if self.status = .running then
        (self.runtime.resultOf self.elapsedMs ending).map fun result =>
          { self with
            status := .ended self.decided.isSome
            decided := self.decided.or result }
      else none
  | .passes nanos => some (self.pass nanos)
  | .report =>
      match self.decided, self.reported with
      | some result, none => some { self with reported := some result }
      | _, _ => none

def machine : StepMachine LimitedExecution Event := ⟨step⟩

/-! ## Limits that bind -/

/-- An execution that overran is reported as timed out and is at rest after
the report, and one that ended in time is not reported as timed out. -/
structure Bound (found : LimitedExecution) : Prop where
  reported : found.overran = true → ∀ result,
    found.reported = some result →
      result.timedOut = true ∧ result.success = false
  atRest : found.overran = true → found.steppedAfterReport = false
  inTime : found.status = .ended false → ∀ result,
    found.reported = some result → result.timedOut = false

def Event.keepsTime : Event → Bool
  | .passes _ => false
  | _ => true

/-- The limits bind, whatever happens until time goes on. -/
def Binds (found : LimitedExecution) : Prop :=
  ∀ more : List Event, (∀ event ∈ more, event.keepsTime = true) →
    machine.Throughout Bound found more

/-- A first deadline that expires on running code is the one that the process
runtime waits with, and the shell has no other process running. -/
def Meets (found : LimitedExecution) : Event → Prop
  | .passes nanos =>
      found.status = .running → found.overran = false →
        comesBy found.firstDeadline (found.now + nanos) = true →
          found.runtime = .process ∧
            comesBy found.request.deadline (found.now + nanos) = true ∧
            found.others = 0
  | _ => True

/-! ## Deadlines -/

theorem comesBy_merge (first second : Option ℕ) (now : ℕ) :
    comesBy (first.merge min second) now =
      (comesBy first now || comesBy second now) := by
  cases first with
  | none =>
      cases second with
      | none => rfl
      | some second => simp [comesBy, Option.merge]
  | some first =>
      cases second with
      | none => simp [comesBy, Option.merge]
      | some second => simp [comesBy, Option.merge]

theorem timedOut_of_resultOf {runtime : Runtime} {ending : GuestEnd}
    {durationMs : ℕ} {result : ExecutionResult}
    (hresult : runtime.resultOf durationMs ending = some (some result)) :
    result.timedOut = false := by
  cases runtime with
  | process =>
      cases ending with
      | process ending =>
          cases hresult
          cases ending with
          | spawnFailed e => rfl
          | exited code => rfl
          | waitFailed e => rfl
      | v8 ending => cases hresult
      | wasm ending => cases hresult
  | v8 limits =>
      cases ending with
      | process ending => cases hresult
      | v8 ending =>
          cases hresult
          cases ending with
          | finished => rfl
          | threw e => rfl
          | panicked e => rfl
      | wasm ending => cases hresult
  | wasm limits =>
      cases ending with
      | process ending => cases hresult
      | v8 ending => cases hresult
      | wasm ending =>
          cases ending with
          | panicked => cases hresult
          | _ =>
              cases hresult
              rfl

/-! ## Executions that are kept to their limits -/

/-- An execution that overran has been killed and has nothing left running. -/
structure Kept (found : LimitedExecution) : Prop where
  limits : ∀ limits, found.runtime = .v8 limits → limits = found.limits
  running : found.status = .running → found.overran = false ∧
    found.decided = none
  overran : found.overran = true → found.status = .killed ∧
    found.others = 0 ∧ found.steppedAfterReport = false ∧
      ∃ result, found.decided = some result ∧ result.timedOut = true
  sent : ∀ result, found.reported = some result →
    found.decided = some result
  atRest : found.reported = none → found.steppedAfterReport = false
  inTime : found.status = .ended false → ∀ result,
    found.decided = some result → result.timedOut = false

theorem start_kept {features : Features}
    {engine : ResourceLimits → Except String Unit}
    {decision : RuntimeDecision} {request : ExecutionRequest}
    {execution : LimitedExecution}
    (hstart : startedBy features engine decision request = .ok execution) :
    Kept execution := by
  unfold startedBy at hstart
  cases hcreate : createRuntime features engine decision with
  | error reason => simp [hcreate, Except.map] at hstart
  | ok runtime =>
      simp only [hcreate, Except.map, Except.ok.injEq] at hstart
      subst hstart
      refine ⟨?_, by simp [start], by simp [start], by simp [start],
        by simp [start], by simp [start]⟩
      rintro limits rfl
      unfold createRuntime at hcreate
      split at hcreate
      · split_ifs at hcreate
        cases hcreate
      · split_ifs at hcreate
        cases hcreate
        rfl
      · split_ifs at hcreate
        cases hengine : engine decision.limits with
        | error e => simp [hengine, Except.map] at hcreate
        | ok configured => simp [hengine, Except.map] at hcreate

theorem Kept.bound {self : LimitedExecution} (hkept : Kept self) :
    Bound self where
  reported := by
    intro hoverran result hreported
    obtain ⟨_, _, _, decided, hdecided, htimedOut⟩ := hkept.overran hoverran
    rw [hkept.sent result hreported, Option.some.injEq] at hdecided
    rw [hdecided]
    exact ⟨htimedOut, by simp [ExecutionResult.success, htimedOut]⟩
  atRest := fun hoverran => (hkept.overran hoverran).2.2.1
  inTime := fun hended result hreported =>
    hkept.inTime hended result (hkept.sent result hreported)

variable {self next : LimitedExecution}

theorem Kept.reported_of_running (hkept : Kept self)
    (hrunning : self.status = .running) : self.reported = none := by
  cases hreported : self.reported with
  | none => rfl
  | some result =>
      have hdecided := hkept.sent result hreported
      rw [(hkept.running hrunning).2] at hdecided
      cases hdecided

theorem Kept.stepped (hkept : Kept self) (hawake : self.overran = false) :
    Kept self.stepped where
  limits := hkept.limits
  running := hkept.running
  overran := by
    intro hoverran
    have hsame : self.overran = true := hoverran
    rw [hawake] at hsame
    cases hsame
  sent := hkept.sent
  atRest := by
    intro hreported
    have hsame : self.reported = none := hreported
    simp [LimitedExecution.stepped, hsame, hkept.atRest hsame]
  inTime := hkept.inTime

/-- Something that still runs belongs to an execution within its limits. -/
theorem Kept.overran_of_awake (hkept : Kept self)
    (hawake : self.status = .running ∨ 0 < self.others) :
    self.overran = false := by
  rw [← Bool.not_eq_true]
  intro hoverran
  obtain ⟨hstatus, hothers, _⟩ := hkept.overran hoverran
  rcases hawake with hrunning | hmore
  · rw [hstatus] at hrunning
    cases hrunning
  · omega

theorem Kept.withOthers (hkept : Kept self) (hawake : self.overran = false)
    (others : ℕ) : Kept { self with others := others } where
  limits := hkept.limits
  running := hkept.running
  overran := by
    intro hoverran
    have hsame : self.overran = true := hoverran
    rw [hawake] at hsame
    cases hsame
  sent := hkept.sent
  atRest := hkept.atRest
  inTime := hkept.inTime

theorem Kept.ends (hkept : Kept self) (hrunning : self.status = .running)
    {ending : GuestEnd} {result : Option ExecutionResult}
    (hresult : self.runtime.resultOf self.elapsedMs ending = some result) :
    Kept { self with
      status := .ended self.decided.isSome
      decided := self.decided.or result } := by
  obtain ⟨hawake, hdecided⟩ := hkept.running hrunning
  have hreported := hkept.reported_of_running hrunning
  refine ⟨hkept.limits, by simp, by simp [hawake], by simp [hreported],
    hkept.atRest, ?_⟩
  intro _ found hfound
  have hsame : result = some found := by simpa [hdecided] using hfound
  rw [hsame] at hresult
  exact timedOut_of_resultOf hresult

theorem later_overran (nanos : ℕ) :
    (self.later nanos).overran = true ↔
      self.overran = true ∨ (self.status = .running ∧
        comesBy self.firstDeadline (self.now + nanos) = true) := by
  simp [later]

/-- The code has not been running when a deadline came. -/
theorem Kept.later (hkept : Kept self) {nanos : ℕ}
    (hinTime : (self.later nanos).overran = self.overran) :
    Kept (self.later nanos) where
  limits := hkept.limits
  running := by
    rw [hinTime]
    exact hkept.running
  overran := by
    rw [hinTime]
    exact hkept.overran
  sent := hkept.sent
  atRest := hkept.atRest
  inTime := hkept.inTime

theorem timeOut_of_process (hprocess : self.runtime = .process) :
    self.timeOut = { self with
      status := .killed
      decided := some ⟨0, self.elapsedMs, true, none⟩ } := by
  cases self
  cases hprocess
  rfl

theorem timeOut_of_v8 {limits : ResourceLimits}
    (hruntime : self.runtime = .v8 limits) :
    ∃ result, self.timeOut = { self with decided := some result } := by
  cases self
  cases hruntime
  exact ⟨_, rfl⟩

/-- The shell is killed where it runs alone. -/
theorem Kept.timeOut (hkept : Kept self) (hrunning : self.status = .running)
    (hprocess : self.runtime = .process) (hothers : self.others = 0)
    (nanos : ℕ) : Kept (self.later nanos).timeOut := by
  have hreported := hkept.reported_of_running hrunning
  have hlater : (self.later nanos).runtime = .process := hprocess
  rw [timeOut_of_process hlater]
  refine ⟨hkept.limits, by simp, ?_, ?_, hkept.atRest, by simp⟩
  · intro _
    exact ⟨rfl, hothers, hkept.atRest hreported, _, rfl, rfl⟩
  · intro result hsent
    have hsame : self.reported = some result := hsent
    rw [hreported] at hsame
    cases hsame

/-- The runtime's own deadline is one of the two. -/
theorem Kept.firstDeadline_of_due (hkept : Kept self) {nanos : ℕ}
    (hdue : self.Due nanos) :
    comesBy self.firstDeadline (self.now + nanos) = true := by
  obtain ⟨_, _, hown⟩ := hdue
  rw [firstDeadline, comesBy_merge, Bool.or_eq_true]
  cases hruntime : self.runtime with
  | process =>
      rw [hruntime] at hown
      exact .inl hown
  | v8 limits =>
      rw [hruntime, Runtime.deadline, hkept.limits limits hruntime] at hown
      exact .inr hown
  | wasm limits =>
      rw [hruntime] at hown
      cases hown

theorem Kept.pass (hkept : Kept self) {nanos : ℕ}
    (hmeets : Meets self (.passes nanos)) : Kept (self.pass nanos) := by
  unfold LimitedExecution.pass
  by_cases hdue : self.Due nanos
  · rw [if_pos hdue]
    have hrunning := hdue.1
    obtain ⟨hprocess, _, hothers⟩ := hmeets hrunning
      (hkept.running hrunning).1 (hkept.firstDeadline_of_due hdue)
    exact hkept.timeOut hrunning hprocess hothers nanos
  · rw [if_neg hdue]
    apply hkept.later
    rw [Bool.eq_iff_iff, later_overran]
    refine or_iff_left ?_
    rintro ⟨hrunning, hfirst⟩
    obtain ⟨hawake, hdecided⟩ := hkept.running hrunning
    obtain ⟨hprocess, hdeadline, _⟩ := hmeets hrunning hawake hfirst
    refine hdue ⟨hrunning, hdecided, ?_⟩
    rw [hprocess]
    exact hdeadline

theorem Kept.step (hkept : Kept self) {event : Event}
    (hnext : self.step event = some next) (hmeets : Meets self event) :
    Kept next := by
  cases event with
  | step =>
      simp only [LimitedExecution.step] at hnext
      split_ifs at hnext with hrunning
      cases hnext
      exact hkept.stepped (hkept.running hrunning).1
  | fork =>
      simp only [LimitedExecution.step] at hnext
      split at hnext
      · split_ifs at hnext with hawake
        cases hnext
        have hinTime := hkept.overran_of_awake hawake
        exact (hkept.stepped hinTime).withOthers hinTime _
      · cases hnext
  | otherStep =>
      simp only [LimitedExecution.step] at hnext
      split_ifs at hnext with hothers
      cases hnext
      exact hkept.stepped (hkept.overran_of_awake (.inr hothers))
  | otherEnds =>
      simp only [LimitedExecution.step] at hnext
      split_ifs at hnext with hothers
      cases hnext
      exact hkept.withOthers (hkept.overran_of_awake (.inr hothers)) _
  | ends ending =>
      simp only [LimitedExecution.step] at hnext
      split_ifs at hnext with hrunning
      obtain ⟨result, hresult, rfl⟩ := Option.map_eq_some_iff.mp hnext
      exact hkept.ends hrunning hresult
  | passes nanos =>
      cases hnext
      exact hkept.pass hmeets
  | report =>
      simp only [LimitedExecution.step] at hnext
      split at hnext
      next result hdecided hreported =>
        cases hnext
        refine ⟨hkept.limits, hkept.running, hkept.overran, ?_, by simp,
          hkept.inTime⟩
        intro sent hsent
        rw [hdecided]
        exact hsent
      next => cases hnext

theorem Kept.binds (hkept : Kept self) : Binds self := by
  intro more hmore
  refine StepMachine.throughout_of_along ?_ (fun _ hbefore => hbefore.bound)
    hkept (StepMachine.along_of_forall hmore self)
  intro before event after hbefore hstep hkeeps
  refine hbefore.step hstep ?_
  cases event with
  | passes nanos => cases hkeeps
  | _ => trivial

/-! ## Limits that do not bind -/

/-- A deadline that nobody waits for: the code ends as if there were none. -/
theorem not_binds_of_unnoticed (hoverran : self.overran = true)
    (hrunning : self.status = .running) (hdecided : self.decided = none)
    (hreported : self.reported = none) : ¬ Binds self := by
  intro hbinds
  have hends : ∃ ending result,
      self.runtime.resultOf self.elapsedMs ending = some (some result) := by
    cases self.runtime with
    | process => exact ⟨.process (.exited (some 0)), _, rfl⟩
    | v8 limits => exact ⟨.v8 .finished, _, rfl⟩
    | wasm limits => exact ⟨.wasm .returned, _, rfl⟩
  obtain ⟨ending, result, hresult⟩ := hends
  have hbound := hbinds [.ends ending, .report]
    (by simp [Event.keepsTime]) _ (List.prefix_refl _)
    { self with
      status := .ended false
      decided := some result
      reported := some result }
    (by simp [machine, StepMachine.run, LimitedExecution.step, hrunning,
      hresult, hdecided, hreported])
  have htimedOut := (hbound.reported hoverran result rfl).1
  rw [timedOut_of_resultOf hresult] at htimedOut
  cases htimedOut

/-- A report that leaves something running. -/
theorem not_binds_of_awake (hoverran : self.overran = true)
    {result : ExecutionResult} (hdecided : self.decided = some result)
    (hreported : self.reported = none)
    (hawake : self.status = .running ∨ 0 < self.others) : ¬ Binds self := by
  intro hbinds
  have hstep : ∃ event : Event, event.keepsTime = true ∧
      ({ self with reported := some result } :
        LimitedExecution).step event =
        some ({ self with reported := some result } :
          LimitedExecution).stepped := by
    rcases hawake with hrunning | hothers
    · exact ⟨.step, rfl, if_pos hrunning⟩
    · exact ⟨.otherStep, rfl, if_pos hothers⟩
  obtain ⟨event, hkeeps, hevent⟩ := hstep
  have hreport : self.step .report =
      some { self with reported := some result } := by
    simp [LimitedExecution.step, hdecided, hreported]
  have hbound := hbinds [.report, event]
    (List.forall_mem_cons.mpr ⟨rfl, List.forall_mem_singleton.mpr hkeeps⟩) _
    (List.prefix_refl _)
    ({ self with reported := some result } : LimitedExecution).stepped
    (by simp [machine, StepMachine.run, hreport, hevent])
  have hquiet := hbound.atRest hoverran
  simp [LimitedExecution.stepped] at hquiet

/-- Where a deadline expires on running code in another way, the limits do
not bind any more. -/
theorem Kept.meets_of_binds (hkept : Kept self) {event : Event}
    (hnext : self.step event = some next) (hbinds : Binds next) :
    Meets self event := by
  cases event with
  | passes nanos =>
      intro hrunning hawake hfirst
      cases hnext
      obtain ⟨_, hdecided⟩ := hkept.running hrunning
      have hreported := hkept.reported_of_running hrunning
      have hoverran : (self.later nanos).overran = true :=
        (later_overran nanos).mpr (.inr ⟨hrunning, hfirst⟩)
      unfold LimitedExecution.pass at hbinds
      by_cases hdue : self.Due nanos
      · rw [if_pos hdue] at hbinds
        have hown := hdue.2.2
        cases hruntime : self.runtime with
        | process =>
            rw [hruntime] at hown
            refine ⟨rfl, hown, ?_⟩
            have hlater : (self.later nanos).runtime = .process := hruntime
            rw [timeOut_of_process hlater] at hbinds
            by_contra hothers
            exact absurd hbinds (not_binds_of_awake hoverran rfl hreported
              (.inr (Nat.pos_of_ne_zero hothers)))
        | v8 limits =>
            have hlater : (self.later nanos).runtime = .v8 limits := hruntime
            obtain ⟨result, htimeOut⟩ := timeOut_of_v8 hlater
            rw [htimeOut] at hbinds
            exact absurd hbinds
              (not_binds_of_awake hoverran rfl hreported (.inl hrunning))
        | wasm limits =>
            rw [hruntime] at hown
            cases hown
      · rw [if_neg hdue] at hbinds
        exact absurd hbinds
          (not_binds_of_unnoticed hoverran hrunning hdecided hreported)
  | _ => trivial

/-- In every run of an execution the limits bind, exactly when every first
deadline that expires on running code is the one that the process runtime
waits with, and comes when the shell runs alone. -/
theorem throughout_binds_iff {features : Features}
    {engine : ResourceLimits → Except String Unit}
    {decision : RuntimeDecision} {request : ExecutionRequest}
    {execution : LimitedExecution}
    (hstart : startedBy features engine decision request = .ok execution)
    (trace : List Event) :
    machine.Throughout Binds execution trace ↔
      machine.Along Meets execution trace := by
  refine StepMachine.throughout_iff_along ?_ (fun _ hbefore => hbefore.binds) ?_
    (start_kept hstart) trace
  · intro before event after hbefore hstep hmeets
    exact hbefore.step hstep hmeets
  · intro before event after hbefore hstep hbinds
    exact hbefore.meets_of_binds hstep hbinds

def shellOnly : Features := ⟨true, false, false⟩

def strictShell : RuntimeDecision :=
  ⟨.process, .strict, false, "Only available runtime", false⟩

def endlessLoop : ExecutionRequest := .new "while :; do :; done"

/-- One second is less than what the decision allows. -/
theorem endlessLoop_binds :
    startedBy shellOnly (fun _ => .ok ()) strictShell
        (endlessLoop.withTimeout 1) =
        .ok (start .process strictShell (endlessLoop.withTimeout 1)) ∧
      machine.Throughout Binds
        (start .process strictShell (endlessLoop.withTimeout 1))
        [.step, .passes 1000000000, .report] := by
  have hstart : startedBy shellOnly (fun _ => .ok ()) strictShell
      (endlessLoop.withTimeout 1) =
        .ok (start .process strictShell (endlessLoop.withTimeout 1)) := rfl
  refine ⟨hstart, (throughout_binds_iff hstart _).mpr ?_⟩
  refine StepMachine.Along.cons rfl trivial ?_
  refine StepMachine.Along.cons rfl ?_ ?_
  · intro _ _ _
    exact ⟨rfl, by decide, rfl⟩
  · exact StepMachine.Along.cons rfl trivial trivial

/-- Without a timeout in the request nothing is done after the five seconds
that the decision allows. -/
theorem endlessLoop_not_bound :
    ¬ machine.Throughout Bound (start .process strictShell endlessLoop)
      [.passes 5000000000, .ends (.process (.exited (some 0))), .report] := by
  intro hthrough
  have hrun : (machine.run (start .process strictShell endlessLoop)
      [.passes 5000000000, .ends (.process (.exited (some 0))),
        .report]).map (fun reached => (reached.overran,
          reached.reported.map ExecutionResult.timedOut)) =
        some (true, some false) := by
    decide +kernel
  obtain ⟨reached, hreached, hfacts⟩ := Option.map_eq_some_iff.mp hrun
  obtain ⟨hoverran, hreported⟩ := Prod.mk.inj hfacts
  obtain ⟨result, hresult, htimedOut⟩ :=
    Option.map_eq_some_iff.mp hreported
  have hbound := hthrough _ (List.prefix_refl _) reached hreached
  rw [(hbound.reported hoverran result hresult).1] at htimedOut
  cases htimedOut

end LimitedExecution

end Sandbox
end Acdp
