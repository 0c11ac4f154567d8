import Acdp.CommonMessages
import Acdp.KeyedEvents
import Acdp.LlmRouting
import Acdp.StepMachine

/-!
# Changing the routing mode of a running proxy

A mode that is asked for over a connection goes through a bounded channel to
the loop of the handler, which takes in what the channel holds at the start of
each turn.  The LLM interceptor treats a message under the last mode that the
channel had been given before its turn, whichever connection that came from.
The other interceptors of the manager know of no mode: the one that sets a time
in the arguments of a call, which the handler adds unless it starts in bypass,
stays where it is when the mode changes.
-/

namespace Acdp

namespace Llm

/-- `to_ascii_lowercase`. -/
def asciiLowercase (text : String) : String :=
  String.ofList (text.toList.map Char.toLower)

namespace RoutingMode

def asStr : RoutingMode → String
  | .bypass => "bypass"
  | .semantic => "semantic"
  | .hybrid => "hybrid"

def fromStr (text : String) : Except String RoutingMode :=
  let lowered := asciiLowercase text
  if lowered = "bypass" then .ok .bypass
  else if lowered = "semantic" then .ok .semantic
  else if lowered = "hybrid" then .ok .hybrid
  else .error ("Unsupported routing_mode '" ++ lowered ++ "'")

theorem fromStr_asStr (mode : RoutingMode) : fromStr mode.asStr = .ok mode := by
  cases mode <;> rfl

theorem fromStr_congr {left right : String}
    (hlowered : asciiLowercase left = asciiLowercase right) :
    fromStr left = fromStr right := by
  simp only [fromStr, hlowered]

end RoutingMode
end Llm

namespace Transport

open Acdp.Core Acdp.Llm
open Common (IpcMessage ProxyId)

/-! ## The request -/

/-- The command that asks a proxy for a mode. -/
def setRoutingMode (proxyId : ProxyId) (mode : String) :
    Except String IpcMessage :=
  let normalized := asciiLowercase mode
  if normalized = "bypass" ∨ normalized = "semantic" ∨ normalized = "hybrid"
  then .ok (.routingModeChange ⟨proxyId, normalized⟩)
  else
    .error ("Invalid routing mode '" ++ mode ++
      "'. Valid modes: bypass, semantic, hybrid")

/-- The mode that a message asks for; for which proxy is not looked at. -/
def requestedMode : IpcMessage → Option RoutingMode
  | .routingModeChange fields => (RoutingMode.fromStr fields.mode).toOption
  | _ => none

theorem requestedMode_change (proxyId : ProxyId) (mode : String) :
    requestedMode (.routingModeChange ⟨proxyId, mode⟩) =
      (RoutingMode.fromStr mode).toOption := rfl

/-- What the command sends asks for the mode that it was given, and it refuses
just what the proxy would not take. -/
theorem setRoutingMode_eq (proxyId : ProxyId) (mode : String) :
    (setRoutingMode proxyId mode).toOption.bind requestedMode =
      (RoutingMode.fromStr mode).toOption := by
  by_cases hknown : asciiLowercase mode = "bypass" ∨
      asciiLowercase mode = "semantic" ∨ asciiLowercase mode = "hybrid"
  · have hset : setRoutingMode proxyId mode =
        .ok (.routingModeChange ⟨proxyId, asciiLowercase mode⟩) :=
      if_pos hknown
    have hlowered : asciiLowercase (asciiLowercase mode) =
        asciiLowercase mode := by
      rcases hknown with hmode | hmode | hmode <;> rw [hmode] <;> decide
    rw [hset, Except.toOption, Option.bind_some, requestedMode_change,
      RoutingMode.fromStr_congr hlowered]
  · have hset : setRoutingMode proxyId mode = .error _ := if_neg hknown
    rw [not_or, not_or] at hknown
    obtain ⟨hbypass, hsemantic, hhybrid⟩ := hknown
    have hmode : RoutingMode.fromStr mode = .error _ :=
      (if_neg hbypass).trans ((if_neg hsemantic).trans (if_neg hhybrid))
    rw [hset, hmode]
    rfl

/-! ## Connections and turns -/

/-- Queries hold their connection while they are queued or answered. -/
def holdsConnection : IpcMessage → Bool
  | .tuiQuery _ => true
  | .tuiMcpRequest _ => true
  | _ => false

/-- The task of one connection; `sending` waits for a place in the channel. -/
structure ControlTask where
  received : List IpcMessage
  sending : Option RoutingMode
  busy : Bool
  closed : Bool

namespace ControlTask

def new : ControlTask := ⟨[], none, false, false⟩

def isReading (self : ControlTask) : Bool :=
  self.sending.isNone && !self.busy && !self.closed

def receive (self : ControlTask) (message : IpcMessage) :
    Option ControlTask :=
  if self.isReading then
    some { self with
      received := self.received ++ [message]
      sending := requestedMode message
      busy := holdsConnection message }
  else none

end ControlTask

/-- A turn first takes in what the channel holds, then applies it, and then
waits for something to happen. -/
inductive Turn where
  | draining (pending : List (ℕ × RoutingMode))
  | applying (pending : List (ℕ × RoutingMode))

def Turn.pending : Turn → List (ℕ × RoutingMode)
  | .draining pending => pending
  | .applying pending => pending

/-- A message, and what the LLM interceptor is answered about it. -/
structure Occasion where
  context : MessageContext
  routingDb : Except LlmError RoutingRulesDatabase
  predictTool : String → Except LlmError ToolPredictor.PredictionOutcome

/-- What the LLM interceptor has made of a message. -/
structure Interception where
  context : MessageContext
  outcome : McpResult InterceptionResult

/-- The handler of a proxy with a monitor, and the connections to it.
`applied` lists what has been applied, each with the number of its
connection. -/
structure RoutingControl where
  tasks : List ControlTask
  channel : List (ℕ × RoutingMode)
  turn : Turn
  applied : List (ℕ × RoutingMode)
  currentRoutingMode : RoutingMode
  llmInterceptor : Option RoutingMode
  notified : List RoutingMode
  interceptions : List Interception

inductive ControlAction where
  | accept
  | receive (task : ℕ) (message : IpcMessage)
  | finish (task : ℕ)
  | close (task : ℕ)
  | send (task : ℕ)
  | tryRecv
  | applyRoutingMode (delivered : Bool)
  | select (occasion : Option Occasion)

def routingCapacity : ℕ := 8

section Machine

variable (floats : Json.FloatText) (order : ConfidenceOrder)

/-- The LLM interceptor at its present mode. -/
def Occasion.intercept (self : Occasion) (mode : RoutingMode) : Interception :=
  ⟨self.context,
    (LlmInterceptor.mk mode self.routingDb self.predictTool).intercept floats
      order self.context⟩

namespace RoutingControl

def start (mode : RoutingMode) (hasInterceptor : Bool) : RoutingControl where
  tasks := []
  channel := []
  turn := .draining []
  applied := []
  currentRoutingMode := mode
  llmInterceptor := if hasInterceptor then some mode else none
  notified := []
  interceptions := []

def setTask (self : RoutingControl) (number : ℕ) (task : ControlTask) :
    RoutingControl :=
  { self with tasks := self.tasks.set number task }

/-- A sender waits for a place in the channel. -/
def sendMode (self : RoutingControl) (number : ℕ) : Option RoutingControl := do
  let task ← self.tasks[number]?
  let mode ← task.sending
  if self.channel.length < routingCapacity then
    some { self.setTask number { task with sending := none } with
      channel := self.channel ++ [(number, mode)] }
  else none

/-- One round of the loop in `process_pending_routing_updates`. -/
def tryRecv (self : RoutingControl) : Option RoutingControl :=
  match self.turn with
  | .draining pending =>
      match self.channel with
      | [] => some { self with turn := .applying pending }
      | entry :: rest =>
          some { self with
            channel := rest
            turn := .draining (pending ++ [entry]) }
  | .applying _ => none

def applyRoutingMode (self : RoutingControl) (delivered : Bool) :
    Option RoutingControl :=
  match self.turn with
  | .applying (entry :: rest) =>
      some { self with
        turn := .applying rest
        applied := self.applied ++ [entry]
        currentRoutingMode := entry.2
        llmInterceptor := self.llmInterceptor.map (fun _ => entry.2)
        notified := self.notified ++ if delivered then [entry.2] else [] }
  | _ => none

/-- What happens in a turn: a message comes to the LLM interceptor, or
something that has nothing to do with the mode. -/
def select (self : RoutingControl) (occasion : Option Occasion) :
    Option RoutingControl :=
  match self.turn with
  | .applying [] =>
      some { self with
        turn := .draining []
        interceptions := self.interceptions ++
          (occasion.bind (fun found =>
            self.llmInterceptor.map (found.intercept floats order))).toList }
  | _ => none

def step (self : RoutingControl) : ControlAction → Option RoutingControl
  | .accept => some { self with tasks := self.tasks ++ [.new] }
  | .receive number message => do
      let task ← self.tasks[number]?
      let next ← task.receive message
      some (self.setTask number next)
  | .finish number => do
      let task ← self.tasks[number]?
      some (self.setTask number { task with busy := false })
  | .close number => do
      let task ← self.tasks[number]?
      if task.isReading then
        some (self.setTask number { task with closed := true })
      else none
  | .send number => self.sendMode number
  | .tryRecv => self.tryRecv
  | .applyRoutingMode delivered => self.applyRoutingMode delivered
  | .select occasion => self.select floats order occasion

def machine : StepMachine RoutingControl ControlAction :=
  ⟨fun self => self.step floats order⟩

end RoutingControl
end Machine

/-! ## What is kept -/

namespace RoutingControl

/-- All that the channel has been given, in order. -/
def queued (self : RoutingControl) : List (ℕ × RoutingMode) :=
  self.applied ++ self.turn.pending ++ self.channel

/-- The last of the modes, or the one to begin with. -/
def lastMode (initial : RoutingMode) (modes : List (ℕ × RoutingMode)) :
    RoutingMode :=
  (modes.getLast?.map Prod.snd).getD initial

theorem lastMode_concat (initial : RoutingMode)
    (modes : List (ℕ × RoutingMode)) (entry : ℕ × RoutingMode) :
    lastMode initial (modes ++ [entry]) = entry.2 := by
  simp [lastMode]

/-- What the connection has put into the channel, and has still to put there,
is what its messages have asked for. -/
def TaskKept (given : List RoutingMode) (task : ControlTask) : Prop :=
  given ++ task.sending.toList = task.received.filterMap requestedMode

structure Invariant (initial : RoutingMode) (control : RoutingControl) :
    Prop where
  tasks : ∀ {number : ℕ} {task : ControlTask},
    control.tasks[number]? = some task →
    TaskKept (KeyedEvents.ofSource number control.queued) task
  numbered : ∀ entry ∈ control.queued, entry.1 < control.tasks.length
  bounded : control.channel.length ≤ routingCapacity
  current : control.currentRoutingMode = lastMode initial control.applied
  interceptor : ∀ mode ∈ control.llmInterceptor,
    mode = control.currentRoutingMode
  notified : control.notified.Sublist (control.applied.map Prod.snd)

variable {floats : Json.FloatText} {order : ConfidenceOrder}
  {initial : RoutingMode} {control next : RoutingControl}

/-! What each action of a connection does. -/

theorem sendMode_eq_some_iff {number : ℕ} :
    control.sendMode number = some next ↔
      ∃ task, control.tasks[number]? = some task ∧
        ∃ mode, task.sending = some mode ∧
          control.channel.length < routingCapacity ∧
          { control.setTask number { task with sending := none } with
            channel := control.channel ++ [(number, mode)] } = next := by
  simp only [RoutingControl.sendMode, bind, Option.bind_eq_some_iff,
    Option.ite_none_right_eq_some, Option.some.injEq]

theorem step_receive_iff {number : ℕ} {message : IpcMessage} :
    control.step floats order (.receive number message) = some next ↔
      ∃ task, control.tasks[number]? = some task ∧
        ∃ received, task.receive message = some received ∧
          control.setTask number received = next := by
  simp only [RoutingControl.step, bind, Option.bind_eq_some_iff,
    Option.some.injEq]

theorem step_finish_iff {number : ℕ} :
    control.step floats order (.finish number) = some next ↔
      ∃ task, control.tasks[number]? = some task ∧
        control.setTask number { task with busy := false } = next := by
  simp only [RoutingControl.step, bind, Option.bind_eq_some_iff,
    Option.some.injEq]

theorem step_close_iff {number : ℕ} :
    control.step floats order (.close number) = some next ↔
      ∃ task, control.tasks[number]? = some task ∧
        task.isReading = true ∧
          control.setTask number { task with closed := true } = next := by
  simp only [RoutingControl.step, bind, Option.bind_eq_some_iff,
    Option.ite_none_right_eq_some, Option.some.injEq]

theorem start_invariant (initial : RoutingMode) (hasInterceptor : Bool) :
    (start initial hasInterceptor).Invariant initial where
  tasks htask := by cases htask
  numbered entry hentry := absurd hentry List.not_mem_nil
  bounded := Nat.zero_le _
  current := rfl
  interceptor mode hmode := by
    cases hasInterceptor with
    | false => cases hmode
    | true => exact (Option.some.inj hmode).symm
  notified := List.Sublist.refl []

/-- A task that keeps its own account takes the place of another. -/
theorem Invariant.setTask (hinvariant : control.Invariant initial)
    {number : ℕ} {task : ControlTask}
    (htask : TaskKept (KeyedEvents.ofSource number control.queued) task) :
    (control.setTask number task).Invariant initial where
  tasks := by
    intro other found hfound
    change (control.tasks.set number task)[other]? = some found at hfound
    rw [List.getElem?_set] at hfound
    by_cases hother : number = other
    · subst hother
      rw [if_pos rfl, Option.ite_none_right_eq_some,
        Option.some.injEq] at hfound
      rw [← hfound.2]
      exact htask
    · rw [if_neg hother] at hfound
      exact hinvariant.tasks hfound
  numbered := by
    intro entry hentry
    change entry.1 < (control.tasks.set number task).length
    rw [List.length_set]
    exact hinvariant.numbered entry hentry
  bounded := hinvariant.bounded
  current := hinvariant.current
  interceptor := hinvariant.interceptor
  notified := hinvariant.notified

theorem Invariant.accept (hinvariant : control.Invariant initial) :
    Invariant initial { control with tasks := control.tasks ++ [.new] } where
  tasks := by
    intro number task htask
    rcases lt_trichotomy number control.tasks.length with hless | heq | hmore
    · rw [List.getElem?_append_left hless] at htask
      exact hinvariant.tasks htask
    · -- nothing has come from a connection that is new
      rw [heq, List.getElem?_concat_length, Option.some.injEq] at htask
      have hnone : KeyedEvents.ofSource number control.queued = [] := by
        simp only [KeyedEvents.ofSource, List.map_eq_nil_iff,
          List.filter_eq_nil_iff, decide_eq_true_eq]
        intro entry hentry hsource
        have hnumber := hinvariant.numbered entry hentry
        omega
      change TaskKept (KeyedEvents.ofSource number control.queued) task
      rw [hnone, ← htask]
      rfl
    · rw [List.getElem?_eq_none (by
        rw [List.length_append, List.length_singleton]
        omega)] at htask
      cases htask
  numbered := by
    intro entry hentry
    rw [List.length_append]
    exact Nat.lt_add_right _ (hinvariant.numbered entry hentry)
  bounded := hinvariant.bounded
  current := hinvariant.current
  interceptor := hinvariant.interceptor
  notified := hinvariant.notified

theorem Invariant.receive (hinvariant : control.Invariant initial)
    {number : ℕ} {task received : ControlTask} {message : IpcMessage}
    (htask : control.tasks[number]? = some task)
    (hreceive : task.receive message = some received) :
    (control.setTask number received).Invariant initial := by
  rw [ControlTask.receive, Option.ite_none_right_eq_some,
    Option.some.injEq] at hreceive
  obtain ⟨hreading, rfl⟩ := hreceive
  have hnone : task.sending = none := by
    simp only [ControlTask.isReading, Bool.and_eq_true,
      Option.isNone_iff_eq_none] at hreading
    exact hreading.1.1
  apply hinvariant.setTask
  have hkept := hinvariant.tasks htask
  unfold TaskKept at *
  rw [hnone, Option.toList_none, List.append_nil] at hkept
  rw [hkept, List.filterMap_append]
  cases hmode : requestedMode message <;> simp [hmode]

theorem Invariant.sendMode (hinvariant : control.Invariant initial)
    {number : ℕ} (hsend : control.sendMode number = some next) :
    next.Invariant initial := by
  obtain ⟨task, htask, mode, hmode, hroom, rfl⟩ :=
    sendMode_eq_some_iff.mp hsend
  have hqueued : RoutingControl.queued
      { control.setTask number { task with sending := none } with
        channel := control.channel ++ [(number, mode)] } =
      control.queued ++ [(number, mode)] := by
    simp [RoutingControl.queued, RoutingControl.setTask]
  have hnumber : number < control.tasks.length := by
    by_contra hmissing
    rw [List.getElem?_eq_none (not_lt.mp hmissing)] at htask
    cases htask
  constructor
  · intro other found hfound
    rw [hqueued, KeyedEvents.ofSource_append]
    change (control.tasks.set number _)[other]? = some found at hfound
    rw [List.getElem?_set] at hfound
    by_cases hother : number = other
    · subst hother
      rw [if_pos rfl, Option.ite_none_right_eq_some,
        Option.some.injEq] at hfound
      have hkept := hinvariant.tasks htask
      unfold TaskKept at *
      rw [hmode, Option.toList_some] at hkept
      rw [← hfound.2, ← hkept]
      simp [KeyedEvents.ofSource]
    · rw [if_neg hother] at hfound
      have hkept := hinvariant.tasks hfound
      have hnone : KeyedEvents.ofSource other [(number, mode)] = [] := by
        simp [KeyedEvents.ofSource, hother]
      rw [hnone, List.append_nil]
      exact hkept
  · intro entry hentry
    change entry.1 < (control.tasks.set number _).length
    rw [List.length_set]
    rw [hqueued, List.mem_append, List.mem_singleton] at hentry
    rcases hentry with hearlier | rfl
    · exact hinvariant.numbered entry hearlier
    · exact hnumber
  · change (control.channel ++ [(number, mode)]).length ≤ routingCapacity
    rw [List.length_append, List.length_singleton]
    exact hroom
  · exact hinvariant.current
  · exact hinvariant.interceptor
  · exact hinvariant.notified

/-- The queue is the same, and so is all that is applied. -/
theorem Invariant.regroup (hinvariant : control.Invariant initial)
    {turn : Turn} {channel : List (ℕ × RoutingMode)}
    (hpending : turn.pending ++ channel =
      control.turn.pending ++ control.channel)
    (hchannel : channel.length ≤ control.channel.length)
    (interceptions : List Interception) :
    Invariant initial { control with
      turn := turn
      channel := channel
      interceptions := interceptions } := by
  have hqueued : RoutingControl.queued { control with
      turn := turn
      channel := channel
      interceptions := interceptions } = control.queued := by
    simp only [RoutingControl.queued, List.append_assoc, hpending]
  constructor
  · intro number task htask
    rw [hqueued]
    exact hinvariant.tasks htask
  · rw [hqueued]
    exact hinvariant.numbered
  · exact hchannel.trans hinvariant.bounded
  · exact hinvariant.current
  · exact hinvariant.interceptor
  · exact hinvariant.notified

theorem Invariant.tryRecv (hinvariant : control.Invariant initial)
    (hnext : control.tryRecv = some next) : next.Invariant initial := by
  unfold RoutingControl.tryRecv at hnext
  cases hturn : control.turn with
  | applying pending =>
      rw [hturn] at hnext
      cases hnext
  | draining pending =>
      cases hchannel : control.channel with
      | nil =>
          simp only [hturn, hchannel, Option.some.injEq] at hnext
          rw [← hnext, ← hchannel]
          exact hinvariant.regroup (by rw [hturn]; rfl) le_rfl _
      | cons entry rest =>
          simp only [hturn, hchannel, Option.some.injEq] at hnext
          rw [← hnext]
          apply hinvariant.regroup
          · simp [hturn, hchannel, Turn.pending]
          · simp [hchannel]

theorem Invariant.applyRoutingMode (hinvariant : control.Invariant initial)
    {delivered : Bool}
    (hnext : control.applyRoutingMode delivered = some next) :
    next.Invariant initial := by
  unfold RoutingControl.applyRoutingMode at hnext
  split at hnext
  next entry rest hturn =>
    rw [Option.some.injEq] at hnext
    have hqueued : next.queued = control.queued := by
      rw [← hnext]
      simp [RoutingControl.queued, hturn, Turn.pending]
    have htasks : next.tasks = control.tasks := by rw [← hnext]
    constructor
    · rw [hqueued, htasks]
      exact hinvariant.tasks
    · rw [hqueued, htasks]
      exact hinvariant.numbered
    · rw [← hnext]
      exact hinvariant.bounded
    · rw [← hnext]
      exact (lastMode_concat initial control.applied entry).symm
    · rw [← hnext]
      intro mode hmode
      obtain ⟨_, _, hsame⟩ := Option.map_eq_some_iff.mp hmode
      exact hsame.symm
    · rw [← hnext, List.map_append, List.map_singleton]
      apply hinvariant.notified.append
      cases delivered with
      | true => exact List.Sublist.refl _
      | false => exact List.nil_sublist _
  next => cases hnext

theorem Invariant.select (hinvariant : control.Invariant initial)
    {occasion : Option Occasion}
    (hnext : control.select floats order occasion = some next) :
    next.Invariant initial := by
  unfold RoutingControl.select at hnext
  split at hnext
  next hturn =>
    rw [← Option.some.inj hnext]
    exact hinvariant.regroup (by rw [hturn]; rfl) le_rfl _
  next => cases hnext

theorem Invariant.step (hinvariant : control.Invariant initial)
    {action : ControlAction}
    (hstep : (machine floats order).step control action = some next) :
    next.Invariant initial := by
  change control.step floats order action = some next at hstep
  cases action with
  | accept =>
      rw [← Option.some.inj hstep]
      exact hinvariant.accept
  | receive number message =>
      obtain ⟨task, htask, received, hreceive, rfl⟩ :=
        step_receive_iff.mp hstep
      exact hinvariant.receive htask hreceive
  | finish number =>
      obtain ⟨task, htask, rfl⟩ := step_finish_iff.mp hstep
      have hkept := hinvariant.tasks htask
      exact hinvariant.setTask hkept
  | close number =>
      obtain ⟨task, htask, _, rfl⟩ := step_close_iff.mp hstep
      have hkept := hinvariant.tasks htask
      exact hinvariant.setTask hkept
  | send number => exact hinvariant.sendMode hstep
  | tryRecv => exact hinvariant.tryRecv hstep
  | applyRoutingMode delivered => exact hinvariant.applyRoutingMode hstep
  | select occasion => exact hinvariant.select hstep

/-! ## A turn -/

/-- What the channel was given before is applied, unless the turn is over. -/
def TakesIn (given : List (ℕ × RoutingMode)) (control : RoutingControl) :
    Prop :=
  match control.turn with
  | .applying pending => control.applied ++ pending = given
  | .draining _ => True

theorem TakesIn.step {given : List (ℕ × RoutingMode)}
    (htakes : control.TakesIn given) {action : ControlAction}
    (haction : action ≠ .tryRecv)
    (hstep : (machine floats order).step control action = some next) :
    next.TakesIn given := by
  change control.step floats order action = some next at hstep
  cases action with
  | accept =>
      rw [← Option.some.inj hstep]
      exact htakes
  | receive number message =>
      obtain ⟨task, _, received, _, rfl⟩ := step_receive_iff.mp hstep
      exact htakes
  | finish number =>
      obtain ⟨task, _, rfl⟩ := step_finish_iff.mp hstep
      exact htakes
  | close number =>
      obtain ⟨task, _, _, rfl⟩ := step_close_iff.mp hstep
      exact htakes
  | send number =>
      obtain ⟨task, _, mode, _, _, rfl⟩ := sendMode_eq_some_iff.mp hstep
      exact htakes
  | tryRecv => exact absurd rfl haction
  | applyRoutingMode delivered =>
      simp only [RoutingControl.step, RoutingControl.applyRoutingMode] at hstep
      split at hstep
      next entry rest hturn =>
        rw [← Option.some.inj hstep]
        simp only [TakesIn, hturn] at htakes
        simp only [TakesIn, List.append_assoc, List.singleton_append]
        exact htakes
      next => cases hstep
  | select occasion =>
      simp only [RoutingControl.step, RoutingControl.select] at hstep
      split at hstep
      next =>
        rw [← Option.some.inj hstep]
        trivial
      next => cases hstep

/-- Once the channel has been found empty, the modes that it was given are
those that are applied when the turn goes on. -/
theorem Invariant.current_of_turn {pending : List (ℕ × RoutingMode)}
    (hinvariant : control.Invariant initial)
    (hturn : control.turn = .draining pending)
    (hchannel : control.channel = []) {between : List ControlAction}
    (hbetween : ∀ action ∈ between, action ≠ .tryRecv)
    {ready : RoutingControl}
    (hrun : (machine floats order).run control (.tryRecv :: between) =
      some ready)
    (hready : ready.turn = .applying []) :
    ready.currentRoutingMode = lastMode initial control.queued := by
  rw [StepMachine.run_cons, Option.bind_eq_some_iff] at hrun
  obtain ⟨first, hfirst, hrest⟩ := hrun
  have hemptied : { control with turn := Turn.applying pending } = first := by
    change control.tryRecv = some first at hfirst
    simp only [RoutingControl.tryRecv, hturn, hchannel,
      Option.some.injEq] at hfirst
    rw [← hfirst, hchannel]
  have htakes : first.TakesIn control.queued := by
    rw [← hemptied]
    simp [TakesIn, RoutingControl.queued, hturn, hchannel, Turn.pending]
  have hkept : ready.TakesIn control.queued :=
    StepMachine.throughout_of_along
      (fun _ _ _ htakes hstep haction => htakes.step haction hstep)
      (fun _ htakes => htakes) htakes
      (StepMachine.along_of_forall hbetween first) between
      (List.prefix_refl between) ready hrest
  have hlater : ready.Invariant initial :=
    StepMachine.run_invariant
      (fun _ _ _ hinvariant hstep => hinvariant.step hstep)
      (hinvariant.step hfirst) hrest
  simp only [TakesIn, hready, List.append_nil] at hkept
  rw [hlater.current, hkept]

/-- In bypass mode every message is let through as it is. -/
theorem intercept_bypass (floats : Json.FloatText) (order : ConfidenceOrder)
    (occasion : Occasion) :
    (occasion.intercept floats order .bypass).outcome =
      .ok (.passThrough occasion.context.message) := by
  simp only [Occasion.intercept, LlmInterceptor.intercept]
  cases occasion.context.direction <;> rfl

/-! ## What a run has led to -/

/-- The LLM interceptor treats the next message under the last of the modes
that the channel had been given when it was found empty, and leaves it as it is
if that is to bypass the interceptor, whatever is asked for in between. -/
def TakesLatest (floats : Json.FloatText) (order : ConfidenceOrder)
    (initial : RoutingMode) (control : RoutingControl) : Prop :=
  ∀ pending between ready occasion next,
    control.turn = .draining pending → control.channel = [] →
    (∀ action ∈ between, action ≠ ControlAction.tryRecv) →
    (machine floats order).run control (.tryRecv :: between) = some ready →
    (machine floats order).step ready (.select (some occasion)) = some next →
    next.interceptions = ready.interceptions ++
        (ready.llmInterceptor.map (fun _ => occasion.intercept floats order
          (lastMode initial control.queued))).toList ∧
      (lastMode initial control.queued = .bypass →
        ∀ entry ∈ next.interceptions, entry ∉ ready.interceptions →
          entry.outcome = .ok (.passThrough entry.context.message))

theorem Invariant.takesLatest (hinvariant : control.Invariant initial) :
    control.TakesLatest floats order initial := by
  intro pending between ready occasion next hturn hchannel hbetween hrun hstep
  change ready.select floats order (some occasion) = some next at hstep
  unfold RoutingControl.select at hstep
  split at hstep
  next hready =>
    have hcurrent := hinvariant.current_of_turn hturn hchannel hbetween hrun
      hready
    have hlater : ready.Invariant initial :=
      StepMachine.run_invariant
        (fun _ _ _ hinvariant hstep => hinvariant.step hstep) hinvariant hrun
    have hintercepted : (ready.llmInterceptor.map
          (occasion.intercept floats order)).toList =
        (ready.llmInterceptor.map (fun _ => occasion.intercept floats order
          (lastMode initial control.queued))).toList := by
      congr 1
      apply Option.map_congr
      intro mode hmode
      rw [hlater.interceptor mode hmode, hcurrent]
    rw [← Option.some.inj hstep, Option.bind_some, hintercepted]
    refine ⟨rfl, ?_⟩
    intro hbypass entry hentry hnew
    rw [List.mem_append] at hentry
    have hmember := hentry.resolve_left hnew
    rw [Option.mem_toList, Option.map_eq_some_iff] at hmember
    obtain ⟨_, _, hsame⟩ := hmember
    rw [← hsame, hbypass]
    exact intercept_bypass floats order occasion
  next => cases hstep

/-- In every run each connection has its modes queued in the order in which it
asked for them, each once; the handler and its LLM interceptor are at the last
mode applied, and the monitor has been told of no other; and in each turn that
interceptor goes by the last mode queued before it. -/
theorem run_control (floats : Json.FloatText) (order : ConfidenceOrder)
    (initial : RoutingMode) (hasInterceptor : Bool)
    {trace : List ControlAction}
    (hrun : (machine floats order).run (start initial hasInterceptor) trace =
      some control) :
    control.Invariant initial ∧ control.TakesLatest floats order initial := by
  have hinvariant : control.Invariant initial :=
    StepMachine.run_invariant
      (fun _ _ _ hinvariant hstep => hinvariant.step hstep)
      (start_invariant initial hasInterceptor) hrun
  exact ⟨hinvariant, hinvariant.takesLatest⟩

/-! ## A request that is let through -/

/-- A request whose tools a rule would route elsewhere. -/
def listing : Occasion where
  context := .new LlmInterceptor.listTools .outgoing Auth.smallInstant
  routingDb := LlmInterceptor.listRouter.routingDb
  predictTool := LlmInterceptor.listRouter.predictTool

/-- The mode has been asked for and queued, and the turn has received it. -/
def bypassTrace : List ControlAction :=
  [.accept, .receive 0 (.routingModeChange ⟨⟨.filled 16 0⟩, "BYPASS"⟩),
    .send 0, .tryRecv]

/-- The LLM interceptor lets the request through, although the proxy was
started to route it. -/
theorem run_control_bypass :
    ∃ next,
      (machine tableFloats LlmInterceptor.stableOrder).run (start .hybrid true)
          (bypassTrace ++ [.tryRecv, .applyRoutingMode true,
            .select (some listing)]) = some next ∧
        next.interceptions.map Interception.outcome =
          [.ok (.passThrough LlmInterceptor.listTools)] := by
  let asked : List ControlAction := [.tryRecv, .applyRoutingMode true]
  obtain ⟨control, ready, next, hrun, hready, hselect, hturn, hchannel,
      hqueued, hinterceptor, hnone⟩ : ∃ control ready next,
      (machine tableFloats LlmInterceptor.stableOrder).run (start .hybrid true)
          bypassTrace = some control ∧
        (machine tableFloats LlmInterceptor.stableOrder).run control asked =
          some ready ∧
        (machine tableFloats LlmInterceptor.stableOrder).step ready
          (.select (some listing)) = some next ∧
        control.turn = .draining [(0, .bypass)] ∧ control.channel = [] ∧
        control.queued = [(0, .bypass)] ∧
        ready.llmInterceptor = some .bypass ∧ ready.interceptions = [] :=
    ⟨_, _, _, rfl, rfl, rfl, rfl, rfl, rfl, rfl, rfl⟩
  obtain ⟨_, htakes⟩ := run_control tableFloats LlmInterceptor.stableOrder
    .hybrid true hrun
  obtain ⟨hintercepted, _⟩ := htakes _ _ _ listing _ hturn hchannel
    (by simp) hready hselect
  refine ⟨next, ?_, ?_⟩
  · have hrest : (machine tableFloats LlmInterceptor.stableOrder).run control
        (asked ++ [.select (some listing)]) = some next := by
      rw [StepMachine.run_append, hready, Option.bind_some,
        StepMachine.run_cons, hselect]
      rfl
    rw [StepMachine.run_append, hrun, Option.bind_some]
    exact hrest
  · have hmode : lastMode .hybrid control.queued = .bypass := by
      rw [hqueued]
      rfl
    rw [hintercepted, hnone, hinterceptor, hmode]
    exact congrArg (fun outcome => [outcome])
      (intercept_bypass tableFloats LlmInterceptor.stableOrder listing)

end RoutingControl
end Transport
end Acdp
