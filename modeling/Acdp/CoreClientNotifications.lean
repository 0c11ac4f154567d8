import Acdp.CoreClientLifecycle
import Acdp.CoreStdioDelivery
import Acdp.CoreTypedFidelity

/-!
# Notifications of the server

A client that connects starts a task that takes messages from a channel, hands
notifications to its handler and counts them.  The sending end of the channel
is kept by the client, and the transport does not have it: what the transport
receives on its own stays with the transport.
-/

namespace Acdp
namespace Core

open Json

/-! ## The handler -/

structure ResourceUpdatedNotification where
  uri : String
  metadata : List (String × Value)

structure ResourceListChangedNotification where
  metadata : List (String × Value)

structure ToolListChangedNotification where
  metadata : List (String × Value)

structure PromptListChangedNotification where
  metadata : List (String × Value)

/-- Everything is metadata where no field has a name of its own. -/
def metadataOf : Value → Option (List (String × Value))
  | .object members => some members
  | _ => none

inductive HandlerMethod where
  | handleProgress
  | handleResourceUpdated
  | handleResourceListChanged
  | handleToolListChanged
  | handlePromptListChanged
  deriving DecidableEq, Repr

inductive HandlerCall where
  | progress (notification : ProgressNotification)
  | resourceUpdated (notification : ResourceUpdatedNotification)
  | resourceListChanged (notification : ResourceListChangedNotification)
  | toolListChanged (notification : ToolListChangedNotification)
  | promptListChanged (notification : PromptListChangedNotification)

def HandlerCall.method : HandlerCall → HandlerMethod
  | .progress _ => .handleProgress
  | .resourceUpdated _ => .handleResourceUpdated
  | .resourceListChanged _ => .handleResourceListChanged
  | .toolListChanged _ => .handleToolListChanged
  | .promptListChanged _ => .handlePromptListChanged

variable (doubleOfInt : ℤ → UInt64)

/-- Parameters that are missing or not read are passed over. -/
def handleNotification (notification : JsonRpcNotification) :
    Option HandlerCall :=
  if notification.method = "notifications/progress" then
    notification.params.bind fun params =>
      ((ProgressNotification.fields doubleOfInt).record.fromValue
        params.val).map .progress
  else if notification.method = "notifications/resources/updated" then
    notification.params.bind fun params =>
      ((WireFields.required "uri" Wire.string).flattened.fromValue
        params.val).map fun parts => .resourceUpdated ⟨parts.1, parts.2⟩
  else if notification.method = "notifications/resources/list_changed" then
    notification.params.bind fun params =>
      (metadataOf params.val).map (.resourceListChanged ⟨·⟩)
  else if notification.method = "notifications/tools/list_changed" then
    notification.params.bind fun params =>
      (metadataOf params.val).map (.toolListChanged ⟨·⟩)
  else if notification.method = "notifications/prompts/list_changed" then
    notification.params.bind fun params =>
      (metadataOf params.val).map (.promptListChanged ⟨·⟩)
  else none

/-! ## Calls that are due -/

def updatedSpecification : List SpecifiedMember :=
  [⟨"uri", true, IsString⟩, ⟨"_meta", false, IsObject⟩]

/-- Any object, whose metadata are an object too. -/
def IsMetadata (value : Value) : Prop :=
  IsObject value ∧
    ∀ metadata, value.get "_meta" = some metadata → IsObject metadata

namespace HandlerMethod

/-- The method of the notifications that belong to it. -/
def notificationMethod : HandlerMethod → String
  | .handleProgress => "notifications/progress"
  | .handleResourceUpdated => "notifications/resources/updated"
  | .handleResourceListChanged => "notifications/resources/list_changed"
  | .handleToolListChanged => "notifications/tools/list_changed"
  | .handlePromptListChanged => "notifications/prompts/list_changed"

/-- The parameters that the protocol allows; a list that has changed needs
none. -/
def Allows (params : Option OrderedValue) : HandlerMethod → Prop
  | .handleProgress =>
      ∃ value, params = some value ∧ Conforms progressSpecification value.val
  | .handleResourceUpdated =>
      ∃ value, params = some value ∧ Conforms updatedSpecification value.val
  | .handleResourceListChanged | .handleToolListChanged
  | .handlePromptListChanged =>
      ∀ value, params = some value → IsMetadata value.val

end HandlerMethod

/-- The notification is one that the method has to be given. -/
def Due (notification : JsonRpcNotification) (method : HandlerMethod) : Prop :=
  notification.method = method.notificationMethod ∧
    method.Allows notification.params

/-- The calls that are due for the messages, in their order. -/
inductive DueCalls : List JsonRpcMessage →
    List (JsonRpcNotification × HandlerMethod) → Prop
  | nil : DueCalls [] []
  | handed {notification : JsonRpcNotification} {method : HandlerMethod}
      {rest : List JsonRpcMessage}
      {calls : List (JsonRpcNotification × HandlerMethod)}
      (hdue : Due notification method) (hrest : DueCalls rest calls) :
      DueCalls (.notification notification :: rest)
        ((notification, method) :: calls)
  | skipped {message : JsonRpcMessage} {rest : List JsonRpcMessage}
      {calls : List (JsonRpcNotification × HandlerMethod)}
      (hnotDue : ∀ notification method,
        message = .notification notification → ¬ Due notification method)
      (hrest : DueCalls rest calls) :
      DueCalls (message :: rest) calls

def isNotification : JsonRpcMessage → Bool
  | .notification _ => true
  | _ => false

/-! ## A client with its transport and its tasks -/

/-- A transport with what it has received; some of its steps it takes on its
own, the others belong to the server, the clock and the callers. -/
structure TransportSystem (State Step : Type) where
  machine : StepMachine State Step
  start : State
  own : Step → Prop
  received : State → List JsonRpcMessage

/-- A task that processes messages, with what is in its channel. -/
structure MessageTask where
  channel : List JsonRpcMessage
  running : Bool

variable {State Step Version Capabilities Implementation : Type}

structure NotifiedClient
    (State Version Capabilities Implementation : Type) where
  client : LifecycleClient Version Capabilities Implementation
  transport : State
  /-- The task whose channel `_message_sender` leads to. -/
  messageSender : Option ℕ
  tasks : List MessageTask
  pendingRequests : List String
  responsesReceived : UInt64
  notificationsReceived : UInt64
  handled : List (JsonRpcNotification × HandlerCall)

namespace NotifiedClient

inductive Action (Step Version Capabilities Implementation : Type) where
  | call (action :
      LifecycleClient.Action Version Capabilities Implementation)
  | transport (step : Step)
  | process (task : ℕ)
  | finish (task : ℕ)

def start (system : TransportSystem State Step) (config : ClientConfig)
    (initTimeout : Auth.Duration) :
    NotifiedClient State Version Capabilities Implementation where
  client := .new config initTimeout
  transport := system.start
  messageSender := none
  tasks := []
  pendingRequests := []
  responsesReceived := 0
  notificationsReceived := 0
  handled := []

/-- The sending end of the channel before is dropped. -/
def startMessageProcessing
    (self : NotifiedClient State Version Capabilities Implementation) :
    NotifiedClient State Version Capabilities Implementation :=
  { self with
    messageSender := some self.tasks.length
    tasks := self.tasks ++ [⟨[], true⟩] }

/-- What a call does besides what it does to the client itself. -/
def afterCall
    (self : NotifiedClient State Version Capabilities Implementation) :
    LifecycleClient.Action Version Capabilities Implementation →
      NotifiedClient State Version Capabilities Implementation
  | .connect handshake =>
      match handshake.transportConnect with
      | .ok () => self.startMessageProcessing
      | .error _ => self
  | .disconnect _ => { self with pendingRequests := [] }
  | _ => self

def processMessage
    (self : NotifiedClient State Version Capabilities Implementation) :
    JsonRpcMessage → NotifiedClient State Version Capabilities Implementation
  | .response response =>
      if response.id.display ∈ self.pendingRequests then
        { self with
          pendingRequests := self.pendingRequests.erase response.id.display
          responsesReceived := self.responsesReceived + 1 }
      else self
  | .notification notification =>
      { self with
        handled := self.handled ++
          ((handleNotification doubleOfInt notification).map
            (notification, ·)).toList
        notificationsReceived := self.notificationsReceived + 1 }
  | .request _ => self

/-- `receiver.recv` of a task that gives it a message. -/
def process (self : NotifiedClient State Version Capabilities Implementation)
    (task : ℕ) :
    Option (NotifiedClient State Version Capabilities Implementation) :=
  match self.tasks[task]? with
  | some ⟨message :: rest, true⟩ =>
      some ({ self with tasks := self.tasks.set task ⟨rest, true⟩ }.processMessage
        doubleOfInt message)
  | _ => none

/-- `receiver.recv` of a task whose channel is empty and closed. -/
def finish (self : NotifiedClient State Version Capabilities Implementation)
    (task : ℕ) :
    Option (NotifiedClient State Version Capabilities Implementation) :=
  match self.tasks[task]? with
  | some ⟨[], true⟩ =>
      if self.messageSender = some task then none
      else some { self with tasks := self.tasks.set task ⟨[], false⟩ }
  | _ => none

variable (overflowChecks : Bool) (system : TransportSystem State Step)

def step (self : NotifiedClient State Version Capabilities Implementation) :
    Action Step Version Capabilities Implementation →
      Option (NotifiedClient State Version Capabilities Implementation)
  | .call action =>
      (self.client.step overflowChecks action).map fun client =>
        { self with client := client }.afterCall action
  | .transport step =>
      (system.machine.step self.transport step).map fun transport =>
        { self with transport := transport }
  | .process task => self.process doubleOfInt task
  | .finish task => self.finish task

def machine :
    StepMachine (NotifiedClient State Version Capabilities Implementation)
      (Action Step Version Capabilities Implementation) :=
  ⟨step doubleOfInt overflowChecks system⟩

/-! ## What is delivered -/

def Connected
    (self : NotifiedClient State Version Capabilities Implementation) : Prop :=
  self.client.client.state = .ready

/-- Neither the transport nor a task has a step to take. -/
structure Quiescent
    (found : NotifiedClient State Version Capabilities Implementation) :
    Prop where
  transport : ∀ step, system.own step →
    system.machine.step found.transport step = none
  process : ∀ task, found.process doubleOfInt task = none
  finish : ∀ task, found.finish task = none

/-- What is due has been handed over, and every notification is counted. -/
structure Delivered
    (found : NotifiedClient State Version Capabilities Implementation) :
    Prop where
  handled : DueCalls (system.received found.transport)
    (found.handled.map (fun entry => (entry.1, entry.2.method)))
  counted : found.notificationsReceived.toNat =
    (system.received found.transport).countP isNotification

def Delivers
    (self : NotifiedClient State Version Capabilities Implementation) : Prop :=
  self.Connected → Quiescent doubleOfInt system self → Delivered system self

/-- No notification has come. -/
def HearsNothing
    (self : NotifiedClient State Version Capabilities Implementation) : Prop :=
  self.Connected → Quiescent doubleOfInt system self →
    ∀ message ∈ system.received self.transport,
      isNotification message = false

/-- No channel has a message, and nothing has been handled. -/
structure Idle
    (found : NotifiedClient State Version Capabilities Implementation) :
    Prop where
  channels : ∀ task ∈ found.tasks, task.channel = []
  handled : found.handled = []
  notificationsReceived : found.notificationsReceived = 0

/-! ## What a task would hand over -/

end NotifiedClient

variable {doubleOfInt}

theorem metadataOf_of_isMetadata {value : Value}
    (hmetadata : IsMetadata value) :
    ∃ members, metadataOf value = some members := by
  obtain ⟨⟨members, rfl⟩, _⟩ := hmetadata
  exact ⟨members, rfl⟩

theorem updated_read {value : Value}
    (hconforms : Conforms updatedSpecification value) :
    ∃ parts, (WireFields.required "uri" Wire.string).flattened.fromValue
      value = some parts := by
  obtain ⟨members, rfl, hallows⟩ := hconforms
  have hmember : ⟨"uri", true, IsString⟩ ∈ updatedSpecification := by
    simp [updatedSpecification]
  obtain ⟨_, huri, text, rfl⟩ := hallows.required
    (by simp [updatedSpecification]) hmember rfl
  have hlookup : members.lookup "uri" = some (.str text) := huri
  simp [WireFields.flattened, WireFields.required, Wire.string, hlookup]

/-- Progress never reaches its method, and a list that has changed does only
where it has parameters. -/
theorem handleNotification_of_due_iff {notification : JsonRpcNotification}
    {method : HandlerMethod} (hdue : Due notification method) :
    (∃ call, handleNotification doubleOfInt notification = some call ∧
        call.method = method) ↔
      method ≠ .handleProgress ∧ notification.params ≠ none := by
  obtain ⟨hname, hallows⟩ := hdue
  cases method with
  | handleProgress =>
      obtain ⟨value, hparams, members, hvalue, hmembers⟩ := hallows
      have hread := fromValue_progress_eq_none doubleOfInt hmembers
      rw [← hvalue] at hread
      simp [handleNotification, hname, HandlerMethod.notificationMethod,
        hparams, hread]
  | handleResourceUpdated =>
      obtain ⟨value, hparams, hconforms⟩ := hallows
      obtain ⟨parts, hread⟩ := updated_read hconforms
      simp [handleNotification, hname, HandlerMethod.notificationMethod,
        hparams, hread, HandlerCall.method]
  | handleResourceListChanged | handleToolListChanged
  | handlePromptListChanged =>
      cases hparams : notification.params with
      | none =>
          simp [handleNotification, hname, HandlerMethod.notificationMethod,
            hparams]
      | some value =>
          obtain ⟨members, hread⟩ :=
            metadataOf_of_isMetadata (hallows value hparams)
          simp [handleNotification, hname, HandlerMethod.notificationMethod,
            hparams, hread, HandlerCall.method]

theorem dueCalls_nil_of_forall {messages : List JsonRpcMessage}
    (hmessages : ∀ message ∈ messages, isNotification message = false) :
    DueCalls messages [] := by
  induction messages with
  | nil => exact .nil
  | cons message rest ih =>
      obtain ⟨hmessage, hrest⟩ := List.forall_mem_cons.mp hmessages
      refine .skipped ?_ (ih hrest)
      rintro notification method rfl
      cases hmessage

namespace NotifiedClient

variable {overflowChecks : Bool} {system : TransportSystem State Step}
  {self next : NotifiedClient State Version Capabilities Implementation}

/-! ## Nothing comes into a channel -/

theorem start_idle (config : ClientConfig) (initTimeout : Auth.Duration) :
    Idle (start system config initTimeout :
      NotifiedClient State Version Capabilities Implementation) where
  channels := by simp [start]
  handled := rfl
  notificationsReceived := rfl

theorem Idle.startMessageProcessing (hidle : Idle self) :
    Idle self.startMessageProcessing where
  channels := by
    intro task htask
    rcases List.mem_append.mp htask with hold | hnew
    · exact hidle.channels task hold
    · rw [List.mem_singleton.mp hnew]
  handled := hidle.handled
  notificationsReceived := hidle.notificationsReceived

theorem Idle.afterCall (hidle : Idle self)
    (action : LifecycleClient.Action Version Capabilities Implementation) :
    Idle (self.afterCall action) := by
  cases action with
  | connect handshake =>
      cases hconnect : handshake.transportConnect with
      | ok connected =>
          simp only [NotifiedClient.afterCall, hconnect]
          exact hidle.startMessageProcessing
      | error e =>
          simp only [NotifiedClient.afterCall, hconnect]
          exact hidle
  | disconnect transport =>
      exact ⟨hidle.channels, hidle.handled, hidle.notificationsReceived⟩
  | sendRequest attempts method params => exact hidle
  | sendNotification transport method params => exact hidle

/-- A task has nothing to take. -/
theorem Idle.process_eq_none (hidle : Idle self) (task : ℕ) :
    self.process doubleOfInt task = none := by
  unfold process
  split
  next message rest hfound =>
    have hempty := hidle.channels _ (List.mem_of_getElem? hfound)
    cases hempty
  next => rfl

theorem Idle.finish (hidle : Idle self) {task : ℕ}
    (hnext : self.finish task = some next) : Idle next := by
  unfold NotifiedClient.finish at hnext
  split at hnext
  next hfound =>
    split_ifs at hnext
    cases hnext
    refine ⟨?_, hidle.handled, hidle.notificationsReceived⟩
    intro changed hchanged
    rcases List.mem_or_eq_of_mem_set hchanged with hold | rfl
    · exact hidle.channels changed hold
    · rfl
  next => cases hnext

theorem Idle.step (hidle : Idle self)
    {action : Action Step Version Capabilities Implementation}
    (hnext : self.step doubleOfInt overflowChecks system action =
      some next) : Idle next := by
  cases action with
  | call action =>
      obtain ⟨client, _, rfl⟩ := Option.map_eq_some_iff.mp hnext
      have hclient : Idle { self with client := client } :=
        ⟨hidle.channels, hidle.handled, hidle.notificationsReceived⟩
      exact hclient.afterCall action
  | transport step =>
      obtain ⟨transport, _, rfl⟩ := Option.map_eq_some_iff.mp hnext
      exact ⟨hidle.channels, hidle.handled, hidle.notificationsReceived⟩
  | process task =>
      have hnothing : self.process doubleOfInt task = none :=
        hidle.process_eq_none task
      cases hnothing.symm.trans hnext
  | finish task => exact hidle.finish hnext

/-! ## Delivery -/

theorem Idle.delivered_iff (hidle : Idle self) :
    Delivered system self ↔
      ∀ message ∈ system.received self.transport,
        isNotification message = false := by
  have hcount : (system.received self.transport).countP isNotification = 0 ↔
      ∀ message ∈ system.received self.transport,
        isNotification message = false := by
    simp [List.countP_eq_zero]
  rw [← hcount]
  constructor
  · intro hdelivered
    rw [← hdelivered.counted, hidle.notificationsReceived]
    rfl
  · intro hzero
    refine ⟨?_, ?_⟩
    · rw [hidle.handled]
      exact dueCalls_nil_of_forall (hcount.mp hzero)
    · rw [hzero, hidle.notificationsReceived]
      rfl

/-- Whatever the transport, what is due is delivered exactly as long as no
notification comes. -/
theorem throughout_delivers_iff (doubleOfInt : ℤ → UInt64)
    (overflowChecks : Bool) (system : TransportSystem State Step)
    (config : ClientConfig) (initTimeout : Auth.Duration)
    (trace : List (Action Step Version Capabilities Implementation)) :
    (machine doubleOfInt overflowChecks system).Throughout
        (Delivers doubleOfInt system) (start system config initTimeout)
        trace ↔
      (machine doubleOfInt overflowChecks system).Throughout
        (HearsNothing doubleOfInt system) (start system config initTimeout)
        trace := by
  have hiff : ∀ (before : List (Action Step Version Capabilities
        Implementation))
      (reached : NotifiedClient State Version Capabilities Implementation),
      (machine doubleOfInt overflowChecks system).run
          (start system config initTimeout) before = some reached →
        (Delivers doubleOfInt system reached ↔
          HearsNothing doubleOfInt system reached) := by
    intro before reached hrun
    have hidle : Idle reached := StepMachine.run_invariant
      (fun _ _ _ hbefore hstep => hbefore.step hstep)
      (start_idle config initTimeout) hrun
    exact imp_congr_right fun _ => imp_congr_right fun _ =>
      hidle.delivered_iff
  constructor
  · intro hthrough before hbefore reached hrun
    exact (hiff before reached hrun).mp (hthrough before hbefore reached hrun)
  · intro hthrough before hbefore reached hrun
    exact (hiff before reached hrun).mpr (hthrough before hbefore reached hrun)

end NotifiedClient

/-! ## Over the stdio transport -/

namespace StdioTransport

/-- The reading task waits for lines, and a call for its answer or its
timer. -/
def system (json : SerdeJson) : TransportSystem StdioTransport Action where
  machine := machine json
  start := opened
  own
    | .resume _ => True
    | _ => False
  received := StdioTransport.arrived

def notifications (messages : List JsonRpcMessage) : List JsonRpcMessage :=
  messages.filter isNotification

/-- What the reading task has read is still in the queue. -/
structure Waiting (found : StdioTransport) : Prop where
  connected : found.connected = true
  queued : notifications found.inbound = notifications found.arrived

variable {self next : StdioTransport} {json : SerdeJson}

theorem Waiting.of_same {other : StdioTransport} (hwaiting : Waiting self)
    (hconnected : other.connected = self.connected)
    (hinbound : other.inbound = self.inbound)
    (harrived : other.arrived = self.arrived) : Waiting other := by
  refine ⟨hconnected.trans hwaiting.connected, ?_⟩
  rw [hinbound, harrived]
  exact hwaiting.queued

theorem Waiting.arrive (hwaiting : Waiting self) (message : JsonRpcMessage) :
    Waiting ({ self with arrived := self.arrived ++ [message] }.forward
      message) := by
  rw [StdioTransport.forward, if_pos hwaiting.connected]
  refine ⟨hwaiting.connected, ?_⟩
  dsimp only [notifications]
  rw [List.filter_append, List.filter_append]
  exact congrArg (· ++ _) hwaiting.queued

theorem Waiting.dispatch (hwaiting : Waiting self)
    (message : JsonRpcMessage) : Waiting (self.dispatch message) := by
  cases message with
  | request request => exact hwaiting.arrive _
  | notification notification => exact hwaiting.arrive _
  | response response =>
      cases hfound : self.pendingRequests.lookup response.id.display with
      | none =>
          rw [dispatch_of_lookup_none (by simpa using hfound)]
          exact hwaiting.arrive _
      | some channel =>
          have hquiet : Waiting
              { self with arrived := self.arrived ++ [.response response] } := by
            refine ⟨hwaiting.connected, ?_⟩
            simpa [notifications, isNotification] using hwaiting.queued
          simp only [StdioTransport.dispatch, hfound, deliver]
          split
          next call hcall =>
            split_ifs
            · exact hquiet.of_same rfl rfl rfl
            · exact hquiet.of_same rfl rfl rfl
          next => exact hquiet.of_same rfl rfl rfl

theorem Waiting.sendRequest (hwaiting : Waiting self)
    (request : JsonRpcRequest) (timeout : Option Auth.Duration) :
    Waiting (self.sendRequest request timeout) := by
  unfold StdioTransport.sendRequest
  split_ifs
  · exact hwaiting.of_same rfl rfl rfl
  · exact hwaiting.of_same rfl rfl rfl
  · exact hwaiting.of_same rfl rfl rfl

theorem Waiting.resume (hwaiting : Waiting self) (call : StdioCall)
    (expired : Bool) : Waiting (self.resume call expired) := by
  unfold StdioTransport.resume
  cases call.answer with
  | some response => exact hwaiting.of_same rfl rfl rfl
  | none =>
      dsimp only
      split_ifs
      · exact hwaiting.of_same rfl rfl rfl
      · exact hwaiting.of_same rfl rfl rfl
      · exact hwaiting

/-- Nothing but `receive_message` and `disconnect`, of which the client calls
only the latter, takes a notification out of the queue. -/
theorem Waiting.step (hwaiting : Waiting self) {action : Action}
    (hstep : (machine json).step self action = some next)
    (hreceive : action ≠ .receiveMessage) (hdisconnect : action ≠ .disconnect) :
    Waiting next := by
  rcases machine_step_cases hstep with
    ⟨request, timeout, _, _, rfl⟩ | ⟨call, expired, _, _, rfl⟩ |
    ⟨text, _, rfl⟩ | ⟨rfl, _⟩ | ⟨rfl, _⟩ | ⟨_, rfl⟩ | ⟨_, rfl⟩
  · exact hwaiting.sendRequest request timeout
  · exact hwaiting.resume call expired
  · rw [writeLine_eq]
    cases messageOn json text with
    | none => exact hwaiting
    | some message =>
        rw [Option.elim_some]
        split_ifs
        · exact hwaiting.dispatch message
        · exact hwaiting.of_same rfl rfl rfl
  · exact absurd rfl hreceive
  · exact absurd rfl hdisconnect
  · exact hwaiting.of_same rfl rfl rfl
  · exact hwaiting.of_same rfl rfl rfl

/-- A notification that has arrived waits as long as nothing is received and
the transport stays connected. -/
theorem throughout_waiting {trace : List Action}
    (halong : (machine json).Along
      (fun _ action => action ≠ .receiveMessage ∧ action ≠ .disconnect)
      opened trace) :
    (machine json).Throughout Waiting opened trace :=
  StepMachine.throughout_of_along
    (fun _ _ _ hwaiting hstep hmeets =>
      hwaiting.step hstep hmeets.1 hmeets.2)
    (fun _ hwaiting => hwaiting) ⟨rfl, rfl⟩ halong

end StdioTransport

/-! ## A list of tools that has changed -/

/-- Every text is the document of the notification. -/
def toolsChangedJson : SerdeJson where
  parse _ :=
    .ok (.obj [("jsonrpc", .str "2.0"),
      ("method", .str "notifications/tools/list_changed")])
  floats := ⟨fun _ => "", fun _ => none⟩
  mismatch _ := ""

def welcomingAttempt : Attempt where
  outgoing := .new
  outgoingAt := Auth.smallInstant
  outgoingMillis := 0
  transport request _ := .ok (.success request.id ⟨.null, .null⟩)
  incoming := .new
  incomingAt := Auth.smallInstant
  incomingMillis := 0

def welcomingHandshake : Handshake String Unit String where
  transportConnect := .ok ()
  initializeParams := .ok ⟨.null, .null⟩
  attempts _ := welcomingAttempt
  fromValue _ := .ok ⟨"2024-11-05", (), "server", none⟩
  initializedParams := .ok ⟨.null, .null⟩
  sendNotification _ := .ok ()
  connectedAt := 0

namespace NotifiedClient

def toolsChangedTrace :
    List (Action StdioTransport.Action String Unit String) :=
  [.call (.connect welcomingHandshake),
    .transport (.line ("\x7b\"jsonrpc\":\"2.0\"," ++
      "\"method\":\"notifications/tools/list_changed\"\x7d"))]

theorem own_step_eq_none {json : SerdeJson} {self : StdioTransport}
    (hcall : self.call = none) {step : StdioTransport.Action}
    (hown : (StdioTransport.system json).own step) :
    (StdioTransport.system json).machine.step self step = none := by
  cases step with
  | resume expired =>
      simp [StdioTransport.system, StdioTransport.machine, hcall]
  | _ => cases hown

/-- The notification has come, no step is left, and nothing is handled. -/
theorem toolsChanged_not_delivered :
    ¬ (machine (fun _ => 0) false
        (StdioTransport.system toolsChangedJson)).Throughout
      (Delivers (fun _ => 0) (StdioTransport.system toolsChangedJson))
      (start (StdioTransport.system toolsChangedJson)
        McpClient.retryingClient.config (.fromSecs 30))
      toolsChangedTrace := by
  intro hthrough
  have hrun : ((machine (fun _ => 0) false
      (StdioTransport.system toolsChangedJson)).run
      (start (StdioTransport.system toolsChangedJson)
        McpClient.retryingClient.config (.fromSecs 30))
      toolsChangedTrace).map (fun reached =>
        (reached.client.client.state, reached.tasks.length,
          reached.messageSender, reached.transport.call.isNone,
          reached.transport.arrived.countP isNotification)) =
        some (.ready, 1, some 0, true, 1) := by
    decide +kernel
  obtain ⟨reached, hreached, hfacts⟩ := Option.map_eq_some_iff.mp hrun
  simp only [Prod.mk.injEq] at hfacts
  obtain ⟨hready, htasks, hsender, hcall, harrived⟩ := hfacts
  have hidle : Idle reached := StepMachine.run_invariant
    (fun _ _ _ hbefore hstep => hbefore.step hstep)
    (start_idle _ _) hreached
  have hquiescent : Quiescent (fun _ => 0)
      (StdioTransport.system toolsChangedJson) reached := by
    refine ⟨?_, hidle.process_eq_none, ?_⟩
    · intro step hown
      exact own_step_eq_none (Option.isNone_iff_eq_none.mp hcall) hown
    · intro task
      unfold NotifiedClient.finish
      split
      next hfound =>
        obtain ⟨hlength, _⟩ := List.getElem?_eq_some_iff.mp hfound
        have hzero : task = 0 := by omega
        rw [hzero, if_pos hsender]
      next => rfl
  have hdelivered := hthrough _ (List.prefix_refl _) reached hreached hready
    hquiescent
  have hcounted := hdelivered.counted
  rw [hidle.notificationsReceived] at hcounted
  exact absurd (hcounted.trans harrived) (by decide)

end NotifiedClient

end Core
end Acdp
