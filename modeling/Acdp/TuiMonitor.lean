import Acdp.CommonIpc
import Acdp.TuiIpcHandler

/-!
# The monitor and the proxies connected to it

Every connection has a task of its own, which receives one message after
another and waits until its update has a place in the channel; the application
takes the updates off the channel in turn.  What it shows of a client, a
server or a session is what was said about it over its connection, in every
interleaving, and nothing that was said is lost, doubled or overtaken.
-/

namespace Acdp
namespace Tui
namespace IpcHandler

open Auth (DateTime)
open Common

def channelCapacity : ℕ := 100

structure MonitorLibrary extends IpcLibrary where
  debugString : String → String

def MonitorLibrary.texts (library : MonitorLibrary) : DisplayTexts :=
  ⟨library.toSerdeTexts, library.debugString⟩

/-- The task of one connection; `sending` is the update that waits for a place
in the channel, with the message it comes from. -/
structure ConnectionTask where
  connection : IpcConnection
  sending : Option (IpcMessage × AppStateUpdate)
  done : Bool

def messageIn : Except String (Option IpcEnvelope) → Option IpcMessage
  | .ok (some envelope) => some envelope.message
  | _ => none

namespace ConnectionTask

variable (self : ConnectionTask)

def new : ConnectionTask := ⟨.new, none, false⟩

/-- The task waits in `receive_message`. -/
def isReading : Bool := self.sending.isNone && !self.done

def heard : List IpcMessage := self.connection.received.filterMap messageIn

def held : List IpcMessage := (self.sending.map Prod.fst).toList

/-- The loop goes on with a message, and ends with anything else. -/
def receive (library : MonitorLibrary) (now : DateTime) :
    Option ConnectionTask :=
  if self.isReading then
    (self.connection.receiveMessage library.toIpcLibrary).map fun connection =>
      match connection.received.getLast?.bind messageIn with
      | some message =>
          { self with
            connection := connection
            sending := (processMessage library.texts now message).map
              (fun update => (message, update)) }
      | none => { self with connection := connection, done := true }
  else none

/-- What happens on the connection besides: the proxy sends and hangs up, bytes
arrive, and a task that waits takes them in. -/
def allows : IpcConnectionEvent → Bool
  | .receiveMessage => false
  | .poll => self.isReading
  | _ => true

def connect (library : MonitorLibrary) (event : IpcConnectionEvent) :
    Option ConnectionTask :=
  if self.allows event then
    (self.connection.step library.toIpcLibrary event).map
      fun connection => { self with connection := connection }
  else none

end ConnectionTask

/-- An update in the channel, and the task and the message it comes from. -/
structure QueuedUpdate where
  task : ℕ
  message : IpcMessage
  update : AppStateUpdate

def QueuedUpdate.said (self : QueuedUpdate) : ℕ × IpcMessage :=
  (self.task, self.message)

/-- `processed` lists the messages whose updates the application has taken in,
each with the number of its task. -/
structure Monitor where
  tasks : List ConnectionTask
  channel : List QueuedUpdate
  processed : List (ℕ × IpcMessage)
  registry : Registry

inductive MonitorAction where
  | accept
  | connect (task : ℕ) (event : IpcConnectionEvent)
  | receive (task : ℕ) (now : DateTime)
  | send (task : ℕ)
  | update (now : DateTime)

namespace Monitor

def start : Monitor := ⟨[], [], [], .empty⟩

variable (library : MonitorLibrary) (self : Monitor)

def setTask (number : ℕ) (task : ConnectionTask) : Monitor :=
  { self with tasks := self.tasks.set number task }

/-- A sender waits for a place in the channel. -/
def sendUpdate (number : ℕ) : Option Monitor := do
  let task ← self.tasks[number]?
  let (message, update) ← task.sending
  if self.channel.length < channelCapacity then
    some { self.setTask number { task with sending := none } with
      channel := self.channel ++ [⟨number, message, update⟩] }
  else none

/-- One turn of the loop in `update_state`. -/
def updateState (now : DateTime) : Option Monitor :=
  match self.channel with
  | [] => none
  | entry :: rest =>
      some { self with
        channel := rest
        processed := self.processed ++ [entry.said]
        registry := self.registry.apply now entry.update }

def step : MonitorAction → Option Monitor
  | .accept => some { self with tasks := self.tasks ++ [.new] }
  | .connect number event => do
      let task ← self.tasks[number]?
      let next ← task.connect library event
      some (self.setTask number next)
  | .receive number now => do
      let task ← self.tasks[number]?
      let next ← task.receive library now
      some (self.setTask number next)
  | .send number => self.sendUpdate number
  | .update now => self.updateState now

def machine : StepMachine Monitor MonitorAction := ⟨fun self => self.step library⟩

/-- The messages that have passed through the channel, or are in it. -/
def passed : List (ℕ × IpcMessage) :=
  self.processed ++ self.channel.map QueuedUpdate.said

/-- What the application has taken in of one task. -/
def handled (number : ℕ) : List IpcMessage :=
  KeyedEvents.ofSource number self.processed

/-- Nothing is on its way. -/
def Drained : Prop :=
  self.channel = [] ∧ ∀ task ∈ self.tasks, task.done = true ∧ task.sending = none

end Monitor

/-! ## One task -/

namespace ConnectionTask

variable {library : MonitorLibrary} {task next : ConnectionTask}
  {said : List IpcMessage}

/-- `said` is what the task has put into the channel. -/
structure Invariant (library : MonitorLibrary) (said : List IpcMessage)
    (task : ConnectionTask) : Prop where
  connection : task.connection.Invariant library.toIpcLibrary
  delivered : said ++ task.held = task.heard.filter isIncoming
  sending : ∀ {message update}, task.sending = some (message, update) →
    ∃ now, processMessage library.texts now message = some update
  ended : task.done = true →
    ∃ before last, task.connection.received = before ++ [last] ∧
      messageIn last = none

theorem new_invariant (library : MonitorLibrary) :
    new.Invariant library [] where
  connection := IpcConnection.new_invariant _
  delivered := rfl
  sending hsending := by cases hsending
  ended hdone := by cases hdone

theorem step_received {library : IpcLibrary} {state next : IpcConnection}
    {event : IpcConnectionEvent}
    (hevent : event ≠ .receiveMessage)
    (hnext : state.step library event = some next) :
    next.received = state.received := by
  cases event with
  | sendMessage message now fresh =>
      rw [IpcConnection.step, Option.ite_none_left_eq_some,
        Option.some.injEq] at hnext
      rw [← hnext.2]
      rfl
  | hangUp =>
      rw [IpcConnection.step, Option.some.injEq] at hnext
      rw [← hnext]
  | arrive count =>
      obtain ⟨reader, _, rfl⟩ := Option.map_eq_some_iff.mp hnext
      rfl
  | arriveEnd =>
      rw [IpcConnection.step, Option.ite_none_right_eq_some,
        Option.some.injEq] at hnext
      rw [← hnext.2]
  | poll =>
      obtain ⟨reader, _, rfl⟩ := Option.map_eq_some_iff.mp hnext
      rfl
  | receiveMessage => exact absurd rfl hevent

theorem connect_eq {event : IpcConnectionEvent}
    (hnext : task.connect library event = some next) :
    event ≠ .receiveMessage ∧
      ∃ connection,
        task.connection.step library.toIpcLibrary event = some connection ∧
        next = { task with connection := connection } := by
  rw [connect, Option.ite_none_right_eq_some] at hnext
  obtain ⟨hallows, hmap⟩ := hnext
  obtain ⟨connection, hconnection, rfl⟩ := Option.map_eq_some_iff.mp hmap
  refine ⟨?_, connection, hconnection, rfl⟩
  rintro rfl
  cases hallows

theorem Invariant.connect (hinvariant : task.Invariant library said)
    {event : IpcConnectionEvent}
    (hnext : task.connect library event = some next) :
    next.Invariant library said := by
  obtain ⟨hevent, connection, hconnection, rfl⟩ := connect_eq hnext
  have hreceived := step_received hevent hconnection
  refine ⟨hinvariant.connection.step hconnection, ?_, hinvariant.sending, ?_⟩
  · have hdelivered := hinvariant.delivered
    unfold heard at hdelivered ⊢
    dsimp only
    rw [hreceived]
    exact hdelivered
  · dsimp only
    rw [hreceived]
    exact hinvariant.ended

/-- What a task does with the outcome of the call that it waits in. -/
theorem receive_eq {now : DateTime}
    (hnext : task.receive library now = some next) :
    task.isReading = true ∧
      ∃ connection outcome,
        task.connection.receiveMessage library.toIpcLibrary =
          some connection ∧
        connection.received = task.connection.received ++ [outcome] ∧
        next =
          match messageIn outcome with
          | some message =>
              { task with
                connection := connection
                sending := (processMessage library.texts now message).map
                  (fun update => (message, update)) }
          | none => { task with connection := connection, done := true } := by
  rw [receive, Option.ite_none_right_eq_some] at hnext
  obtain ⟨hreading, hmap⟩ := hnext
  obtain ⟨connection, hconnection, rfl⟩ := Option.map_eq_some_iff.mp hmap
  have hreceived := hconnection
  unfold IpcConnection.receiveMessage at hreceived
  obtain ⟨⟨line, reader⟩, _, rfl⟩ := Option.map_eq_some_iff.mp hreceived
  refine ⟨hreading, _, _, hconnection, rfl, ?_⟩
  simp only [List.getLast?_concat, Option.bind_some]

theorem isReading_iff :
    task.isReading = true ↔ task.sending = none ∧ task.done = false := by
  simp [isReading]

theorem heard_of_received {connection : IpcConnection}
    {outcome : Except String (Option IpcEnvelope)}
    (hreceived :
      connection.received = task.connection.received ++ [outcome])
    (hnext : next.connection = connection) :
    next.heard = task.heard ++ (messageIn outcome).toList := by
  unfold heard
  rw [hnext, hreceived, List.filterMap_append]
  cases hmessage : messageIn outcome <;> simp [hmessage]

theorem Invariant.receive (hinvariant : task.Invariant library said)
    {now : DateTime} (hnext : task.receive library now = some next) :
    next.Invariant library said := by
  obtain ⟨hreading, connection, outcome, hconnection, hreceived, hresult⟩ :=
    receive_eq hnext
  obtain ⟨hnone, hopen⟩ := isReading_iff.mp hreading
  have hlink := hinvariant.connection.receiveMessage hconnection
  have hdelivered : said = task.heard.filter isIncoming := by
    rw [← hinvariant.delivered]
    simp [held, hnone]
  cases hmessage : messageIn outcome with
  | none =>
      rw [hmessage] at hresult
      subst hresult
      refine ⟨hlink, ?_, hinvariant.sending,
        fun _ => ⟨_, _, hreceived, hmessage⟩⟩
      rw [heard_of_received hreceived rfl, hmessage, hdelivered]
      simp [held, hnone]
  | some message =>
      rw [hmessage] at hresult
      subst hresult
      refine ⟨hlink, ?_, ?_, ?_⟩
      · rw [heard_of_received hreceived rfl, hmessage, hdelivered,
          List.filter_append]
        have hsome := processMessage_isSome library.texts now message
        cases hupdate : processMessage library.texts now message with
        | none =>
            have houtgoing : isIncoming message = false := by
              rw [← hsome, hupdate]
              rfl
            simp [held, hupdate, houtgoing]
        | some update =>
            have hincoming : isIncoming message = true := by
              rw [← hsome, hupdate]
              rfl
            simp [held, hupdate, hincoming]
      · intro other update hsending
        obtain ⟨found, hfound, hpair⟩ := Option.map_eq_some_iff.mp hsending
        cases hpair
        exact ⟨now, hfound⟩
      · intro hdone
        change task.done = true at hdone
        rw [hopen] at hdone
        cases hdone

/-- The update has gone into the channel. -/
theorem Invariant.send (hinvariant : task.Invariant library said)
    {message : IpcMessage} {update : AppStateUpdate}
    (hsending : task.sending = some (message, update)) :
    Invariant library (said ++ [message]) { task with sending := none } where
  connection := hinvariant.connection
  delivered := by
    have hdelivered := hinvariant.delivered
    simp only [held, hsending, Option.map_some, Option.toList_some]
      at hdelivered
    exact (List.append_nil _).trans hdelivered
  sending hnone := by cases hnone
  ended := hinvariant.ended

end ConnectionTask

/-! ## What a task has heard -/

namespace ConnectionTask

variable {library : MonitorLibrary} {task : ConnectionTask}
  {said : List IpcMessage}

/-- What the proxy has sent over the connection. -/
def sent (self : ConnectionTask) : List IpcMessage :=
  self.connection.sent.map IpcEnvelope.message

/-- Every message sent survives its text. -/
def Legible (library : MonitorLibrary) (self : ConnectionTask) : Prop :=
  ∀ envelope ∈ self.connection.sent, library.ReadsBack envelope ∧
    envelope.message.Kept library.toSerdeTexts

def plainMessage : Except String (Option IpcMessage) → Option IpcMessage
  | .ok message => message
  | .error _ => none

theorem messageIn_eq (outcome : Except String (Option IpcEnvelope)) :
    messageIn outcome = plainMessage (messageOf outcome) := by
  rcases outcome with error | _ | envelope
  · rfl
  · rfl
  · rfl

theorem heard_eq (hconnection :
      task.connection.Invariant library.toIpcLibrary)
    (hlegible : task.Legible library) :
    task.heard = task.sent.take task.connection.received.length := by
  obtain ⟨ends, hreceived, _⟩ := hconnection.received_eq
  have hheard : task.heard =
      (task.connection.received.map messageOf).filterMap plainMessage := by
    rw [List.filterMap_map]
    exact congrArg (fun read => task.connection.received.filterMap read)
      (funext messageIn_eq)
  have hlines : (task.connection.sent.take
        task.connection.received.length).map (fun envelope =>
          messageOf (library.receiveLine (library.line envelope))) =
      (task.connection.sent.take task.connection.received.length).map
        (fun envelope => .ok (some envelope.message)) := by
    apply List.map_congr_left
    intro envelope henvelope
    obtain ⟨hreads, hkept⟩ := hlegible envelope (List.mem_of_mem_take henvelope)
    exact (IpcLibrary.messageOf_line_iff hreads).mpr hkept
  have hends : (List.replicate ends
      (Except.ok none : Except String (Option IpcMessage))).filterMap
        plainMessage = [] := by
    rw [List.filterMap_eq_nil_iff]
    intro outcome houtcome
    rw [List.eq_of_mem_replicate houtcome]
    rfl
  rw [hheard, hreceived, hlines, List.filterMap_append, hends, List.append_nil,
    List.filterMap_map, sent, ← List.map_take]
  exact congrFun List.filterMap_eq_map _

/-- What comes after all that was sent is the end of the connection. -/
theorem messageIn_last {connection : IpcConnection} {library : IpcLibrary}
    (hconnection : connection.Invariant library)
    {before : List (Except String (Option IpcEnvelope))}
    {last : Except String (Option IpcEnvelope)}
    (hreceived : connection.received = before ++ [last])
    (hall : connection.sent.length ≤ before.length) :
    messageIn last = none := by
  obtain ⟨ends, hmap, hends⟩ := hconnection.received_eq
  have hlength : connection.received.length = before.length + 1 := by
    rw [hreceived, List.length_append, List.length_singleton]
  obtain ⟨count, rfl⟩ : ∃ count, ends = count + 1 :=
    ⟨ends - 1, by omega⟩
  rw [List.replicate_succ', ← List.append_assoc, hreceived, List.map_append,
    List.map_singleton] at hmap
  have hlast := (List.append_inj' hmap rfl).2
  rw [messageIn_eq, List.head_eq_of_cons_eq hlast]
  rfl

/-- A task that has ended has heard everything. -/
theorem Invariant.heard_of_done (hinvariant : task.Invariant library said)
    (hlegible : task.Legible library) (hdone : task.done = true) :
    task.heard = task.sent := by
  have hheard := heard_eq hinvariant.connection hlegible
  obtain ⟨before, last, hreceived, hlast⟩ := hinvariant.ended hdone
  have hlength : task.connection.received.length = before.length + 1 := by
    rw [hreceived, List.length_append, List.length_singleton]
  have hall : task.sent.length ≤ task.connection.received.length := by
    by_contra hfew
    -- otherwise every outcome is one of the messages sent
    have hcount := congrArg List.length hheard
    rw [List.length_take, Nat.min_eq_left (by omega), heard, hreceived,
      List.filterMap_append, List.length_append] at hcount
    have hbefore := List.length_filterMap_le messageIn before
    simp [hlast] at hcount
    omega
  rw [hheard, List.take_of_length_le hall]

end ConnectionTask
/-! ## The monitor -/

namespace Monitor

variable {library : MonitorLibrary} {state next : Monitor}

structure Invariant (library : MonitorLibrary) (state : Monitor) : Prop where
  tasks : ∀ {number : ℕ} {task : ConnectionTask},
    state.tasks[number]? = some task →
    task.Invariant library (KeyedEvents.ofSource number state.passed)
  numbered : ∀ said ∈ state.passed, said.1 < state.tasks.length
  bounded : state.channel.length ≤ channelCapacity
  queued : ∀ entry ∈ state.channel,
    ∃ now, processMessage library.texts now entry.message = some entry.update
  shows : state.registry.Shows library.texts
    (state.processed.map Prod.snd)

theorem start_invariant (library : MonitorLibrary) :
    start.Invariant library where
  tasks htask := by cases htask
  numbered said hsaid := absurd hsaid List.not_mem_nil
  bounded := Nat.zero_le _
  queued entry hentry := absurd hentry List.not_mem_nil
  shows := Registry.empty_shows

/-- A task that keeps its own account takes the place of another. -/
theorem Invariant.setTask (hinvariant : state.Invariant library)
    {number : ℕ} {task : ConnectionTask}
    (htask : task.Invariant library
      (KeyedEvents.ofSource number state.passed)) :
    (state.setTask number task).Invariant library where
  tasks := by
    intro other found hfound
    change (state.tasks.set number task)[other]? = some found at hfound
    rw [List.getElem?_set] at hfound
    by_cases hother : number = other
    · subst hother
      rw [if_pos rfl, Option.ite_none_right_eq_some,
        Option.some.injEq] at hfound
      rw [← hfound.2]
      exact htask
    · rw [if_neg hother] at hfound
      exact hinvariant.tasks hfound
  numbered said hsaid := by
    change said.1 < (state.tasks.set number task).length
    rw [List.length_set]
    exact hinvariant.numbered said hsaid
  bounded := hinvariant.bounded
  queued := hinvariant.queued
  shows := hinvariant.shows

theorem Invariant.accept (hinvariant : state.Invariant library) :
    ({ state with tasks := state.tasks ++ [.new] } : Monitor).Invariant
      library where
  tasks := by
    intro number task htask
    rcases Nat.lt_or_ge number state.tasks.length with hold | hnew
    · rw [List.getElem?_append_left hold] at htask
      exact hinvariant.tasks htask
    · rw [List.getElem?_append_right hnew, List.getElem?_singleton,
        Option.ite_none_right_eq_some, Option.some.injEq] at htask
      have hsilent : KeyedEvents.ofSource number state.passed = [] := by
        rw [KeyedEvents.ofSource, List.map_eq_nil_iff,
          List.filter_eq_nil_iff]
        intro said hsaid
        have hlt := hinvariant.numbered said hsaid
        have hne : said.1 ≠ number := by omega
        simpa using hne
      change ConnectionTask.Invariant library
        (KeyedEvents.ofSource number state.passed) task
      rw [hsilent, ← htask.2]
      exact ConnectionTask.new_invariant library
  numbered said hsaid := by
    have hlt := hinvariant.numbered said hsaid
    rw [List.length_append]
    omega
  bounded := hinvariant.bounded
  queued := hinvariant.queued
  shows := hinvariant.shows

theorem sendUpdate_eq {number : ℕ}
    (hnext : state.sendUpdate number = some next) :
    ∃ task message update, state.tasks[number]? = some task ∧
      task.sending = some (message, update) ∧
      state.channel.length < channelCapacity ∧
      next = { state.setTask number { task with sending := none } with
        channel := state.channel ++ [⟨number, message, update⟩] } := by
  unfold sendUpdate at hnext
  rw [Option.bind_eq_bind, Option.bind_eq_some_iff] at hnext
  obtain ⟨task, htask, hnext⟩ := hnext
  rw [Option.bind_eq_bind, Option.bind_eq_some_iff] at hnext
  obtain ⟨⟨message, update⟩, hsending, hnext⟩ := hnext
  rw [Option.ite_none_right_eq_some, Option.some.injEq] at hnext
  exact ⟨task, message, update, htask, hsending, hnext.1, hnext.2.symm⟩

theorem Invariant.sendUpdate (hinvariant : state.Invariant library)
    {number : ℕ} (hnext : state.sendUpdate number = some next) :
    next.Invariant library := by
  obtain ⟨task, message, update, htask, hsending, hroom, rfl⟩ :=
    sendUpdate_eq hnext
  have hlt : number < state.tasks.length :=
    (List.getElem?_eq_some_iff.mp htask).1
  let entry : QueuedUpdate := ⟨number, message, update⟩
  have hpassed : state.processed ++
      (state.channel ++ [entry]).map QueuedUpdate.said =
        state.passed ++ [(number, message)] := by
    rw [List.map_append, ← List.append_assoc]
    rfl
  refine ⟨?_, ?_, ?_, ?_, hinvariant.shows⟩
  · intro other found hfound
    change (state.tasks.set number _)[other]? = some found at hfound
    change found.Invariant library (KeyedEvents.ofSource other
      (state.processed ++ (state.channel ++ [entry]).map QueuedUpdate.said))
    rw [hpassed, KeyedEvents.ofSource_append]
    rw [List.getElem?_set] at hfound
    by_cases hother : number = other
    · subst hother
      rw [if_pos rfl, if_pos hlt, Option.some.injEq] at hfound
      have hself := KeyedEvents.ofSource_self number [message]
      rw [List.map_singleton] at hself
      rw [← hfound, hself]
      exact (hinvariant.tasks htask).send hsending
    · rw [if_neg hother] at hfound
      have hnone := KeyedEvents.ofSource_of_ne hother [message]
      rw [List.map_singleton] at hnone
      rw [hnone, List.append_nil]
      exact hinvariant.tasks hfound
  · intro said hsaid
    change said.1 < (state.tasks.set number _).length
    rw [List.length_set]
    change said ∈ state.processed ++
      (state.channel ++ [entry]).map QueuedUpdate.said at hsaid
    rw [hpassed] at hsaid
    rcases List.mem_append.mp hsaid with hold | hnew
    · exact hinvariant.numbered said hold
    · rw [List.mem_singleton.mp hnew]
      exact hlt
  · change (state.channel ++ [entry]).length ≤ channelCapacity
    rw [List.length_append, List.length_singleton]
    omega
  · intro other hother
    rcases List.mem_append.mp hother with hold | hnew
    · exact hinvariant.queued other hold
    · rw [List.mem_singleton.mp hnew]
      exact (hinvariant.tasks htask).sending hsending

theorem Invariant.updateState (hinvariant : state.Invariant library)
    {now : DateTime} (hnext : state.updateState now = some next) :
    next.Invariant library := by
  unfold Monitor.updateState at hnext
  cases hchannel : state.channel with
  | nil =>
      rw [hchannel] at hnext
      cases hnext
  | cons entry rest =>
      rw [hchannel, Option.some.injEq] at hnext
      subst hnext
      have hmem : ∀ other ∈ rest, other ∈ state.channel := fun other hother =>
        hchannel ▸ List.mem_cons_of_mem entry hother
      have hpassed : (state.processed ++ [entry.said]) ++
          rest.map QueuedUpdate.said = state.passed := by
        rw [passed, hchannel, List.map_cons, List.append_assoc]
        rfl
      obtain ⟨before, hupdate⟩ :=
        hinvariant.queued entry (hchannel ▸ List.mem_cons_self)
      refine ⟨?_, ?_, ?_, fun other hother =>
        hinvariant.queued other (hmem other hother), ?_⟩
      · intro number task htask
        change task.Invariant library (KeyedEvents.ofSource number
          ((state.processed ++ [_]) ++ rest.map _))
        rw [hpassed]
        exact hinvariant.tasks htask
      · intro said hsaid
        change said ∈ (state.processed ++ [_]) ++ rest.map _ at hsaid
        rw [hpassed] at hsaid
        exact hinvariant.numbered said hsaid
      · have hbounded := hinvariant.bounded
        rw [hchannel, List.length_cons] at hbounded
        change rest.length ≤ channelCapacity
        omega
      · change (state.registry.apply now entry.update).Shows library.texts
          ((state.processed ++ [_]).map Prod.snd)
        rw [List.map_append]
        exact hinvariant.shows.apply now hupdate

theorem step_setTask_eq {number : ℕ}
    {change : ConnectionTask → Option ConnectionTask}
    (hnext : (do
      let task ← state.tasks[number]?
      let next ← change task
      some (state.setTask number next)) = some next) :
    ∃ task changed, state.tasks[number]? = some task ∧
      change task = some changed ∧ next = state.setTask number changed := by
  rw [Option.bind_eq_bind, Option.bind_eq_some_iff] at hnext
  obtain ⟨task, htask, hnext⟩ := hnext
  rw [Option.bind_eq_some_iff] at hnext
  obtain ⟨changed, hchanged, hnext⟩ := hnext
  rw [Option.some.injEq] at hnext
  exact ⟨task, changed, htask, hchanged, hnext.symm⟩

theorem Invariant.step (hinvariant : state.Invariant library)
    {action : MonitorAction}
    (hnext : (machine library).step state action = some next) :
    next.Invariant library := by
  cases action with
  | accept =>
      cases hnext
      exact hinvariant.accept
  | connect number event =>
      obtain ⟨task, changed, htask, hchanged, rfl⟩ := step_setTask_eq hnext
      exact hinvariant.setTask ((hinvariant.tasks htask).connect hchanged)
  | receive number now =>
      obtain ⟨task, changed, htask, hchanged, rfl⟩ := step_setTask_eq hnext
      exact hinvariant.setTask ((hinvariant.tasks htask).receive hchanged)
  | send number => exact hinvariant.sendUpdate hnext
  | update now => exact hinvariant.updateState hnext

theorem run_start_invariant {trace : List MonitorAction}
    (hrun : (machine library).run start trace = some state) :
    state.Invariant library :=
  StepMachine.run_invariant
    (fun _ _ _ hinvariant hnext => hinvariant.step hnext)
    (start_invariant library) hrun

end Monitor

end IpcHandler
end Tui
end Acdp
