import Acdp.TuiMonitor

/-!
# The monitor catches up

Updates can always be taken off the channel, so no task waits for a place in
it for ever.  Once a proxy has hung up, what it has sent arrives, and its task
receives one line after another until the connection ends.
-/

namespace Acdp
namespace Tui
namespace IpcHandler

open Auth (DateTime)
open Common

namespace Monitor

variable {library : MonitorLibrary} {state next : Monitor}

@[simp] theorem setTask_channel (state : Monitor) (number : ℕ)
    (task : ConnectionTask) :
    (state.setTask number task).channel = state.channel := rfl

@[simp] theorem setTask_tasks (state : Monitor) (number : ℕ)
    (task : ConnectionTask) :
    (state.setTask number task).tasks = state.tasks.set number task := rfl

theorem set_of_getElem? {tasks : List ConnectionTask} {number : ℕ}
    {task : ConnectionTask} (htask : tasks[number]? = some task) :
    tasks.set number task = tasks := by
  obtain ⟨hlt, rfl⟩ := List.getElem?_eq_some_iff.mp htask
  exact List.set_getElem_self hlt

/-- The application takes in whatever waits. -/
theorem exists_channel_empty (library : MonitorLibrary) (now : DateTime)
    (state : Monitor) :
    ∃ emptied, (machine library).Reaches state emptied ∧
      emptied.channel = [] ∧ emptied.tasks = state.tasks := by
  induction hchannel : state.channel generalizing state with
  | nil => exact ⟨state, StepMachine.reaches_refl _ _, hchannel, rfl⟩
  | cons entry rest ih =>
      let taken : Monitor := { state with
        channel := rest
        processed := state.processed ++ [entry.said]
        registry := state.registry.apply now entry.update }
      have hstep : (machine library).step state (.update now) = some taken := by
        change state.updateState now = some taken
        unfold updateState
        rw [hchannel]
      obtain ⟨emptied, hreaches, hempty, htasks⟩ := ih taken rfl
      exact ⟨emptied, ((StepMachine.reaches_refl _ _).next hstep).trans hreaches,
        hempty, htasks⟩

theorem reaches_connect {number : ℕ} {task changed : ConnectionTask}
    {event : IpcConnectionEvent} (htask : state.tasks[number]? = some task)
    (hchanged : task.connect library event = some changed) :
    (machine library).Reaches state (state.setTask number changed) := by
  refine (StepMachine.reaches_refl _ _).next (?_ :
    (machine library).step state (.connect number event) = _)
  change (do
    let task ← state.tasks[number]?
    let next ← task.connect library event
    some (state.setTask number next)) = _
  rw [htask, Option.bind_eq_bind, Option.bind_some, hchanged]
  rfl

theorem reaches_receive {number : ℕ} {task changed : ConnectionTask}
    {now : DateTime} (htask : state.tasks[number]? = some task)
    (hchanged : task.receive library now = some changed) :
    (machine library).Reaches state (state.setTask number changed) := by
  refine (StepMachine.reaches_refl _ _).next (?_ :
    (machine library).step state (.receive number now) = _)
  change (do
    let task ← state.tasks[number]?
    let next ← task.receive library now
    some (state.setTask number next)) = _
  rw [htask, Option.bind_eq_bind, Option.bind_some, hchanged]
  rfl

/-- What a run has done for one task, while the others stay as they are. -/
structure Serves (library : MonitorLibrary) (number : ℕ)
    (task changed : ConnectionTask) (state reached : Monitor) : Prop where
  reaches : (machine library).Reaches state reached
  tasks : reached.tasks = state.tasks.set number changed
  sent : changed.connection.sent = task.connection.sent

theorem Serves.trans {number : ℕ} {task changed final : ConnectionTask}
    {reached other : Monitor}
    (hserves : Serves library number task changed state reached)
    (hfinal : Serves library number changed final reached other) :
    Serves library number task final state other where
  reaches := hserves.reaches.trans hfinal.reaches
  tasks := by rw [hfinal.tasks, hserves.tasks, List.set_set]
  sent := hfinal.sent.trans hserves.sent

theorem Serves.getElem? {number : ℕ} {task changed : ConnectionTask}
    {reached : Monitor}
    (hserves : Serves library number task changed state reached)
    (htask : state.tasks[number]? = some task) :
    reached.tasks[number]? = some changed := by
  rw [hserves.tasks]
  exact List.getElem?_set_self (List.getElem?_eq_some_iff.mp htask).1

/-- A waiting update gets its place. -/
theorem exists_not_sending (library : MonitorLibrary) (now : DateTime)
    {number : ℕ} {task : ConnectionTask}
    (htask : state.tasks[number]? = some task) :
    ∃ reached, reached.channel = [] ∧
      Serves library number task { task with sending := none } state
        reached := by
  obtain ⟨emptied, hreaches, hempty, htasks⟩ :=
    exists_channel_empty library now state
  cases hsending : task.sending with
  | none =>
      have hsame : ({ task with sending := none } : ConnectionTask) = task := by
        rw [← hsending]
      refine ⟨emptied, hempty, hreaches, ?_, rfl⟩
      rw [hsame, htasks, set_of_getElem? htask]
  | some pair =>
      obtain ⟨message, update⟩ := pair
      let sent : Monitor :=
        { emptied.setTask number { task with sending := none } with
          channel := emptied.channel ++ [⟨number, message, update⟩] }
      have hroom : emptied.channel.length < channelCapacity := by
        rw [hempty]
        decide
      have hstep : (machine library).step emptied (.send number) =
          some sent := by
        change emptied.sendUpdate number = some sent
        unfold sendUpdate
        rw [htasks, htask, Option.bind_eq_bind, Option.bind_some, hsending,
          Option.bind_eq_bind, Option.bind_some]
        exact if_pos hroom
      obtain ⟨reached, hagain, hdrained, hsame⟩ :=
        exists_channel_empty library now sent
      refine ⟨reached, hdrained, (hreaches.next hstep).trans hagain, ?_, rfl⟩
      rw [hsame]
      change emptied.tasks.set number _ = _
      rw [htasks]

/-- What is on the wire arrives, and the end of the stream after it. -/
theorem exists_closed (library : MonitorLibrary) {number : ℕ}
    {task : ConnectionTask} (htask : state.tasks[number]? = some task)
    (hhungUp : task.connection.hungUp = true) :
    ∃ changed reached, Serves library number task changed state reached ∧
      reached.channel = state.channel ∧
      changed.connection.reader.closed = true ∧
      changed.sending = task.sending ∧ changed.done = task.done := by
  by_cases hclosed : task.connection.reader.closed = true
  · refine ⟨task, state, ⟨StepMachine.reaches_refl _ _, ?_, rfl⟩, rfl, hclosed,
      rfl, rfl⟩
    rw [set_of_getElem? htask]
  · let arrived : ConnectionTask := { task with
      connection := { task.connection with
        reader := { task.connection.reader with
          unread := task.connection.reader.unread ++ task.connection.wire
          arrived := task.connection.reader.arrived ++ task.connection.wire }
        wire := [] } }
    let ended : ConnectionTask := { arrived with
      connection := { arrived.connection with
        reader := arrived.connection.reader.close } }
    have harrive : task.connect library
        (.arrive task.connection.wire.length) = some arrived := by
      simp [ConnectionTask.connect, ConnectionTask.allows, IpcConnection.step,
        LineReader.arrive, hclosed, arrived]
    have hend : arrived.connect library .arriveEnd = some ended := by
      simp [ConnectionTask.connect, ConnectionTask.allows, IpcConnection.step,
        hhungUp, arrived, ended]
    have hfirst : Serves library number task arrived state
        (state.setTask number arrived) :=
      ⟨reaches_connect htask harrive, rfl, rfl⟩
    have hsecond : Serves library number arrived ended
        (state.setTask number arrived)
        ((state.setTask number arrived).setTask number ended) :=
      ⟨reaches_connect (hfirst.getElem? htask) hend, rfl, rfl⟩
    exact ⟨ended, _, hfirst.trans hsecond, rfl, rfl, rfl, rfl⟩

/-- A call that receives returns once the stream has ended. -/
theorem exists_receive (library : MonitorLibrary) (now : DateTime)
    {task : ConnectionTask} (hreading : task.isReading = true)
    (hclosed : task.connection.reader.closed = true) :
    ∃ changed, task.receive library now = some changed ∧
      changed.connection.reader.closed = true ∧
      changed.connection.sent = task.connection.sent := by
  obtain ⟨connection, hstep, hstill, hsent, _⟩ :=
    IpcConnection.exists_receiveMessage library.toIpcLibrary hclosed
  have hreceive : task.connection.receiveMessage library.toIpcLibrary =
      some connection := hstep
  cases hmessage : connection.received.getLast?.bind messageIn with
  | none =>
      refine ⟨{ task with connection := connection, done := true }, ?_, hstill,
        hsent⟩
      rw [ConnectionTask.receive, if_pos hreading, hreceive, Option.map_some,
        hmessage]
  | some message =>
      refine ⟨{ task with
        connection := connection
        sending := (processMessage library.texts now message).map
          (fun update => (message, update)) }, ?_, hstill, hsent⟩
      rw [ConnectionTask.receive, if_pos hreading, hreceive, Option.map_some,
        hmessage]

/-- A task whose stream has ended comes to its end: each call that receives
returns one outcome more, and the one after all that was sent is no message. -/
theorem exists_done (library : MonitorLibrary) (now : DateTime) {number : ℕ}
    {task : ConnectionTask} (hinvariant : state.Invariant library)
    (htask : state.tasks[number]? = some task)
    (hclosed : task.connection.reader.closed = true) :
    ∃ changed reached, Serves library number task changed state reached ∧
      reached.channel = [] ∧ changed.done = true ∧ changed.sending = none := by
  induction hleft : task.connection.sent.length + 1 -
      task.connection.received.length using Nat.strong_induction_on
    generalizing state task with
  | _ left ih =>
      obtain ⟨quiet, hempty, hserves⟩ := exists_not_sending library now htask
      have hquiet := hserves.getElem? htask
      cases hdone : task.done with
      | true => exact ⟨_, quiet, hserves, hempty, hdone, rfl⟩
      | false =>
          obtain ⟨changed, hreceive, hstill, hsame⟩ :=
            exists_receive library now (ConnectionTask.isReading_iff.mpr
              ⟨rfl, hdone⟩ : ConnectionTask.isReading
                { task with sending := none } = true) hclosed
          obtain ⟨_, connection, outcome, hconnection, hreceived, hchanged⟩ :=
            ConnectionTask.receive_eq hreceive
          have hnext : Serves library number { task with sending := none }
              changed quiet (quiet.setTask number changed) :=
            ⟨reaches_receive hquiet hreceive, rfl, hsame⟩
          have hthere := hnext.getElem? hquiet
          have hboth := hserves.trans hnext
          have hlink : connection.Invariant library.toIpcLibrary :=
            (hinvariant.tasks htask).connection.receiveMessage hconnection
          have hsent : connection.sent = task.connection.sent := by
            obtain ⟨_, _, rfl⟩ := Option.map_eq_some_iff.mp hconnection
            rfl
          have hlength := congrArg List.length hreceived
          rw [List.length_append, List.length_singleton] at hlength
          change _ = task.connection.received.length + 1 at hlength
          cases hmessage : messageIn outcome with
          | none =>
              rw [hmessage] at hchanged
              refine ⟨changed, _, hboth, hempty, ?_, ?_⟩
              · rw [hchanged]
              · rw [hchanged]
          | some message =>
              have hmore : task.connection.received.length <
                  task.connection.sent.length := by
                by_contra hall
                have hlast := ConnectionTask.messageIn_last hlink hreceived
                  (by rw [hsent]; exact Nat.le_of_not_lt hall)
                rw [hmessage] at hlast
                cases hlast
              have hreached : Invariant library
                  (quiet.setTask number changed) :=
                StepMachine.run_invariant
                  (fun _ _ _ hkept hstep => hkept.step hstep)
                  hinvariant hboth.reaches.choose_spec
              have hconnected : changed.connection = connection := by
                rw [hchanged, hmessage]
              obtain ⟨final, reached, hfinal, hdrained, hended, hnone⟩ :=
                ih (changed.connection.sent.length + 1 -
                    changed.connection.received.length)
                  (by rw [hconnected, hsent, hlength]; omega)
                  hreached hthere hstill rfl
              exact ⟨final, reached, hboth.trans hfinal, hdrained, hended,
                hnone⟩

/-- The tasks before a number have come to their end. -/
theorem exists_done_before (library : MonitorLibrary) (now : DateTime)
    (hinvariant : state.Invariant library)
    (hhungUp : ∀ task ∈ state.tasks, task.connection.hungUp = true)
    (count : ℕ) (hcount : count ≤ state.tasks.length) :
    ∃ reached, (machine library).Reaches state reached ∧
      reached.channel = [] ∧
      reached.tasks.map (fun task => task.connection.sent) =
        state.tasks.map (fun task => task.connection.sent) ∧
      reached.tasks.drop count = state.tasks.drop count ∧
      ∀ task ∈ reached.tasks.take count,
        task.done = true ∧ task.sending = none := by
  induction count with
  | zero =>
      obtain ⟨emptied, hreaches, hempty, htasks⟩ :=
        exists_channel_empty library now state
      refine ⟨emptied, hreaches, hempty, by rw [htasks], by rw [htasks], ?_⟩
      intro task htask
      rw [List.take_zero] at htask
      exact absurd htask List.not_mem_nil
  | succ count ih =>
      obtain ⟨reached, hreaches, _, hsents, hrest, hbefore⟩ :=
        ih (Nat.le_of_succ_le hcount)
      have hlength : reached.tasks.length = state.tasks.length := by
        have hmap := congrArg List.length hsents
        rwa [List.length_map, List.length_map] at hmap
      have hlt : count < reached.tasks.length := by omega
      have htask : reached.tasks[count]? = some reached.tasks[count] :=
        List.getElem?_eq_getElem hlt
      have hold : reached.tasks[count] ∈ state.tasks := by
        have hhead : reached.tasks[count] ∈ reached.tasks.drop count := by
          rw [List.drop_eq_getElem_cons hlt]
          exact List.mem_cons_self
        rw [hrest] at hhead
        exact List.mem_of_mem_drop hhead
      have hkept : reached.Invariant library :=
        StepMachine.run_invariant (fun _ _ _ hkept hstep => hkept.step hstep)
          hinvariant hreaches.choose_spec
      obtain ⟨ended, closing, hclose, hchannel, hclosed, _⟩ :=
        exists_closed library htask (hhungUp _ hold)
      have hclosing : closing.Invariant library :=
        StepMachine.run_invariant (fun _ _ _ hkept hstep => hkept.step hstep)
          hkept hclose.reaches.choose_spec
      obtain ⟨changed, finished, hserves, hempty, hdone, hnone⟩ :=
        exists_done library now hclosing (hclose.getElem? htask) hclosed
      have hboth := hclose.trans hserves
      refine ⟨finished, hreaches.trans hboth.reaches, hempty, ?_, ?_, ?_⟩
      · rw [hboth.tasks, List.map_set, hboth.sent, ← hsents]
        apply List.ext_getElem?
        intro other
        rw [List.getElem?_set, List.length_map]
        by_cases hother : count = other
        · subst hother
          rw [if_pos rfl, if_pos hlt, List.getElem?_map, htask]
          rfl
        · rw [if_neg hother]
      · have hafter := congrArg (List.drop 1) hrest
        rw [List.drop_drop, List.drop_drop] at hafter
        rw [hboth.tasks, List.drop_set_of_lt (Nat.lt_succ_self count)]
        exact hafter
      · intro task hmem
        have hplace : (reached.tasks.take count).length = count :=
          List.length_take_of_le hlt.le
        rw [hboth.tasks, List.take_set, List.take_succ_eq_append_getElem hlt,
          List.set_append_right _ _ hplace.le, hplace, Nat.sub_self] at hmem
        rcases List.mem_append.mp hmem with hearlier | hnew
        · exact hbefore task hearlier
        · rw [List.mem_singleton.mp hnew]
          exact ⟨hdone, hnone⟩

theorem Invariant.exists_drained (hinvariant : state.Invariant library)
    (now : DateTime)
    (hhungUp : ∀ task ∈ state.tasks, task.connection.hungUp = true) :
    ∃ finished, (machine library).Reaches state finished ∧
      finished.Drained ∧
      finished.tasks.map (fun task => task.connection.sent) =
        state.tasks.map (fun task => task.connection.sent) := by
  obtain ⟨finished, hreaches, hempty, hsents, _, hall⟩ :=
    exists_done_before library now hinvariant hhungUp state.tasks.length le_rfl
  have hlength := congrArg List.length hsents
  rw [List.length_map, List.length_map] at hlength
  rw [← hlength, List.take_length] at hall
  exact ⟨finished, hreaches, ⟨hempty, hall⟩, hsents⟩

/-- From every reachable state in which the proxies have hung up, however full
the channel is and whatever the lines say, the monitor can get to where nothing
is on its way, and everything that was sent is received. -/
theorem run_catches_up (library : MonitorLibrary) (now : DateTime)
    {trace : List MonitorAction} {reached : Monitor}
    (hrun : (machine library).run start trace = some reached)
    (hhungUp : ∀ task ∈ reached.tasks, task.connection.hungUp = true) :
    ∃ finished, (machine library).Reaches reached finished ∧
      finished.Drained ∧
      finished.tasks.map (fun task => task.connection.sent) =
        reached.tasks.map (fun task => task.connection.sent) ∧
      ((∀ task ∈ finished.tasks, task.Legible library) →
        ∀ task ∈ finished.tasks, task.heard = task.sent) := by
  have hinvariant := run_start_invariant hrun
  obtain ⟨finished, hreaches, hdrained, hsents⟩ :=
    hinvariant.exists_drained now hhungUp
  refine ⟨finished, hreaches, hdrained, hsents, ?_⟩
  intro hlegible task hmem
  obtain ⟨number, htask⟩ := List.getElem?_of_mem hmem
  have hreached : finished.Invariant library :=
    StepMachine.run_invariant (fun _ _ _ hkept hstep => hkept.step hstep)
      hinvariant hreaches.choose_spec
  exact (hreached.tasks htask).heard_of_done (hlegible task hmem)
    (hdrained.2 task hmem).1

/-! ### A run over one connection -/

def sampleInfo : ClientInfo where
  id := ⟨IpcConnection.sampleId⟩
  name := "desk"
  connectionType := .stdio
  connectedAt := Auth.smallInstant
  lastActivity := Auth.smallInstant
  activeSessions := []
  totalRequests := 2

def sampleUpdate : ClientInfo := { sampleInfo with totalRequests := 5 }

def sampleEnvelopes : List IpcEnvelope :=
  [⟨.clientConnected sampleInfo, Auth.smallInstant,
      some IpcConnection.sampleId⟩,
    ⟨.clientUpdated sampleUpdate, Auth.smallInstant,
      some IpcConnection.sampleId⟩]

def sampleLibrary : MonitorLibrary where
  toIpcLibrary := IpcConnection.tableLibrary sampleEnvelopes
  debugString text := "\"" ++ text ++ "\""

def sampleTrace : List MonitorAction :=
  [.accept,
    .connect 0 (.sendMessage (.clientConnected sampleInfo) Auth.smallInstant
      IpcConnection.sampleId),
    .connect 0 (.sendMessage (.clientUpdated sampleUpdate) Auth.smallInstant
      IpcConnection.sampleId),
    .connect 0 .hangUp]

theorem legible_of_sent {task : ConnectionTask}
    (hsent : task.connection.sent = sampleEnvelopes) :
    task.Legible sampleLibrary := by
  intro envelope hmem
  rw [hsent] at hmem
  refine ⟨IpcConnection.tableLibrary_readsBack hmem, ?_⟩
  rcases List.mem_pair.mp hmem with rfl | rfl
  · trivial
  · trivial

theorem run_catches_up_sample :
    ∃ trace finished,
      (machine sampleLibrary).run start trace = some finished ∧
      finished.Drained ∧
      finished.tasks.map ConnectionTask.heard =
        [[.clientConnected sampleInfo, .clientUpdated sampleUpdate]] := by
  have hrun : (machine sampleLibrary).run start sampleTrace = some _ := rfl
  obtain ⟨finished, hreaches, hdrained, hsents, hheard⟩ :=
    run_catches_up sampleLibrary Auth.smallInstant hrun
      (List.forall_mem_singleton.mpr rfl)
  obtain ⟨trace, hfinished⟩ := StepMachine.Reaches.trans ⟨_, hrun⟩ hreaches
  change finished.tasks.map (fun task => task.connection.sent) =
    [sampleEnvelopes] at hsents
  obtain ⟨task, htasks, hsent⟩ := List.map_eq_singleton_iff.mp hsents
  rw [htasks] at hheard
  have hall := hheard (List.forall_mem_singleton.mpr (legible_of_sent hsent))
    task List.mem_cons_self
  refine ⟨trace, finished, hfinished, hdrained, ?_⟩
  rw [htasks, List.map_singleton, hall, ConnectionTask.sent, hsent]
  rfl

end Monitor

end IpcHandler
end Tui
end Acdp
