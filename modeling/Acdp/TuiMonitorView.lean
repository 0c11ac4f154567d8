import Acdp.TuiMonitorProgress

/-!
# What the monitor shows

In every reachable state the application has taken in the first messages that
were sent over each connection, in order, and what it shows under an
identifier that one connection announces is what these messages say.  Once
nothing is on its way these are all of them; and whenever the proxies have hung
up, that is where the monitor can get.
-/

namespace Acdp
namespace Tui
namespace IpcHandler

open Auth (DateTime)
open Common

/-! ## What the application shows -/

namespace Monitor

variable {library : MonitorLibrary} {state : Monitor}

/-- No other connection says anything about the key. -/
def AnnouncedBy {Key Value : Type} [DecidableEq Key]
    (events : KeyedEvents Key Value IpcMessage) (key : Key) (number : ℕ)
    (state : Monitor) : Prop :=
  ∀ {other : ℕ} {task : ConnectionTask}, state.tasks[other]? = some task →
    ∀ message ∈ task.sent, events.effectAt key message ≠ none →
      other = number

/-- Under each identifier that the connection announces, the application shows
what the messages say. -/
structure View (library : MonitorLibrary) (state : Monitor) (number : ℕ)
    (said : List IpcMessage) : Prop where
  clients : ∀ id,
    state.AnnouncedBy (clientEvents library.texts) id number →
    state.registry.clients.lookup id =
      (clientEvents library.texts).valueAt id said
  servers : ∀ id,
    state.AnnouncedBy (serverEvents library.texts) id number →
    (state.registry.servers.lookup id).map Server.toServerRecord =
      (serverEvents library.texts).valueAt id said
  sessions : ∀ id, state.AnnouncedBy sessionEvents id number →
    state.registry.proxySessions.lookup id = sessionEvents.valueAt id said

theorem Invariant.handled_isPrefix (hinvariant : state.Invariant library)
    {number : ℕ} {task : ConnectionTask}
    (htask : state.tasks[number]? = some task) :
    state.handled number <+: task.heard.filter isIncoming := by
  refine ⟨KeyedEvents.ofSource number
    (state.channel.map QueuedUpdate.said) ++ task.held, ?_⟩
  rw [← (hinvariant.tasks htask).delivered, passed,
    KeyedEvents.ofSource_append, List.append_assoc]
  rfl

theorem Invariant.handled_of_drained (hinvariant : state.Invariant library)
    (hdrained : state.Drained) {number : ℕ} {task : ConnectionTask}
    (htask : state.tasks[number]? = some task) :
    state.handled number = task.heard.filter isIncoming := by
  obtain ⟨hchannel, hdone⟩ := hdrained
  have hnone := (hdone task (List.mem_of_getElem? htask)).2
  rw [← (hinvariant.tasks htask).delivered, passed, hchannel]
  simp [ConnectionTask.held, hnone, handled]

/-- What the application has taken in was sent over the connection that it
counts for. -/
theorem Invariant.exists_sent (hinvariant : state.Invariant library)
    (hlegible : ∀ task ∈ state.tasks, task.Legible library)
    {said : ℕ × IpcMessage} (hsaid : said ∈ state.processed) :
    ∃ task, state.tasks[said.1]? = some task ∧ said.2 ∈ task.sent := by
  have hpassed : said ∈ state.passed := List.mem_append_left _ hsaid
  have hlt := hinvariant.numbered said hpassed
  have htask : state.tasks[said.1]? = some state.tasks[said.1] :=
    List.getElem?_eq_getElem hlt
  refine ⟨_, htask, ?_⟩
  have hhandled : said.2 ∈ state.handled said.1 := by
    refine List.mem_map.mpr ⟨said, List.mem_filter.mpr ⟨hsaid, ?_⟩, rfl⟩
    simp
  have hheard := (List.mem_filter.mp
    ((hinvariant.handled_isPrefix htask).subset hhandled)).1
  rw [ConnectionTask.heard_eq (hinvariant.tasks htask).connection
    (hlegible _ (List.mem_of_getElem? htask))] at hheard
  exact List.mem_of_mem_take hheard

theorem Invariant.valueAt_processed {Key Value : Type} [DecidableEq Key]
    {events : KeyedEvents Key Value IpcMessage}
    (hinvariant : state.Invariant library)
    (hlegible : ∀ task ∈ state.tasks, task.Legible library)
    {number : ℕ} {key : Key}
    (hannounced : state.AnnouncedBy events key number) :
    events.valueAt key (state.processed.map Prod.snd) =
      events.valueAt key (state.handled number) := by
  apply KeyedEvents.valueAt_of_ownedBy
  intro said hsaid habout
  obtain ⟨task, htask, hsent⟩ := hinvariant.exists_sent hlegible hsaid
  exact hannounced htask said.2 hsent habout

theorem Invariant.view_handled (hinvariant : state.Invariant library)
    (hlegible : ∀ task ∈ state.tasks, task.Legible library) (number : ℕ) :
    state.View library number (state.handled number) where
  clients id hannounced := by
    rw [hinvariant.shows.clients]
    exact hinvariant.valueAt_processed hlegible hannounced
  servers id hannounced := by
    rw [hinvariant.shows.servers]
    exact hinvariant.valueAt_processed hlegible hannounced
  sessions id hannounced := by
    rw [hinvariant.shows.sessions]
    exact hinvariant.valueAt_processed hlegible hannounced

/-- What the monitor does not take in says nothing about anyone. -/
theorem View.of_filter {number : ℕ} {said : List IpcMessage}
    (hview : state.View library number (said.filter isIncoming)) :
    state.View library number said where
  clients id hannounced := by
    rw [hview.clients id hannounced]
    apply KeyedEvents.valueAt_filter
    intro message hmessage
    cases message <;> first | rfl | cases hmessage
  servers id hannounced := by
    rw [hview.servers id hannounced]
    apply KeyedEvents.valueAt_filter
    intro message hmessage
    cases message <;> first | rfl | cases hmessage
  sessions id hannounced := by
    rw [hview.sessions id hannounced]
    apply KeyedEvents.valueAt_filter
    intro message hmessage
    cases message <;> first | rfl | cases hmessage

theorem Invariant.view_of_drained (hinvariant : state.Invariant library)
    (hlegible : ∀ task ∈ state.tasks, task.Legible library)
    (hdrained : state.Drained) {number : ℕ} {task : ConnectionTask}
    (htask : state.tasks[number]? = some task) :
    state.handled number = task.sent.filter isIncoming ∧
      state.View library number task.sent := by
  have hmem := List.mem_of_getElem? htask
  have hall := (hinvariant.tasks htask).heard_of_done (hlegible task hmem)
    (hdrained.2 task hmem).1
  have hhandled := hinvariant.handled_of_drained hdrained htask
  have hview := hinvariant.view_handled hlegible number
  rw [hall] at hhandled
  rw [hhandled] at hview
  exact ⟨hhandled, hview.of_filter⟩

/-- In every run over proxies whose messages survive their texts, the
application has taken in the first incoming messages that each connection was
sent, in order and each once, while at most a hundred updates wait; under each
identifier that one connection announces it shows what these messages say, and
once nothing is on its way what all the messages sent over it say. -/
theorem run_view (library : MonitorLibrary) {trace : List MonitorAction}
    {reached : Monitor}
    (hrun : (machine library).run start trace = some reached)
    (hlegible : ∀ task ∈ reached.tasks, task.Legible library) :
    reached.channel.length ≤ channelCapacity ∧
    ∀ number task, reached.tasks[number]? = some task →
      reached.handled number <+: task.sent.filter isIncoming ∧
      reached.View library number (reached.handled number) ∧
      (reached.Drained →
        reached.handled number = task.sent.filter isIncoming ∧
        reached.View library number task.sent) := by
  have hinvariant := run_start_invariant hrun
  refine ⟨hinvariant.bounded, ?_⟩
  intro number task htask
  have hmem := List.mem_of_getElem? htask
  refine ⟨?_, hinvariant.view_handled hlegible number, fun hdrained =>
    hinvariant.view_of_drained hlegible hdrained htask⟩
  have hbegun := hinvariant.handled_isPrefix htask
  rw [ConnectionTask.heard_eq (hinvariant.tasks htask).connection
    (hlegible task hmem)] at hbegun
  exact hbegun.trans ((List.take_prefix _ _).filter _)

/-- The one connection of the sample run has been served to its end. -/
theorem exists_sample_drained :
    ∃ trace finished task,
      (machine sampleLibrary).run start trace = some finished ∧
      finished.Drained ∧ finished.tasks = [task] ∧
      task.connection.sent = sampleEnvelopes := by
  have hrun : (machine sampleLibrary).run start sampleTrace = some _ := rfl
  obtain ⟨finished, hreaches, hdrained, hsents⟩ :=
    (run_start_invariant hrun).exists_drained Auth.smallInstant
      (List.forall_mem_singleton.mpr rfl)
  obtain ⟨trace, hfinished⟩ := StepMachine.Reaches.trans ⟨_, hrun⟩ hreaches
  obtain ⟨task, htasks, hsent⟩ := List.map_eq_singleton_iff.mp hsents
  exact ⟨trace, finished, task, hfinished, hdrained, htasks, hsent⟩

theorem run_view_sample :
    ∃ trace finished,
      (machine sampleLibrary).run start trace = some finished ∧
      finished.Drained ∧
      finished.handled 0 =
        [.clientConnected sampleInfo, .clientUpdated sampleUpdate] := by
  obtain ⟨trace, finished, task, hrun, hdrained, htasks, hsent⟩ :=
    exists_sample_drained
  have hlegible : ∀ task ∈ finished.tasks, task.Legible sampleLibrary := by
    rw [htasks]
    exact List.forall_mem_singleton.mpr (legible_of_sent hsent)
  have htask : finished.tasks[0]? = some task := by
    rw [htasks]
    rfl
  have hhandled := (((run_view sampleLibrary hrun hlegible).2 0 task htask).2.2
    hdrained).1
  refine ⟨trace, finished, hrun, hdrained, ?_⟩
  rw [hhandled, ConnectionTask.sent, hsent]
  rfl

end Monitor

/-! ## Which clients are listed -/

/-- The message connects or disconnects the client. -/
def Settles (id : Common.ClientId) : IpcMessage → Prop
  | .clientConnected info => info.id = id
  | .clientDisconnected other => other = id
  | _ => False

/-- What the messages bring of the client, besides. -/
def updateOf (id : Common.ClientId) : IpcMessage → Option ClientInfo
  | .clientUpdated info => if info.id = id then some info else none
  | _ => none

/-- The last thing said about the client after it was connected. -/
def latestInfo (id : Common.ClientId) (info : ClientInfo)
    (after : List IpcMessage) : ClientInfo :=
  (after.filterMap (updateOf id)).getLast?.getD info

/-- A client as it was connected, with the numbers last heard of it. -/
def listedClient (texts : DisplayTexts) (info latest : ClientInfo) : Client :=
  { clientRecord texts info with
    requestsSent := latest.totalRequests
    lastActivity := latest.lastActivity }

section Clients

variable {texts : DisplayTexts} {id : Common.ClientId} {message : IpcMessage}

theorem uuidToString_inj {left right : Common.ClientId} :
    texts.uuidToString left.id = texts.uuidToString right.id ↔
      left = right := by
  constructor
  · intro hsame
    have hread := congrArg texts.uuidParseStr hsame
    rw [texts.uuid_reads, texts.uuid_reads, Option.some.injEq] at hread
    cases left
    cases right
    exact congrArg Common.ClientId.mk hread
  · rintro rfl
    rfl

theorem effectAt_of_effect {other : Common.ClientId}
    {effect : KeyedEffect Client}
    (heffect : (clientEvents texts).effect message =
      some (texts.uuidToString other.id, effect)) :
    (clientEvents texts).effectAt (texts.uuidToString id.id) message =
      if other = id then some effect else none := by
  rw [KeyedEvents.effectAt, heffect, Option.bind_some]
  simp only [uuidToString_inj]

theorem effectAt_set_iff {client : Client} :
    (clientEvents texts).effectAt (texts.uuidToString id.id) message =
        some (.set client) ↔
      ∃ info, message = .clientConnected info ∧ info.id = id ∧
        clientRecord texts info = client := by
  cases message with
  | clientConnected info =>
      rw [effectAt_of_effect rfl, Option.ite_none_right_eq_some,
        Option.some.injEq, KeyedEffect.set.injEq]
      constructor
      · rintro ⟨hid, hclient⟩
        exact ⟨info, rfl, hid, hclient⟩
      · rintro ⟨other, hother, hid, hclient⟩
        cases hother
        exact ⟨hid, hclient⟩
  | clientDisconnected other =>
      rw [effectAt_of_effect rfl]
      simp
  | clientUpdated info =>
      rw [effectAt_of_effect rfl]
      simp
  | _ => simp [KeyedEvents.effectAt, clientEvents]

/-- A message only changes a client unless it settles whether there is one. -/
theorem effectAt_change_iff :
    (∀ effect, (clientEvents texts).effectAt (texts.uuidToString id.id)
        message = some effect → ∃ update, effect = .change update) ↔
      ¬ Settles id message := by
  cases message with
  | clientConnected info =>
      rw [effectAt_of_effect rfl]
      by_cases hid : info.id = id <;> simp [Settles, hid]
  | clientDisconnected other =>
      rw [effectAt_of_effect rfl]
      by_cases hid : other = id <;> simp [Settles, hid]
  | clientUpdated info =>
      rw [effectAt_of_effect rfl]
      by_cases hid : info.id = id <;> simp [Settles, hid]
  | _ => simp [KeyedEvents.effectAt, clientEvents, Settles]

/-- One message that does not settle anything about the client. -/
theorem changed_singleton {client : Client} (hmessage : ¬ Settles id message) :
    (clientEvents texts).changed (texts.uuidToString id.id) client [message] =
      match updateOf id message with
      | some latest =>
          { client with
            requestsSent := latest.totalRequests
            lastActivity := latest.lastActivity }
      | none => client := by
  simp only [KeyedEvents.changed, List.foldl_cons, List.foldl_nil]
  cases message with
  | clientUpdated latest =>
      rw [effectAt_of_effect rfl]
      by_cases hid : latest.id = id <;> simp [updateOf, hid]
  | clientConnected info =>
      have hid : info.id ≠ id := hmessage
      rw [effectAt_of_effect rfl, if_neg hid]
      rfl
  | clientDisconnected other =>
      have hid : other ≠ id := hmessage
      rw [effectAt_of_effect rfl, if_neg hid]
      rfl
  | _ => rfl

theorem latestInfo_concat (id : Common.ClientId) (info : ClientInfo)
    (after : List IpcMessage) (message : IpcMessage) :
    latestInfo id info (after ++ [message]) =
      (updateOf id message).getD (latestInfo id info after) := by
  rw [latestInfo, List.filterMap_append]
  cases hupdate : updateOf id message with
  | none => simp [hupdate, latestInfo]
  | some latest => simp [hupdate]

theorem changed_eq_listedClient {info : ClientInfo} {after : List IpcMessage}
    (hafter : ∀ message ∈ after, ¬ Settles id message) :
    (clientEvents texts).changed (texts.uuidToString id.id)
        (clientRecord texts info) after =
      listedClient texts info (latestInfo id info after) := by
  induction after using List.reverseRecOn with
  | nil => rfl
  | append_singleton after message ih =>
      have hearlier := ih fun other hother =>
        hafter other (List.mem_append_left _ hother)
      have hsplit : (clientEvents texts).changed (texts.uuidToString id.id)
          (clientRecord texts info) (after ++ [message]) =
            (clientEvents texts).changed (texts.uuidToString id.id)
              (listedClient texts info (latestInfo id info after))
              [message] := by
        rw [← hearlier]
        exact List.foldl_append
      rw [hsplit, changed_singleton (hafter message (by simp)),
        latestInfo_concat]
      cases updateOf id message <;> rfl

/-- A client is listed just when it was connected and not disconnected, or
connected again, after that; it is listed as it was connected, with the numbers
of the last message about it. -/
theorem valueAt_client_iff {history : List IpcMessage} {client : Client} :
    (clientEvents texts).valueAt (texts.uuidToString id.id) history =
        some client ↔
      ∃ before info after,
        history = before ++ .clientConnected info :: after ∧ info.id = id ∧
        (∀ message ∈ after, ¬ Settles id message) ∧
        client = listedClient texts info (latestInfo id info after) := by
  have honly : ∀ after, (clientEvents texts).OnlyChanges
      (texts.uuidToString id.id) after ↔
        ∀ message ∈ after, ¬ Settles id message := fun after =>
    forall₂_congr fun _ _ => effectAt_change_iff
  rw [KeyedEvents.valueAt_eq_some_iff]
  constructor
  · rintro ⟨before, event, after, first, hhistory, hset, hchanges, hchanged⟩
    obtain ⟨info, rfl, hid, rfl⟩ := effectAt_set_iff.mp hset
    have hafter := (honly after).mp hchanges
    rw [changed_eq_listedClient hafter] at hchanged
    exact ⟨before, info, after, hhistory, hid, hafter, hchanged.symm⟩
  · rintro ⟨before, info, after, hhistory, hid, hafter, rfl⟩
    exact ⟨before, _, after, _, hhistory,
      effectAt_set_iff.mpr ⟨info, rfl, hid, rfl⟩, (honly after).mpr hafter,
      changed_eq_listedClient hafter⟩

end Clients

/-- Once nothing is on its way, the application lists a client that one
connection speaks of just when it was connected over it and not disconnected
since, and with the numbers of the last message about it. -/
theorem Monitor.run_lists_client_iff (library : MonitorLibrary)
    {trace : List MonitorAction} {reached : Monitor}
    (hrun : (Monitor.machine library).run Monitor.start trace = some reached)
    (hlegible : ∀ task ∈ reached.tasks, task.Legible library)
    (hdrained : reached.Drained) {number : ℕ} {task : ConnectionTask}
    (htask : reached.tasks[number]? = some task) {id : Common.ClientId}
    (hannounced : reached.AnnouncedBy (clientEvents library.texts)
      (library.uuidToString id.id) number) (client : Client) :
    reached.registry.clients.lookup (library.uuidToString id.id) =
        some client ↔
      ∃ before info after,
        task.sent = before ++ .clientConnected info :: after ∧ info.id = id ∧
        (∀ message ∈ after, ¬ Settles id message) ∧
        client = listedClient library.texts info
          (latestInfo id info after) := by
  have hview := ((Monitor.run_start_invariant hrun).view_of_drained hlegible
    hdrained htask).2
  rw [hview.clients _ hannounced]
  exact valueAt_client_iff

theorem Monitor.run_lists_client_sample :
    ∃ trace finished,
      (Monitor.machine Monitor.sampleLibrary).run Monitor.start trace =
        some finished ∧
      finished.registry.clients.lookup
          (Monitor.sampleLibrary.uuidToString IpcConnection.sampleId) =
        some (listedClient Monitor.sampleLibrary.texts Monitor.sampleInfo
          Monitor.sampleUpdate) := by
  obtain ⟨trace, finished, task, hrun, hdrained, htasks, hsent⟩ :=
    Monitor.exists_sample_drained
  have hlegible : ∀ task ∈ finished.tasks,
      task.Legible Monitor.sampleLibrary := by
    rw [htasks]
    exact List.forall_mem_singleton.mpr (Monitor.legible_of_sent hsent)
  have htask : finished.tasks[0]? = some task := by
    rw [htasks]
    rfl
  have hannounced : finished.AnnouncedBy
      (clientEvents Monitor.sampleLibrary.texts)
      (Monitor.sampleLibrary.uuidToString Monitor.sampleInfo.id.id) 0 := by
    intro other found hfound _ _ _
    rw [htasks, List.getElem?_singleton, Option.ite_none_right_eq_some]
      at hfound
    exact hfound.1
  refine ⟨trace, finished, hrun, ?_⟩
  refine (Monitor.run_lists_client_iff Monitor.sampleLibrary hrun hlegible
    hdrained htask hannounced _).mpr
    ⟨[], Monitor.sampleInfo, [.clientUpdated Monitor.sampleUpdate], ?_, rfl,
      ?_, ?_⟩
  · rw [ConnectionTask.sent, hsent]
    rfl
  · exact List.forall_mem_singleton.mpr not_false
  · have hlatest : latestInfo Monitor.sampleInfo.id Monitor.sampleInfo
        [.clientUpdated Monitor.sampleUpdate] = Monitor.sampleUpdate := by
      simp [latestInfo, updateOf, Monitor.sampleUpdate]
    rw [hlatest]

end IpcHandler
end Tui
end Acdp
