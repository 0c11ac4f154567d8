import Acdp.CoreMessageFidelity
import Acdp.JsonLines
import Acdp.StepMachine
import Acdp.TuiAppState

/-!
# The traffic that is counted

Each message that a client's task forwards is counted in the record of the
client and in the totals.  When the client disconnects the bytes of its record
are added to the totals again: they stay those of the messages forwarded just
when no client disconnects that has forwarded one.
-/

namespace Acdp
namespace Tui

open Acdp.Core Json

/-- A message that a client's task has forwarded. -/
structure Forwarding where
  client : ClientId
  direction : MessageDirection
  message : JsonRpcMessage

/-- The length of the text of the message. -/
def Forwarding.size (json : SerdeJson) (self : Forwarding) : ℕ :=
  (print (self.message.serialize json.floats)).utf8ByteSize

def ServerMetrics.messages (self : ServerMetrics) : MessageDirection → ℕ
  | .outgoing => self.totalRequests
  | .incoming => self.totalResponses

def ServerMetrics.bytes (self : ServerMetrics) : MessageDirection → ℕ
  | .outgoing => self.bytesSent
  | .incoming => self.bytesReceived

def ClientConnection.bytes (self : ClientConnection) : MessageDirection → ℕ
  | .outgoing => self.bytesSent
  | .incoming => self.bytesReceived

/-- The weights of the messages of a direction. -/
def tally (weight : Forwarding → ℕ) (direction : MessageDirection)
    (forwardings : List Forwarding) : ℕ :=
  ((forwardings.filter (fun forwarding => forwarding.direction = direction)).map
    weight).sum

def messagesOf (client : ClientId) (forwardings : List Forwarding) :
    List Forwarding :=
  forwardings.filter (fun forwarding => forwarding.client = client)

/-- `recording` are the messages that have gone out and whose task waits for
the lock to count them; `log` are all that have gone out. -/
structure TcpTraffic where
  app : AppStateInner
  tasks : List ClientId
  recording : List Forwarding
  log : List Forwarding

namespace TcpTraffic

def start (app : AppStateInner) : TcpTraffic where
  app := { app with clients := [], metrics := {} }
  tasks := []
  recording := []
  log := []

inductive Action where
  | connect (id : ClientId)
  | forward (forwarding : Forwarding)
  | record (place : ℕ)
  | disconnect (id : ClientId)
  | tick

section Steps

variable (json : SerdeJson) (self : TcpTraffic)

/-- The identifier has never been used. -/
def Unused (id : ClientId) : Prop :=
  id ∉ self.app.ids ∧ id ∉ self.tasks ∧
    id ∉ self.log.map Forwarding.client

instance (id : ClientId) : Decidable (self.Unused id) :=
  inferInstanceAs (Decidable (_ ∧ _ ∧ _))

/-- The task of the client is not in the middle of a message. -/
def Idle (id : ClientId) : Prop :=
  id ∈ self.tasks ∧ id ∉ self.recording.map Forwarding.client

instance (id : ClientId) : Decidable (self.Idle id) :=
  inferInstanceAs (Decidable (_ ∧ _))

def connect (id : ClientId) : TcpTraffic :=
  { self with
    app := self.app.register id
    tasks := self.tasks ++ [id] }

def forward (forwarding : Forwarding) : TcpTraffic :=
  { self with
    recording := self.recording ++ [forwarding]
    log := self.log ++ [forwarding] }

def recorded (forwarding : Forwarding) : AppStateInner :=
  match forwarding.direction with
  | .outgoing =>
      self.app.recordRequest forwarding.client (forwarding.size json)
  | .incoming =>
      self.app.recordResponse forwarding.client (forwarding.size json)

def record (place : ℕ) (forwarding : Forwarding) : TcpTraffic :=
  { self with
    app := self.recorded json forwarding
    recording := self.recording.eraseIdx place }

def disconnect (id : ClientId) : TcpTraffic :=
  { self with
    app := self.app.cleanUp id
    tasks := self.tasks.filter (fun other => other ≠ id) }

def step : Action → Option TcpTraffic
  | .connect id =>
      if self.app.clients.length < self.app.maxClients ∧ self.Unused id then
        some (self.connect id)
      else none
  | .forward forwarding =>
      if self.Idle forwarding.client then some (self.forward forwarding)
      else none
  | .record place =>
      self.recording[place]?.map (self.record json place)
  | .disconnect id =>
      if self.Idle id then some (self.disconnect id) else none
  | .tick => some { self with app := self.app.updateMetrics }

end Steps

def machine (json : SerdeJson) : StepMachine TcpTraffic Action where
  step := step json

/-! ## Totals -/

/-- Every message that was forwarded is in the totals once, or its task is
about to put it there. -/
structure Accounted (json : SerdeJson) (traffic : TcpTraffic) : Prop where
  messages : ∀ direction,
    traffic.app.metrics.messages direction +
        tally (fun _ => 1) direction traffic.recording =
      tally (fun _ => 1) direction traffic.log
  bytes : ∀ direction,
    traffic.app.metrics.bytes direction +
        tally (Forwarding.size json) direction traffic.recording =
      tally (Forwarding.size json) direction traffic.log

/-- The condition on each step: who disconnects has forwarded nothing. -/
def Quiet (self : TcpTraffic) : Action → Prop
  | .disconnect id => ∀ forwarding ∈ self.log, forwarding.client ≠ id
  | _ => True

/-! ## Tallies -/

section Tallies

variable (weight : Forwarding → ℕ) (direction : MessageDirection)

theorem tally_append (before after : List Forwarding) :
    tally weight direction (before ++ after) =
      tally weight direction before + tally weight direction after := by
  unfold tally
  rw [List.filter_append, List.map_append, List.sum_append]

theorem tally_perm {before after : List Forwarding}
    (hperm : before.Perm after) :
    tally weight direction before = tally weight direction after :=
  ((hperm.filter _).map weight).sum_eq

theorem tally_eraseIdx {forwardings : List Forwarding} {place : ℕ}
    {forwarding : Forwarding}
    (hplace : forwardings[place]? = some forwarding) :
    tally weight direction (forwardings.eraseIdx place) +
        tally weight direction [forwarding] =
      tally weight direction forwardings := by
  obtain ⟨hbound, rfl⟩ := List.getElem?_eq_some_iff.mp hplace
  rw [← tally_perm weight direction
    (List.getElem_cons_eraseIdx_perm hbound), Nat.add_comm]
  exact (tally_append weight direction [_] _).symm

theorem tally_one (forwarding : Forwarding) :
    tally weight direction [forwarding] =
      if forwarding.direction = direction then weight forwarding else 0 := by
  unfold tally
  by_cases hsame : forwarding.direction = direction
  · rw [List.filter_cons_of_pos (by simpa using hsame), if_pos hsame]
    simp
  · rw [List.filter_cons_of_neg (by simpa using hsame), if_neg hsame]
    rfl

end Tallies

theorem messagesOf_append (client : ClientId)
    (before after : List Forwarding) :
    messagesOf client (before ++ after) =
      messagesOf client before ++ messagesOf client after :=
  List.filter_append _ _

theorem messagesOf_eq_nil {client : ClientId} {forwardings : List Forwarding}
    (hclient : client ∉ forwardings.map Forwarding.client) :
    messagesOf client forwardings = [] := by
  apply List.filter_eq_nil_iff.mpr
  rintro forwarding hmem hsame
  exact hclient (List.mem_map.mpr ⟨forwarding, hmem, by simpa using hsame⟩)

theorem tally_messagesOf_eraseIdx (weight : Forwarding → ℕ)
    (direction : MessageDirection) (client : ClientId)
    {forwardings : List Forwarding} {place : ℕ} {forwarding : Forwarding}
    (hplace : forwardings[place]? = some forwarding) :
    tally weight direction
        (messagesOf client (forwardings.eraseIdx place)) +
        tally weight direction (messagesOf client [forwarding]) =
      tally weight direction (messagesOf client forwardings) := by
  obtain ⟨hbound, rfl⟩ := List.getElem?_eq_some_iff.mp hplace
  have hperm : (messagesOf client forwardings).Perm
      (messagesOf client [forwardings[place]] ++
        messagesOf client (forwardings.eraseIdx place)) := by
    rw [← messagesOf_append]
    exact ((List.getElem_cons_eraseIdx_perm hbound).symm).filter _
  rw [tally_perm weight direction hperm, tally_append, Nat.add_comm]

/-- No message has an empty text. -/
theorem size_pos (json : SerdeJson) (forwarding : Forwarding) :
    0 < forwarding.size json := by
  obtain ⟨members, hmembers⟩ :=
    forwarding.message.exists_serialize_obj json.floats
  obtain ⟨body, hbody⟩ := exists_print_obj members
  unfold Forwarding.size
  rw [hmembers]
  apply Nat.pos_of_ne_zero
  intro hzero
  rw [String.utf8ByteSize_eq_zero_iff.mp hzero] at hbody
  cases hbody

theorem eq_nil_of_tally (json : SerdeJson) {forwardings : List Forwarding}
    (hzero : ∀ direction,
      tally (Forwarding.size json) direction forwardings = 0) :
    forwardings = [] := by
  cases forwardings with
  | nil => rfl
  | cons forwarding rest =>
      have hfirst := hzero forwarding.direction
      rw [← List.singleton_append, tally_append, tally_one,
        if_pos rfl] at hfirst
      have hpos := size_pos json forwarding
      omega

/-! ## What the steps do to the records -/

variable {json : SerdeJson} {self next : TcpTraffic}

theorem recorded_ids (forwarding : Forwarding) :
    (self.recorded json forwarding).ids = self.app.ids := by
  have hupdate : ∀ change : ClientConnection → ClientConnection,
      (∀ conn, (change conn).id = conn.id) →
      (self.app.update forwarding.client change).map ClientConnection.id =
        self.app.ids := by
    intro change hchange
    unfold AppStateInner.update AppStateInner.ids
    rw [List.map_map]
    apply List.map_congr_left
    intro conn _
    dsimp only [Function.comp]
    split_ifs
    · exact hchange conn
    · rfl
  unfold recorded
  cases forwarding.direction with
  | outgoing => exact hupdate _ (fun _ => rfl)
  | incoming => exact hupdate _ (fun _ => rfl)

theorem recorded_metrics (forwarding : Forwarding)
    (direction : MessageDirection) :
    (self.recorded json forwarding).metrics.messages direction =
        self.app.metrics.messages direction +
          tally (fun _ => 1) direction [forwarding] ∧
      (self.recorded json forwarding).metrics.bytes direction =
        self.app.metrics.bytes direction +
          tally (Forwarding.size json) direction [forwarding] := by
  rw [tally_one, tally_one]
  unfold recorded
  cases forwarding.direction <;> cases direction <;> exact ⟨rfl, rfl⟩

theorem recorded_clients (forwarding : Forwarding)
    {conn : ClientConnection}
    (hconn : conn ∈ (self.recorded json forwarding).clients) :
    ∃ before ∈ self.app.clients, conn.id = before.id ∧ ∀ direction,
      conn.bytes direction = before.bytes direction +
        tally (Forwarding.size json) direction
          (messagesOf before.id [forwarding]) := by
  have hmessages : ∀ id, messagesOf id [forwarding] =
      if forwarding.client = id then [forwarding] else [] := by
    intro id
    unfold messagesOf
    by_cases hsame : forwarding.client = id <;> simp [hsame]
  unfold recorded at hconn
  cases hdirection : forwarding.direction with
  | outgoing =>
      rw [hdirection] at hconn
      obtain ⟨before, hbefore, rfl⟩ := List.mem_map.mp hconn
      refine ⟨before, hbefore, by split_ifs <;> rfl, ?_⟩
      intro direction
      rw [hmessages]
      by_cases hsame : before.id = forwarding.client
      · rw [if_pos hsame, if_pos hsame.symm, tally_one, hdirection]
        cases direction <;> rfl
      · rw [if_neg hsame, if_neg (Ne.symm hsame)]
        rfl
  | incoming =>
      rw [hdirection] at hconn
      obtain ⟨before, hbefore, rfl⟩ := List.mem_map.mp hconn
      refine ⟨before, hbefore, by split_ifs <;> rfl, ?_⟩
      intro direction
      rw [hmessages]
      by_cases hsame : before.id = forwarding.client
      · rw [if_pos hsame, if_pos hsame.symm, tally_one, hdirection]
        cases direction <;> rfl
      · rw [if_neg hsame, if_neg (Ne.symm hsame)]
        rfl

theorem cleanUp_metrics {id : ClientId} {conn : ClientConnection}
    (hget : self.app.get id = some conn) (direction : MessageDirection) :
    (self.app.cleanUp id).metrics.messages direction =
        self.app.metrics.messages direction ∧
      (self.app.cleanUp id).metrics.bytes direction =
        self.app.metrics.bytes direction + conn.bytes direction := by
  unfold AppStateInner.cleanUp
  rw [hget]
  cases direction <;> exact ⟨rfl, rfl⟩

/-! ## Every record is that of its client -/

structure Sound (json : SerdeJson) (traffic : TcpTraffic) : Prop where
  accounted : traffic.Accounted json
  registered : ∀ id ∈ traffic.tasks, id ∈ traffic.app.ids
  logged : ∀ forwarding ∈ traffic.recording, forwarding ∈ traffic.log
  records : ∀ conn ∈ traffic.app.clients, ∀ direction,
    conn.bytes direction +
        tally (Forwarding.size json) direction
          (messagesOf conn.id traffic.recording) =
      tally (Forwarding.size json) direction (messagesOf conn.id traffic.log)

theorem start_sound (json : SerdeJson) (app : AppStateInner) :
    (start app).Sound json where
  accounted :=
    { messages := fun direction => by cases direction <;> rfl
      bytes := fun direction => by cases direction <;> rfl }
  registered _ hid := absurd hid List.not_mem_nil
  logged _ hforwarding := absurd hforwarding List.not_mem_nil
  records _ hconn := absurd hconn List.not_mem_nil

theorem connect_sound {id : ClientId} (hsound : self.Sound json)
    (hunused : self.Unused id) : (self.connect id).Sound json := by
  obtain ⟨hnew, _, hnever⟩ := hunused
  refine ⟨⟨hsound.accounted.messages, hsound.accounted.bytes⟩, ?_,
    hsound.logged, ?_⟩
  · intro other hother
    dsimp only [connect]
    rw [AppStateInner.register_ids hnew]
    rcases List.mem_append.mp hother with hold | hfirst
    · exact List.mem_append_left _ (hsound.registered other hold)
    · exact List.mem_append_right _ hfirst
  · intro conn hconn direction
    dsimp only [connect, AppStateInner.register] at hconn
    rw [AppStateInner.insert_of_not_mem hnew] at hconn
    rcases List.mem_append.mp hconn with hold | hfirst
    · exact hsound.records conn hold direction
    · have hunsent : messagesOf id self.recording = [] := by
        apply messagesOf_eq_nil
        intro hrecording
        obtain ⟨forwarding, hmem, hclient⟩ := List.mem_map.mp hrecording
        exact hnever (List.mem_map.mpr
          ⟨forwarding, hsound.logged forwarding hmem, hclient⟩)
      rw [List.mem_singleton.mp hfirst]
      dsimp only [connect, ClientConnection.new]
      rw [hunsent, messagesOf_eq_nil hnever]
      cases direction <;> rfl

theorem forward_sound (hsound : self.Sound json) (forwarding : Forwarding) :
    (self.forward forwarding).Sound json := by
  refine ⟨⟨?_, ?_⟩, hsound.registered, ?_, ?_⟩
  · intro direction
    dsimp only [forward]
    rw [tally_append, tally_append, ← Nat.add_assoc,
      hsound.accounted.messages]
  · intro direction
    dsimp only [forward]
    rw [tally_append, tally_append, ← Nat.add_assoc, hsound.accounted.bytes]
  · intro other hother
    rcases List.mem_append.mp hother with hold | hnew
    · exact List.mem_append_left _ (hsound.logged other hold)
    · exact List.mem_append_right _ hnew
  · intro conn hconn direction
    dsimp only [forward]
    rw [messagesOf_append, messagesOf_append, tally_append, tally_append,
      ← Nat.add_assoc, hsound.records conn hconn]

theorem record_sound {place : ℕ} {forwarding : Forwarding}
    (hsound : self.Sound json)
    (hplace : self.recording[place]? = some forwarding) :
    (self.record json place forwarding).Sound json := by
  refine ⟨⟨?_, ?_⟩, ?_, ?_, ?_⟩
  · intro direction
    have hbefore := hsound.accounted.messages direction
    have herase := tally_eraseIdx (fun _ => 1) direction hplace
    dsimp only [record]
    rw [(recorded_metrics forwarding direction).1]
    omega
  · intro direction
    have hbefore := hsound.accounted.bytes direction
    have herase := tally_eraseIdx (Forwarding.size json) direction hplace
    dsimp only [record]
    rw [(recorded_metrics forwarding direction).2]
    omega
  · intro id hid
    dsimp only [record]
    rw [recorded_ids]
    exact hsound.registered id hid
  · intro other hother
    exact hsound.logged other (List.eraseIdx_subset hother)
  · intro conn hconn direction
    obtain ⟨before, hbefore, hid, hbytes⟩ := recorded_clients forwarding hconn
    have hrecord := hsound.records before hbefore direction
    have herase := tally_messagesOf_eraseIdx (Forwarding.size json) direction
      before.id hplace
    dsimp only [record]
    rw [hid, hbytes]
    omega

theorem get_of_idle {id : ClientId} (hsound : self.Sound json)
    (hidle : self.Idle id) :
    ∃ conn ∈ self.app.clients, conn.id = id ∧ self.app.get id = some conn := by
  obtain ⟨found, hfound, hid⟩ :=
    AppStateInner.mem_ids_iff.mp (hsound.registered id hidle.1)
  cases hget : self.app.get id with
  | none =>
      have hnone := List.find?_eq_none.mp hget found hfound
      simp [hid] at hnone
  | some conn =>
      have hsame := List.find?_some hget
      exact ⟨conn, List.mem_of_find?_eq_some hget, by simpa using hsame, rfl⟩

/-- The record of a client that is in the middle of nothing is what it has
forwarded. -/
theorem record_of_idle {conn : ClientConnection} (hsound : self.Sound json)
    (hconn : conn ∈ self.app.clients) (hidle : self.Idle conn.id)
    (direction : MessageDirection) :
    conn.bytes direction = tally (Forwarding.size json) direction
      (messagesOf conn.id self.log) := by
  have hrecord := hsound.records conn hconn direction
  rw [messagesOf_eq_nil hidle.2] at hrecord
  exact hrecord

theorem disconnect_sound {id : ClientId} (hsound : self.Sound json)
    (hidle : self.Idle id)
    (hquiet : ∀ forwarding ∈ self.log, forwarding.client ≠ id) :
    (self.disconnect id).Sound json := by
  obtain ⟨conn, hconn, rfl, hget⟩ := get_of_idle hsound hidle
  have hnever : conn.id ∉ self.log.map Forwarding.client := by
    intro hlogged
    obtain ⟨forwarding, hmem, hclient⟩ := List.mem_map.mp hlogged
    exact hquiet forwarding hmem hclient
  have hnothing : ∀ direction, conn.bytes direction = 0 := by
    intro direction
    rw [record_of_idle hsound hconn hidle, messagesOf_eq_nil hnever]
    rfl
  refine ⟨⟨?_, ?_⟩, ?_, hsound.logged, ?_⟩
  · intro direction
    dsimp only [disconnect]
    rw [(cleanUp_metrics hget direction).1]
    exact hsound.accounted.messages direction
  · intro direction
    dsimp only [disconnect]
    rw [(cleanUp_metrics hget direction).2, hnothing, Nat.add_zero]
    exact hsound.accounted.bytes direction
  · intro other hother
    obtain ⟨hmem, hne⟩ := List.mem_filter.mp hother
    exact AppStateInner.mem_ids_of_cleanUp (hsound.registered other hmem)
      (by simpa using hne)
  · intro other hother direction
    dsimp only [disconnect, AppStateInner.cleanUp] at hother
    rw [hget] at hother
    exact hsound.records other (List.mem_filter.mp hother).1 direction

theorem step_sound {action : Action} (hsound : self.Sound json)
    (hstep : self.step json action = some next) (hquiet : self.Quiet action) :
    next.Sound json := by
  cases action with
  | connect id =>
      simp only [step] at hstep
      split_ifs at hstep with hready
      cases hstep
      exact connect_sound hsound hready.2
  | forward forwarding =>
      simp only [step] at hstep
      split_ifs at hstep
      cases hstep
      exact forward_sound hsound forwarding
  | record place =>
      obtain ⟨forwarding, hplace, rfl⟩ := Option.map_eq_some_iff.mp hstep
      exact record_sound hsound hplace
  | disconnect id =>
      simp only [step] at hstep
      split_ifs at hstep with hidle
      cases hstep
      exact disconnect_sound hsound hidle hquiet
  | tick =>
      cases hstep
      exact ⟨⟨hsound.accounted.messages, hsound.accounted.bytes⟩,
        hsound.registered, hsound.logged, hsound.records⟩

theorem quiet_of_accounted {action : Action} (hsound : self.Sound json)
    (hstep : self.step json action = some next)
    (hnext : next.Accounted json) : self.Quiet action := by
  cases action with
  | disconnect id =>
      simp only [step] at hstep
      split_ifs at hstep with hidle
      cases hstep
      obtain ⟨conn, hconn, rfl, hget⟩ := get_of_idle hsound hidle
      have hnothing : messagesOf conn.id self.log = [] := by
        apply eq_nil_of_tally json
        intro direction
        have hbefore := hsound.accounted.bytes direction
        have hafter := hnext.bytes direction
        dsimp only [disconnect] at hafter
        rw [(cleanUp_metrics hget direction).2] at hafter
        rw [← record_of_idle hsound hconn hidle]
        omega
      intro forwarding hmem hclient
      have hfiltered : forwarding ∈ messagesOf conn.id self.log :=
        List.mem_filter.mpr ⟨hmem, by simpa using hclient⟩
      rw [hnothing] at hfiltered
      cases hfiltered
  | _ => trivial

/-- The totals are those of the messages forwarded, throughout a run, just
when no client disconnects in it that has forwarded one. -/
theorem throughout_accounted_iff (json : SerdeJson) (app : AppStateInner)
    (trace : List Action) :
    (machine json).Throughout (Accounted json) (start app) trace ↔
      (machine json).Along Quiet (start app) trace := by
  refine StepMachine.throughout_iff_along ?_
    (fun found (hsound : Sound json found) => hsound.accounted) ?_
    (start_sound json app) trace
  · intro before action after hsound hstep hquiet
    exact step_sound hsound hstep hquiet
  · intro before action after hsound hstep hnext
    exact quiet_of_accounted hsound hstep hnext

/-- With no message under way the totals are exactly those of the log. -/
theorem Accounted.settled (haccounted : self.Accounted json)
    (hsettled : self.recording = []) (direction : MessageDirection) :
    self.app.metrics.messages direction =
        tally (fun _ => 1) direction self.log ∧
      self.app.metrics.bytes direction =
        tally (Forwarding.size json) direction self.log := by
  have hmessages := haccounted.messages direction
  have hbytes := haccounted.bytes direction
  rw [hsettled] at hmessages hbytes
  exact ⟨hmessages, hbytes⟩

def oneCall : Forwarding :=
  ⟨"client", .outgoing, .request ⟨"2.0", .number 1, "ping", none⟩⟩

/-- A client connects, sends one request and leaves. -/
def oneCallTrace : List Action :=
  [.connect "client", .forward oneCall, .record 0, .disconnect "client"]

theorem oneCallTrace_not_accounted :
    ¬ ∀ json, (machine json).Throughout (Accounted json) (start {})
      oneCallTrace := by
  intro hall
  have hthrough := hall ⟨fun _ => .error "", ⟨fun _ => "", fun _ => none⟩,
    fun _ => ""⟩
  have hreached := hthrough _ (List.prefix_refl _) _ rfl
  have hbytes := hreached.bytes .outgoing
  have hpos := size_pos ⟨fun _ => .error "", ⟨fun _ => "", fun _ => none⟩,
    fun _ => ""⟩ oneCall
  change 0 + Forwarding.size _ oneCall + (0 + Forwarding.size _ oneCall) + 0 =
    Forwarding.size _ oneCall + 0 at hbytes
  omega

end TcpTraffic

end Tui
end Acdp
