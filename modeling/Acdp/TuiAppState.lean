import Acdp.CoreInterceptor

/-!
# The state shared by the servers of the front end

The TCP listener and the HTTP server register their clients in one map, and
count connections and traffic in one record of metrics.  The counters have 64
bits; here they are natural numbers, and every total is taken to stay below
`2 ^ 64`.  Times, rates and what is concluded from them about the health of the
server are left out.
-/

namespace Acdp
namespace Tui

open Acdp.Core

abbrev ClientId := String

structure ClientConnection where
  id : ClientId
  totalRequests : ℕ
  totalResponses : ℕ
  bytesSent : ℕ
  bytesReceived : ℕ
  deriving DecidableEq, Repr

def ClientConnection.new (id : ClientId) : ClientConnection :=
  ⟨id, 0, 0, 0, 0⟩

structure ServerMetrics where
  totalConnections : ℕ := 0
  activeConnections : ℕ := 0
  totalRequests : ℕ := 0
  totalResponses : ℕ := 0
  totalErrors : ℕ := 0
  bytesSent : ℕ := 0
  bytesReceived : ℕ := 0
  totalMessages : ℕ := 0
  deriving DecidableEq, Repr

structure AppStateInner where
  clients : List ClientConnection := []
  backendCommand : String := ""
  backendUrl : Option String := none
  maxClients : ℕ := 100
  metrics : ServerMetrics := {}

namespace AppStateInner

variable (self : AppStateInner)

def ids : List ClientId := self.clients.map ClientConnection.id

/-- `clients.insert`, which takes the place of an entry of the same name. -/
def insert (id : ClientId) : List ClientConnection :=
  self.clients.filter (fun conn => conn.id ≠ id) ++ [.new id]

def remove (id : ClientId) : List ClientConnection :=
  self.clients.filter (fun conn => conn.id ≠ id)

def get (id : ClientId) : Option ClientConnection :=
  self.clients.find? (fun conn => conn.id = id)

/-- Both servers register a client this way. -/
def register (id : ClientId) : AppStateInner :=
  { self with
    clients := self.insert id
    metrics :=
      { self.metrics with
        totalConnections := self.metrics.totalConnections + 1
        activeConnections := (self.insert id).length } }

/-- The clean-up after a TCP client. -/
def cleanUp (id : ClientId) : AppStateInner :=
  match self.get id with
  | none => self
  | some conn =>
      { self with
        clients := self.remove id
        metrics :=
          { self.metrics with
            activeConnections := (self.remove id).length
            bytesSent := self.metrics.bytesSent + conn.bytesSent
            bytesReceived :=
              self.metrics.bytesReceived + conn.bytesReceived } }

def update (id : ClientId) (change : ClientConnection → ClientConnection) :
    List ClientConnection :=
  self.clients.map (fun conn => if conn.id = id then change conn else conn)

/-- A message of the client has gone to the backend. -/
def recordRequest (id : ClientId) (bytes : ℕ) : AppStateInner :=
  { self with
    clients := self.update id (fun conn =>
      { conn with
        totalRequests := conn.totalRequests + 1
        bytesSent := conn.bytesSent + bytes })
    metrics :=
      { self.metrics with
        totalRequests := self.metrics.totalRequests + 1
        bytesSent := self.metrics.bytesSent + bytes } }

/-- A message of the backend has gone to the client. -/
def recordResponse (id : ClientId) (bytes : ℕ) : AppStateInner :=
  { self with
    clients := self.update id (fun conn =>
      { conn with
        totalResponses := conn.totalResponses + 1
        bytesReceived := conn.bytesReceived + bytes })
    metrics :=
      { self.metrics with
        totalResponses := self.metrics.totalResponses + 1
        bytesReceived := self.metrics.bytesReceived + bytes } }

def updateMetrics : AppStateInner :=
  { self with
    metrics :=
      { self.metrics with
        activeConnections := self.clients.length
        totalMessages :=
          self.metrics.totalRequests + self.metrics.totalResponses } }

variable {self}

theorem mem_ids_iff {id : ClientId} :
    id ∈ self.ids ↔ ∃ conn ∈ self.clients, conn.id = id :=
  List.mem_map

theorem insert_of_not_mem {id : ClientId} (hid : id ∉ self.ids) :
    self.insert id = self.clients ++ [.new id] := by
  unfold insert
  congr 1
  apply List.filter_eq_self.mpr
  intro conn hconn
  have hother : conn.id ≠ id := by
    rintro rfl
    exact hid (mem_ids_iff.mpr ⟨conn, hconn, rfl⟩)
  simpa using hother

theorem register_ids {id : ClientId} (hid : id ∉ self.ids) :
    (self.register id).ids = self.ids ++ [id] := by
  unfold ids register
  dsimp only
  rw [insert_of_not_mem hid, List.map_append]
  rfl

theorem register_length {id : ClientId} (hid : id ∉ self.ids) :
    (self.register id).clients.length = self.clients.length + 1 := by
  unfold register
  dsimp only
  rw [insert_of_not_mem hid, List.length_append]
  rfl

theorem mem_ids_cleanUp {id other : ClientId}
    (hother : other ∈ (self.cleanUp id).ids) : other ∈ self.ids ∧ other ≠ id := by
  unfold cleanUp at hother
  cases hget : self.get id with
  | none =>
      rw [hget] at hother
      refine ⟨hother, ?_⟩
      rintro rfl
      obtain ⟨conn, hconn, hid⟩ := mem_ids_iff.mp hother
      have hnone := List.find?_eq_none.mp hget conn hconn
      simp [hid] at hnone
  | some conn =>
      rw [hget] at hother
      obtain ⟨found, hfound, rfl⟩ := mem_ids_iff.mp hother
      obtain ⟨hmem, hne⟩ := List.mem_filter.mp hfound
      exact ⟨mem_ids_iff.mpr ⟨found, hmem, rfl⟩, by simpa using hne⟩

theorem mem_ids_of_cleanUp {id other : ClientId} (hother : other ∈ self.ids)
    (hne : other ≠ id) : other ∈ (self.cleanUp id).ids := by
  unfold cleanUp
  cases hget : self.get id with
  | none => exact hother
  | some conn =>
      obtain ⟨found, hfound, rfl⟩ := mem_ids_iff.mp hother
      exact mem_ids_iff.mpr
        ⟨found, List.mem_filter.mpr ⟨hfound, by simpa using hne⟩, rfl⟩

theorem cleanUp_length_le (id : ClientId) :
    (self.cleanUp id).clients.length ≤ self.clients.length := by
  unfold cleanUp
  cases self.get id with
  | none => exact Nat.le_refl _
  | some conn => exact List.length_filter_le _ _

end AppStateInner

end Tui
end Acdp
