import Acdp.AuthPrimitives
import Acdp.StepMachine
import Acdp.TextOperations

/-!
# The application behind the terminal interface

A query of the user becomes an item of the activity feed; the answer, which
arrives later, is written into that item, which is found by its position.  The
feed grows at its end, and an update of the state that finds more than a
hundred items in it drops the first fifty.  What is only drawn is left out.
-/

namespace Acdp
namespace Tui

open Auth (Uuid)

inductive ActivityStatus where
  | processing
  | success
  | failed
  deriving DecidableEq, Repr

structure ActivityItem where
  client : String
  server : String
  action : String
  status : ActivityStatus
  deriving DecidableEq, Repr

inductive ServerType where
  | proxy
  | gateway
  | server
  deriving DecidableEq, Repr

structure Server where
  id : String
  name : String
  serverType : ServerType
  routingMode : Option String
  deriving DecidableEq, Repr

/-- `item` is the number of the activity created for the query, counted from
the first one ever, and `sent` whether the query went out. -/
structure PendingQuery where
  correlationId : Uuid
  query : String
  activityIndex : ℕ
  item : ℕ
  sent : Bool

structure ActiveGeneration where
  id : ℕ
  prompt : String
  accumulated : String
  activityIndex : ℕ
  item : ℕ

/-- An answer to the query of the item `item` was written into the item
`rewritten`. -/
structure Rewrite where
  item : ℕ
  rewritten : ℕ

/-- How far an update of the state has come. -/
inductive Stage where
  | idle
  | ipc
  | generation
  deriving DecidableEq, Repr

/-- `trimmed` counts the items that were dropped, so that the item at a
position has the number `trimmed` plus that position. -/
structure App where
  servers : List Server
  activities : List ActivityItem
  ipcClient : Bool
  gatewayClient : Bool
  llmService : Bool
  pendingQueries : List PendingQuery
  activeGenerations : List ActiveGeneration
  nextGenerationId : ℕ
  selectedProxyId : Option String
  stage : Stage
  trimmed : ℕ
  rewrites : List Rewrite

/-- What a query meets: the identifier it is given, and how sending it, the
gateway's answer and the start of a generation turn out. -/
structure QueryWorld where
  correlationId : Uuid
  sent : Except String Unit
  gateway : Except String String
  started : Except String Unit

inductive AppStateUpdate where
  | serverAdded (server : Server) (connected : Bool)
  | serverRemoved (serverId : String)
  | serverUpdated (serverId name : String)
  | activityAdded (activity : ActivityItem)
  | routingModeChanged (proxyId mode : String)
  | queryResponse (correlationId : Uuid) (response : String)
      (error : Option String)
  | drawn

inductive UiGenerationEvent where
  | token (id : ℕ) (token : String)
  | completed (id : ℕ)

inductive QueryTarget where
  | proxy
  | gateway
  | llm
  deriving DecidableEq, Repr

def QueryTarget.name : QueryTarget → String
  | .proxy => "Proxy"
  | .gateway => "Gateway"
  | .llm => "LLM"

/-- The prefixes `@proxy ` and `@gateway `; all else goes to the local
model. -/
def queryTarget (query : String) : QueryTarget × String :=
  match Text.stripPrefix "@proxy " query with
  | some rest => (.proxy, rest)
  | none =>
      match Text.stripPrefix "@gateway " query with
      | some rest => (.gateway, rest)
      | none => (.llm, query)

namespace App

def start (ipcClient gatewayClient llmService : Bool) : App where
  servers := []
  activities := []
  ipcClient := ipcClient
  gatewayClient := gatewayClient
  llmService := llmService
  pendingQueries := []
  activeGenerations := []
  nextGenerationId := 0
  selectedProxyId := none
  stage := .idle
  trimmed := 0
  rewrites := []

variable (self : App)

def push (activity : ActivityItem) : App :=
  { self with activities := self.activities ++ [activity] }

/-- `activities.get_mut(index)`. -/
def change (index : ℕ) (update : ActivityItem → ActivityItem) : App :=
  { self with activities := self.activities.modify index update }

def fail (index : ℕ) (action : String) : App :=
  self.change index (fun activity =>
    { activity with status := .failed, action := action })

/-! ## Queries of the user -/

/-- The query is entered before it is sent, and stays whatever comes of it. -/
def processQueryViaIpc (world : QueryWorld) (query : String) (index : ℕ) :
    App :=
  { self with
    pendingQueries :=
      self.pendingQueries.filter
        (fun entry => entry.correlationId ≠ world.correlationId) ++
      [⟨world.correlationId, query, index, self.trimmed + index,
        world.sent.isOk⟩] }

def processQueryViaGateway (query : String) (index : ℕ) (text : String) :
    App :=
  self.change index (fun activity =>
    { activity with
      server := "Gateway"
      action := query ++ ": " ++ Text.trim text
      status := .success })

/-- The generation with its entry, or without one when it cannot start. -/
def processQueryViaLlm (world : QueryWorld) (query : String) (index : ℕ) :
    Except String Unit × App :=
  if self.llmService then
    let numbered := { self with nextGenerationId := self.nextGenerationId + 1 }
    match world.started with
    | .ok () =>
        (.ok (),
          { numbered with
            activeGenerations :=
              self.activeGenerations.filter
                (fun active => active.id ≠ self.nextGenerationId) ++
              [⟨self.nextGenerationId, query, "", index,
                self.trimmed + index⟩] })
    | .error error =>
        (.error error,
          fail
            { numbered with
              activeGenerations :=
                self.activeGenerations.filter
                  (fun active => active.id ≠ self.nextGenerationId) }
            index (query ++ " (error starting generation)"))
  else (.error "LLM service unavailable", self)

/-- The query goes where its prefix says; `index` is its item. -/
def routeQuery (world : QueryWorld) (target : QueryTarget) (query : String)
    (index : ℕ) : App :=
  match target with
  | .proxy =>
      if self.ipcClient then
        match world.sent with
        | .ok () => self.processQueryViaIpc world query index
        | .error error =>
            (self.processQueryViaIpc world query index).fail index
              (query ++ " (proxy error: " ++ error ++ ")")
      else self.fail index (query ++ " (no proxy connected)")
  | .gateway =>
      if self.gatewayClient then
        match world.gateway with
        | .ok text => self.processQueryViaGateway query index text
        | .error error =>
            self.fail index (query ++ " (gateway error: " ++ error ++ ")")
      else self.fail index (query ++ " (no gateway connected)")
  | .llm =>
      match self.processQueryViaLlm world query index with
      | (.ok (), app) => app
      | (.error error, app) =>
          app.fail index (query ++ " (processing failed: " ++ error ++ ")")

def processQuery (queryInput : String) (world : QueryWorld) : App :=
  let query := Text.trim queryInput
  if query = "" then self
  else
    let (target, actualQuery) := queryTarget query
    let shown :=
      self.push ⟨"User", target.name, actualQuery, .processing⟩
    shown.routeQuery world target actualQuery (shown.activities.length - 1)

/-! ## Proxies -/

/-- The proxies among the servers. -/
def proxies : List Server :=
  self.servers.filter (fun server => server.serverType = .proxy)

def select (server : Server) : App :=
  { self with selectedProxyId := some server.id }

/-- The map of servers has an order of its own, in which the proxies are
given. -/
def cycleProxySelection (proxies : List Server) : App :=
  match proxies with
  | [] =>
      self.push
        ⟨"User", "System", "No proxies available to select", .failed⟩
  | [only] =>
      (self.select only).push
        ⟨"User", "System", "Only one proxy: " ++ only.name ++
          " (auto-selected)", .success⟩
  | first :: others =>
      let proxies := first :: others
      let current :=
        match self.selectedProxyId with
        | some selected =>
            proxies.findIdx? (fun server => server.id = selected)
        | none => none
      let next :=
        match current with
        | some index => (index + 1) % proxies.length
        | none => 0
      let selected := proxies.getD next first
      let mode :=
        match selected.routingMode with
        | some mode => " (mode: " ++ mode ++ ")"
        | none => ""
      (self.select selected).push
        ⟨"User", "System", "Selected proxy " ++ toString (next + 1) ++ " of " ++
          toString proxies.length ++ ": " ++ selected.name ++ mode, .success⟩

/-! ## Updates of the state -/

def updateServer (serverId : String) (update : Server → Server) : App :=
  { self with
    servers := self.servers.map (fun server =>
      if server.id = serverId then update server else server) }

/-- What the answer to a query writes into its item. -/
def answered (entry : PendingQuery) (response : String)
    (error : Option String) (activity : ActivityItem) : ActivityItem :=
  match error with
  | some error =>
      { activity with
        status := .failed
        action := entry.query ++ " (Error: " ++ error ++ ")" }
  | none =>
      { activity with
        status := .success
        action := entry.query ++ " → " ++ response }

/-- An answer is written into the item at the position, if there is one. -/
def rewrite (item index : ℕ) (update : ActivityItem → ActivityItem) : App :=
  { self.change index update with
    rewrites :=
      if index < self.activities.length then
        self.rewrites ++ [⟨item, self.trimmed + index⟩]
      else self.rewrites }

def queryResponse (correlationId : Uuid) (response : String)
    (error : Option String) : App :=
  match self.pendingQueries.find?
      (fun entry => entry.correlationId = correlationId) with
  | some entry =>
      rewrite
        { self with
          pendingQueries := self.pendingQueries.filter
            (fun entry => entry.correlationId ≠ correlationId) }
        entry.item entry.activityIndex (answered entry response error)
  | none => self

/-- A proxy that is added is connected to unless there is a connection. -/
def ipcUpdate : AppStateUpdate → App
  | .serverAdded server connected =>
      { self with
        ipcClient := self.ipcClient ||
          (server.serverType = .proxy && connected)
        servers :=
          self.servers.filter (fun other => other.id ≠ server.id) ++
            [server] }
  | .serverRemoved serverId =>
      { self with
        servers := self.servers.filter (fun other => other.id ≠ serverId) }
  | .serverUpdated serverId name =>
      self.updateServer serverId (fun server => { server with name := name })
  | .activityAdded activity => self.push activity
  | .routingModeChanged proxyId mode =>
      self.updateServer proxyId
        (fun server => { server with routingMode := some mode })
  | .queryResponse correlationId response error =>
      self.queryResponse correlationId response error
  | .drawn => self

def generationEvent : UiGenerationEvent → App
  | .token id token =>
      match self.activeGenerations.find? (fun active => active.id = id) with
      | some active =>
          let accumulated := active.accumulated ++ token
          rewrite
            { self with
              activeGenerations := self.activeGenerations.map (fun other =>
                if other.id = id then
                  { active with accumulated := accumulated }
                else other) }
            active.item active.activityIndex (fun activity =>
              { activity with
                action := active.prompt ++ ": " ++ accumulated })
      | none => self
  | .completed id =>
      match self.activeGenerations.find? (fun active => active.id = id) with
      | some active =>
          rewrite
            { self with
              activeGenerations := self.activeGenerations.filter
                (fun other => other.id ≠ id) }
            active.item active.activityIndex (fun activity =>
              { activity with
                action := active.prompt ++ ": " ++ active.accumulated
                status := .success })
      | none => self

def trim : App :=
  if 100 < self.activities.length then
    { self with
      activities := self.activities.drop 50
      trimmed := self.trimmed + 50 }
  else self

/-! ## The loop -/

/-- `activity` is an item that the handling of an event has come to. -/
inductive Action where
  | enter (queryInput : String) (world : QueryWorld)
  | cycleProxy (proxies : List Server)
  | activity (activity : ActivityItem)
  | beginUpdate
  | ipcUpdate (update : AppStateUpdate)
  | endIpc
  | generationEvent (event : UiGenerationEvent)
  | endUpdate

def step : Action → Option App
  | .enter queryInput world =>
      if self.stage = .idle then some (self.processQuery queryInput world)
      else none
  | .cycleProxy proxies =>
      if self.stage = .idle ∧ proxies.Perm self.proxies then
        some (self.cycleProxySelection proxies)
      else none
  | .activity activity =>
      if self.stage = .idle then some (self.push activity) else none
  | .beginUpdate =>
      if self.stage = .idle then some { self with stage := .ipc } else none
  | .ipcUpdate update =>
      if self.stage = .ipc then some (self.ipcUpdate update) else none
  | .endIpc =>
      if self.stage = .ipc then some { self with stage := .generation }
      else none
  | .generationEvent event =>
      if self.stage = .generation then some (self.generationEvent event)
      else none
  | .endUpdate =>
      if self.stage = .generation then
        some { self.trim with stage := .idle }
      else none

def machine : StepMachine App Action where
  step := step

end App

end Tui
end Acdp
