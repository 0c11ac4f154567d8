import Acdp.CommonMessages
import Acdp.KeyedEvents
import Acdp.TuiApp
import Mathlib.Data.List.AList

/-!
# What the monitor makes of a message

A message of a proxy becomes an update of the application, and an update
changes the maps of clients, servers and sessions.  Each message is about one
client, server or session at most.  What an update does to the activity feed
is in `TuiApp`; what it only puts into the diagnostics is left out.
-/

namespace Acdp
namespace Tui
namespace IpcHandler

open Auth (DateTime Uuid)
open Common

/-- The text that `Debug` gives to a string is a parameter. -/
structure DisplayTexts extends SerdeTexts where
  debugString : String → String

inductive ClientStatus where
  | connected
  | disconnected
  | error
  deriving DecidableEq, Repr

inductive ServerStatus where
  | starting
  | running
  | degraded
  | stopped
  | error
  deriving DecidableEq, Repr

structure Client where
  id : String
  name : String
  description : String
  status : ClientStatus
  requestsSent : UInt64
  lastActivity : DateTime

/-- A server without the time at which the monitor last heard of it. -/
structure ServerRecord where
  id : String
  name : String
  description : String
  serverType : ServerType
  status : ServerStatus
  requestsReceived : UInt64
  routingMode : Option String
  modelStatus : Option String
  targetAddress : Option String

structure Server extends ServerRecord where
  lastActivity : DateTime

inductive AppStateUpdate where
  | clientAdded (client : Client)
  | clientRemoved (clientId : String)
  | clientUpdated (clientId : String) (requestsSent : UInt64)
      (lastActivity : DateTime)
  | serverAdded (server : Server)
  | serverRemoved (serverId : String)
  | serverStatsUpdate (serverId : String) (requestsReceived : UInt64)
  | serverUpdated (serverId name : String) (status : ServerStatus)
  | serverHealthUpdate (serverId : String)
  | activityAdded (activity : ActivityItem)
  | sessionAdded (session : ProxySession)
  | sessionUpdated (session : ProxySession)
  | sessionRemoved (sessionId : SessionId)
  | sessionStats
  | interceptorStats (proxyId : String)
  | gatewayStateUpdate
  | gatewayMetrics
  | queryResponse (correlationId : Uuid) (response : String)
      (error : Option String)
  | routingModeChanged (proxyId mode : String)
  | semanticPredictionUpdate
  | pingReceived
  | pongReceived

/-! ## From messages to updates -/

variable (texts : DisplayTexts)

def transportDescription : TransportType → String
  | .stdio => "Transport: Stdio"
  | .httpSse => "Transport: HttpSse"
  | .httpStream => "Transport: HttpStream"

def connectionDescription : ClientConnectionType → String
  | .webSocket => "WebSocket"
  | .stdio => "Stdio"
  | .http => "Http"
  | .httpSse => "HttpSse"
  | .custom text => "Custom(" ++ texts.debugString text ++ ")"

def endpointDescription : ServerEndpoint → String
  | .command program args =>
      "Command \x7b program: " ++ texts.debugString program ++ ", args: [" ++
        ", ".intercalate (args.map texts.debugString) ++ "] \x7d"
  | .url text => "Url(" ++ texts.debugString text ++ ")"
  | .socket text => "Socket(" ++ texts.debugString text ++ ")"
  | .custom text => "Custom(" ++ texts.debugString text ++ ")"

def valueText (value : Json.OrderedValue) : String :=
  Json.print ((Json.Codec.value texts.toNumberText).write value)

def proxyStatus : ProxyStatus → ServerStatus
  | .starting => .starting
  | .running => .running
  | .stopped => .stopped
  | .error _ => .error

def serverStatus : Common.ServerStatus → ServerStatus
  | .starting => .starting
  | .running => .running
  | .degraded _ => .degraded
  | .stopped => .stopped
  | .error _ => .error

def proxyRecord (info : ProxyInfo) : ServerRecord where
  id := texts.uuidToString info.id.id
  name := info.name
  description := transportDescription info.transportType
  serverType := .proxy
  status := proxyStatus info.status
  requestsReceived := info.stats.successfulRequests
  routingMode := info.routingMode
  modelStatus := info.modelStatus
  targetAddress := info.targetCommand.head?

def serverRecord (info : ServerInfo) : ServerRecord where
  id := texts.uuidToString info.id.id
  name := info.name
  description := endpointDescription texts info.endpoint
  serverType := .server
  status := serverStatus info.status
  requestsReceived := 0
  routingMode := none
  modelStatus := none
  targetAddress := some (endpointDescription texts info.endpoint)

def clientRecord (info : ClientInfo) : Client where
  id := texts.uuidToString info.id.id
  name := info.name
  description := connectionDescription texts info.connectionType
  status := .connected
  requestsSent := info.totalRequests
  lastActivity := info.lastActivity

def sessionText (id : SessionId) : String :=
  "Session " ++ texts.uuidToString id.id

def responseStatus (response : JsonRpcResponse) : ActivityStatus :=
  if response.error.isSome then .failed else .success

/-- `process_message` up to the sending of the update; `none` for the messages
that only go from the interface to a proxy. -/
def processMessage (now : DateTime) : IpcMessage → Option AppStateUpdate
  | .proxyStarted info =>
      some (.serverAdded ⟨proxyRecord texts info, now⟩)
  | .proxyStopped proxyId =>
      some (.serverRemoved (texts.uuidToString proxyId.id))
  | .logEntry entry =>
      some (.activityAdded
        { client := "proxy-" ++ texts.uuidToString entry.proxyId.id
          server := "Gateway"
          action := entry.message
          status :=
            match entry.level with
            | .error => .failed
            | .warning => .failed
            | _ => .success })
  | .statsUpdate stats =>
      some (.serverStatsUpdate (texts.uuidToString stats.proxyId.id)
        stats.totalRequests)
  | .clientConnected info => some (.clientAdded (clientRecord texts info))
  | .clientDisconnected clientId =>
      some (.clientRemoved (texts.uuidToString clientId.id))
  | .clientUpdated info =>
      some (.clientUpdated (texts.uuidToString info.id.id) info.totalRequests
        info.lastActivity)
  | .serverConnected info =>
      some (.serverAdded ⟨serverRecord texts info, now⟩)
  | .serverDisconnected serverId =>
      some (.serverRemoved (texts.uuidToString serverId.id))
  | .sessionStarted session => some (.sessionAdded session)
  | .sessionEnded sessionId => some (.sessionRemoved sessionId)
  | .sessionStats _ => some .sessionStats
  | .clientRequest fields =>
      some (.activityAdded
        { client := texts.uuidToString fields.clientId.id
          server := "Gateway"
          action := fields.request.method ++ " (" ++
            valueText texts fields.request.id ++ ")"
          status := .processing })
  | .serverResponse fields =>
      some (.activityAdded
        { client := "Gateway"
          server := texts.uuidToString fields.serverId.id
          action := "Response for " ++ valueText texts fields.response.id
          status := responseStatus fields.response })
  | .tuiQueryResponse fields =>
      some (.queryResponse fields.correlationId fields.response fields.error)
  | .routingModeChanged fields =>
      some (.routingModeChanged (texts.uuidToString fields.proxyId.id)
        fields.mode)
  | .interceptorStats fields =>
      some (.interceptorStats (texts.uuidToString fields.proxyId.id))
  | .serverUpdated info =>
      some (.serverUpdated (texts.uuidToString info.id.id) info.name
        (serverStatus info.status))
  | .serverHealthUpdate fields =>
      some (.serverHealthUpdate (texts.uuidToString fields.serverId.id))
  | .sessionUpdated session => some (.sessionUpdated session)
  | .transformationApplied fields =>
      some (.activityAdded
        { client := sessionText texts fields.sessionId
          server := "Transform"
          action := "Applied: " ++ fields.transformation.ruleName ++ " (" ++
            fields.transformation.ruleId ++ ")"
          status := if fields.transformation.success then .success
            else .failed })
  | .routingDecision decision =>
      some (.activityAdded
        { client := sessionText texts decision.sessionId
          server := "Router"
          action := "Route to " ++
            texts.uuidToString decision.targetServer.id ++ " - " ++
            decision.reason
          status := .success })
  | .semanticPrediction _ => some .semanticPredictionUpdate
  | .gatewayStateUpdated _ => some .gatewayStateUpdate
  | .gatewayMetrics _ => some .gatewayMetrics
  | .messageFlowUpdate flow =>
      some (.activityAdded
        { client := sessionText texts flow.sessionId
          server := "Gateway"
          action := "Message " ++ texts.uuidToString flow.id.id ++ ": " ++
            flow.clientRequest.method
          status :=
            match flow.serverResponse with
            | some response => responseStatus response
            | none => .processing })
  | .error fields =>
      some (.activityAdded
        { client :=
            match fields.proxyId with
            | some proxyId => "Proxy " ++ texts.uuidToString proxyId.id
            | none => "System"
          server := "Gateway"
          action := "Error: " ++ fields.message
          status := .failed })
  | .ping => some .pingReceived
  | .pong => some .pongReceived
  | .getStatus _ => none
  | .getLogs _ => none
  | .shutdown _ => none
  | .toggleInterceptor _ => none
  | .tuiQuery _ => none
  | .tuiMcpRequest _ => none
  | .routingModeChange _ => none
  | .transformationRules _ => none
  | .routingRules _ => none

/-- The messages that the monitor takes in. -/
def isIncoming : IpcMessage → Bool
  | .getStatus _ => false
  | .getLogs _ => false
  | .shutdown _ => false
  | .toggleInterceptor _ => false
  | .tuiQuery _ => false
  | .tuiMcpRequest _ => false
  | .routingModeChange _ => false
  | .transformationRules _ => false
  | .routingRules _ => false
  | _ => true

theorem processMessage_isSome (now : DateTime) (message : IpcMessage) :
    (processMessage texts now message).isSome = isIncoming message := by
  cases message <;> rfl

/-! ## The maps of the application -/

/-- The maps of `App` that the updates keep. -/
structure Registry where
  clients : AList (fun _ : String => Client)
  servers : AList (fun _ : String => Server)
  proxySessions : AList (fun _ : SessionId => ProxySession)

/-- `get_mut`, and an assignment to what it finds. -/
def modify {Key Value : Type} [DecidableEq Key] (key : Key)
    (change : Value → Value) (map : AList (fun _ : Key => Value)) :
    AList (fun _ : Key => Value) :=
  match map.lookup key with
  | some value => map.insert key (change value)
  | none => map

namespace Registry

def empty : Registry := ⟨∅, ∅, ∅⟩

variable (self : Registry)

def modifyServer (serverId : String) (change : Server → Server) : Registry :=
  { self with servers := modify serverId change self.servers }

/-- What `update_state` does with one update. -/
def apply (now : DateTime) : AppStateUpdate → Registry
  | .clientAdded client =>
      { self with clients := self.clients.insert client.id client }
  | .clientRemoved clientId =>
      { self with clients := self.clients.erase clientId }
  | .clientUpdated clientId requestsSent lastActivity =>
      { self with
        clients := modify clientId (fun client =>
          { client with
            requestsSent := requestsSent
            lastActivity := lastActivity }) self.clients }
  | .serverAdded server =>
      { self with servers := self.servers.insert server.id server }
  | .serverRemoved serverId =>
      { self with servers := self.servers.erase serverId }
  | .serverStatsUpdate serverId requestsReceived =>
      self.modifyServer serverId (fun server =>
        { server with
          requestsReceived := requestsReceived
          lastActivity := now })
  | .serverUpdated serverId name status =>
      self.modifyServer serverId (fun server =>
        { server with
          name := name
          status := status
          lastActivity := now })
  | .routingModeChanged proxyId mode =>
      self.modifyServer proxyId (fun server =>
        { server with routingMode := some mode })
  | .sessionAdded session =>
      { self with
        proxySessions := self.proxySessions.insert session.id session }
  | .sessionUpdated session =>
      { self with
        proxySessions := self.proxySessions.insert session.id session }
  | .sessionRemoved sessionId =>
      { self with proxySessions := self.proxySessions.erase sessionId }
  | .serverHealthUpdate _ => self
  | .activityAdded _ => self
  | .sessionStats => self
  | .interceptorStats _ => self
  | .gatewayStateUpdate => self
  | .gatewayMetrics => self
  | .queryResponse _ _ _ => self
  | .semanticPredictionUpdate => self
  | .pingReceived => self
  | .pongReceived => self

end Registry

/-! ## What each message is about -/

/-- The messages about clients. -/
def clientEvents : KeyedEvents String Client IpcMessage where
  effect
    | .clientConnected info =>
        some (texts.uuidToString info.id.id, .set (clientRecord texts info))
    | .clientDisconnected clientId =>
        some (texts.uuidToString clientId.id, .clear)
    | .clientUpdated info =>
        some (texts.uuidToString info.id.id, .change fun client =>
          { client with
            requestsSent := info.totalRequests
            lastActivity := info.lastActivity })
    | _ => none

/-- The messages about servers, and about proxies, which are in the same
map. -/
def serverEvents : KeyedEvents String ServerRecord IpcMessage where
  effect
    | .proxyStarted info =>
        some (texts.uuidToString info.id.id, .set (proxyRecord texts info))
    | .proxyStopped proxyId =>
        some (texts.uuidToString proxyId.id, .clear)
    | .statsUpdate stats =>
        some (texts.uuidToString stats.proxyId.id, .change fun server =>
          { server with requestsReceived := stats.totalRequests })
    | .serverConnected info =>
        some (texts.uuidToString info.id.id, .set (serverRecord texts info))
    | .serverDisconnected serverId =>
        some (texts.uuidToString serverId.id, .clear)
    | .serverUpdated info =>
        some (texts.uuidToString info.id.id, .change fun server =>
          { server with name := info.name, status := serverStatus info.status })
    | .routingModeChanged fields =>
        some (texts.uuidToString fields.proxyId.id, .change fun server =>
          { server with routingMode := some fields.mode })
    | _ => none

/-- The messages about sessions. -/
def sessionEvents : KeyedEvents SessionId ProxySession IpcMessage where
  effect
    | .sessionStarted session => some (session.id, .set session)
    | .sessionUpdated session => some (session.id, .set session)
    | .sessionEnded sessionId => some (sessionId, .clear)
    | _ => none

/-- The maps hold what a history of messages says. -/
structure Registry.Shows (history : List IpcMessage) (registry : Registry) :
    Prop where
  clients : ∀ id, registry.clients.lookup id =
    (clientEvents texts).valueAt id history
  servers : ∀ id, (registry.servers.lookup id).map Server.toServerRecord =
    (serverEvents texts).valueAt id history
  sessions : ∀ id, registry.proxySessions.lookup id =
    sessionEvents.valueAt id history

section Lookup

variable {Key Value : Type} [DecidableEq Key]
  {map : AList (fun _ : Key => Value)} {key : Key}

theorem lookup_insert (key : Key) (value : Value) (other : Key) :
    (map.insert key value).lookup other =
      if key = other then some value else map.lookup other := by
  by_cases hkey : key = other
  · rw [if_pos hkey, hkey, AList.lookup_insert]
  · rw [if_neg hkey, AList.lookup_insert_ne (Ne.symm hkey)]

theorem lookup_erase (key other : Key) :
    (map.erase key).lookup other =
      if key = other then none else map.lookup other := by
  by_cases hkey : key = other
  · rw [if_pos hkey, hkey, AList.lookup_erase]
  · rw [if_neg hkey, AList.lookup_erase_ne (Ne.symm hkey)]

theorem lookup_modify (key : Key) (change : Value → Value) (other : Key) :
    (modify key change map).lookup other =
      if key = other then (map.lookup other).map change
      else map.lookup other := by
  unfold modify
  by_cases hkey : key = other
  · subst hkey
    cases hfound : map.lookup key with
    | none => simp [hfound]
    | some value => simp
  · cases hfound : map.lookup key with
    | none => simp [hkey]
    | some value => simp [lookup_insert, hkey]

end Lookup

variable {texts} {history : List IpcMessage} {registry : Registry}

namespace Registry

theorem empty_shows : Registry.empty.Shows texts [] where
  clients _ := rfl
  servers _ := rfl
  sessions _ := rfl

/-- The clients after an update, by what its message is about. -/
theorem apply_clients {now : DateTime} (later : DateTime)
    {message : IpcMessage} {update : AppStateUpdate}
    (hupdate : processMessage texts now message = some update) :
    (clientEvents texts).Follows message
      (fun id => registry.clients.lookup id)
      (fun id => (registry.apply later update).clients.lookup id) := by
  cases message with
  | clientConnected info =>
      cases hupdate
      exact KeyedEvents.follows_of_effect rfl (lookup_insert _ _)
  | clientDisconnected clientId =>
      cases hupdate
      exact KeyedEvents.follows_of_effect rfl (lookup_erase _)
  | clientUpdated info =>
      cases hupdate
      exact KeyedEvents.follows_of_effect rfl (lookup_modify _ _)
  | _ =>
      cases hupdate <;> apply KeyedEvents.follows_of_none <;> rfl

/-- A change of one server, and what it does to the record. -/
theorem lookup_modifyServer (serverId : String) (change : Server → Server)
    (changeRecord : ServerRecord → ServerRecord)
    (hchange : ∀ server,
      (change server).toServerRecord = changeRecord server.toServerRecord)
    (id : String) :
    ((registry.modifyServer serverId change).servers.lookup id).map
        Server.toServerRecord =
      if serverId = id then
        ((registry.servers.lookup id).map Server.toServerRecord).map
          changeRecord
      else (registry.servers.lookup id).map Server.toServerRecord := by
  unfold modifyServer
  rw [lookup_modify]
  by_cases hid : serverId = id
  · rw [if_pos hid, if_pos hid, Option.map_map, Option.map_map]
    congr 1
    funext server
    exact hchange server
  · rw [if_neg hid, if_neg hid]

/-- The servers after an update, but for the times of the monitor's own
clock. -/
theorem apply_servers {now : DateTime} (later : DateTime)
    {message : IpcMessage} {update : AppStateUpdate}
    (hupdate : processMessage texts now message = some update) :
    (serverEvents texts).Follows message
      (fun id => (registry.servers.lookup id).map Server.toServerRecord)
      (fun id => ((registry.apply later update).servers.lookup id).map
        Server.toServerRecord) := by
  have hinsert : ∀ (server : Server) (id : String),
      ((registry.servers.insert server.id server).lookup id).map
          Server.toServerRecord =
        if server.id = id then some server.toServerRecord
        else (registry.servers.lookup id).map Server.toServerRecord := by
    intro server id
    rw [lookup_insert]
    split_ifs <;> rfl
  have herase : ∀ serverId id : String,
      ((registry.servers.erase serverId).lookup id).map
          Server.toServerRecord =
        if serverId = id then none
        else (registry.servers.lookup id).map Server.toServerRecord := by
    intro serverId id
    rw [lookup_erase]
    split_ifs <;> rfl
  cases message with
  | proxyStarted info =>
      cases hupdate
      exact KeyedEvents.follows_of_effect rfl (hinsert _)
  | proxyStopped proxyId =>
      cases hupdate
      exact KeyedEvents.follows_of_effect rfl (herase _)
  | statsUpdate stats =>
      cases hupdate
      exact KeyedEvents.follows_of_effect rfl
        (lookup_modifyServer _ _ _ (fun _ => rfl))
  | serverConnected info =>
      cases hupdate
      exact KeyedEvents.follows_of_effect rfl (hinsert _)
  | serverDisconnected serverId =>
      cases hupdate
      exact KeyedEvents.follows_of_effect rfl (herase _)
  | serverUpdated info =>
      cases hupdate
      exact KeyedEvents.follows_of_effect rfl
        (lookup_modifyServer _ _ _ (fun _ => rfl))
  | routingModeChanged fields =>
      cases hupdate
      exact KeyedEvents.follows_of_effect rfl
        (lookup_modifyServer _ _ _ (fun _ => rfl))
  | _ =>
      cases hupdate <;> apply KeyedEvents.follows_of_none <;> rfl

theorem apply_sessions {now : DateTime} (later : DateTime)
    {message : IpcMessage} {update : AppStateUpdate}
    (hupdate : processMessage texts now message = some update) :
    sessionEvents.Follows message
      (fun id => registry.proxySessions.lookup id)
      (fun id => (registry.apply later update).proxySessions.lookup id) := by
  cases message with
  | sessionStarted session =>
      cases hupdate
      exact KeyedEvents.follows_of_effect rfl (lookup_insert _ _)
  | sessionUpdated session =>
      cases hupdate
      exact KeyedEvents.follows_of_effect rfl (lookup_insert _ _)
  | sessionEnded sessionId =>
      cases hupdate
      exact KeyedEvents.follows_of_effect rfl (lookup_erase _)
  | _ =>
      cases hupdate <;> apply KeyedEvents.follows_of_none <;> rfl

/-- One update more, one message more. -/
theorem Shows.apply (hshows : registry.Shows texts history)
    {now : DateTime} (later : DateTime) {message : IpcMessage}
    {update : AppStateUpdate}
    (hupdate : processMessage texts now message = some update) :
    (registry.apply later update).Shows texts (history ++ [message]) where
  clients := KeyedEvents.valueAt_concat_of_follows hshows.clients
    (apply_clients later hupdate)
  servers := KeyedEvents.valueAt_concat_of_follows hshows.servers
    (apply_servers later hupdate)
  sessions := KeyedEvents.valueAt_concat_of_follows hshows.sessions
    (apply_sessions later hupdate)

end Registry

end IpcHandler
end Tui
end Acdp
