import Acdp.AuthCapabilities
import Acdp.AuthPrimitives
import Acdp.JsonCodec

/-!
# The types of the monitoring protocol

Proxies, clients, servers, sessions, rules and metrics as the processes of the
gateway describe them to each other, each with the pair of JSON instances that
is derived from its declaration.
-/

namespace Acdp
namespace Common

open Auth (DateTime Duration Uuid)
open Json

/-! ## The libraries -/

/-- The texts that other libraries give to numbers, identifiers and instants,
and the order in which hash maps are gone through. -/
structure SerdeTexts extends NumberText where
  uuidToString : Uuid → String
  uuidParseStr : String → Option Uuid
  uuid_reads : ∀ id, uuidParseStr (uuidToString id) = some id
  dateTimeToString : DateTime → String
  dateTimeParse : String → Option DateTime
  dateTime_reads : ∀ instant,
    dateTimeParse (dateTimeToString instant) = some instant
  order : MapOrder

variable (serde : SerdeTexts)

def SerdeTexts.uuid : Codec Uuid :=
  .text serde.uuidToString serde.uuidParseStr serde.uuid_reads

def SerdeTexts.dateTime : Codec DateTime :=
  .text serde.dateTimeToString serde.dateTimeParse serde.dateTime_reads

/-- `Duration::new` on what was read, unless the seconds overflow. -/
def durationOfParts (secs : UInt64) (nanos : UInt32) : Option Duration :=
  let total := secs.toNat + nanos.toNat / 1000000000
  if total < 2 ^ 64 then
    some ⟨UInt64.ofNat total, nanos.toNat % 1000000000,
      Nat.mod_lt _ (by norm_num)⟩
  else none

def durationFields : Fields (UInt64 × UInt32) :=
  (Fields.required "secs" .u64).and (.required "nanos" .u32)

/-- The instances of `std::time::Duration`, which refuse any other member. -/
def readDuration (depth : ℕ) (doc : Json) : Option Duration :=
  if depth = 0 then none
  else
    match doc with
    | .obj members =>
        if members.all (fun member => durationFields.names.contains member.1) then
          (durationFields.read (depth - 1) members).bind
            (fun parts => durationOfParts parts.1 parts.2)
        else none
    | .arr elements =>
        match durationFields.readElements (depth - 1) elements with
        | some (parts, []) => durationOfParts parts.1 parts.2
        | _ => none
    | _ => none

def writeDuration (duration : Duration) : Json :=
  .obj (durationFields.write (duration.secs, UInt32.ofNat duration.nanos))

theorem durationOfParts_parts (duration : Duration) :
    durationOfParts duration.secs (UInt32.ofNat duration.nanos) =
      some duration := by
  obtain ⟨secs, nanos, hnanos⟩ := duration
  have hsmall : (UInt32.ofNat nanos).toNat = nanos :=
    UInt32.toNat_ofNat_of_lt' (lt_of_lt_of_le hnanos (by decide))
  have hcarry : nanos / 1000000000 = 0 := Nat.div_eq_of_lt hnanos
  have hrest : nanos % 1000000000 = nanos := Nat.mod_eq_of_lt hnanos
  simp [durationOfParts, hsmall, hcarry, hrest, secs.toNat_lt]

theorem readDuration_writeDuration_iff (depth : ℕ) (duration : Duration) :
    readDuration depth (writeDuration duration) = some duration ↔ 0 < depth := by
  by_cases hdepth : depth = 0
  · simp [readDuration, hdepth]
  · refine iff_of_true ?_ (Nat.pos_of_ne_zero hdepth)
    have hnodup : durationFields.names.Nodup := by simp [durationFields]
    have hread : durationFields.read (depth - 1)
        (durationFields.write (duration.secs, UInt32.ofNat duration.nanos)) =
          some (duration.secs, UInt32.ofNat duration.nanos) :=
      (durationFields.read_write_iff hnodup _ _).mpr (by simp [durationFields])
    have hnames : (durationFields.write
        (duration.secs, UInt32.ofNat duration.nanos)).all
          (fun member => durationFields.names.contains member.1) = true := by
      rw [List.all_eq_true]
      intro member hmem
      simpa using durationFields.named _ member hmem
    simp only [readDuration, writeDuration, if_neg hdepth, hnames, if_true,
      hread, Option.bind_some, durationOfParts_parts]

def durationCodec : Codec Duration where
  write := writeDuration
  read := readDuration
  Kept depth _ := 0 < depth
  proper _ := .obj (durationFields.proper _)
  read_write_iff := readDuration_writeDuration_iff

/-! ## Identifiers -/

structure ProxyId where
  id : Uuid
  deriving DecidableEq

structure ClientId where
  id : Uuid
  deriving DecidableEq

structure ServerId where
  id : Uuid
  deriving DecidableEq

structure SessionId where
  id : Uuid
  deriving DecidableEq

structure MessageId where
  id : Uuid
  deriving DecidableEq

def ProxyId.codec : Codec ProxyId :=
  .newtype serde.uuid ⟨ProxyId.mk, ProxyId.id, fun _ => rfl, fun _ => rfl⟩

def ClientId.codec : Codec ClientId :=
  .newtype serde.uuid ⟨ClientId.mk, ClientId.id, fun _ => rfl, fun _ => rfl⟩

def ServerId.codec : Codec ServerId :=
  .newtype serde.uuid ⟨ServerId.mk, ServerId.id, fun _ => rfl, fun _ => rfl⟩

def SessionId.codec : Codec SessionId :=
  .newtype serde.uuid ⟨SessionId.mk, SessionId.id, fun _ => rfl, fun _ => rfl⟩

def MessageId.codec : Codec MessageId :=
  .newtype serde.uuid ⟨MessageId.mk, MessageId.id, fun _ => rfl, fun _ => rfl⟩

/-! ## Logs -/

inductive LogLevel where
  | debug
  | info
  | warning
  | error
  | request
  | response
  deriving DecidableEq, Repr

namespace LogLevel

def content : LogLevel → Content
  | .debug => .unit "Debug"
  | .info => .unit "Info"
  | .warning => .unit "Warning"
  | .error => .unit "Error"
  | .request => .unit "Request"
  | .response => .unit "Response"

def variants : List (Variant LogLevel) :=
  [.unit "Debug" .debug, .unit "Info" .info, .unit "Warning" .warning,
    .unit "Error" .error, .unit "Request" .request, .unit "Response" .response]

theorem reads (value : LogLevel) :
    Reads variants value value.content := by
  cases value <;> exact .unit rfl

def codec : Codec LogLevel := .tagged variants content reads

end LogLevel

structure LogEntry where
  id : Uuid
  timestamp : DateTime
  level : LogLevel
  message : String
  proxyId : ProxyId
  requestId : Option String
  metadata : Option OrderedValue

def LogEntry.codec : Codec LogEntry :=
  .record
    ((Fields.required "id" serde.uuid).and <|
      (Fields.required "timestamp" serde.dateTime).and <|
      (Fields.required "level" LogLevel.codec).and <|
      (Fields.required "message" .string).and <|
      (Fields.required "proxy_id" (ProxyId.codec serde)).and <|
      (Fields.optional "request_id" .string).and <|
      Fields.optional "metadata" (.value serde.toNumberText))
    ⟨by simp⟩
    { toFun := fun (id, timestamp, level, message, proxyId, requestId,
          metadata) =>
        ⟨id, timestamp, level, message, proxyId, requestId, metadata⟩
      invFun := fun self =>
        (self.id, self.timestamp, self.level, self.message, self.proxyId,
          self.requestId, self.metadata)
      left_inv := fun _ => rfl
      right_inv := fun _ => rfl }

/-! ## Proxies -/

structure ProxyStats where
  proxyId : ProxyId
  totalRequests : UInt64
  successfulRequests : UInt64
  failedRequests : UInt64
  activeConnections : UInt32
  uptime : Duration
  bytesTransferred : UInt64

def ProxyStats.codec : Codec ProxyStats :=
  .record
    ((Fields.required "proxy_id" (ProxyId.codec serde)).and <|
      (Fields.required "total_requests" .u64).and <|
      (Fields.required "successful_requests" .u64).and <|
      (Fields.required "failed_requests" .u64).and <|
      (Fields.required "active_connections" .u32).and <|
      (Fields.required "uptime" durationCodec).and <|
      Fields.required "bytes_transferred" .u64)
    ⟨by simp⟩
    { toFun := fun (proxyId, totalRequests, successfulRequests, failedRequests,
          activeConnections, uptime, bytesTransferred) =>
        ⟨proxyId, totalRequests, successfulRequests, failedRequests,
          activeConnections, uptime, bytesTransferred⟩
      invFun := fun self =>
        (self.proxyId, self.totalRequests, self.successfulRequests,
          self.failedRequests, self.activeConnections, self.uptime,
          self.bytesTransferred)
      left_inv := fun _ => rfl
      right_inv := fun _ => rfl }

inductive ProxyStatus where
  | starting
  | running
  | stopped
  | error (text : String)
  deriving DecidableEq, Repr

namespace ProxyStatus

def content : ProxyStatus → Content
  | .starting => .unit "Starting"
  | .running => .unit "Running"
  | .stopped => .unit "Stopped"
  | .error text => .newtype "Error" .string text

def variants : List (Variant ProxyStatus) :=
  [.unit "Starting" .starting, .unit "Running" .running,
    .unit "Stopped" .stopped, .newtype "Error" .string .error]

theorem reads (value : ProxyStatus) :
    Reads variants value value.content := by
  cases value with
  | starting => exact .unit rfl
  | running => exact .unit rfl
  | stopped => exact .unit rfl
  | error text => exact .newtype .error rfl (fun _ _ => error.inj) rfl

def codec : Codec ProxyStatus := .tagged variants content reads

end ProxyStatus

inductive TransportType where
  | stdio
  | httpSse
  | httpStream
  deriving DecidableEq, Repr

namespace TransportType

def content : TransportType → Content
  | .stdio => .unit "Stdio"
  | .httpSse => .unit "HttpSse"
  | .httpStream => .unit "HttpStream"

def variants : List (Variant TransportType) :=
  [.unit "Stdio" .stdio, .unit "HttpSse" .httpSse,
    .unit "HttpStream" .httpStream]

theorem reads (value : TransportType) :
    Reads variants value value.content := by
  cases value <;> exact .unit rfl

def codec : Codec TransportType := .tagged variants content reads

end TransportType

structure ProxyInfo where
  id : ProxyId
  name : String
  listenAddress : String
  targetCommand : List String
  status : ProxyStatus
  stats : ProxyStats
  transportType : TransportType
  routingMode : Option String
  modelStatus : Option String

def ProxyInfo.codec : Codec ProxyInfo :=
  .record
    ((Fields.required "id" (ProxyId.codec serde)).and <|
      (Fields.required "name" .string).and <|
      (Fields.required "listen_address" .string).and <|
      (Fields.required "target_command" (.list .string)).and <|
      (Fields.required "status" ProxyStatus.codec).and <|
      (Fields.required "stats" (ProxyStats.codec serde)).and <|
      (Fields.required "transport_type" TransportType.codec).and <|
      (Fields.defaulted "routing_mode" .string).and <|
      Fields.defaulted "model_status" .string)
    ⟨by simp⟩
    { toFun := fun (id, name, listenAddress, targetCommand, status, stats,
          transportType, routingMode, modelStatus) =>
        ⟨id, name, listenAddress, targetCommand, status, stats, transportType,
          routingMode, modelStatus⟩
      invFun := fun self =>
        (self.id, self.name, self.listenAddress, self.targetCommand,
          self.status, self.stats, self.transportType, self.routingMode,
          self.modelStatus)
      left_inv := fun _ => rfl
      right_inv := fun _ => rfl }

/-! ## Clients and servers -/

inductive ClientConnectionType where
  | webSocket
  | stdio
  | http
  | httpSse
  | custom (text : String)
  deriving DecidableEq, Repr

namespace ClientConnectionType

def content : ClientConnectionType → Content
  | .webSocket => .unit "WebSocket"
  | .stdio => .unit "Stdio"
  | .http => .unit "Http"
  | .httpSse => .unit "HttpSse"
  | .custom text => .newtype "Custom" .string text

def variants : List (Variant ClientConnectionType) :=
  [.unit "WebSocket" .webSocket, .unit "Stdio" .stdio, .unit "Http" .http,
    .unit "HttpSse" .httpSse, .newtype "Custom" .string .custom]

theorem reads (value : ClientConnectionType) :
    Reads variants value value.content := by
  cases value with
  | webSocket => exact .unit rfl
  | stdio => exact .unit rfl
  | http => exact .unit rfl
  | httpSse => exact .unit rfl
  | custom text => exact .newtype .custom rfl (fun _ _ => custom.inj) rfl

def codec : Codec ClientConnectionType := .tagged variants content reads

end ClientConnectionType

structure ClientInfo where
  id : ClientId
  name : String
  connectionType : ClientConnectionType
  connectedAt : DateTime
  lastActivity : DateTime
  activeSessions : List SessionId
  totalRequests : UInt64

def ClientInfo.codec : Codec ClientInfo :=
  .record
    ((Fields.required "id" (ClientId.codec serde)).and <|
      (Fields.required "name" .string).and <|
      (Fields.required "connection_type" ClientConnectionType.codec).and <|
      (Fields.required "connected_at" serde.dateTime).and <|
      (Fields.required "last_activity" serde.dateTime).and <|
      (Fields.required "active_sessions" (.list (SessionId.codec serde))).and <|
      Fields.required "total_requests" .u64)
    ⟨by simp⟩
    { toFun := fun (id, name, connectionType, connectedAt, lastActivity,
          activeSessions, totalRequests) =>
        ⟨id, name, connectionType, connectedAt, lastActivity, activeSessions,
          totalRequests⟩
      invFun := fun self =>
        (self.id, self.name, self.connectionType, self.connectedAt,
          self.lastActivity, self.activeSessions, self.totalRequests)
      left_inv := fun _ => rfl
      right_inv := fun _ => rfl }

inductive ServerEndpoint where
  | command (program : String) (args : List String)
  | url (text : String)
  | socket (text : String)
  | custom (text : String)
  deriving DecidableEq, Repr

namespace ServerEndpoint

def commandCodec : Codec (String × List String) :=
  .record
    ((Fields.required "program" .string).and <|
      Fields.required "args" (.list .string))
    ⟨by simp⟩ (Equiv.refl _)

def makeCommand (parts : String × List String) : ServerEndpoint :=
  .command parts.1 parts.2

def content : ServerEndpoint → Content
  | .command program args => .newtype "Command" commandCodec (program, args)
  | .url text => .newtype "Url" .string text
  | .socket text => .newtype "Socket" .string text
  | .custom text => .newtype "Custom" .string text

def variants : List (Variant ServerEndpoint) :=
  [.newtype "Command" commandCodec makeCommand, .newtype "Url" .string .url,
    .newtype "Socket" .string .socket, .newtype "Custom" .string .custom]

theorem makeCommand_injective : Function.Injective makeCommand := by
  intro left right hsame
  simpa [makeCommand, Prod.ext_iff] using hsame

theorem reads (value : ServerEndpoint) :
    Reads variants value value.content := by
  cases value with
  | command program args =>
      exact .newtype makeCommand rfl makeCommand_injective rfl
  | url text => exact .newtype .url rfl (fun _ _ => url.inj) rfl
  | socket text => exact .newtype .socket rfl (fun _ _ => socket.inj) rfl
  | custom text => exact .newtype .custom rfl (fun _ _ => custom.inj) rfl

def codec : Codec ServerEndpoint := .tagged variants content reads

end ServerEndpoint

inductive ServerStatus where
  | starting
  | running
  | degraded (text : String)
  | stopped
  | error (text : String)
  deriving DecidableEq, Repr

namespace ServerStatus

def content : ServerStatus → Content
  | .starting => .unit "Starting"
  | .running => .unit "Running"
  | .degraded text => .newtype "Degraded" .string text
  | .stopped => .unit "Stopped"
  | .error text => .newtype "Error" .string text

def variants : List (Variant ServerStatus) :=
  [.unit "Starting" .starting, .unit "Running" .running,
    .newtype "Degraded" .string .degraded, .unit "Stopped" .stopped,
    .newtype "Error" .string .error]

theorem reads (value : ServerStatus) :
    Reads variants value value.content := by
  cases value with
  | starting => exact .unit rfl
  | running => exact .unit rfl
  | degraded text => exact .newtype .degraded rfl (fun _ _ => degraded.inj) rfl
  | stopped => exact .unit rfl
  | error text => exact .newtype .error rfl (fun _ _ => error.inj) rfl

def codec : Codec ServerStatus := .tagged variants content reads

end ServerStatus

structure ServerCapabilities where
  tools : List String
  resources : List String
  prompts : List String
  features : List String

def ServerCapabilities.codec : Codec ServerCapabilities :=
  .record
    ((Fields.required "tools" (.list .string)).and <|
      (Fields.required "resources" (.list .string)).and <|
      (Fields.required "prompts" (.list .string)).and <|
      Fields.required "features" (.list .string))
    ⟨by simp⟩
    { toFun := fun (tools, resources, prompts, features) =>
        ⟨tools, resources, prompts, features⟩
      invFun := fun self =>
        (self.tools, self.resources, self.prompts, self.features)
      left_inv := fun _ => rfl
      right_inv := fun _ => rfl }

structure HealthMetrics where
  uptimeSeconds : UInt64
  responseTimeMs : UInt64
  successRate : UInt64
  cpuPercent : UInt64
  memoryBytes : UInt64
  lastError : Option String

def HealthMetrics.codec : Codec HealthMetrics :=
  .record
    ((Fields.required "uptime_seconds" .u64).and <|
      (Fields.required "response_time_ms" (.f64 serde.toNumberText)).and <|
      (Fields.required "success_rate" (.f64 serde.toNumberText)).and <|
      (Fields.required "cpu_percent" (.f64 serde.toNumberText)).and <|
      (Fields.required "memory_bytes" .u64).and <|
      Fields.optional "last_error" .string)
    ⟨by simp⟩
    { toFun := fun (uptimeSeconds, responseTimeMs, successRate, cpuPercent,
          memoryBytes, lastError) =>
        ⟨uptimeSeconds, responseTimeMs, successRate, cpuPercent, memoryBytes,
          lastError⟩
      invFun := fun self =>
        (self.uptimeSeconds, self.responseTimeMs, self.successRate,
          self.cpuPercent, self.memoryBytes, self.lastError)
      left_inv := fun _ => rfl
      right_inv := fun _ => rfl }

structure ServerInfo where
  id : ServerId
  name : String
  endpoint : ServerEndpoint
  status : ServerStatus
  capabilities : Option ServerCapabilities
  activeSessions : List SessionId
  healthMetrics : HealthMetrics

def ServerInfo.codec : Codec ServerInfo :=
  .record
    ((Fields.required "id" (ServerId.codec serde)).and <|
      (Fields.required "name" .string).and <|
      (Fields.required "endpoint" ServerEndpoint.codec).and <|
      (Fields.required "status" ServerStatus.codec).and <|
      (Fields.optional "capabilities" ServerCapabilities.codec).and <|
      (Fields.required "active_sessions" (.list (SessionId.codec serde))).and <|
      Fields.required "health_metrics" (HealthMetrics.codec serde))
    ⟨by simp⟩
    { toFun := fun (id, name, endpoint, status, capabilities, activeSessions,
          healthMetrics) =>
        ⟨id, name, endpoint, status, capabilities, activeSessions,
          healthMetrics⟩
      invFun := fun self =>
        (self.id, self.name, self.endpoint, self.status, self.capabilities,
          self.activeSessions, self.healthMetrics)
      left_inv := fun _ => rfl
      right_inv := fun _ => rfl }

/-! ## Sessions -/

inductive SessionStatus where
  | starting
  | active
  | idle
  | completed
  | failed (text : String)
  deriving DecidableEq, Repr

namespace SessionStatus

def content : SessionStatus → Content
  | .starting => .unit "Starting"
  | .active => .unit "Active"
  | .idle => .unit "Idle"
  | .completed => .unit "Completed"
  | .failed text => .newtype "Failed" .string text

def variants : List (Variant SessionStatus) :=
  [.unit "Starting" .starting, .unit "Active" .active, .unit "Idle" .idle,
    .unit "Completed" .completed, .newtype "Failed" .string .failed]

theorem reads (value : SessionStatus) :
    Reads variants value value.content := by
  cases value with
  | starting => exact .unit rfl
  | active => exact .unit rfl
  | idle => exact .unit rfl
  | completed => exact .unit rfl
  | failed text => exact .newtype .failed rfl (fun _ _ => failed.inj) rfl

def codec : Codec SessionStatus := .tagged variants content reads

end SessionStatus

structure ActiveRequest where
  requestId : String
  method : String
  startedAt : DateTime
  durationMs : UInt64
  targetServer : Option ServerId

def ActiveRequest.codec : Codec ActiveRequest :=
  .record
    ((Fields.required "request_id" .string).and <|
      (Fields.required "method" .string).and <|
      (Fields.required "started_at" serde.dateTime).and <|
      (Fields.required "duration_ms" .u64).and <|
      Fields.skipped "target_server" (ServerId.codec serde))
    ⟨by simp⟩
    { toFun := fun (requestId, method, startedAt, durationMs, targetServer) =>
        ⟨requestId, method, startedAt, durationMs, targetServer⟩
      invFun := fun self =>
        (self.requestId, self.method, self.startedAt, self.durationMs,
          self.targetServer)
      left_inv := fun _ => rfl
      right_inv := fun _ => rfl }

inductive TransformDirection where
  | request
  | response
  deriving DecidableEq, Repr

namespace TransformDirection

def content : TransformDirection → Content
  | .request => .unit "Request"
  | .response => .unit "Response"

def variants : List (Variant TransformDirection) :=
  [.unit "Request" .request, .unit "Response" .response]

theorem reads (value : TransformDirection) :
    Reads variants value value.content := by
  cases value <;> exact .unit rfl

def codec : Codec TransformDirection := .tagged variants content reads

end TransformDirection

structure AppliedTransformation where
  ruleId : String
  ruleName : String
  direction : TransformDirection
  durationMs : UInt64
  success : Bool
  notes : Option String

def AppliedTransformation.codec : Codec AppliedTransformation :=
  .record
    ((Fields.required "rule_id" .string).and <|
      (Fields.required "rule_name" .string).and <|
      (Fields.required "direction" TransformDirection.codec).and <|
      (Fields.required "duration_ms" .u64).and <|
      (Fields.required "success" .bool).and <|
      Fields.skipped "notes" .string)
    ⟨by simp⟩
    { toFun := fun (ruleId, ruleName, direction, durationMs, success, notes) =>
        ⟨ruleId, ruleName, direction, durationMs, success, notes⟩
      invFun := fun self =>
        (self.ruleId, self.ruleName, self.direction, self.durationMs,
          self.success, self.notes)
      left_inv := fun _ => rfl
      right_inv := fun _ => rfl }

structure ProxySession where
  id : SessionId
  clientId : ClientId
  serverId : ServerId
  startedAt : DateTime
  lastActivity : DateTime
  requestCount : UInt64
  bytesIn : UInt64
  bytesOut : UInt64
  status : SessionStatus
  activeRequests : List ActiveRequest
  transformationsApplied : List AppliedTransformation

def ProxySession.codec : Codec ProxySession :=
  .record
    ((Fields.required "id" (SessionId.codec serde)).and <|
      (Fields.required "client_id" (ClientId.codec serde)).and <|
      (Fields.required "server_id" (ServerId.codec serde)).and <|
      (Fields.required "started_at" serde.dateTime).and <|
      (Fields.required "last_activity" serde.dateTime).and <|
      (Fields.required "request_count" .u64).and <|
      (Fields.required "bytes_in" .u64).and <|
      (Fields.required "bytes_out" .u64).and <|
      (Fields.required "status" SessionStatus.codec).and <|
      (Fields.required "active_requests" (.list (ActiveRequest.codec serde))).and <|
      Fields.required "transformations_applied" (.list AppliedTransformation.codec))
    ⟨by simp⟩
    { toFun := fun (id, clientId, serverId, startedAt, lastActivity,
          requestCount, bytesIn, bytesOut, status, activeRequests,
          transformationsApplied) =>
        ⟨id, clientId, serverId, startedAt, lastActivity, requestCount, bytesIn,
          bytesOut, status, activeRequests, transformationsApplied⟩
      invFun := fun self =>
        (self.id, self.clientId, self.serverId, self.startedAt,
          self.lastActivity, self.requestCount, self.bytesIn, self.bytesOut,
          self.status, self.activeRequests, self.transformationsApplied)
      left_inv := fun _ => rfl
      right_inv := fun _ => rfl }

/-! ## Rules -/

structure TransformationStats where
  applied : UInt64
  blocked : UInt64
  errors : UInt64
  lastApplied : Option DateTime

def TransformationStats.codec : Codec TransformationStats :=
  .record
    ((Fields.required "applied" .u64).and <|
      (Fields.required "blocked" .u64).and <|
      (Fields.required "errors" .u64).and <|
      Fields.skipped "last_applied" serde.dateTime)
    ⟨by simp⟩
    { toFun := fun (applied, blocked, errors, lastApplied) =>
        ⟨applied, blocked, errors, lastApplied⟩
      invFun := fun self =>
        (self.applied, self.blocked, self.errors, self.lastApplied)
      left_inv := fun _ => rfl
      right_inv := fun _ => rfl }

structure TransformationRule where
  id : String
  name : String
  description : String
  enabled : Bool
  scope : String
  stats : TransformationStats

def TransformationRule.codec : Codec TransformationRule :=
  .record
    ((Fields.required "id" .string).and <|
      (Fields.required "name" .string).and <|
      (Fields.required "description" .string).and <|
      (Fields.required "enabled" .bool).and <|
      (Fields.required "scope" .string).and <|
      Fields.required "stats" (TransformationStats.codec serde))
    ⟨by simp⟩
    { toFun := fun (id, name, description, enabled, scope, stats) =>
        ⟨id, name, description, enabled, scope, stats⟩
      invFun := fun self =>
        (self.id, self.name, self.description, self.enabled, self.scope,
          self.stats)
      left_inv := fun _ => rfl
      right_inv := fun _ => rfl }

structure RoutingRule where
  id : String
  name : String
  description : String
  matchCriteria : StringMap String
  targetServers : List ServerId
  enabled : Bool

def RoutingRule.codec : Codec RoutingRule :=
  .record
    ((Fields.required "id" .string).and <|
      (Fields.required "name" .string).and <|
      (Fields.required "description" .string).and <|
      (Fields.required "match_criteria" (.map serde.order .string ⟨by simp⟩)).and <|
      (Fields.required "target_servers" (.list (ServerId.codec serde))).and <|
      Fields.required "enabled" .bool)
    ⟨by simp⟩
    { toFun := fun (id, name, description, matchCriteria, targetServers,
          enabled) =>
        ⟨id, name, description, matchCriteria, targetServers, enabled⟩
      invFun := fun self =>
        (self.id, self.name, self.description, self.matchCriteria,
          self.targetServers, self.enabled)
      left_inv := fun _ => rfl
      right_inv := fun _ => rfl }

structure RoutingDecision where
  sessionId : SessionId
  ruleId : Option String
  targetServer : ServerId
  reason : String
  timestamp : DateTime

def RoutingDecision.codec : Codec RoutingDecision :=
  .record
    ((Fields.required "session_id" (SessionId.codec serde)).and <|
      (Fields.skipped "rule_id" .string).and <|
      (Fields.required "target_server" (ServerId.codec serde)).and <|
      (Fields.required "reason" .string).and <|
      Fields.required "timestamp" serde.dateTime)
    ⟨by simp⟩
    { toFun := fun (sessionId, ruleId, targetServer, reason, timestamp) =>
        ⟨sessionId, ruleId, targetServer, reason, timestamp⟩
      invFun := fun self =>
        (self.sessionId, self.ruleId, self.targetServer, self.reason,
          self.timestamp)
      left_inv := fun _ => rfl
      right_inv := fun _ => rfl }

/-! ## The gateway -/

inductive GatewayStatus where
  | starting
  | running
  | degraded
  | stopped
  deriving DecidableEq, Repr

namespace GatewayStatus

def content : GatewayStatus → Content
  | .starting => .unit "Starting"
  | .running => .unit "Running"
  | .degraded => .unit "Degraded"
  | .stopped => .unit "Stopped"

def variants : List (Variant GatewayStatus) :=
  [.unit "Starting" .starting, .unit "Running" .running,
    .unit "Degraded" .degraded, .unit "Stopped" .stopped]

theorem reads (value : GatewayStatus) :
    Reads variants value value.content := by
  cases value <;> exact .unit rfl

def codec : Codec GatewayStatus := .tagged variants content reads

end GatewayStatus

structure GatewayMetrics where
  requestsPerMinute : UInt64
  bytesInPerSec : UInt64
  bytesOutPerSec : UInt64
  activeSessions : UInt64
  errorRate : UInt64
  averageLatencyMs : UInt64

def GatewayMetrics.codec : Codec GatewayMetrics :=
  .record
    ((Fields.required "requests_per_minute" (.f64 serde.toNumberText)).and <|
      (Fields.required "bytes_in_per_sec" (.f64 serde.toNumberText)).and <|
      (Fields.required "bytes_out_per_sec" (.f64 serde.toNumberText)).and <|
      (Fields.required "active_sessions" .u64).and <|
      (Fields.required "error_rate" (.f64 serde.toNumberText)).and <|
      Fields.required "average_latency_ms" (.f64 serde.toNumberText))
    ⟨by simp⟩
    { toFun := fun (requestsPerMinute, bytesInPerSec, bytesOutPerSec,
          activeSessions, errorRate, averageLatencyMs) =>
        ⟨requestsPerMinute, bytesInPerSec, bytesOutPerSec, activeSessions,
          errorRate, averageLatencyMs⟩
      invFun := fun self =>
        (self.requestsPerMinute, self.bytesInPerSec, self.bytesOutPerSec,
          self.activeSessions, self.errorRate, self.averageLatencyMs)
      left_inv := fun _ => rfl
      right_inv := fun _ => rfl }

structure GatewayState where
  status : GatewayStatus
  uptimeSeconds : UInt64
  metrics : GatewayMetrics

def GatewayState.codec : Codec GatewayState :=
  .record
    ((Fields.required "status" GatewayStatus.codec).and <|
      (Fields.required "uptime_seconds" .u64).and <|
      Fields.required "metrics" (GatewayMetrics.codec serde))
    ⟨by simp⟩
    { toFun := fun (status, uptimeSeconds, metrics) =>
        ⟨status, uptimeSeconds, metrics⟩
      invFun := fun self =>
        (self.status, self.uptimeSeconds, self.metrics)
      left_inv := fun _ => rfl
      right_inv := fun _ => rfl }

/-! ## Requests and responses -/

structure JsonRpcRequest where
  jsonrpc : String
  id : OrderedValue
  method : String
  params : Option OrderedValue

def JsonRpcRequest.codec : Codec JsonRpcRequest :=
  .record
    ((Fields.required "jsonrpc" .string).and <|
      (Fields.required "id" (.value serde.toNumberText)).and <|
      (Fields.required "method" .string).and <|
      Fields.optional "params" (.value serde.toNumberText))
    ⟨by simp⟩
    { toFun := fun (jsonrpc, id, method, params) =>
        ⟨jsonrpc, id, method, params⟩
      invFun := fun self =>
        (self.jsonrpc, self.id, self.method, self.params)
      left_inv := fun _ => rfl
      right_inv := fun _ => rfl }

structure JsonRpcError where
  code : Int32
  message : String
  data : Option OrderedValue

def JsonRpcError.codec : Codec JsonRpcError :=
  .record
    ((Fields.required "code" .i32).and <|
      (Fields.required "message" .string).and <|
      Fields.skipped "data" (.value serde.toNumberText))
    ⟨by simp⟩
    { toFun := fun (code, message, data) =>
        ⟨code, message, data⟩
      invFun := fun self =>
        (self.code, self.message, self.data)
      left_inv := fun _ => rfl
      right_inv := fun _ => rfl }

structure JsonRpcResponse where
  jsonrpc : String
  id : OrderedValue
  result : Option OrderedValue
  error : Option JsonRpcError

def JsonRpcResponse.codec : Codec JsonRpcResponse :=
  .record
    ((Fields.required "jsonrpc" .string).and <|
      (Fields.required "id" (.value serde.toNumberText)).and <|
      (Fields.skipped "result" (.value serde.toNumberText)).and <|
      Fields.skipped "error" (JsonRpcError.codec serde))
    ⟨by simp⟩
    { toFun := fun (jsonrpc, id, result, error) =>
        ⟨jsonrpc, id, result, error⟩
      invFun := fun self =>
        (self.jsonrpc, self.id, self.result, self.error)
      left_inv := fun _ => rfl
      right_inv := fun _ => rfl }

structure MessageTiming where
  receivedAt : DateTime
  forwardedAt : Option DateTime
  respondedAt : Option DateTime

def MessageTiming.codec : Codec MessageTiming :=
  .record
    ((Fields.required "received_at" serde.dateTime).and <|
      (Fields.skipped "forwarded_at" serde.dateTime).and <|
      Fields.skipped "responded_at" serde.dateTime)
    ⟨by simp⟩
    { toFun := fun (receivedAt, forwardedAt, respondedAt) =>
        ⟨receivedAt, forwardedAt, respondedAt⟩
      invFun := fun self =>
        (self.receivedAt, self.forwardedAt, self.respondedAt)
      left_inv := fun _ => rfl
      right_inv := fun _ => rfl }

inductive MessageStatus where
  | pending
  | inFlight
  | completed
  | failed (text : String)
  deriving DecidableEq, Repr

namespace MessageStatus

def content : MessageStatus → Content
  | .pending => .unit "Pending"
  | .inFlight => .unit "InFlight"
  | .completed => .unit "Completed"
  | .failed text => .newtype "Failed" .string text

def variants : List (Variant MessageStatus) :=
  [.unit "Pending" .pending, .unit "InFlight" .inFlight,
    .unit "Completed" .completed, .newtype "Failed" .string .failed]

theorem reads (value : MessageStatus) :
    Reads variants value value.content := by
  cases value with
  | pending => exact .unit rfl
  | inFlight => exact .unit rfl
  | completed => exact .unit rfl
  | failed text => exact .newtype .failed rfl (fun _ _ => failed.inj) rfl

def codec : Codec MessageStatus := .tagged variants content reads

end MessageStatus

structure MessageFlow where
  id : MessageId
  sessionId : SessionId
  clientRequest : JsonRpcRequest
  serverRequest : Option JsonRpcRequest
  serverResponse : Option JsonRpcResponse
  clientResponse : Option JsonRpcResponse
  transformations : List AppliedTransformation
  timing : MessageTiming
  status : MessageStatus

def MessageFlow.codec : Codec MessageFlow :=
  .record
    ((Fields.required "id" (MessageId.codec serde)).and <|
      (Fields.required "session_id" (SessionId.codec serde)).and <|
      (Fields.required "client_request" (JsonRpcRequest.codec serde)).and <|
      (Fields.skipped "server_request" (JsonRpcRequest.codec serde)).and <|
      (Fields.skipped "server_response" (JsonRpcResponse.codec serde)).and <|
      (Fields.skipped "client_response" (JsonRpcResponse.codec serde)).and <|
      (Fields.required "transformations" (.list AppliedTransformation.codec)).and <|
      (Fields.required "timing" (MessageTiming.codec serde)).and <|
      Fields.required "status" MessageStatus.codec)
    ⟨by simp⟩
    { toFun := fun (id, sessionId, clientRequest, serverRequest, serverResponse,
          clientResponse, transformations, timing, status) =>
        ⟨id, sessionId, clientRequest, serverRequest, serverResponse,
          clientResponse, transformations, timing, status⟩
      invFun := fun self =>
        (self.id, self.sessionId, self.clientRequest, self.serverRequest,
          self.serverResponse, self.clientResponse, self.transformations,
          self.timing, self.status)
      left_inv := fun _ => rfl
      right_inv := fun _ => rfl }

end Common
end Acdp
