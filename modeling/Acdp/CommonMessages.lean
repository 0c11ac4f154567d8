import Acdp.CommonTypes

/-!
# The messages of the monitoring protocol

Each message is one variant of a union that is tagged with its name; a variant
with named fields has them in a record of its own.
-/

namespace Acdp
namespace Common

open Auth (DateTime Uuid)
open Json

variable (serde : SerdeTexts)

/-! ## Statistics -/

structure InterceptorInfo where
  name : String
  priority : UInt32
  enabled : Bool
  totalIntercepted : UInt64
  totalModified : UInt64
  totalBlocked : UInt64
  avgProcessingTimeMs : UInt64

def InterceptorInfo.codec : Codec InterceptorInfo :=
  .record
    ((Fields.required "name" .string).and <|
      (Fields.required "priority" .u32).and <|
      (Fields.required "enabled" .bool).and <|
      (Fields.required "total_intercepted" .u64).and <|
      (Fields.required "total_modified" .u64).and <|
      (Fields.required "total_blocked" .u64).and <|
      Fields.required "avg_processing_time_ms" (.f64 serde.toNumberText))
    ⟨by simp⟩
    { toFun := fun (name, priority, enabled, totalIntercepted, totalModified,
          totalBlocked, avgProcessingTimeMs) =>
        ⟨name, priority, enabled, totalIntercepted, totalModified, totalBlocked,
          avgProcessingTimeMs⟩
      invFun := fun self =>
        (self.name, self.priority, self.enabled, self.totalIntercepted,
          self.totalModified, self.totalBlocked, self.avgProcessingTimeMs)
      left_inv := fun _ => rfl
      right_inv := fun _ => rfl }

structure InterceptorManagerInfo where
  totalMessagesProcessed : UInt64
  totalModificationsMade : UInt64
  totalMessagesBlocked : UInt64
  avgProcessingTimeMs : UInt64
  messagesByMethod : StringMap UInt64
  interceptors : List InterceptorInfo

def InterceptorManagerInfo.codec : Codec InterceptorManagerInfo :=
  .record
    ((Fields.required "total_messages_processed" .u64).and <|
      (Fields.required "total_modifications_made" .u64).and <|
      (Fields.required "total_messages_blocked" .u64).and <|
      (Fields.required "avg_processing_time_ms" (.f64 serde.toNumberText)).and <|
      (Fields.required "messages_by_method" (.map serde.order .u64 ⟨by simp⟩)).and <|
      Fields.required "interceptors" (.list (InterceptorInfo.codec serde)))
    ⟨by simp⟩
    { toFun := fun (totalMessagesProcessed, totalModificationsMade,
          totalMessagesBlocked, avgProcessingTimeMs, messagesByMethod,
          interceptors) =>
        ⟨totalMessagesProcessed, totalModificationsMade, totalMessagesBlocked,
          avgProcessingTimeMs, messagesByMethod, interceptors⟩
      invFun := fun self =>
        (self.totalMessagesProcessed, self.totalModificationsMade,
          self.totalMessagesBlocked, self.avgProcessingTimeMs,
          self.messagesByMethod, self.interceptors)
      left_inv := fun _ => rfl
      right_inv := fun _ => rfl }

structure SessionMetrics where
  proxyId : ProxyId
  sessionId : SessionId
  totalPredictions : UInt64
  successfulPredictions : UInt64
  accuracy : UInt32
  optimizationScore : UInt32
  messageCount : UInt64

def SessionMetrics.codec : Codec SessionMetrics :=
  .record
    ((Fields.required "proxy_id" (ProxyId.codec serde)).and <|
      (Fields.required "session_id" (SessionId.codec serde)).and <|
      (Fields.required "total_predictions" .u64).and <|
      (Fields.required "successful_predictions" .u64).and <|
      (Fields.required "accuracy" (.f32 serde.toNumberText)).and <|
      (Fields.required "optimization_score" (.f32 serde.toNumberText)).and <|
      Fields.required "message_count" .u64)
    ⟨by simp⟩
    { toFun := fun (proxyId, sessionId, totalPredictions, successfulPredictions,
          accuracy, optimizationScore, messageCount) =>
        ⟨proxyId, sessionId, totalPredictions, successfulPredictions, accuracy,
          optimizationScore, messageCount⟩
      invFun := fun self =>
        (self.proxyId, self.sessionId, self.totalPredictions,
          self.successfulPredictions, self.accuracy, self.optimizationScore,
          self.messageCount)
      left_inv := fun _ => rfl
      right_inv := fun _ => rfl }

/-! ## Variants with named fields -/

namespace IpcMessage

structure InterceptorStats where
  proxyId : ProxyId
  stats : InterceptorManagerInfo

def InterceptorStats.codec : Codec InterceptorStats :=
  .record
    ((Fields.required "proxy_id" (ProxyId.codec serde)).and <|
      Fields.required "stats" (InterceptorManagerInfo.codec serde))
    ⟨by simp⟩
    { toFun := fun (proxyId, stats) =>
        ⟨proxyId, stats⟩
      invFun := fun self =>
        (self.proxyId, self.stats)
      left_inv := fun _ => rfl
      right_inv := fun _ => rfl }

structure ClientRequest where
  clientId : ClientId
  request : JsonRpcRequest
  sessionId : Option SessionId

def ClientRequest.codec : Codec ClientRequest :=
  .record
    ((Fields.required "client_id" (ClientId.codec serde)).and <|
      (Fields.required "request" (JsonRpcRequest.codec serde)).and <|
      Fields.optional "session_id" (SessionId.codec serde))
    ⟨by simp⟩
    { toFun := fun (clientId, request, sessionId) =>
        ⟨clientId, request, sessionId⟩
      invFun := fun self =>
        (self.clientId, self.request, self.sessionId)
      left_inv := fun _ => rfl
      right_inv := fun _ => rfl }

structure ServerResponse where
  serverId : ServerId
  response : JsonRpcResponse
  sessionId : Option SessionId

def ServerResponse.codec : Codec ServerResponse :=
  .record
    ((Fields.required "server_id" (ServerId.codec serde)).and <|
      (Fields.required "response" (JsonRpcResponse.codec serde)).and <|
      Fields.optional "session_id" (SessionId.codec serde))
    ⟨by simp⟩
    { toFun := fun (serverId, response, sessionId) =>
        ⟨serverId, response, sessionId⟩
      invFun := fun self =>
        (self.serverId, self.response, self.sessionId)
      left_inv := fun _ => rfl
      right_inv := fun _ => rfl }

structure ServerHealthUpdate where
  serverId : ServerId
  metrics : HealthMetrics

def ServerHealthUpdate.codec : Codec ServerHealthUpdate :=
  .record
    ((Fields.required "server_id" (ServerId.codec serde)).and <|
      Fields.required "metrics" (HealthMetrics.codec serde))
    ⟨by simp⟩
    { toFun := fun (serverId, metrics) =>
        ⟨serverId, metrics⟩
      invFun := fun self =>
        (self.serverId, self.metrics)
      left_inv := fun _ => rfl
      right_inv := fun _ => rfl }

structure TransformationApplied where
  sessionId : SessionId
  transformation : AppliedTransformation

def TransformationApplied.codec : Codec TransformationApplied :=
  .record
    ((Fields.required "session_id" (SessionId.codec serde)).and <|
      Fields.required "transformation" AppliedTransformation.codec)
    ⟨by simp⟩
    { toFun := fun (sessionId, transformation) =>
        ⟨sessionId, transformation⟩
      invFun := fun self =>
        (self.sessionId, self.transformation)
      left_inv := fun _ => rfl
      right_inv := fun _ => rfl }

structure SemanticPrediction where
  query : String
  predictedTool : String
  confidence : UInt64
  actualTool : Option String
  success : Option Bool

def SemanticPrediction.codec : Codec SemanticPrediction :=
  .record
    ((Fields.required "query" .string).and <|
      (Fields.required "predicted_tool" .string).and <|
      (Fields.required "confidence" (.f64 serde.toNumberText)).and <|
      (Fields.optional "actual_tool" .string).and <|
      Fields.optional "success" .bool)
    ⟨by simp⟩
    { toFun := fun (query, predictedTool, confidence, actualTool, success) =>
        ⟨query, predictedTool, confidence, actualTool, success⟩
      invFun := fun self =>
        (self.query, self.predictedTool, self.confidence, self.actualTool,
          self.success)
      left_inv := fun _ => rfl
      right_inv := fun _ => rfl }

structure GetLogs where
  proxyId : ProxyId
  limit : Option UInt64

def GetLogs.codec : Codec GetLogs :=
  .record
    ((Fields.required "proxy_id" (ProxyId.codec serde)).and <|
      Fields.optional "limit" .u64)
    ⟨by simp⟩
    { toFun := fun (proxyId, limit) =>
        ⟨proxyId, limit⟩
      invFun := fun self =>
        (self.proxyId, self.limit)
      left_inv := fun _ => rfl
      right_inv := fun _ => rfl }

structure ToggleInterceptor where
  proxyId : ProxyId
  interceptorName : String

def ToggleInterceptor.codec : Codec ToggleInterceptor :=
  .record
    ((Fields.required "proxy_id" (ProxyId.codec serde)).and <|
      Fields.required "interceptor_name" .string)
    ⟨by simp⟩
    { toFun := fun (proxyId, interceptorName) =>
        ⟨proxyId, interceptorName⟩
      invFun := fun self =>
        (self.proxyId, self.interceptorName)
      left_inv := fun _ => rfl
      right_inv := fun _ => rfl }

structure TuiQuery where
  query : String
  correlationId : Uuid

def TuiQuery.codec : Codec TuiQuery :=
  .record
    ((Fields.required "query" .string).and <|
      Fields.required "correlation_id" serde.uuid)
    ⟨by simp⟩
    { toFun := fun (query, correlationId) =>
        ⟨query, correlationId⟩
      invFun := fun self =>
        (self.query, self.correlationId)
      left_inv := fun _ => rfl
      right_inv := fun _ => rfl }

structure TuiMcpRequest where
  method : String
  params : Option OrderedValue
  correlationId : Uuid

def TuiMcpRequest.codec : Codec TuiMcpRequest :=
  .record
    ((Fields.required "method" .string).and <|
      (Fields.optional "params" (.value serde.toNumberText)).and <|
      Fields.required "correlation_id" serde.uuid)
    ⟨by simp⟩
    { toFun := fun (method, params, correlationId) =>
        ⟨method, params, correlationId⟩
      invFun := fun self =>
        (self.method, self.params, self.correlationId)
      left_inv := fun _ => rfl
      right_inv := fun _ => rfl }

structure TuiQueryResponse where
  correlationId : Uuid
  response : String
  error : Option String
  ttftMs : Option UInt64
  tokensPerSec : Option UInt64
  totalTokens : Option UInt64
  interceptorDelayMs : Option UInt64

def TuiQueryResponse.codec : Codec TuiQueryResponse :=
  .record
    ((Fields.required "correlation_id" serde.uuid).and <|
      (Fields.required "response" .string).and <|
      (Fields.optional "error" .string).and <|
      (Fields.optional "ttft_ms" (.f64 serde.toNumberText)).and <|
      (Fields.optional "tokens_per_sec" (.f64 serde.toNumberText)).and <|
      (Fields.optional "total_tokens" .u64).and <|
      Fields.optional "interceptor_delay_ms" (.f64 serde.toNumberText))
    ⟨by simp⟩
    { toFun := fun (correlationId, response, error, ttftMs, tokensPerSec,
          totalTokens, interceptorDelayMs) =>
        ⟨correlationId, response, error, ttftMs, tokensPerSec, totalTokens,
          interceptorDelayMs⟩
      invFun := fun self =>
        (self.correlationId, self.response, self.error, self.ttftMs,
          self.tokensPerSec, self.totalTokens, self.interceptorDelayMs)
      left_inv := fun _ => rfl
      right_inv := fun _ => rfl }

structure RoutingModeChange where
  proxyId : ProxyId
  mode : String

def RoutingModeChange.codec : Codec RoutingModeChange :=
  .record
    ((Fields.required "proxy_id" (ProxyId.codec serde)).and <|
      Fields.required "mode" .string)
    ⟨by simp⟩
    { toFun := fun (proxyId, mode) =>
        ⟨proxyId, mode⟩
      invFun := fun self =>
        (self.proxyId, self.mode)
      left_inv := fun _ => rfl
      right_inv := fun _ => rfl }

structure Error where
  message : String
  proxyId : Option ProxyId

def Error.codec : Codec Error :=
  .record
    ((Fields.required "message" .string).and <|
      Fields.optional "proxy_id" (ProxyId.codec serde))
    ⟨by simp⟩
    { toFun := fun (message, proxyId) =>
        ⟨message, proxyId⟩
      invFun := fun self =>
        (self.message, self.proxyId)
      left_inv := fun _ => rfl
      right_inv := fun _ => rfl }

end IpcMessage

/-! ## Messages -/

inductive IpcMessage where
  -- from a proxy to the monitor
  | proxyStarted (info : ProxyInfo)
  | proxyStopped (id : ProxyId)
  | logEntry (entry : LogEntry)
  | statsUpdate (stats : ProxyStats)
  | interceptorStats (fields : IpcMessage.InterceptorStats)
  | clientConnected (info : ClientInfo)
  | clientDisconnected (id : ClientId)
  | clientUpdated (info : ClientInfo)
  | clientRequest (fields : IpcMessage.ClientRequest)
  | serverConnected (info : ServerInfo)
  | serverDisconnected (id : ServerId)
  | serverUpdated (info : ServerInfo)
  | serverResponse (fields : IpcMessage.ServerResponse)
  | serverHealthUpdate (fields : IpcMessage.ServerHealthUpdate)
  | sessionStarted (session : ProxySession)
  | sessionUpdated (session : ProxySession)
  | sessionEnded (id : SessionId)
  | transformationRules (rules : List TransformationRule)
  | transformationApplied (fields : IpcMessage.TransformationApplied)
  | routingRules (rules : List RoutingRule)
  | routingDecision (decision : RoutingDecision)
  | semanticPrediction (fields : IpcMessage.SemanticPrediction)
  | gatewayStateUpdated (state : GatewayState)
  | gatewayMetrics (metrics : GatewayMetrics)
  | messageFlowUpdate (flow : MessageFlow)
  | sessionStats (metrics : SessionMetrics)
  -- from the monitor to a proxy
  | getStatus (id : ProxyId)
  | getLogs (fields : IpcMessage.GetLogs)
  | shutdown (id : ProxyId)
  | toggleInterceptor (fields : IpcMessage.ToggleInterceptor)
  -- from the interface to a proxy, and back
  | tuiQuery (fields : IpcMessage.TuiQuery)
  | tuiMcpRequest (fields : IpcMessage.TuiMcpRequest)
  | tuiQueryResponse (fields : IpcMessage.TuiQueryResponse)
  | routingModeChange (fields : IpcMessage.RoutingModeChange)
  | routingModeChanged (fields : IpcMessage.RoutingModeChange)
  -- either way
  | ping
  | pong
  | error (fields : IpcMessage.Error)

namespace IpcMessage

def content : IpcMessage → Content
  | .proxyStarted info => .newtype "ProxyStarted" (ProxyInfo.codec serde) info
  | .proxyStopped id => .newtype "ProxyStopped" (ProxyId.codec serde) id
  | .logEntry entry => .newtype "LogEntry" (LogEntry.codec serde) entry
  | .statsUpdate stats => .newtype "StatsUpdate" (ProxyStats.codec serde) stats
  | .interceptorStats fields =>
      .newtype "InterceptorStats" (InterceptorStats.codec serde) fields
  | .clientConnected info =>
      .newtype "ClientConnected" (ClientInfo.codec serde) info
  | .clientDisconnected id =>
      .newtype "ClientDisconnected" (ClientId.codec serde) id
  | .clientUpdated info =>
      .newtype "ClientUpdated" (ClientInfo.codec serde) info
  | .clientRequest fields =>
      .newtype "ClientRequest" (ClientRequest.codec serde) fields
  | .serverConnected info =>
      .newtype "ServerConnected" (ServerInfo.codec serde) info
  | .serverDisconnected id =>
      .newtype "ServerDisconnected" (ServerId.codec serde) id
  | .serverUpdated info =>
      .newtype "ServerUpdated" (ServerInfo.codec serde) info
  | .serverResponse fields =>
      .newtype "ServerResponse" (ServerResponse.codec serde) fields
  | .serverHealthUpdate fields =>
      .newtype "ServerHealthUpdate" (ServerHealthUpdate.codec serde) fields
  | .sessionStarted session =>
      .newtype "SessionStarted" (ProxySession.codec serde) session
  | .sessionUpdated session =>
      .newtype "SessionUpdated" (ProxySession.codec serde) session
  | .sessionEnded id => .newtype "SessionEnded" (SessionId.codec serde) id
  | .transformationRules rules =>
      .newtype "TransformationRules" (.list (TransformationRule.codec serde)) rules
  | .transformationApplied fields =>
      .newtype "TransformationApplied" (TransformationApplied.codec serde) fields
  | .routingRules rules =>
      .newtype "RoutingRules" (.list (RoutingRule.codec serde)) rules
  | .routingDecision decision =>
      .newtype "RoutingDecision" (RoutingDecision.codec serde) decision
  | .semanticPrediction fields =>
      .newtype "SemanticPrediction" (SemanticPrediction.codec serde) fields
  | .gatewayStateUpdated state =>
      .newtype "GatewayStateUpdated" (GatewayState.codec serde) state
  | .gatewayMetrics metrics =>
      .newtype "GatewayMetrics" (GatewayMetrics.codec serde) metrics
  | .messageFlowUpdate flow =>
      .newtype "MessageFlowUpdate" (MessageFlow.codec serde) flow
  | .sessionStats metrics =>
      .newtype "SessionStats" (SessionMetrics.codec serde) metrics
  | .getStatus id => .newtype "GetStatus" (ProxyId.codec serde) id
  | .getLogs fields => .newtype "GetLogs" (GetLogs.codec serde) fields
  | .shutdown id => .newtype "Shutdown" (ProxyId.codec serde) id
  | .toggleInterceptor fields =>
      .newtype "ToggleInterceptor" (ToggleInterceptor.codec serde) fields
  | .tuiQuery fields => .newtype "TuiQuery" (TuiQuery.codec serde) fields
  | .tuiMcpRequest fields =>
      .newtype "TuiMcpRequest" (TuiMcpRequest.codec serde) fields
  | .tuiQueryResponse fields =>
      .newtype "TuiQueryResponse" (TuiQueryResponse.codec serde) fields
  | .routingModeChange fields =>
      .newtype "RoutingModeChange" (RoutingModeChange.codec serde) fields
  | .routingModeChanged fields =>
      .newtype "RoutingModeChanged" (RoutingModeChange.codec serde) fields
  | .ping => .unit "Ping"
  | .pong => .unit "Pong"
  | .error fields => .newtype "Error" (Error.codec serde) fields

def variants : List (Variant IpcMessage) :=
  [.newtype "ProxyStarted" (ProxyInfo.codec serde) .proxyStarted,
    .newtype "ProxyStopped" (ProxyId.codec serde) .proxyStopped,
    .newtype "LogEntry" (LogEntry.codec serde) .logEntry,
    .newtype "StatsUpdate" (ProxyStats.codec serde) .statsUpdate,
    .newtype "InterceptorStats" (InterceptorStats.codec serde)
      .interceptorStats,
    .newtype "ClientConnected" (ClientInfo.codec serde) .clientConnected,
    .newtype "ClientDisconnected" (ClientId.codec serde) .clientDisconnected,
    .newtype "ClientUpdated" (ClientInfo.codec serde) .clientUpdated,
    .newtype "ClientRequest" (ClientRequest.codec serde) .clientRequest,
    .newtype "ServerConnected" (ServerInfo.codec serde) .serverConnected,
    .newtype "ServerDisconnected" (ServerId.codec serde) .serverDisconnected,
    .newtype "ServerUpdated" (ServerInfo.codec serde) .serverUpdated,
    .newtype "ServerResponse" (ServerResponse.codec serde) .serverResponse,
    .newtype "ServerHealthUpdate" (ServerHealthUpdate.codec serde)
      .serverHealthUpdate,
    .newtype "SessionStarted" (ProxySession.codec serde) .sessionStarted,
    .newtype "SessionUpdated" (ProxySession.codec serde) .sessionUpdated,
    .newtype "SessionEnded" (SessionId.codec serde) .sessionEnded,
    .newtype "TransformationRules" (.list (TransformationRule.codec serde))
      .transformationRules,
    .newtype "TransformationApplied" (TransformationApplied.codec serde)
      .transformationApplied,
    .newtype "RoutingRules" (.list (RoutingRule.codec serde)) .routingRules,
    .newtype "RoutingDecision" (RoutingDecision.codec serde) .routingDecision,
    .newtype "SemanticPrediction" (SemanticPrediction.codec serde)
      .semanticPrediction,
    .newtype "GatewayStateUpdated" (GatewayState.codec serde)
      .gatewayStateUpdated,
    .newtype "GatewayMetrics" (GatewayMetrics.codec serde) .gatewayMetrics,
    .newtype "MessageFlowUpdate" (MessageFlow.codec serde) .messageFlowUpdate,
    .newtype "SessionStats" (SessionMetrics.codec serde) .sessionStats,
    .newtype "GetStatus" (ProxyId.codec serde) .getStatus,
    .newtype "GetLogs" (GetLogs.codec serde) .getLogs,
    .newtype "Shutdown" (ProxyId.codec serde) .shutdown,
    .newtype "ToggleInterceptor" (ToggleInterceptor.codec serde)
      .toggleInterceptor,
    .newtype "TuiQuery" (TuiQuery.codec serde) .tuiQuery,
    .newtype "TuiMcpRequest" (TuiMcpRequest.codec serde) .tuiMcpRequest,
    .newtype "TuiQueryResponse" (TuiQueryResponse.codec serde)
      .tuiQueryResponse,
    .newtype "RoutingModeChange" (RoutingModeChange.codec serde)
      .routingModeChange,
    .newtype "RoutingModeChanged" (RoutingModeChange.codec serde)
      .routingModeChanged,
    .unit "Ping" .ping,
    .unit "Pong" .pong,
    .newtype "Error" (Error.codec serde) .error]

theorem reads (message : IpcMessage) :
    Reads (variants serde) message (message.content serde) := by
  cases message with
  | ping => exact .unit rfl
  | pong => exact .unit rfl
  | _ =>
      exact .newtype _ rfl (by
        intro left right hsame
        cases hsame
        rfl) rfl

def codec : Codec IpcMessage :=
  .tagged (variants serde) (content serde) (reads serde)

end IpcMessage

structure IpcEnvelope where
  message : IpcMessage
  timestamp : DateTime
  correlationId : Option Uuid

def IpcEnvelope.codec : Codec IpcEnvelope :=
  .record
    ((Fields.required "message" (IpcMessage.codec serde)).and <|
      (Fields.required "timestamp" serde.dateTime).and <|
      Fields.optional "correlation_id" serde.uuid)
    ⟨by simp⟩
    { toFun := fun (message, timestamp, correlationId) =>
        ⟨message, timestamp, correlationId⟩
      invFun := fun self =>
        (self.message, self.timestamp, self.correlationId)
      left_inv := fun _ => rfl
      right_inv := fun _ => rfl }

end Common
end Acdp
