import Acdp.CommonMessages

/-!
# Which messages survive

The condition that the codecs compute, in the terms of the messages: every
floating-point number is finite and its text reads back, no optional JSON
value is `null`, and no JSON value nests too deeply.  All other data always
survive.
-/

namespace Acdp
namespace Common

open Auth (DateTime Duration Uuid)
open Json

variable (serde : SerdeTexts) (depth : ℕ)

/-! ## Data that always survive -/

@[simp] theorem kept_uuid (id : Uuid) : serde.uuid.Kept depth id := trivial

@[simp] theorem kept_dateTime (instant : DateTime) :
    serde.dateTime.Kept depth instant := trivial

@[simp] theorem write_uuid_ne_null (id : Uuid) :
    serde.uuid.write id ≠ .null := Json.noConfusion

@[simp] theorem write_dateTime_ne_null (instant : DateTime) :
    serde.dateTime.write instant ≠ .null := Json.noConfusion

@[simp] theorem kept_duration (duration : Duration) :
    durationCodec.Kept (depth + 1) duration := Nat.succ_pos depth

@[simp] theorem ProxyId.kept (id : ProxyId) :
    (ProxyId.codec serde).Kept depth id := trivial

@[simp] theorem ClientId.kept (id : ClientId) :
    (ClientId.codec serde).Kept depth id := trivial

@[simp] theorem ServerId.kept (id : ServerId) :
    (ServerId.codec serde).Kept depth id := trivial

@[simp] theorem SessionId.kept (id : SessionId) :
    (SessionId.codec serde).Kept depth id := trivial

@[simp] theorem MessageId.kept (id : MessageId) :
    (MessageId.codec serde).Kept depth id := trivial

@[simp] theorem ProxyId.write_ne_null (id : ProxyId) :
    (ProxyId.codec serde).write id ≠ .null := Json.noConfusion

@[simp] theorem ServerId.write_ne_null (id : ServerId) :
    (ServerId.codec serde).write id ≠ .null := Json.noConfusion

@[simp] theorem SessionId.write_ne_null (id : SessionId) :
    (SessionId.codec serde).write id ≠ .null := Json.noConfusion

@[simp] theorem LogLevel.kept (level : LogLevel) :
    LogLevel.codec.Kept depth level := by
  cases level <;> trivial

@[simp] theorem TransportType.kept (transport : TransportType) :
    TransportType.codec.Kept depth transport := by
  cases transport <;> trivial

@[simp] theorem TransformDirection.kept (direction : TransformDirection) :
    TransformDirection.codec.Kept depth direction := by
  cases direction <;> trivial

@[simp] theorem GatewayStatus.kept (status : GatewayStatus) :
    GatewayStatus.codec.Kept depth status := by
  cases status <;> trivial

@[simp] theorem ProxyStatus.kept (status : ProxyStatus) :
    ProxyStatus.codec.Kept (depth + 1) status := by
  cases status <;> simp [codec, content]

@[simp] theorem ClientConnectionType.kept (type : ClientConnectionType) :
    ClientConnectionType.codec.Kept (depth + 1) type := by
  cases type <;> simp [codec, content]

@[simp] theorem ServerEndpoint.kept (endpoint : ServerEndpoint) :
    ServerEndpoint.codec.Kept (depth + 3) endpoint := by
  cases endpoint <;> simp [codec, content, commandCodec]

@[simp] theorem ServerStatus.kept (status : ServerStatus) :
    ServerStatus.codec.Kept (depth + 1) status := by
  cases status <;> simp [codec, content]

@[simp] theorem SessionStatus.kept (status : SessionStatus) :
    SessionStatus.codec.Kept (depth + 1) status := by
  cases status <;> simp [codec, content]

@[simp] theorem MessageStatus.kept (status : MessageStatus) :
    MessageStatus.codec.Kept (depth + 1) status := by
  cases status <;> simp [codec, content]

@[simp] theorem ProxyStats.kept (stats : ProxyStats) :
    (ProxyStats.codec serde).Kept (depth + 2) stats := by
  simp [codec]

@[simp] theorem ProxyInfo.kept (info : ProxyInfo) :
    (ProxyInfo.codec serde).Kept (depth + 3) info := by
  simp [codec]

@[simp] theorem ClientInfo.kept (info : ClientInfo) :
    (ClientInfo.codec serde).Kept (depth + 2) info := by
  simp [codec]

@[simp] theorem ServerCapabilities.kept (capabilities : ServerCapabilities) :
    ServerCapabilities.codec.Kept (depth + 2) capabilities := by
  simp [codec]

@[simp] theorem ServerCapabilities.write_ne_null
    (capabilities : ServerCapabilities) :
    ServerCapabilities.codec.write capabilities ≠ .null := Json.noConfusion

@[simp] theorem ActiveRequest.kept (request : ActiveRequest) :
    (ActiveRequest.codec serde).Kept (depth + 1) request := by
  simp [codec]

@[simp] theorem AppliedTransformation.kept
    (transformation : AppliedTransformation) :
    AppliedTransformation.codec.Kept (depth + 1) transformation := by
  simp [codec]

@[simp] theorem ProxySession.kept (session : ProxySession) :
    (ProxySession.codec serde).Kept (depth + 3) session := by
  simp [codec]

@[simp] theorem TransformationStats.kept (stats : TransformationStats) :
    (TransformationStats.codec serde).Kept (depth + 1) stats := by
  simp [codec]

@[simp] theorem TransformationRule.kept (rule : TransformationRule) :
    (TransformationRule.codec serde).Kept (depth + 2) rule := by
  simp [codec]

@[simp] theorem RoutingRule.kept (rule : RoutingRule) :
    (RoutingRule.codec serde).Kept (depth + 2) rule := by
  simp [codec]

@[simp] theorem RoutingDecision.kept (decision : RoutingDecision) :
    (RoutingDecision.codec serde).Kept (depth + 1) decision := by
  simp [codec]

@[simp] theorem MessageTiming.kept (timing : MessageTiming) :
    (MessageTiming.codec serde).Kept (depth + 1) timing := by
  simp [codec]

/-! ## JSON values

`null` in an optional field is read as a field without a value. -/

def ValueKept (value : OrderedValue) : Prop :=
  value.val.fits depth = true ∧ value.val.FloatsStable serde.toFloatText

def PayloadKept (payload : Option OrderedValue) : Prop :=
  ∀ value, payload = some value →
    value.val ≠ .null ∧ ValueKept serde depth value

def LogEntry.Kept (entry : LogEntry) : Prop :=
  PayloadKept serde depth entry.metadata

def JsonRpcRequest.Kept (request : JsonRpcRequest) : Prop :=
  ValueKept serde depth request.id ∧ PayloadKept serde depth request.params

def JsonRpcError.Kept (error : JsonRpcError) : Prop :=
  PayloadKept serde depth error.data

def JsonRpcResponse.Kept (response : JsonRpcResponse) : Prop :=
  ValueKept serde depth response.id ∧
    PayloadKept serde depth response.result ∧
    ∀ error, response.error = some error → error.Kept serde (depth - 1)

def MessageFlow.Kept (flow : MessageFlow) : Prop :=
  flow.clientRequest.Kept serde depth ∧
    (∀ request, flow.serverRequest = some request →
      request.Kept serde depth) ∧
    (∀ response, flow.serverResponse = some response →
      response.Kept serde depth) ∧
    ∀ response, flow.clientResponse = some response →
      response.Kept serde depth

@[simp] theorem LogEntry.kept_iff (entry : LogEntry) :
    (LogEntry.codec serde).Kept (depth + 1) entry ↔
      entry.Kept serde depth := by
  simp [codec, LogEntry.Kept, PayloadKept, ValueKept]

@[simp] theorem JsonRpcRequest.kept_iff (request : JsonRpcRequest) :
    (JsonRpcRequest.codec serde).Kept (depth + 1) request ↔
      request.Kept serde depth := by
  simp [codec, JsonRpcRequest.Kept, PayloadKept, ValueKept]

@[simp] theorem JsonRpcError.kept_iff (error : JsonRpcError) :
    (JsonRpcError.codec serde).Kept (depth + 1) error ↔
      error.Kept serde depth := by
  simp [codec, JsonRpcError.Kept, PayloadKept, ValueKept]

@[simp] theorem JsonRpcRequest.write_ne_null (request : JsonRpcRequest) :
    (JsonRpcRequest.codec serde).write request ≠ .null := Json.noConfusion

@[simp] theorem JsonRpcError.write_ne_null (error : JsonRpcError) :
    (JsonRpcError.codec serde).write error ≠ .null := Json.noConfusion

@[simp] theorem JsonRpcResponse.write_ne_null (response : JsonRpcResponse) :
    (JsonRpcResponse.codec serde).write response ≠ .null := Json.noConfusion

@[simp] theorem JsonRpcResponse.kept_iff (response : JsonRpcResponse) :
    (JsonRpcResponse.codec serde).Kept (depth + 2) response ↔
      response.Kept serde (depth + 1) := by
  simp [codec, JsonRpcResponse.Kept, PayloadKept, ValueKept]

@[simp] theorem MessageFlow.kept_iff (flow : MessageFlow) :
    (MessageFlow.codec serde).Kept (depth + 3) flow ↔
      flow.Kept serde (depth + 1) := by
  simp [codec, MessageFlow.Kept]

/-! ## Floating-point numbers -/

def HealthMetrics.Kept (metrics : HealthMetrics) : Prop :=
  serde.DoubleKept metrics.responseTimeMs ∧
    serde.DoubleKept metrics.successRate ∧ serde.DoubleKept metrics.cpuPercent

def GatewayMetrics.Kept (metrics : GatewayMetrics) : Prop :=
  serde.DoubleKept metrics.requestsPerMinute ∧
    serde.DoubleKept metrics.bytesInPerSec ∧
    serde.DoubleKept metrics.bytesOutPerSec ∧
    serde.DoubleKept metrics.errorRate ∧
    serde.DoubleKept metrics.averageLatencyMs

def InterceptorManagerInfo.Kept (info : InterceptorManagerInfo) : Prop :=
  serde.DoubleKept info.avgProcessingTimeMs ∧
    ∀ interceptor ∈ info.interceptors,
      serde.DoubleKept interceptor.avgProcessingTimeMs

def SessionMetrics.Kept (metrics : SessionMetrics) : Prop :=
  serde.SingleKept metrics.accuracy ∧
    serde.SingleKept metrics.optimizationScore

def OptionalDoubleKept (value : Option UInt64) : Prop :=
  ∀ bits, value = some bits → serde.DoubleKept bits

def IpcMessage.TuiQueryResponse.Kept
    (response : IpcMessage.TuiQueryResponse) : Prop :=
  OptionalDoubleKept serde response.ttftMs ∧
    OptionalDoubleKept serde response.tokensPerSec ∧
    OptionalDoubleKept serde response.interceptorDelayMs

theorem optionalDoubleKept_iff (value : Option UInt64) :
    (∀ bits, value = some bits →
      isFiniteDouble bits = true ∧ serde.DoubleKept bits) ↔
      OptionalDoubleKept serde value := by
  constructor
  · intro hboth bits hvalue
    exact (hboth bits hvalue).2
  · intro hkept bits hvalue
    exact ⟨(hkept bits hvalue).1, hkept bits hvalue⟩

@[simp] theorem HealthMetrics.kept_iff (metrics : HealthMetrics) :
    (HealthMetrics.codec serde).Kept (depth + 1) metrics ↔
      metrics.Kept serde := by
  simp [codec, HealthMetrics.Kept]

@[simp] theorem ServerInfo.kept_iff (info : ServerInfo) :
    (ServerInfo.codec serde).Kept (depth + 4) info ↔
      info.healthMetrics.Kept serde := by
  simp [codec]

@[simp] theorem GatewayMetrics.kept_iff (metrics : GatewayMetrics) :
    (GatewayMetrics.codec serde).Kept (depth + 1) metrics ↔
      metrics.Kept serde := by
  simp [codec, GatewayMetrics.Kept]

@[simp] theorem GatewayState.kept_iff (state : GatewayState) :
    (GatewayState.codec serde).Kept (depth + 2) state ↔
      state.metrics.Kept serde := by
  simp [codec]

@[simp] theorem InterceptorManagerInfo.kept_iff
    (info : InterceptorManagerInfo) :
    (InterceptorManagerInfo.codec serde).Kept (depth + 3) info ↔
      info.Kept serde := by
  simp [codec, InterceptorInfo.codec, InterceptorManagerInfo.Kept]

@[simp] theorem SessionMetrics.kept_iff (metrics : SessionMetrics) :
    (SessionMetrics.codec serde).Kept (depth + 1) metrics ↔
      metrics.Kept serde := by
  simp [codec, SessionMetrics.Kept]

@[simp] theorem IpcMessage.TuiQueryResponse.kept_iff
    (response : IpcMessage.TuiQueryResponse) :
    (codec serde).Kept (depth + 1) response ↔ response.Kept serde := by
  simp [codec, IpcMessage.TuiQueryResponse.Kept, optionalDoubleKept_iff]

/-! ## Messages -/

/-- What of an envelope's message has to be as described; the envelope, the
variant and its fields are three levels of the 127 that the parser goes
down. -/
def IpcMessage.Kept : IpcMessage → Prop
  | .logEntry entry => entry.Kept serde 124
  | .interceptorStats fields => fields.stats.Kept serde
  | .clientRequest fields => fields.request.Kept serde 123
  | .serverConnected info => info.healthMetrics.Kept serde
  | .serverUpdated info => info.healthMetrics.Kept serde
  | .serverResponse fields => fields.response.Kept serde 123
  | .serverHealthUpdate fields => fields.metrics.Kept serde
  | .semanticPrediction fields => serde.DoubleKept fields.confidence
  | .gatewayStateUpdated state => state.metrics.Kept serde
  | .gatewayMetrics metrics => metrics.Kept serde
  | .messageFlowUpdate flow => flow.Kept serde 123
  | .sessionStats metrics => metrics.Kept serde
  | .tuiMcpRequest fields => PayloadKept serde 124 fields.params
  | .tuiQueryResponse fields => fields.Kept serde
  | _ => True

theorem IpcMessage.kept_iff (message : IpcMessage) :
    (IpcMessage.codec serde).Kept 126 message ↔ message.Kept serde := by
  cases message with
  | interceptorStats fields =>
      simp [codec, content, InterceptorStats.codec, IpcMessage.Kept]
  | clientRequest fields =>
      simp [codec, content, ClientRequest.codec, IpcMessage.Kept]
  | serverResponse fields =>
      simp [codec, content, ServerResponse.codec, IpcMessage.Kept]
  | serverHealthUpdate fields =>
      simp [codec, content, ServerHealthUpdate.codec, IpcMessage.Kept]
  | transformationApplied fields =>
      simp [codec, content, TransformationApplied.codec, IpcMessage.Kept]
  | semanticPrediction fields =>
      simp [codec, content, SemanticPrediction.codec, IpcMessage.Kept]
  | getLogs fields =>
      simp [codec, content, GetLogs.codec, IpcMessage.Kept]
  | toggleInterceptor fields =>
      simp [codec, content, ToggleInterceptor.codec, IpcMessage.Kept]
  | tuiQuery fields =>
      simp [codec, content, TuiQuery.codec, IpcMessage.Kept]
  | tuiMcpRequest fields =>
      simp [codec, content, TuiMcpRequest.codec, IpcMessage.Kept, PayloadKept,
        ValueKept]
  | routingModeChange fields =>
      simp [codec, content, RoutingModeChange.codec, IpcMessage.Kept]
  | routingModeChanged fields =>
      simp [codec, content, RoutingModeChange.codec, IpcMessage.Kept]
  | error fields =>
      simp [codec, content, Error.codec, IpcMessage.Kept]
  | _ => simp [codec, content, IpcMessage.Kept]

theorem IpcEnvelope.kept_iff (envelope : IpcEnvelope) :
    (IpcEnvelope.codec serde).Kept 127 envelope ↔
      envelope.message.Kept serde := by
  simp [codec, IpcMessage.kept_iff]

/-- A message is read from an envelope as it would be on its own. -/
theorem IpcEnvelope.read_message {envelope read : IpcEnvelope}
    (hread : (IpcEnvelope.codec serde).read 127
      ((IpcEnvelope.codec serde).write envelope) = some read) :
    (IpcMessage.codec serde).read 126
      ((IpcMessage.codec serde).write envelope.message) =
        some read.message := by
  have hmessage :=
    Fields.read_first_of_and (by simp) (Codec.read_fields_of_record hread)
  simpa [Fields.required, requiredField, entries_cons] using hmessage

end Common
end Acdp
