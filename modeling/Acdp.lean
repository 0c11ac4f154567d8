import Acdp.TextPrefix
import Acdp.AccessPolicy
import Acdp.ByteStrings
import Acdp.JsonDocument
import Acdp.JsonValue
import Acdp.StepMachine
import Acdp.ListPositions
import Acdp.LinearRelation
import Acdp.AlgebraicMac
import Acdp.AuthError
import Acdp.AuthCapabilities
import Acdp.ArcModel
import Acdp.ArcCorrectness
import Acdp.ArcSoundness
import Acdp.ArcQuota
import Acdp.AuthPrimitives
import Acdp.AuthDelegation
import Acdp.AuthDelegationIntegrity
import Acdp.AuthCapabilityDelegation
import Acdp.AuthIdentity
import Acdp.AuthSerde
import Acdp.AuthSerdeRoundTrip
import Acdp.AuthCredentials
import Acdp.AuthCredentialPersistence
import Acdp.AuthVerification
import Acdp.AuthGateway
import Acdp.GatewayVerification
import Acdp.GatewayQuota
import Acdp.CoreError
import Acdp.CoreMessages
import Acdp.CoreMessageCodec
import Acdp.CoreInterceptor
import Acdp.CoreClient
import Acdp.MessageLedger
import Acdp.TextOperations
import Acdp.IntegerText
import Acdp.JsonText
import Acdp.CoreStdioTransport
import Acdp.CoreStdioDelivery
import Acdp.CoreHttpSseTransport
import Acdp.CoreSseDelivery
import Acdp.CoreCorrelation
import Acdp.CoreHttpStreamTransport
import Acdp.CoreResponseIdentity
import Acdp.AuthCredentialIntegrity
import Acdp.CoreClientLifecycle
import Acdp.CoreSessionIds
import Acdp.SlidingWindow
import Acdp.TransportRateLimit
import Acdp.JsonEquivalence
import Acdp.JsonLines
import Acdp.CoreMessageFidelity
import Acdp.TransportStdioHandler
import Acdp.TransportStdioTransparency
import Acdp.TransportInterceptionCoverage
import Acdp.TransportBufferedIpc
import Acdp.LineReader
import Acdp.TransportStdioLoop
import Acdp.TransportLineFidelity
import Acdp.TransportTuiIsolation
import Acdp.TransportCrashRecovery
import Acdp.PendingTable
import Acdp.TransportQuerySurvival
import Acdp.TransportBufferedIpcOrder
import Acdp.EffectLoop
import Acdp.Utf8Decoding
import Acdp.CommonGencode
import Acdp.SandboxService
import Acdp.SandboxCapabilitySafety
import Acdp.SandboxExecution
import Acdp.CoreClientReplies
import Acdp.TransportHttpServers
import Acdp.TransportBlockedResponses
import Acdp.TransportHttpHandler
import Acdp.TransportHttpIdentity
import Acdp.TransportQueryPaths
import Acdp.CoreInterceptorPasses
import Acdp.TransportDoubleInterception
import Acdp.TransportIpcServer
import Acdp.SandboxProcess
import Acdp.SandboxProcessLiveness
import Acdp.SandboxProcessDeadlock
import Acdp.CommonTypes
import Acdp.CommonMessages
import Acdp.CommonMessageFidelity
import Acdp.CommonIpc
import Acdp.RankedChoice
import Acdp.SandboxPolicy
import Acdp.SandboxSelector
import Acdp.LlmSessions
import Acdp.LlmSessionCounters
import Acdp.LlmSessionUpdates
import Acdp.SandboxReconnect
import Acdp.SandboxRegistry
import Acdp.LlmPredictions
import Acdp.LlmAccuracyMetrics
import Acdp.TextCase
import Acdp.JsonReadBack
import Acdp.LlmToolPredictor
import Acdp.LlmInterceptor
import Acdp.LlmVocabulary
import Acdp.LlmPendingPredictions
import Acdp.LlmOptimizer
import Acdp.StatefulAttempts
import Acdp.LlmModelManager
import Acdp.LlmModelReadiness
import Acdp.LlmTokenStream
import Acdp.TextWords
import Acdp.SandboxCodeGenerator
import Acdp.TransportBackendConnection
import Acdp.TuiRelay
import Acdp.TuiClientProxy
import Acdp.TuiHttpProxy
import Acdp.TuiHttpRestarts
import Acdp.TuiAppState
import Acdp.TuiClientRegistry
import Acdp.TuiTraffic
import Acdp.TuiApp
import Acdp.TuiAnswerPlacement
import Acdp.JsonRecords
import Acdp.CoreTypedMessages
import Acdp.CoreTypedFidelity
import Acdp.CoreClientNotifications
import Acdp.SandboxTimeLimits
import Acdp.NameReach
import Acdp.AuthPatternInclusion
import Acdp.AuthDelegationSteps
import Acdp.CallRates
import Acdp.AuthRateDelegation
import Acdp.AuthDelegationDepth
import Acdp.AuthValidityPeriods
import Acdp.FixedFields
import Acdp.ArcKeyCodecs
import Acdp.KeyedTrees
import Acdp.JsonPaths
import Acdp.TransportTransform
import Acdp.TransportTransformLaws
import Acdp.TransportTransformEffects
import Acdp.TransportTransformReports
import Acdp.BinaryDoubles
import Acdp.CoreValidation
import Acdp.CoreValidationOrder
import Acdp.CoreValidationSoundness
import Acdp.Base64
import Acdp.CoreTransportFactory
import Acdp.StableSorting
import Acdp.CoreInterceptorOrder
import Acdp.CoreValidationStability
import Acdp.CoreRetrySchedule
import Acdp.TransportToolsCache
import Acdp.CoreToolDecoder
import Acdp.JsonFlattening
import Acdp.CoreOpenMessages
import Acdp.CoreOpenMessageSurvival
import Acdp.CoreStreamedResponses
import Acdp.CoreTransportCredentials
import Acdp.MarkedBlocks
import Acdp.SandboxCodeBlocks
import Acdp.SandboxSentText
import Acdp.SandboxOutputFidelity
import Acdp.SandboxExecutionOutput
import Acdp.LlmModelPaths
import Acdp.JsonObjects
import Acdp.LlmEnrichment
import Acdp.JsonGrammar
import Acdp.TextSearch
import Acdp.LlmJsonExtraction
import Acdp.KeyedEvents
import Acdp.TuiIpcHandler
import Acdp.TuiMonitor
import Acdp.TuiMonitorProgress
import Acdp.TuiMonitorView
import Acdp.CoreInterceptorGuards
import Acdp.DoubleOrder
import Acdp.LlmRoutingRules
import Acdp.LlmRouting
import Acdp.TransportValidation
import Acdp.TransportMediatedLines
import Acdp.CheckThenAct
import Acdp.GatewayOvershoot
import Acdp.JsonLiterals
import Acdp.CoreMessageValues
import Acdp.JsonVisibleText
import Acdp.LitertServer
import Acdp.LitertServerTools
import Acdp.LitertServerRuns
import Acdp.LitertServerClient
import Acdp.GatewayIssuance
import Acdp.GatewayLifecycle
import Acdp.GatewayAccounts
import Acdp.TransportRoutingControl
