import Acdp.ByteStrings

/-!
# Errors of the client library

The error variants that the modelled operations return.
-/

namespace Acdp
namespace Core

inductive TransportError where
  | invalidConfig (transportType reason : String)
  | notConnected (transportType reason : String)
  | networkError (transportType reason : String)
  | serializationError (transportType reason : String)
  | timeoutError (transportType reason : String)
  | disconnectedError (transportType reason : String)
  | processError (reason : String)
  | httpError (statusCode : UInt16) (reason : String)
  deriving DecidableEq, Repr

def TransportError.display : TransportError → String
  | .invalidConfig transportType reason =>
      "Invalid " ++ transportType ++ " configuration: " ++ reason
  | .notConnected transportType reason =>
      "Transport not connected (" ++ transportType ++ "): " ++ reason
  | .networkError transportType reason =>
      "Network error (" ++ transportType ++ "): " ++ reason
  | .serializationError transportType reason =>
      "Serialization error (" ++ transportType ++ "): " ++ reason
  | .timeoutError transportType reason =>
      "Operation timed out (" ++ transportType ++ "): " ++ reason
  | .disconnectedError transportType reason =>
      "Transport disconnected (" ++ transportType ++ "): " ++ reason
  | .processError reason => "Process error: " ++ reason
  | .httpError statusCode reason =>
      "HTTP error: " ++ toString statusCode.toNat ++ " - " ++ reason

inductive ProtocolError where
  | initializationFailed (reason : String)
  | notInitialized (reason : String)
  | requestBlocked (reason : String)
  | responseBlocked (reason : String)
  deriving DecidableEq, Repr

inductive McpError where
  | transport (error : TransportError)
  | protocol (error : ProtocolError)
  | serialization (source : String)
  | internal (message : String)
  deriving DecidableEq, Repr

def ProtocolError.display : ProtocolError → String
  | .initializationFailed reason =>
      "Protocol initialization failed: " ++ reason
  | .notInitialized reason => "Protocol not initialized: " ++ reason
  | .requestBlocked reason => "Request blocked by interceptor: " ++ reason
  | .responseBlocked reason => "Response blocked by interceptor: " ++ reason

def McpError.display : McpError → String
  | .transport error => "Transport error: " ++ error.display
  | .protocol error => "Protocol error: " ++ error.display
  | .serialization source => "Serialization error: " ++ source
  | .internal message => "Internal error: " ++ message

abbrev McpResult := Except McpError

end Core
end Acdp
