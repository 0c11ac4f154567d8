import Mathlib.Tactic

/-!
# Errors of the credential crate

`ACDPError` with the text each variant displays.  Texts reach the outside
world through failure reasons, so they are part of the model.
-/

namespace Acdp
namespace Auth

inductive ACDPError where
  | invalidCredential (message : String)
  | credentialExpired (message : String)
  | rateLimitExceeded (used max : UInt64)
  | toolNotAllowed (tool : String)
  | resourceLimitExceeded (resource : String)
  | delegationNotAllowed (message : String)
  | delegationDepthExceeded (current max : UInt8)
  | capabilityReductionViolation (message : String)
  | invalidIDJAG (message : String)
  | tokenExchangeFailed (message : String)
  | mcpError (message : String)
  | arcVerificationFailed (message : String)
  | cryptoError (message : String)
  | databaseError (message : String)
  | httpError (message : String)
  | configError (message : String)
  | internalError (message : String)
  deriving DecidableEq, Repr

/-- The `Display` text of an error. -/
def ACDPError.display : ACDPError → String
  | .invalidCredential message => "Invalid credential: " ++ message
  | .credentialExpired message => "Credential expired at " ++ message
  | .rateLimitExceeded used max =>
      "Rate limit exceeded: " ++ toString used ++ "/" ++ toString max ++
        " presentations used"
  | .toolNotAllowed tool =>
      "Tool '" ++ tool ++ "' not allowed by credential capabilities"
  | .resourceLimitExceeded resource =>
      "Resource limit exceeded: " ++ resource
  | .delegationNotAllowed message => "Delegation not allowed: " ++ message
  | .delegationDepthExceeded current max =>
      "Delegation depth exceeded: " ++ toString current ++ " > " ++
        toString max
  | .capabilityReductionViolation message =>
      "Delegated capabilities must be subset of parent: " ++ message
  | .invalidIDJAG message => "Invalid ID-JAG token: " ++ message
  | .tokenExchangeFailed message => "Token exchange failed: " ++ message
  | .mcpError message => "MCP error: " ++ message
  | .arcVerificationFailed message =>
      "ARC proof verification failed: " ++ message
  | .cryptoError message => "Cryptographic error: " ++ message
  | .databaseError message => "Database error: " ++ message
  | .httpError message => "HTTP error: " ++ message
  | .configError message => "Configuration error: " ++ message
  | .internalError message => "Internal error: " ++ message

/-- `Result<T>` of the crate. -/
abbrev Result (α : Type*) := Except ACDPError α

end Auth
end Acdp
