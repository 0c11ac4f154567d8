import Acdp.ByteStrings

/-!
# Requests to run code and their results
-/

namespace Acdp
namespace Sandbox

structure ExecutionRequest where
  code : String
  timeoutSecs : Option ℕ
  env : List (String × String)
  stdin : Option String

namespace ExecutionRequest

def new (code : String) : ExecutionRequest where
  code := code
  timeoutSecs := none
  env := []
  stdin := none

def withTimeout (self : ExecutionRequest) (secs : ℕ) : ExecutionRequest :=
  { self with timeoutSecs := some secs }

end ExecutionRequest

structure ExecutionResult where
  exitCode : ℤ
  durationMs : ℕ
  timedOut : Bool
  error : Option String

def ExecutionResult.success (self : ExecutionResult) : Bool :=
  self.exitCode == 0 && !self.timedOut && self.error.isNone

/-- What comes out of a stream: the chunks received from the two channels
until they are closed, and the result, if there was one before its channel
was closed. -/
structure ExecutionStream where
  stdout : List Bytes
  stderr : List Bytes
  result : Option ExecutionResult

end Sandbox
end Acdp
