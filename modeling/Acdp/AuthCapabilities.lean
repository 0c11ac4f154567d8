import Acdp.TextPrefix
import Acdp.AuthError

/-!
# Tool capabilities and rate limits

The access-control data of a credential: lists of glob-style tool patterns,
resource limits and rate limit parameters, with the access check made at
presentation time and the subset check made at delegation time.
-/

namespace Acdp
namespace Auth

open Text

structure ToolPattern where
  pattern : String
  deriving DecidableEq, Repr

/-- A trailing `*` matches by the text before it, a trailing `/` by the whole
pattern; any other pattern matches itself only. -/
def ToolPattern.matches (self : ToolPattern) (toolName : String) : Bool :=
  if endsWith self.pattern '*' then
    startsWith toolName (dropLast self.pattern)
  else if endsWith self.pattern '/' then
    startsWith toolName self.pattern
  else
    toolName == self.pattern

def ToolPattern.isSubsetOf (self parent : ToolPattern) : Bool :=
  if endsWith parent.pattern '*' then
    startsWith self.pattern (dropLast parent.pattern)
  else
    self.pattern == parent.pattern

/-- `std::time::Duration`: whole seconds and a fraction below one second. -/
structure Duration where
  secs : UInt64
  nanos : ℕ
  nanos_lt : nanos < 1000000000
  deriving DecidableEq, Repr

def Duration.fromSecs (secs : UInt64) : Duration := ⟨secs, 0, by norm_num⟩

structure RateLimitParams where
  maxPresentations : UInt64
  window : Duration
  deriving DecidableEq, Repr

def RateLimitParams.daily (maxPresentations : UInt64) : RateLimitParams :=
  ⟨maxPresentations, Duration.fromSecs (24 * 60 * 60)⟩

def RateLimitParams.hourly (maxPresentations : UInt64) : RateLimitParams :=
  ⟨maxPresentations, Duration.fromSecs (60 * 60)⟩

structure ResourceLimits where
  maxReadBytes : Option UInt64 := none
  maxWriteBytes : Option UInt64 := none
  maxConcurrentRequests : Option UInt32 := none
  deriving DecidableEq, Repr

/-- One limit against the parent's: a limit of the parent must be met by a
limit of the child that is no higher. -/
def limitWithin {α : Type} [LT α] [DecidableLT α] (child parent : Option α) :
    Bool :=
  match parent with
  | none => true
  | some parentMax =>
      match child with
      | none => false
      | some childMax => if parentMax < childMax then false else true

def ResourceLimits.isSubsetOf (self parent : ResourceLimits) : Bool :=
  if !limitWithin self.maxReadBytes parent.maxReadBytes then false
  else if !limitWithin self.maxWriteBytes parent.maxWriteBytes then false
  else if !limitWithin self.maxConcurrentRequests
      parent.maxConcurrentRequests then false
  else true

structure MCPCapabilities where
  allowedTools : List ToolPattern
  deniedTools : List ToolPattern := []
  resourceLimits : ResourceLimits := {}
  rateLimit : RateLimitParams
  deriving DecidableEq, Repr

namespace MCPCapabilities

/-- The access check of one call: the denied list is read first. -/
def isToolAllowed (self : MCPCapabilities) (toolName : String) :
    Result Unit :=
  if self.deniedTools.any (fun pattern => pattern.matches toolName) then
    .error (.toolNotAllowed toolName)
  else if self.allowedTools.any (fun pattern => pattern.matches toolName) then
    .ok ()
  else
    .error (.toolNotAllowed toolName)

/-- The subset check of a delegation.  Denied lists take no part in it. -/
def isSubsetOf (self parent : MCPCapabilities) : Bool :=
  if !self.allowedTools.all (fun childPattern =>
      parent.allowedTools.any (fun parentPattern =>
        childPattern.isSubsetOf parentPattern)) then false
  else if parent.rateLimit.maxPresentations <
      self.rateLimit.maxPresentations then false
  else if !self.resourceLimits.isSubsetOf parent.resourceLimits then false
  else true

end MCPCapabilities

end Auth
end Acdp
