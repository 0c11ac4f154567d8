import Acdp.AuthCapabilities
import Mathlib.Data.Finset.Basic

/-!
# Security policies

What a policy says about a tool: which runtimes it may use, under which
limits, and whether its runs are audited.  What a tool's own policy leaves
open is up to the trust level.
-/

namespace Acdp
namespace Sandbox

open Auth (Duration)

inductive RuntimeType where
  | process
  | v8
  | wasm
deriving DecidableEq

namespace RuntimeType

/-- Lower is more secure. -/
def securityRank : RuntimeType → ℕ
  | .wasm => 0
  | .v8 => 1
  | .process => 2

theorem securityRank_injective : Function.Injective securityRank := by
  intro left right hsame
  cases left <;> cases right <;> first | rfl | cases hsame

def debug : RuntimeType → String
  | .process => "Process"
  | .v8 => "V8"
  | .wasm => "Wasm"

end RuntimeType

inductive TrustLevel where
  | untrusted
  | verified
  | trusted
  | system
deriving DecidableEq

inductive Language where
  | javaScript
  | python
  | wasm
  | shell
deriving DecidableEq

def Language.debug : Language → String
  | .javaScript => "JavaScript"
  | .python => "Python"
  | .wasm => "Wasm"
  | .shell => "Shell"

inductive RuntimeRequirement where
  | specific (runtime : RuntimeType)
  | auto (language : Language) (preferred : Option RuntimeType)
  | anyOf (runtimes : List RuntimeType)

structure ResourceLimits where
  maxDuration : Option Duration
  maxMemoryBytes : Option UInt64
  maxCpuTimeMs : Option UInt64
deriving DecidableEq

namespace ResourceLimits

def default : ResourceLimits where
  maxDuration := some (.fromSecs 30)
  maxMemoryBytes := some (100 * 1024 * 1024)
  maxCpuTimeMs := some 30000

def strict : ResourceLimits where
  maxDuration := some (.fromSecs 5)
  maxMemoryBytes := some (10 * 1024 * 1024)
  maxCpuTimeMs := some 5000

def permissive : ResourceLimits where
  maxDuration := some (.fromSecs 300)
  maxMemoryBytes := some (500 * 1024 * 1024)
  maxCpuTimeMs := some 300000

end ResourceLimits

structure ToolPolicy where
  toolId : String
  trustLevel : TrustLevel
  allowedRuntimes : List RuntimeType
  limits : Option ResourceLimits
  auditRequired : Bool

structure SecurityPolicy where
  allowedRuntimesByTrust : TrustLevel → Option (Finset RuntimeType)
  limitsByTrust : TrustLevel → Option ResourceLimits
  toolPolicies : String → Option ToolPolicy
  allowProcessRuntime : Bool

def defaultAllowedByTrust : TrustLevel → Option (Finset RuntimeType)
  | .untrusted => some {.wasm}
  | .verified => some {.wasm, .v8}
  | .trusted => some {.wasm, .v8}
  | .system => some {.wasm, .v8, .process}

def defaultLimitsByTrust : TrustLevel → Option ResourceLimits
  | .untrusted => some .strict
  | .verified => some .default
  | .trusted => some .permissive
  | .system => some .permissive

namespace SecurityPolicy

def default : SecurityPolicy where
  allowedRuntimesByTrust := defaultAllowedByTrust
  limitsByTrust := defaultLimitsByTrust
  toolPolicies _ := none
  allowProcessRuntime := false

def isRuntimeAllowed (self : SecurityPolicy) (toolId : String)
    (trustLevel : TrustLevel) (runtime : RuntimeType) : Bool :=
  if runtime = .process ∧ self.allowProcessRuntime = false then false
  else
    let byTrust :=
      match self.allowedRuntimesByTrust trustLevel with
      | some set => decide (runtime ∈ set)
      | none => false
    match self.toolPolicies toolId with
    | some toolPolicy =>
        if toolPolicy.allowedRuntimes ≠ [] then
          decide (runtime ∈ toolPolicy.allowedRuntimes)
        else byTrust
    | none => byTrust

/-- Without the process runtime where that is globally disabled. -/
def withoutProcess (self : SecurityPolicy) (allowed : Finset RuntimeType) :
    Finset RuntimeType :=
  if self.allowProcessRuntime = false then allowed.erase .process else allowed

def allowedRuntimes (self : SecurityPolicy) (toolId : String)
    (trustLevel : TrustLevel) : Finset RuntimeType :=
  let byTrust :=
    self.withoutProcess ((self.allowedRuntimesByTrust trustLevel).getD ∅)
  match self.toolPolicies toolId with
  | some toolPolicy =>
      if toolPolicy.allowedRuntimes ≠ [] then
        self.withoutProcess toolPolicy.allowedRuntimes.toFinset
      else byTrust
  | none => byTrust

def getLimits (self : SecurityPolicy) (toolId : String)
    (trustLevel : TrustLevel) : ResourceLimits :=
  match (self.toolPolicies toolId).bind ToolPolicy.limits with
  | some limits => limits
  | none => (self.limitsByTrust trustLevel).getD .default

def requiresAudit (self : SecurityPolicy) (toolId : String)
    (trustLevel : TrustLevel) : Bool :=
  match self.toolPolicies toolId with
  | some toolPolicy =>
      toolPolicy.auditRequired || trustLevel == .system ||
        trustLevel == .trusted
  | none => trustLevel == .system || trustLevel == .trusted

theorem mem_withoutProcess (self : SecurityPolicy)
    (allowed : Finset RuntimeType) (runtime : RuntimeType) :
    runtime ∈ self.withoutProcess allowed ↔
      ¬ (runtime = .process ∧ self.allowProcessRuntime = false) ∧
        runtime ∈ allowed := by
  rw [withoutProcess]
  split_ifs with hdisabled
  · simp [hdisabled]
  · simp [hdisabled]

/-- The two ways of asking a policy about a runtime agree. -/
theorem isRuntimeAllowed_iff (self : SecurityPolicy) (toolId : String)
    (trustLevel : TrustLevel) (runtime : RuntimeType) :
    self.isRuntimeAllowed toolId trustLevel runtime = true ↔
      runtime ∈ self.allowedRuntimes toolId trustLevel := by
  have hbyTrust :
      (match self.allowedRuntimesByTrust trustLevel with
        | some set => decide (runtime ∈ set)
        | none => false) = true ↔
      runtime ∈ (self.allowedRuntimesByTrust trustLevel).getD ∅ := by
    cases self.allowedRuntimesByTrust trustLevel <;> simp
  rw [isRuntimeAllowed, allowedRuntimes]
  cases htool : self.toolPolicies toolId with
  | none =>
      split_ifs with hprocess
      · simp [mem_withoutProcess, hprocess]
      · simp only [mem_withoutProcess, hprocess, not_false_eq_true, true_and]
        exact hbyTrust
  | some toolPolicy =>
      dsimp only
      by_cases hempty : toolPolicy.allowedRuntimes ≠ []
      · rw [if_pos hempty, if_pos hempty]
        split_ifs with hprocess
        · simp [mem_withoutProcess, hprocess]
        · simp [mem_withoutProcess, hprocess]
      · rw [if_neg hempty, if_neg hempty]
        split_ifs with hprocess
        · simp [mem_withoutProcess, hprocess]
        · simp only [mem_withoutProcess, hprocess, not_false_eq_true, true_and]
          exact hbyTrust

end SecurityPolicy

end Sandbox
end Acdp
