import Acdp.AuthPrimitives

/-!
# Execution plans

A plan is a list of nodes, each naming one capability, under a policy that
lists capability tokens.  A token permits the sinks it lists; where a policy
has several tokens with one identifier, the first one counts.
-/

namespace Acdp
namespace Common

open Auth (Uuid)

inductive MountMode where
  | readOnly
  | readWrite

structure MountSpec where
  hostPath : String
  sandboxPath : String
  mode : MountMode

inductive NetworkPolicy where
  | disabled
  | limited
  | full
deriving DecidableEq

structure CapabilityId where
  name : String
deriving DecidableEq

inductive CapabilityKind where
  | sandboxExecution
  | fileRead
  | fileWrite
  | network
  | codeFragment
  | data

inductive CapabilityOrigin where
  | trusted
  | userProvided
  | external

inductive CapabilitySink where
  | sandboxExecution
  | fileRead
  | fileWrite
  | networkRequest
  | emit
deriving DecidableEq

structure CapabilityToken where
  id : CapabilityId
  kind : CapabilityKind
  origin : CapabilityOrigin
  allowedSinks : List CapabilitySink

structure ExecutionPolicy where
  timeoutSecs : Option ℕ
  mounts : List MountSpec
  network : NetworkPolicy
  capabilities : List CapabilityToken

inductive PlanNodeKind where
  | runPython (code : String) (capability : CapabilityId)
  | readFile (path : String) (outputCapability : CapabilityId)
  | writeFile (path : String) (inputCapability : CapabilityId)
  | emit (inputCapability : CapabilityId)

structure PlanNode where
  id : String
  kind : PlanNodeKind

structure PlanGraph where
  nodes : List PlanNode

structure ExecutionPlan where
  planId : Uuid
  graph : PlanGraph
  policy : ExecutionPolicy

end Common
end Acdp
