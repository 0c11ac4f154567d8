import Acdp.AuthError
import Acdp.AuthPrimitives

/-!
# Delegation rights, proofs and chains

Agent-to-agent delegation: the rights a credential grants, the signed proof
of one delegation and the chain of proofs that accompanies a credential.
-/

namespace Acdp
namespace Auth

inductive CapabilityReductionPolicy where
  | mustReduce
  | allowSame
  deriving DecidableEq, Repr

structure DelegationRights where
  canDelegate : Bool
  maxDelegationDepth : UInt8
  capabilityReductionPolicy : CapabilityReductionPolicy
  deriving DecidableEq, Repr

namespace DelegationRights

def allowDelegation (maxDepth : UInt8) : DelegationRights :=
  ⟨true, maxDepth, .mustReduce⟩

def noDelegation : DelegationRights := ⟨false, 0, .mustReduce⟩

def canDelegateAtDepth (self : DelegationRights) (currentDepth : UInt8) :
    Result Unit :=
  if !self.canDelegate then
    .error (.delegationNotAllowed
      "Delegation not permitted for this credential")
  else if currentDepth ≥ self.maxDelegationDepth then
    .error (.delegationDepthExceeded currentDepth self.maxDelegationDepth)
  else .ok ()

end DelegationRights

structure DelegationProof where
  delegator : String
  delegatee : String
  parentCredentialId : Uuid
  delegatedCredentialId : Uuid
  timestamp : DateTime
  capabilitiesReduced : Bool
  signature : Signature
  deriving DecidableEq, Repr

namespace DelegationProof

variable {SecretKey : Type}

/-- The signed bytes: the two agent identifiers run together, then four
fields of fixed width. -/
def signingData (self : DelegationProof) : Bytes :=
  asBytes self.delegator ++ asBytes self.delegatee ++
    self.parentCredentialId.val ++ self.delegatedCredentialId.val ++
    i64ToLeBytes self.timestamp.timestamp ++
    [if self.capabilitiesReduced then 1 else 0]

def verify (ed25519 : Ed25519 SecretKey) (self : DelegationProof)
    (delegatorPublicKey : Bytes) : Result Unit :=
  match ed25519.publicKeyFromSlice delegatorPublicKey with
  | .error e => .error (.cryptoError ("Invalid public key: " ++ e))
  | .ok publicKey =>
      match ed25519.verify publicKey self.signingData self.signature with
      | .error e =>
          .error (.invalidCredential
            ("Delegation proof verification failed: " ++ e))
      | .ok () => .ok ()

end DelegationProof

structure DelegationChain where
  proofs : List DelegationProof
  deriving DecidableEq, Repr

namespace DelegationChain

variable {SecretKey : Type}

def new : DelegationChain := ⟨[]⟩

def addProof (self : DelegationChain) (proof : DelegationProof) :
    DelegationChain :=
  ⟨self.proofs ++ [proof]⟩

/-- `self.proofs.len() as u8`. -/
def depth (self : DelegationChain) : UInt8 := UInt8.ofNat self.proofs.length

/-- The loop of `verify`: each proof is checked with its own delegator's key. -/
def verifyProofs (ed25519 : Ed25519 SecretKey)
    (getPublicKey : String → Result Bytes) :
    List DelegationProof → Result Unit
  | [] => .ok ()
  | proof :: rest => do
      let publicKey ← getPublicKey proof.delegator
      proof.verify ed25519 publicKey
      verifyProofs ed25519 getPublicKey rest

def verify (ed25519 : Ed25519 SecretKey) (self : DelegationChain)
    (getPublicKey : String → Result Bytes) : Result Unit :=
  verifyProofs ed25519 getPublicKey self.proofs

def auditTrail (self : DelegationChain) : List String :=
  self.proofs.map (fun proof => proof.delegator ++ " → " ++ proof.delegatee)

def checkDepth (self : DelegationChain) (maxDepth : UInt8) : Result Unit :=
  if self.depth > maxDepth then
    .error (.delegationDepthExceeded self.depth maxDepth)
  else .ok ()

end DelegationChain

end Auth
end Acdp
