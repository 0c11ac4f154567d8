import Acdp.AuthDelegation

/-!
# What delegation signatures establish

Two questions about the delegation code: which chains `verify` accepts, and
how much of a delegation the signed bytes determine.  Acceptance of a chain
is a property of its set of proofs, so links between neighbours are not part
of it.  The signed bytes determine everything except where the joined
identifier text is cut into delegator and delegatee.
-/

namespace Acdp
namespace Auth

variable {SecretKey : Type}

namespace DelegationProof

theorem verify_eq_ok_iff (ed25519 : Ed25519 SecretKey)
    (proof : DelegationProof) (key : Bytes) :
    proof.verify ed25519 key = .ok () ↔
      ∃ publicKey, ed25519.publicKeyFromSlice key = .ok publicKey ∧
        ed25519.verify publicKey proof.signingData proof.signature =
          .ok () := by
  unfold verify
  cases hkey : ed25519.publicKeyFromSlice key with
  | error e => simp
  | ok publicKey =>
      cases hverify :
          ed25519.verify publicKey proof.signingData proof.signature with
      | error e => simp [hverify]
      | ok accepted => simp [hverify]

end DelegationProof

/-! ## Chains -/

namespace DelegationChain

def ProofVerifies (ed25519 : Ed25519 SecretKey)
    (getPublicKey : String → Result Bytes) (proof : DelegationProof) :
    Prop :=
  ∃ key, getPublicKey proof.delegator = .ok key ∧
    proof.verify ed25519 key = .ok ()

/-- Neighbouring proofs hand over from delegatee to delegator and from
delegated credential to parent credential. -/
def Linked (self : DelegationChain) : Prop :=
  ∀ index earlier later,
    self.proofs[index]? = some earlier →
      self.proofs[index + 1]? = some later →
        earlier.delegatee = later.delegator ∧
          earlier.delegatedCredentialId = later.parentCredentialId

theorem verifyProofs_eq_ok_iff (ed25519 : Ed25519 SecretKey)
    (getPublicKey : String → Result Bytes) (proofs : List DelegationProof) :
    verifyProofs ed25519 getPublicKey proofs = .ok () ↔
      ∀ proof ∈ proofs, ProofVerifies ed25519 getPublicKey proof := by
  induction proofs with
  | nil => simp [verifyProofs]
  | cons proof rest ih =>
      rw [List.forall_mem_cons, ← ih]
      simp only [verifyProofs, ProofVerifies, Bind.bind, Except.bind]
      cases hkey : getPublicKey proof.delegator with
      | error e => simp
      | ok key =>
          cases hproof : proof.verify ed25519 key with
          | error e => simp [hproof]
          | ok accepted => simp [hproof]

theorem verify_eq_ok_iff (ed25519 : Ed25519 SecretKey)
    (getPublicKey : String → Result Bytes) (chain : DelegationChain) :
    chain.verify ed25519 getPublicKey = .ok () ↔
      ∀ proof ∈ chain.proofs, ProofVerifies ed25519 getPublicKey proof :=
  verifyProofs_eq_ok_iff ed25519 getPublicKey chain.proofs

/-- Removing, repeating and reordering proofs of an accepted chain, and
splicing accepted chains together, all give accepted chains. -/
theorem verify_of_subset {ed25519 : Ed25519 SecretKey}
    {getPublicKey : String → Result Bytes}
    {chain other : DelegationChain}
    (hchain : chain.verify ed25519 getPublicKey = .ok ())
    (hsubset : other.proofs ⊆ chain.proofs) :
    other.verify ed25519 getPublicKey = .ok () := by
  rw [verify_eq_ok_iff] at hchain ⊢
  intro proof hproof
  exact hchain proof (hsubset hproof)

/-- Acceptance establishes integrity of the chain exactly for chains that are
linked to begin with, and for those with a proof that fails on its own. -/
theorem verify_integrity_iff (ed25519 : Ed25519 SecretKey)
    (getPublicKey : String → Result Bytes) (chain : DelegationChain) :
    (chain.verify ed25519 getPublicKey = .ok () →
        (∀ proof ∈ chain.proofs,
          ∃ key, getPublicKey proof.delegator = .ok key ∧
            proof.verify ed25519 key = .ok ()) ∧
        chain.Linked) ↔
      chain.Linked ∨
        ∃ proof ∈ chain.proofs, ∀ key,
          getPublicKey proof.delegator = .ok key →
            proof.verify ed25519 key ≠ .ok () := by
  rw [verify_eq_ok_iff]
  constructor
  · intro hintegrity
    by_cases hall :
        ∀ proof ∈ chain.proofs, ProofVerifies ed25519 getPublicKey proof
    · exact Or.inl (hintegrity hall).2
    · right
      push Not at hall
      obtain ⟨proof, hproof, hfails⟩ := hall
      refine ⟨proof, hproof, ?_⟩
      intro key hkey hverify
      exact hfails ⟨key, hkey, hverify⟩
  · intro hcondition hall
    refine ⟨hall, ?_⟩
    rcases hcondition with hlinked | hfailing
    · exact hlinked
    · obtain ⟨proof, hproof, hfails⟩ := hfailing
      obtain ⟨key, hkey, hverify⟩ := hall proof hproof
      exact (hfails key hkey hverify).elim

end DelegationChain

def smallProof (delegator delegatee : String)
    (parentCredentialId delegatedCredentialId : Uuid) : DelegationProof :=
  let statement : DelegationProof :=
    { delegator
      delegatee
      parentCredentialId
      delegatedCredentialId
      timestamp := smallInstant
      capabilitiesReduced := true
      signature := FixedBytes.filled 64 0 }
  { statement with
    signature :=
      smallEd25519.sign (FixedBytes.filled 32 7) statement.signingData }

theorem smallProof_verify (delegator delegatee : String)
    (parentCredentialId delegatedCredentialId : Uuid) :
    (smallProof delegator delegatee parentCredentialId
        delegatedCredentialId).verify smallEd25519
      (FixedBytes.filled 32 7).val = .ok () := by
  rw [DelegationProof.verify_eq_ok_iff]
  refine ⟨FixedBytes.filled 32 7, ?_, ?_⟩
  · simp [Ed25519.publicKeyFromSlice]
  · exact smallEd25519_verify_sign _ _

namespace DelegationChain

/-- Two proofs by unrelated agents over unrelated credentials are accepted as
one chain. -/
theorem verify_accepts_unlinked :
    let chain : DelegationChain :=
      ⟨[smallProof "agent://a" "agent://b"
            (FixedBytes.filled 16 1) (FixedBytes.filled 16 2),
        smallProof "agent://x" "agent://y"
            (FixedBytes.filled 16 3) (FixedBytes.filled 16 4)]⟩
    chain.verify smallEd25519
        (fun _ => .ok (FixedBytes.filled 32 7).val) = .ok () ∧
      ¬ chain.Linked := by
  intro chain
  constructor
  · rw [verify_eq_ok_iff]
    intro proof hproof
    refine ⟨_, rfl, ?_⟩
    rcases List.mem_pair.mp hproof with hfirst | hsecond
    · rw [hfirst]
      exact smallProof_verify _ _ _ _
    · rw [hsecond]
      exact smallProof_verify _ _ _ _
  · intro hlinked
    have hlink := hlinked 0 _ _ rfl rfl
    exact absurd hlink.1 (by decide)

end DelegationChain

/-! ## Signed bytes -/

namespace DelegationProof

/-- The two proofs state the same delegation, timestamps to the second. -/
structure SameStatement (left right : DelegationProof) : Prop where
  delegator : left.delegator = right.delegator
  delegatee : left.delegatee = right.delegatee
  parentCredentialId : left.parentCredentialId = right.parentCredentialId
  delegatedCredentialId :
    left.delegatedCredentialId = right.delegatedCredentialId
  timestamp : left.timestamp.timestamp = right.timestamp.timestamp
  capabilitiesReduced : left.capabilitiesReduced = right.capabilitiesReduced

/-- The joined identifiers agree but are cut at different places, and all
other signed fields agree. -/
structure Recut (left right : DelegationProof) : Prop where
  joined :
    left.delegator ++ left.delegatee = right.delegator ++ right.delegatee
  cut : (asBytes left.delegator).length ≠ (asBytes right.delegator).length
  parentCredentialId : left.parentCredentialId = right.parentCredentialId
  delegatedCredentialId :
    left.delegatedCredentialId = right.delegatedCredentialId
  timestamp : left.timestamp.timestamp = right.timestamp.timestamp
  capabilitiesReduced : left.capabilitiesReduced = right.capabilitiesReduced

theorem signingData_eq_iff (left right : DelegationProof) :
    left.signingData = right.signingData ↔
      left.delegator ++ left.delegatee =
          right.delegator ++ right.delegatee ∧
        left.parentCredentialId = right.parentCredentialId ∧
        left.delegatedCredentialId = right.delegatedCredentialId ∧
        left.timestamp.timestamp = right.timestamp.timestamp ∧
        left.capabilitiesReduced = right.capabilitiesReduced := by
  constructor
  · intro hdata
    -- the four trailing fields have fixed width, so they peel off in turn
    unfold signingData at hdata
    obtain ⟨hdata, hreduced⟩ := List.append_inj' hdata rfl
    obtain ⟨hdata, htimestamp⟩ := List.append_inj' hdata (by simp)
    obtain ⟨hdata, hdelegated⟩ := List.append_inj' hdata (by
      rw [left.delegatedCredentialId.property,
        right.delegatedCredentialId.property])
    obtain ⟨hjoined, hparent⟩ := List.append_inj' hdata (by
      rw [left.parentCredentialId.property,
        right.parentCredentialId.property])
    rw [← asBytes_append, ← asBytes_append] at hjoined
    refine ⟨asBytes_injective hjoined, Subtype.ext hparent,
      Subtype.ext hdelegated, ?_, ?_⟩
    · exact i64ToLeBytes_injOn left.timestamp.timestamp_inI64
        right.timestamp.timestamp_inI64 htimestamp
    · cases hleft : left.capabilitiesReduced <;>
        cases hright : right.capabilitiesReduced <;>
        simp [hleft, hright] at hreduced ⊢
  · intro hfields
    obtain ⟨hjoined, hparent, hdelegated, htimestamp, hreduced⟩ := hfields
    have hbytes := congrArg asBytes hjoined
    rw [asBytes_append, asBytes_append] at hbytes
    simp only [signingData, hbytes, hparent, hdelegated, htimestamp,
      hreduced]

theorem sameStatement_or_recut {left right : DelegationProof}
    (hdata : left.signingData = right.signingData) :
    left.SameStatement right ∨ left.Recut right := by
  obtain ⟨hjoined, hparent, hdelegated, htimestamp, hreduced⟩ :=
    (signingData_eq_iff left right).mp hdata
  by_cases hcut :
      (asBytes left.delegator).length = (asBytes right.delegator).length
  · left
    have hbytes := congrArg asBytes hjoined
    rw [asBytes_append, asBytes_append] at hbytes
    obtain ⟨hdelegator, hdelegatee⟩ := List.append_inj hbytes hcut
    exact ⟨asBytes_injective hdelegator, asBytes_injective hdelegatee,
      hparent, hdelegated, htimestamp, hreduced⟩
  · right
    exact ⟨hjoined, hcut, hparent, hdelegated, htimestamp, hreduced⟩

theorem Recut.signingData_eq {left right : DelegationProof}
    (hrecut : left.Recut right) :
    left.signingData = right.signingData :=
  (signingData_eq_iff left right).mpr
    ⟨hrecut.joined, hrecut.parentCredentialId,
      hrecut.delegatedCredentialId, hrecut.timestamp,
      hrecut.capabilitiesReduced⟩

theorem Recut.not_sameStatement {left right : DelegationProof}
    (hrecut : left.Recut right) : ¬ left.SameStatement right := by
  intro hsame
  exact hrecut.cut (by rw [hsame.delegator])

/-- The signed bytes determine the delegation, and a signature made for one
delegation verifies for no other, exactly for proofs that are not two cuts of
one joined identifier text. -/
theorem signingData_determines_iff (left right : DelegationProof) :
    ((left.signingData = right.signingData → left.SameStatement right) ∧
        ∀ (SecretKey : Type) (ed25519 : Ed25519 SecretKey)
          (key : PublicKey),
          ed25519.SignatureOf key right.signature left.signingData →
          right.verify ed25519 key.val = .ok () →
          left.SameStatement right) ↔
      ¬ left.Recut right := by
  constructor
  · intro hdetermines hrecut
    exact hrecut.not_sameStatement (hdetermines.1 hrecut.signingData_eq)
  · intro hnotRecut
    have hbytes (hdata : left.signingData = right.signingData) :
        left.SameStatement right :=
      (sameStatement_or_recut hdata).resolve_right hnotRecut
    refine ⟨hbytes, ?_⟩
    intro SecretKey ed25519 key hsigned hverify
    rw [verify_eq_ok_iff] at hverify
    obtain ⟨publicKey, hkey, haccepted⟩ := hverify
    have hsameKey : key = publicKey := by
      simpa [Ed25519.publicKeyFromSlice] using hkey
    rw [← hsameKey] at haccepted
    have hdata : right.signingData = left.signingData :=
      (hsigned right.signingData).mp haccepted
    exact hbytes hdata.symm

/-- One signature, two delegations: the same bytes name the agents `alice`
and `bob` or `ali` and `cebob`. -/
theorem signingData_recut :
    let first := smallProof "alice" "bob"
      (FixedBytes.filled 16 1) (FixedBytes.filled 16 2)
    let second := smallProof "ali" "cebob"
      (FixedBytes.filled 16 1) (FixedBytes.filled 16 2)
    first.signingData = second.signingData ∧
      first.signature = second.signature ∧
      first.verify smallEd25519 (FixedBytes.filled 32 7).val = .ok () ∧
      second.verify smallEd25519 (FixedBytes.filled 32 7).val = .ok () ∧
      ¬ first.SameStatement second := by
  intro first second
  have hdata : first.signingData = second.signingData :=
    (signingData_eq_iff first second).mpr ⟨by decide, rfl, rfl, rfl, rfl⟩
  have hsignature : first.signature = second.signature :=
    congrArg (smallEd25519.sign (FixedBytes.filled 32 7)) hdata
  refine ⟨hdata, hsignature, smallProof_verify _ _ _ _,
    smallProof_verify _ _ _ _, ?_⟩
  intro hsame
  exact absurd hsame.delegator (by decide)

end DelegationProof

end Auth
end Acdp
