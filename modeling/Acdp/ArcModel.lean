import Acdp.LinearRelation
import Acdp.AuthError

/-!
# Anonymous rate-limited credentials

The blind issuance protocol and the unlinkable presentations of `arc.rs` and
`arc_zkp.rs`.  Points and scalars belong to an arbitrary vector space over an
arbitrary field; the curve, hash-to-curve and proof libraries are collected
in `ArcBackend`.  Every value the code draws from the system's random number
generator is an argument.
-/

namespace Acdp
namespace Auth

/-- The elliptic-curve and proof libraries the protocol is built on. -/
structure ArcBackend (F G Coins : Type) where
  generator : G
  hashFromBytes : (message dst : Bytes) → G
  pointToBytes : G → Bytes
  pointFromBytes : Bytes → Option G
  nizk : Nizk F G Coins

/-- Compressed points are 33 bytes long and decode to themselves, the
identity included. -/
def ArcBackend.PointsRoundTrip {F G Coins : Type}
    (backend : ArcBackend F G Coins) : Prop :=
  ∀ point, (backend.pointToBytes point).length = 33 ∧
    backend.pointFromBytes (backend.pointToBytes point) = some point

variable {F G Coins : Type}

structure ARCGenerators (G : Type) where
  g : G
  h : G

def ARCGenerators.new (backend : ArcBackend F G Coins) : ARCGenerators G where
  g := backend.generator
  h := backend.hashFromBytes (backend.pointToBytes backend.generator)
    (asBytes "HashToGroup-ARCV1-P256generatorH")

structure ServerPrivateKey (F : Type) where
  x0 : F
  x1 : F
  x2 : F
  x0Blinding : F

structure ServerPublicKey (G : Type) where
  x0 : G
  x1 : G
  x2 : G

structure ClientSecrets (F : Type) where
  m1 : F
  s : F
  r1 : F
  r2 : F

structure ARCCredentialRequest where
  m1CommitBlinded : Bytes
  x0Aux : Bytes
  x1Aux : Bytes
  x2Aux : Bytes

structure ARCCredentialResponse where
  u : Bytes
  encUPrime : Bytes
  x0Aux : Bytes
  x1Aux : Bytes
  x2Aux : Bytes
  proof : Bytes

structure ARCCredential (F G : Type) where
  m1 : F
  u : G
  uPrime : G
  x1 : G
  maxPresentations : UInt64
  presentationsUsed : UInt64

structure ARCProof where
  proof : Bytes

structure ARCPresentation (G : Type) where
  u : G
  uPrimeCommit : G
  m1Commit : G
  tag : G
  m1Tag : G
  t : G
  proof : ARCProof

/-- `deserialize_point`: the length is checked before the encoding. -/
def ARCCredentialRequest.deserializePoint (backend : ArcBackend F G Coins)
    (bytes : Bytes) : Result G :=
  if bytes.length ≠ 33 then
    .error (.arcVerificationFailed "Invalid point length")
  else
    match backend.pointFromBytes bytes with
    | some point => .ok point
    | none => .error (.arcVerificationFailed "Invalid point encoding")

def ARCCredentialRequest.toPoints (backend : ArcBackend F G Coins)
    (self : ARCCredentialRequest) : Result (G × G × G × G) := do
  let m1Commit ← deserializePoint backend self.m1CommitBlinded
  let x0Aux ← deserializePoint backend self.x0Aux
  let x1Aux ← deserializePoint backend self.x1Aux
  let x2Aux ← deserializePoint backend self.x2Aux
  .ok (m1Commit, x0Aux, x1Aux, x2Aux)

def ARCCredential.presentationsRemaining (self : ARCCredential F G) :
    UInt64 :=
  if self.presentationsUsed ≤ self.maxPresentations then
    self.maxPresentations - self.presentationsUsed
  else 0

variable [Field F] [AddCommGroup G] [Module F G]

def ServerPublicKey.fromPrivateKey (privateKey : ServerPrivateKey F)
    (generators : ARCGenerators G) : ServerPublicKey G where
  x0 := privateKey.x0Blinding • generators.g + privateKey.x0 • generators.h
  x1 := privateKey.x1 • generators.g
  x2 := privateKey.x2 • generators.g

def ARCCredentialRequest.new (backend : ArcBackend F G Coins)
    (clientSecrets : ClientSecrets F) (serverPublicKey : ServerPublicKey G)
    (generators : ARCGenerators G) : ARCCredentialRequest :=
  let commitBlind :=
    clientSecrets.s • generators.g + clientSecrets.m1 • serverPublicKey.x1
  let x0Aux := clientSecrets.r1 • generators.g
  let x1Aux := (0 : F) • generators.g
  let x2Aux := (0 : F) • generators.g
  { m1CommitBlinded := backend.pointToBytes commitBlind
    x0Aux := backend.pointToBytes x0Aux
    x1Aux := backend.pointToBytes x1Aux
    x2Aux := backend.pointToBytes x2Aux }

/-- Server-side issuance; `b` is the server's random blinding factor. -/
def ARCCredentialResponse.issue (backend : ArcBackend F G Coins)
    (request : ARCCredentialRequest) (serverPrivateKey : ServerPrivateKey F)
    (m2 : F) (generators : ARCGenerators G) (b : F) :
    Result ARCCredentialResponse := do
  let (m1CommitBlinded, x0Aux, _x1Aux, _x2Aux) ← request.toPoints backend
  let p := b • generators.g
  let blindQ :=
    b • m1CommitBlinded +
      (serverPrivateKey.x0 + m2 * serverPrivateKey.x2) • p
  let encUPrime := blindQ + x0Aux
  .ok
    { u := backend.pointToBytes p
      encUPrime := backend.pointToBytes encUPrime
      x0Aux := request.x0Aux
      x1Aux := request.x1Aux
      x2Aux := request.x2Aux
      proof := List.replicate 64 0 }

/-- Client-side unblinding; `r` re-randomises the MAC. -/
def ARCCredential.fromResponse (backend : ArcBackend F G Coins)
    (response : ARCCredentialResponse) (_request : ARCCredentialRequest)
    (clientSecrets : ClientSecrets F) (serverPublicKey : ServerPublicKey G)
    (r : F) : Result (ARCCredential F G) := do
  let p ← ARCCredentialRequest.deserializePoint backend response.u
  let encBlindQ ←
    ARCCredentialRequest.deserializePoint backend response.encUPrime
  let x0Aux ← ARCCredentialRequest.deserializePoint backend response.x0Aux
  let blindQ := encBlindQ - x0Aux
  let q := r • (blindQ - clientSecrets.s • p)
  let u := r • p
  .ok
    { m1 := clientSecrets.m1
      u := u
      uPrime := q
      x1 := serverPublicKey.x1
      maxPresentations := 1000
      presentationsUsed := 0 }

/-! ## The proof of a presentation -/

/-- The four equations of a presentation, with witness `(m1, z, r, nonce)`.
The prover and the verifier build the same relation. -/
def presentationRelation (u x1 g h tag m1Commit v m1Tag t : G) :
    LinearRelation F G :=
  (StateT.run (m := Id) (do
    let scalarVar ← LinearRelation.allocateScalars 4
    let m1Var := scalarVar 0
    let zVar := scalarVar 1
    let rVar := scalarVar 2
    let nonceVar := scalarVar 3
    let elementVar ← LinearRelation.allocateElements 5
    let uVar := elementVar 0
    let x1Var := elementVar 1
    let gVar := elementVar 2
    let hVar := elementVar 3
    let tagVar := elementVar 4
    -- m1Commit = m1 * U + z * G
    let m1CommitVar ← LinearRelation.allocateEq
      [⟨1, m1Var, uVar⟩, ⟨1, zVar, gVar⟩]
    -- V = z * X1 - r * G
    let vVar ← LinearRelation.allocateEq
      [⟨1, zVar, x1Var⟩, ⟨-1, rVar, gVar⟩]
    -- T = m1 * tag + nonce * tag
    let tVar ← LinearRelation.allocateEq
      [⟨1, m1Var, tagVar⟩, ⟨1, nonceVar, tagVar⟩]
    -- m1Tag = m1 * tag
    let m1TagVar ← LinearRelation.allocateEq [⟨1, m1Var, tagVar⟩]
    LinearRelation.setElement uVar u
    LinearRelation.setElement x1Var x1
    LinearRelation.setElement gVar g
    LinearRelation.setElement hVar h
    LinearRelation.setElement tagVar tag
    LinearRelation.setElement m1CommitVar m1Commit
    LinearRelation.setElement vVar v
    LinearRelation.setElement m1TagVar m1Tag
    LinearRelation.setElement tVar t) {}).2

def presentationSessionId (presentationContext : Bytes) : Bytes :=
  asBytes ("ARC-P256-presentation:" ++ hexEncode presentationContext)

def ARCPresentationProof.create (backend : ArcBackend F G Coins)
    (m1 z r nonce : F) (u x1 g h tag m1Commit v m1Tag : G)
    (presentationContext : Bytes) (coins : Coins) : Result Bytes :=
  let tValue := (m1 + nonce) • tag
  let relation :=
    presentationRelation u x1 g h tag m1Commit v m1Tag tValue
  let sessionId := presentationSessionId presentationContext
  match backend.nizk.intoNizk relation sessionId with
  | .error e =>
      .error (.arcVerificationFailed ("NIZK creation failed: " ++ e))
  | .ok () =>
      match backend.nizk.proveBatchable relation sessionId [m1, z, r, nonce]
          coins with
      | .error e =>
          .error (.arcVerificationFailed ("Proof generation failed: " ++ e))
      | .ok proof => .ok proof

def ARCPresentationProof.verify (backend : ArcBackend F G Coins)
    (proof : Bytes) (u x1 g h tag m1Commit v m1Tag t : G)
    (presentationContext : Bytes) : Result Unit :=
  let relation : LinearRelation F G :=
    presentationRelation u x1 g h tag m1Commit v m1Tag t
  let sessionId := presentationSessionId presentationContext
  match backend.nizk.intoNizk relation sessionId with
  | .error e =>
      .error (.arcVerificationFailed ("NIZK creation failed: " ++ e))
  | .ok () =>
      match backend.nizk.verifyBatchable relation sessionId proof with
      | .error e =>
          .error (.arcVerificationFailed ("Proof verification failed: " ++ e))
      | .ok () => .ok ()

/-! ## Presentations -/

/-- `Scalar::from(nonce)`. -/
def nonceScalar (nonce : UInt64) : F := (nonce.toNat : F)

def tagBase (backend : ArcBackend F G Coins) (presentationContext : Bytes) :
    G :=
  backend.hashFromBytes presentationContext
    (asBytes "HashToGroup-ARCV1-P256Tag")

structure PresentationRandomness (F Coins : Type) where
  a : F
  r : F
  z : F
  coins : Coins

/-- The load and the comparison at the start of a presentation, given the
loaded counter. -/
def ARCCredential.checkQuota (self : ARCCredential F G) (used : UInt64) :
    Result Unit :=
  if used ≥ self.maxPresentations then
    .error (.rateLimitExceeded used self.maxPresentations)
  else .ok ()

section Present

variable [DecidableEq F] [DecidableEq G]

/-- The work of a presentation between the check and the increment. -/
def ARCCredential.buildPresentation (backend : ArcBackend F G Coins)
    (self : ARCCredential F G) (presentationContext : Bytes)
    (nonce : UInt64) (generators : ARCGenerators G)
    (random : PresentationRandomness F Coins) :
    Result (ARCPresentation G) := do
  let uRand := random.a • self.u
  let uPrimeRand := random.a • self.uPrime
  let m1Commit := self.m1 • uRand + random.z • generators.g
  let uPrimeCommit := uPrimeRand + random.r • generators.g
  let v := random.z • self.x1 - random.r • generators.g
  if self.m1 + nonceScalar nonce = 0 then
    .error (.arcVerificationFailed "Cannot invert (m1 + nonce)")
  else
    let inverse := (self.m1 + nonceScalar nonce)⁻¹
    let t := tagBase backend presentationContext
    let tag := inverse • t
    let m1Tag := self.m1 • tag
    let proof ← ARCPresentationProof.create backend self.m1 random.z random.r
      (nonceScalar nonce) uRand self.x1 generators.g generators.h tag
      m1Commit v m1Tag presentationContext random.coins
    .ok
      { u := uRand
        uPrimeCommit := uPrimeCommit
        m1Commit := m1Commit
        tag := tag
        m1Tag := m1Tag
        t := t
        proof := ⟨proof⟩ }

/-- One call that runs alone: the counter moves only on success. -/
def ARCCredential.createPresentation (backend : ArcBackend F G Coins)
    (self : ARCCredential F G) (presentationContext : Bytes)
    (nonce : UInt64) (generators : ARCGenerators G)
    (random : PresentationRandomness F Coins) :
    Result (ARCPresentation G) × ARCCredential F G :=
  match self.checkQuota self.presentationsUsed with
  | .error e => (.error e, self)
  | .ok () =>
      match self.buildPresentation backend presentationContext nonce
          generators random with
      | .error e => (.error e, self)
      | .ok presentation =>
          (.ok presentation,
            { self with presentationsUsed := self.presentationsUsed + 1 })

def ARCPresentation.verify (backend : ArcBackend F G Coins)
    (self : ARCPresentation G) (serverPrivateKey : ServerPrivateKey F)
    (m2 : F) (presentationContext : Bytes)
    (nonce presentationLimit : UInt64) (generators : ARCGenerators G) :
    Result Bool :=
  if nonce ≥ presentationLimit then .ok false
  else if self.u = 0 ∨ self.uPrimeCommit = 0 then .ok false
  else do
    let v :=
      serverPrivateKey.x1 • self.m1Commit + serverPrivateKey.x0 • self.u +
        (serverPrivateKey.x2 * m2) • self.u - self.uPrimeCommit
    let x1 := serverPrivateKey.x1 • generators.g
    ARCPresentationProof.verify backend self.proof.proof self.u x1
      generators.g generators.h self.tag self.m1Commit v self.m1Tag self.t
      presentationContext
    let expectedT := tagBase backend presentationContext
    let expectedM1Tag := expectedT - (nonceScalar nonce : F) • self.tag
    if self.t ≠ expectedT ∨ self.m1Tag ≠ expectedM1Tag then .ok false
    else .ok true

end Present

end Auth
end Acdp
