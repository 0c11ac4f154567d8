import Acdp.AuthError
import Acdp.AuthPrimitives
import Acdp.JsonValue

/-!
# Principals and agents

The two identities of a credential: the human principal taken from an ID-JAG
token and the agent that acts for it.  Both are validated when they are
created, with the field checks of the validation library.
-/

namespace Acdp
namespace Auth

/-- The validation library: what counts as a URL, and the text of a list of
failed checks, each given by its field and the code of the check. -/
structure ValidatorBackend where
  isUrl : String → Bool
  display : List (String × String) → String

/-- `#[validate(length(min, max))]`, counted in characters. -/
def validateLength (field : String) (min max : ℕ) (text : String) :
    List (String × String) :=
  if min ≤ text.toList.length ∧ text.toList.length ≤ max then []
  else [(field, "length")]

/-- `#[validate(url)]`. -/
def validateUrl (validator : ValidatorBackend) (field text : String) :
    List (String × String) :=
  if validator.isUrl text then [] else [(field, "url")]

/-! ## Principals -/

structure AdditionalClaims where
  email : Option String
  name : Option String
  org : Option String
  groups : Option (List String)
  custom : Json.OrderedMap

structure Principal where
  humanId : String
  idpIssuer : String
  idpClientId : String
  additionalClaims : Option AdditionalClaims

namespace Principal

def validate (validator : ValidatorBackend) (self : Principal) :
    List (String × String) :=
  validateLength "human_id" 1 255 self.humanId ++
    validateUrl validator "idp_issuer" self.idpIssuer ++
    validateLength "idp_client_id" 1 255 self.idpClientId

def fromIdJag (validator : ValidatorBackend)
    (humanId idpIssuer idpClientId : String) : Result Principal :=
  let principal : Principal := ⟨humanId, idpIssuer, idpClientId, none⟩
  match principal.validate validator with
  | [] => .ok principal
  | failed =>
      .error (.invalidIDJAG
        ("Invalid principal: " ++ validator.display failed))

end Principal

/-! ## Agents -/

structure AgentMetadata where
  version : Option String
  codeHash : Option String
  buildTimestamp : Option DateTime
  capabilitiesDescription : Option String
  custom : Json.OrderedMap

structure Agent where
  agentId : String
  publicKey : PublicKey
  platform : String
  verified : Bool
  metadata : Option AgentMetadata

namespace Agent

def validate (self : Agent) : List (String × String) :=
  validateLength "agent_id" 1 255 self.agentId ++
    validateLength "platform" 1 100 self.platform

def new (validator : ValidatorBackend) (agentId : String)
    (publicKey : PublicKey) (platform : String) (verified : Bool) :
    Result Agent :=
  let agent : Agent := ⟨agentId, publicKey, platform, verified, none⟩
  match agent.validate with
  | [] => .ok agent
  | failed =>
      .error (.invalidCredential
        ("Invalid agent: " ++ validator.display failed))

end Agent

end Auth
end Acdp
