import VoxForge.Auth.Memberships

/-! How a user comes to own an organisation: by founding it, or through a grant, followed
from the row that a request stored to the request that uses it; and whose grants the scopes
let through. -/
namespace VoxForge.Auth
open Foundation Core Sso

section escalation
variable (env : Environment) (settings : Settings)

def mappedRole (groups : List String) (rules : List (String × String)) : Option OrgRole :=
  rules.findSome? fun (groupName,role) =>
    if env.saml.lower groupName ∈ groups.map env.saml.lower then OrgRole.ofValue? role else none

variable {env settings} {a b : Store} {l : Label}

variable {ls : List Label} {orgId : OrgId}

/-! Whom the scopes let through -/

variable {who : Store → Label → OrgId → Bool}

variable (env settings)

end escalation

end VoxForge.Auth
