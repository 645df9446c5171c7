import BearerAccess.AuthError
import BearerAccess.Token.Claims
set_option autoImplicit false

namespace BearerAccess

abbrev Resolver (π : Type) := AccessClaims → Except AuthError π

structure TokenPrincipal where
  subject : String
  username? : Option String
  scopes : List String
  deriving DecidableEq, Repr

def TokenPrincipal.ofClaims : Resolver TokenPrincipal := fun c =>
  if c.subject = "" then .error .invalidPrincipal
  else .ok ⟨c.subject, c.username?, c.scopes⟩

end BearerAccess
