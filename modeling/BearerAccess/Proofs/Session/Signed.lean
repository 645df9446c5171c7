import BearerAccess.Proofs.Session.Verdicts
import BearerAccess.Proofs.Token.SecondReading
set_option autoImplicit false

namespace BearerAccess.Session

theorem kid_of_find? {set : KeySet} {kid : String} {k : Jwk} (h : set.find? kid = some k) :
    k.kid = kid := by
  simpa using List.find?_some h

end BearerAccess.Session
