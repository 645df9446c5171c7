set_option autoImplicit false

namespace BearerAccess

inductive RefreshPolicy where
  | waitForRefresh
  | staleWhileRevalidate
  deriving DecidableEq, Repr

def RefreshPolicy.ofText? (text : String) : Option RefreshPolicy :=
  if text = "wait" then some .waitForRefresh
  else if text = "stale-while-revalidate" then some .staleWhileRevalidate
  else none

end BearerAccess
