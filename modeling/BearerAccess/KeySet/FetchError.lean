import BearerAccess.AuthError
import BearerAccess.Cache.Basic
set_option autoImplicit false

namespace BearerAccess

inductive FetchError where
  | http (reason : String)
  | status (code : Nat)
  | parse (reason : String)
  deriving DecidableEq, Repr

def FetchError.message : FetchError → String
  | .http reason => "Key set request failed: " ++ reason
  | .status code => "Key set endpoint returned status " ++ String.ofList (decimal code)
  | .parse reason => "Invalid key set payload: " ++ reason

def AuthError.ofCacheError (e : CacheError FetchError) : AuthError :=
  .loadFailure (e.message FetchError.message)

end BearerAccess
