set_option autoImplicit false

namespace BearerAccess

structure Realm where
  name : String
  deriving DecidableEq, Repr

def trimSlashes (base : List Char) : List Char := (base.reverse.dropWhile (· == '/')).reverse

structure Endpoints where
  base : String
  realm : Realm
  deriving DecidableEq, Repr

namespace Endpoints

def ofBase (base : String) (realm : Realm) : Endpoints :=
  ⟨String.ofList (trimSlashes base.toList), realm⟩

def issuer (e : Endpoints) : String := e.base ++ "/realms/" ++ e.realm.name

def certsUrl (e : Endpoints) : String := e.issuer ++ "/protocol/openid-connect/certs"

def tokenUrl (e : Endpoints) : String := e.issuer ++ "/protocol/openid-connect/token"

end Endpoints

end BearerAccess
