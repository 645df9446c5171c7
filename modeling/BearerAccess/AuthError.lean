import BearerAccess.Permission
import BearerAccess.Json.Writer
set_option autoImplicit false

namespace BearerAccess

open Json

inductive AuthError where
  | keyNotFound (kid : String)
  | invalidPrincipal
  | permissionDenied (permissions : PermissionSet)
  | loadFailure (reason : String)
  deriving DecidableEq

structure Response where
  status : Nat
  challenge? : Option String
  contentType? : Option String
  body : String
  deriving DecidableEq, Repr

namespace Response

def jsonType : String := "application/json"

def textType : String := "text/plain; charset=utf-8"

def ofValue (v : Value) : Response := ⟨200, none, some jsonType, v.compact⟩

def ofText (text : String) : Response := ⟨200, none, some textType, text⟩

def notFound : Response := ⟨404, none, none, ""⟩

end Response

namespace AuthError

def message : AuthError → String
  | .keyNotFound kid => "No signing key matches key id " ++ kid
  | .invalidPrincipal => "No authenticated principal"
  | .permissionDenied ps => "Permission denied: " ++ ", ".intercalate ps.texts
  | .loadFailure reason => "Key set unavailable: " ++ reason

def statusCode : AuthError → Nat
  | .keyNotFound _ => 401
  | .invalidPrincipal => 401
  | .permissionDenied _ => 403
  | .loadFailure _ => 503

structure Refusal where
  status : Nat
  code : String
  message : String
  permissions : List String
  deriving DecidableEq, Repr

/-- The body of an answer; its list of permissions is left out when it is empty. -/
def Refusal.body (r : Refusal) : Value :=
  .object [("error", .object
    ([("code", .string r.code), ("message", .string r.message)] ++
      if r.permissions.isEmpty then [] else [("permissions", .array (r.permissions.map .string))]))]

def challenge : String := "Bearer error=\"invalid_token\""

def Refusal.response (r : Refusal) : Response :=
  ⟨r.status, if r.status = 401 then some challenge else none, some Response.jsonType,
    r.body.compact⟩

def refusal : AuthError → Refusal
  | .keyNotFound _ => ⟨401, "INVALID_TOKEN", "The access token is invalid or expired", []⟩
  | .invalidPrincipal => ⟨401, "INVALID_TOKEN", "The access token is invalid or expired", []⟩
  | .permissionDenied ps =>
    ⟨403, "PERMISSION_DENIED", "The request requires permissions the caller does not hold", ps.texts⟩
  | .loadFailure _ => ⟨503, "SERVICE_UNAVAILABLE", "Service temporarily unavailable", []⟩

def response (e : AuthError) : Response := e.refusal.response

end AuthError

end BearerAccess
