import BearerAccess.Token.Claims
set_option autoImplicit false

namespace BearerAccess

namespace Epoch

def clamp (t : Int) : Int64 :=
  if t < Int64.minValue.toInt then Int64.minValue
  else if Int64.maxValue.toInt < t then Int64.maxValue
  else Int64.ofInt t

def add (a b : Int64) : Int64 := clamp (a.toInt + b.toInt)

def sub (a b : Int64) : Int64 := clamp (a.toInt - b.toInt)

end Epoch

inductive ClaimFault where
  | issuerMismatch
  | missingSubject
  | wrongKind
  | notYetValid
  | expired
  | issuedInFuture
  deriving DecidableEq, Repr

def ClaimFault.message : ClaimFault → String
  | .issuerMismatch => "issuer does not match realm"
  | .missingSubject => "subject missing or empty"
  | .wrongKind => "token type is not Bearer"
  | .notYetValid => "token not yet valid"
  | .expired => "token expired"
  | .issuedInFuture => "token issued in the future"

namespace AccessClaims

def started (c : AccessClaims) (now skew : Int64) : Bool :=
  match c.notBefore? with
  | some t => !(now < Epoch.sub t skew)
  | none => true

def fromFuture (c : AccessClaims) (now skew : Int64) : Bool :=
  match c.issuedAt? with
  | some t => Epoch.add now skew < t
  | none => false

def fault? (c : AccessClaims) (issuer : String) (now skew : Int64) : Option ClaimFault :=
  if c.issuer ≠ issuer then some .issuerMismatch
  else if c.subject = "" then some .missingSubject
  else if c.kind? ≠ some bearerKind then some .wrongKind
  else if !c.started now skew then some .notYetValid
  else if Epoch.add c.expires skew ≤ now then some .expired
  else if c.fromFuture now skew then some .issuedInFuture
  else none

end AccessClaims

end BearerAccess
