import BearerAccess.Principal
import BearerAccess.Session
/-!
Guarding requests. A request is let through to its handler if it carries a bearer token that is
verified and stands for a principal; the handler is then given principal, claims and token. A
request without a bearer token is turned away before anything is asked for.
-/
set_option autoImplicit false

namespace BearerAccess

structure Request where
  path : List Char
  headers : List (List Char × Bytes)

structure Identity (π : Type) where
  principal : π
  claims : AccessClaims
  token : String

namespace Request

/-- The value of the first field with a name, whatever the case of its letters. -/
def header? (r : Request) (name : List Char) : Option Bytes :=
  (r.headers.find? fun h => h.1.map Char.toLower == name).map (·.2)

/-- A field value as a text: printable characters, spaces and tabs only. -/
def fieldText? (value : Bytes) : Option (List Char) :=
  if value.all fun b => b = 0x09 ∨ (0x20 ≤ b ∧ b ≤ 0x7E) then
    some (value.map fun b => Char.ofNat b.toNat)
  else none

def after? : List Char → List Char → Option (List Char)
  | [], text => some text
  | _ :: _, [] => none
  | p :: ps, c :: cs => if p = c then after? ps cs else none

def bearer? (r : Request) : Option String := do
  let value ← r.header? "authorization".toList
  let text ← fieldText? value
  let token ← after? "Bearer ".toList text
  if token.isEmpty then none else pure (String.ofList token)

end Request

namespace RequestGuard

variable {π σ : Type}

def identify (v : Verifier) (source : KeySource) (now : Int64) (resolve : Resolver π) (r : Request)
    (s : Session) : Except AuthError (Identity π) × Session :=
  match r.bearer? with
  | none => (.error .invalidPrincipal, s)
  | some token =>
    match s.authenticate v source now token with
    | (.error _, s) => (.error .invalidPrincipal, s)
    | (.ok claims, s) =>
      match resolve claims with
      | .error e => (.error e, s)
      | .ok principal => (.ok ⟨principal, claims, token⟩, s)

def respond (v : Verifier) (source : KeySource) (now : Int64) (resolve : Resolver π)
    (handler : Identity π → σ → Response × σ) (r : Request) (s : Session) (t : σ) :
    Response × Session × σ :=
  match identify v source now resolve r s with
  | (.error e, s) => (e.response, s, t)
  | (.ok identity, s) =>
    let (response, t) := handler identity t
    (response, s, t)

end RequestGuard

end BearerAccess
