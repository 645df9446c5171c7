import BearerAccess.Gate
import BearerAccess.RequestGuard
import BearerAccess.Testing.ScriptedDecider
/-!
A small site for tests. Two pages stand behind the guard, one that shows the caller and one that
asks for permissions; the guard also stands before paths that lead nowhere. A third page shows the
caller too, but has no guard, so it knows none.
-/
set_option autoImplicit false

namespace BearerAccess.Testing

open Json

structure Site where
  verifier : Verifier
  source : KeySource
  now : Int64
  resolve : Resolver TokenPrincipal
  permissions : PermissionSet

/-- A resolver that knows some subjects only, if any are named, and may fail after that. -/
def selectiveResolver (known? : Option (List String)) (failure? : Option AuthError) :
    Resolver TokenPrincipal := fun claims =>
  if known?.any fun known => !known.contains claims.subject then .error .invalidPrincipal
  else
    match failure? with
    | some e => .error e
    | none => TokenPrincipal.ofClaims claims

namespace Site

def principalValue (p : TokenPrincipal) : Value :=
  .object [("scopes", .array (p.scopes.map .string)), ("subject", .string p.subject),
    ("username", .ofOption p.username?)]

def whoami : Option (Identity TokenPrincipal) → Response
  | none => .ofValue (.object [("principal", .null), ("subject", .null), ("token", .null)])
  | some i =>
    .ofValue (.object [("principal", principalValue i.principal),
      ("subject", .string i.claims.subject), ("token", .string i.token)])

def edit (permissions : PermissionSet) (i : Identity TokenPrincipal) (d : ScriptedDecider) :
    Response × ScriptedDecider :=
  let (answer, d) := Gate.requireGranted ScriptedDecider.decide i.token permissions d
  match answer with
  | .ok () => (.ofText "edited", d)
  | .error e => (e.response, d)

def page (site : Site) (path : List Char) (i : Identity TokenPrincipal) (d : ScriptedDecider) :
    Response × ScriptedDecider :=
  if path = "/whoami".toList then (whoami (some i), d)
  else if path = "/edit".toList then edit site.permissions i d
  else (.notFound, d)

def respond (site : Site) (r : Request) (s : Session) (d : ScriptedDecider) :
    Response × Session × ScriptedDecider :=
  let path := r.path.takeWhile (· != '?')
  if path = "/open".toList then (whoami none, s, d)
  else
    RequestGuard.respond site.verifier site.source site.now site.resolve (site.page path) r s d

end Site

end BearerAccess.Testing
