import BearerAccess.Http.Dialogue
import BearerAccess.Service
set_option autoImplicit false

namespace BearerAccess.TokenCheck

open Json

def usage : String := "usage: realm-auth-check <token> [resource#scope ...]"

inductive Outcome where
  | noToken
  | badPermission (fault : PermissionFault)
  | badConfig (error : ConfigError)
  | verdict (claims? : Option AccessClaims) (permissions : PermissionSet) (granted? : Option Bool)

def readPermissions : List String → Except PermissionFault (List Permission)
  | [] => .ok []
  | arg :: r => do
    let p ← Permission.ofText? arg
    let ps ← readPermissions r
    pure (p :: ps)

variable {σ : Type}

def run (check : SignatureCheck) (link : Link) (peer : Peer σ) (now : Int64) (vars : Variables)
    (args : List String) (provider : σ) : Outcome × σ :=
  match args with
  | [] => (.noToken, provider)
  | token :: rest =>
    match readPermissions rest with
    | .error fault => (.badPermission fault, provider)
    | .ok named =>
      match Config.ofVariables vars with
      | .error e => (.badConfig e, provider)
      | .ok config =>
        let permissions := PermissionSet.ofList named
        let service : Service := ⟨config, check, link⟩
        match service.authenticate peer now token (Service.initial provider) with
        | (.error _, s) => (.verdict none permissions none, s.provider)
        | (.ok claims, s) =>
          if permissions.isEmpty then (.verdict (some claims) permissions none, s.provider)
          else
            let (granted, s) := service.isGranted peer token permissions s
            (.verdict (some claims) permissions (some granted), s.provider)

/-- A run with the replies that have come so far: how it ends if no more come, and the request that
waits for one. -/
def attempt (check : SignatureCheck) (now : Int64) (vars : Variables) (args : List String)
    (replies : List Reply) : Outcome × Option HttpRequest :=
  let (outcome, dialogue) :=
    run check .up Dialogue.peer now vars args (Dialogue.ofReplies replies)
  (outcome, dialogue.open?)

def maxRequests : Nat := 2 * (Http.maxRedirects + 1)

namespace Outcome

def exitCode : Outcome → UInt32
  | .noToken => 2
  | .badPermission _ => 1
  | .badConfig _ => 1
  | .verdict claims? _ granted? => if claims?.isSome && granted?.getD true then 0 else 1

def verdictValue (claims? : Option AccessClaims) (permissions : PermissionSet)
    (granted? : Option Bool) : Value :=
  .object [("granted", match granted? with
      | none => .null
      | some b => .bool b),
    ("permissions", .array (permissions.texts.map .string)),
    ("subject", .ofOption (claims?.map AccessClaims.subject)),
    ("username", .ofOption (claims?.bind AccessClaims.username?)),
    ("valid", .bool claims?.isSome)]

def output : Outcome → String
  | .verdict claims? permissions granted? =>
    (verdictValue claims? permissions granted?).pretty ++ "\n"
  | _ => ""

def complaint : Outcome → String
  | .noToken => usage ++ "\n"
  | .badPermission fault => "Error: " ++ fault.diagnostic ++ "\n"
  | .badConfig e => "Error: " ++ e.diagnostic ++ "\n"
  | .verdict _ _ _ => ""

end Outcome

end BearerAccess.TokenCheck
