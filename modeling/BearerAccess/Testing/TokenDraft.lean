import BearerAccess.Json.Writer
set_option autoImplicit false

namespace BearerAccess.Testing

open Json

structure TokenDraft where
  issuer : String
  subject? : Option String
  kind? : Option String
  expires : Int64
  issuedAt : Int64
  notBefore? : Option Int64
  client : String
  scope : String
  deriving DecidableEq, Repr

namespace TokenDraft

def new (now : Int64) (issuer : String) : TokenDraft where
  issuer := issuer
  subject? := some "test-subject"
  kind? := some "Bearer"
  expires := now + 3600
  issuedAt := now
  notBefore? := none
  client := "grants-frontend"
  scope := "openid profile"

inductive Call where
  | forUser (subject : String)
  | withoutSubject
  | withType (kind : String)
  | withoutType
  | issuedBy (issuer : String)
  | withScope (scope : String)
  | expiresIn (seconds : Int64)
  | notBeforeIn (seconds : Int64)
  | issuedAt (time : Int64)
  deriving DecidableEq, Repr

def apply (now : Int64) (d : TokenDraft) : Call → TokenDraft
  | .forUser subject => { d with subject? := some subject }
  | .withoutSubject => { d with subject? := none }
  | .withType kind => { d with kind? := some kind }
  | .withoutType => { d with kind? := none }
  | .issuedBy issuer => { d with issuer := issuer }
  | .withScope scope => { d with scope := scope }
  | .expiresIn seconds => { d with expires := now + seconds }
  | .notBeforeIn seconds => { d with notBefore? := some (now + seconds) }
  | .issuedAt time => { d with issuedAt := time }

def ofCalls (now : Int64) (issuer : String) (calls : List Call) : TokenDraft :=
  calls.foldl (apply now) (new now issuer)

def claims (d : TokenDraft) : Value :=
  let time (t : Int64) : Value := .integer t.toInt
  .object
    ([("azp", .string d.client), ("exp", time d.expires), ("iat", time d.issuedAt),
        ("iss", .string d.issuer)] ++
      Value.memberIf "nbf" time d.notBefore? ++ [("scope", .string d.scope)] ++
      Value.memberIf "sub" .string d.subject? ++ Value.memberIf "typ" .string d.kind?)

end TokenDraft

end BearerAccess.Testing
