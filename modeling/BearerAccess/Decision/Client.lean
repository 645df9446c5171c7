import BearerAccess.Decision.DecisionError
import BearerAccess.Gate
import BearerAccess.Http.Exchange
import BearerAccess.Http.Form
import BearerAccess.Json.Reader
import BearerAccess.Json.Record
import BearerAccess.Realm
set_option autoImplicit false

namespace BearerAccess.Decision

open Json

def grantType : String := "urn:ietf:params:oauth:grant-type:uma-ticket"

def form (clientId : String) (permissions : PermissionSet) : List (String × String) :=
  [("grant_type", grantType), ("audience", clientId), ("response_mode", "decision")] ++
    permissions.texts.map fun text => ("permission", text)

def ofDoc? (d : Doc) : Option Bool :=
  (d.fields? ["result"]).bind fun fields => fields.required "result" Doc.bool?

def ofResponse (r : HttpResponse) : Except DecisionError Bool :=
  if r.status = 200 then
    match (r.body?.bind Doc.ofBytes?).bind ofDoc? with
    | some granted => .ok granted
    | none => .error (.parse badBodyMessage)
  else if r.status = 401 ∨ r.status = 403 then .ok false
  else .error (.status r.status)

def request (e : Endpoints) (clientId token : String) (permissions : PermissionSet) :
    Except HttpFault HttpRequest := do
  let url ← Http.url? e.tokenUrl
  match Http.bearerHeader? token with
  | none => throw .badRequest
  | some header =>
    pure ⟨.post, url, some header, some Form.contentType,
      utf8 (Form.encode (form clientId permissions))⟩

variable {σ : Type}

def ask (link : Link) (peer : Peer σ) (timeout : Nat) (e : Endpoints) (clientId : String) :
    Decider σ DecisionError := fun token permissions s =>
  match request e clientId token permissions with
  | .error fault => (.error (.http fault.message), s)
  | .ok r =>
    match Http.send link peer timeout r s with
    | ((.error fault, _), s) => (.error (.http fault.message), s)
    | ((.ok response, _), s) => (ofResponse response, s)

end BearerAccess.Decision
