import BearerAccess.Http.Exchange
import BearerAccess.KeySet
import BearerAccess.KeySet.FetchError
import BearerAccess.Realm
set_option autoImplicit false

namespace BearerAccess.KeySet

variable {σ : Type}

/-- The key set in a response: any status of success will do, and one bad key spoils the document.
-/
def ofResponse (r : HttpResponse) : Except FetchError KeySet :=
  if 200 ≤ r.status ∧ r.status < 300 then
    match r.body?.bind ofBytes? with
    | some keys => .ok keys
    | none => .error (.parse badBodyMessage)
  else .error (.status r.status)

def fetch (link : Link) (peer : Peer σ) (timeout : Nat) (e : Endpoints) (s : σ) :
    (Except FetchError KeySet × Nat) × σ :=
  match Http.url? e.certsUrl with
  | .error fault => ((.error (.http fault.message), 0), s)
  | .ok url =>
    match Http.send link peer timeout ⟨.get, url, none, none, []⟩ s with
    | ((.error fault, time), s) => ((.error (.http fault.message), time), s)
    | ((.ok response, time), s) => ((ofResponse response, time), s)

end BearerAccess.KeySet
