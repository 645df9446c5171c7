import BearerAccess.Cache.Schedule
import BearerAccess.KeySet.FetchError
import BearerAccess.Realm
import BearerAccess.Token.Verification
/-!
A verifier over time. Tokens presented together are read first; those that can be read ask the
cache for the realm's key set, one after the other, and are judged when it has answered, by the
wall clock that was read when they came in. A token that cannot be read asks for nothing.
-/
set_option autoImplicit false

namespace BearerAccess

inductive KeySource where
  | answering (delay : Nat) (ending : Cache.Ending KeySet FetchError)
  | silent

def KeySource.loader : KeySource → Cache.Loader KeySet FetchError
  | .answering delay ending => .finishing delay ending
  | .silent => .hanging

structure Verifier where
  endpoints : Endpoints
  skew : Int64
  check : SignatureCheck
  cache : Cache.Settings

def Verifier.clampSkew (seconds : Nat) : Int64 := Epoch.clamp seconds

abbrev KeySetCache := Cache Realm KeySet FetchError Nat

abbrev KeySetNotice := Cache.Notice Realm KeySet FetchError Nat

def keysReported (call : Nat) : List KeySetNotice → Except AuthError KeySet
  | [] => .error (.loadFailure "")
  | .reported c report _ :: r =>
    if c = call then
      match report with
      | .value keys => .ok keys
      | .failure e => .error (.ofCacheError e)
      | .callerPanic => .error (.loadFailure "")
    else keysReported call r
  | _ :: r => keysReported call r

def KeySetNotice.isFetch : KeySetNotice → Bool
  | .invoked _ _ _ _ => true
  | _ => false

/-- The state of a verifier: its cache, the number of the next call, and the fetches so far. -/
structure Session where
  cache : KeySetCache
  nextCall : Nat
  fetches : Nat

namespace Session

def initial : Session := ⟨.empty, 0, 0⟩

abbrev Decoded := Except TokenFault (UnverifiedToken AccessClaims)

def decode (token : String) : Decoded := UnverifiedToken.decode AccessClaims.ofBytes? token

def numbered (s : Session) (tokens : List String) : List (Decoded × Nat) :=
  (tokens.map decode).zipIdx s.nextCall

def calls (v : Verifier) (source : KeySource) (asked : List (Decoded × Nat)) :
    List (Cache.Event Realm KeySet FetchError Nat) :=
  asked.filterMap fun t =>
    match t.1 with
    | .ok _ => some (.call t.2 v.endpoints.realm source.loader)
    | .error _ => none

def awaitAll (v : Verifier) (c : KeySetCache) : List Nat → KeySetCache × List KeySetNotice
  | [] => (c, [])
  | id :: r =>
    let (c', notices) := c.await v.cache id
    let (c'', more) := awaitAll v c' r
    (c'', notices ++ more)

def verdict (v : Verifier) (now : Int64) (notices : List KeySetNotice) (t : Decoded × Nat) :
    Except Rejection AccessClaims :=
  match t.1 with
  | .error fault => .error (.malformed fault)
  | .ok token =>
    token.verdict v.check v.endpoints.issuer v.skew now (keysReported t.2 notices)

def authenticateAll (v : Verifier) (source : KeySource) (now : Int64) (tokens : List String)
    (s : Session) : List (Except Rejection AccessClaims) × Session :=
  let asked := s.numbered tokens
  let (c, notices) := s.cache.run v.cache (calls v source asked)
  let waiting := asked.filterMap fun t => if t.1.isOk then some t.2 else none
  let (c, more) := awaitAll v c waiting
  let notices := notices ++ more
  (asked.map (verdict v now notices),
    ⟨c, s.nextCall + tokens.length, s.fetches + notices.countP KeySetNotice.isFetch⟩)

def authenticate (v : Verifier) (source : KeySource) (now : Int64) (token : String) (s : Session) :
    Except Rejection AccessClaims × Session :=
  let (verdicts, s) := authenticateAll v source now [token] s
  (verdicts.headD (.error (.malformed .malformed)), s)

def verify (v : Verifier) (source : KeySource) (now : Int64) (token : String) (s : Session) :
    Bool × Session :=
  let (verdict, s) := s.authenticate v source now token
  (verdict.isOk, s)

def sleep (v : Verifier) (span : Nat) (s : Session) : Session :=
  { s with cache := (s.cache.sleep v.cache span).1 }

end Session

end BearerAccess
