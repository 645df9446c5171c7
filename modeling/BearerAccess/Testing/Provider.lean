import BearerAccess.Http.Exchange
import BearerAccess.Json.Writer
import BearerAccess.Realm
/-!
A mock identity provider of one realm. It answers with what has been mounted; of several answers
to one request the one mounted first is given, and what nothing was mounted for is not found. It
counts requests, and may expect a number of them.
-/
set_option autoImplicit false

namespace BearerAccess.Testing

open Json

structure Mock where
  method : HttpMethod
  path : List Char
  needle : Bytes
  response : HttpResponse
  expected? : Option Nat
  calls : Nat

namespace Mock

def occursIn (needle : Bytes) : Bytes → Bool
  | [] => needle.isEmpty
  | b :: r => needle.isPrefixOf (b :: r) || occursIn needle r

def answers (m : Mock) (r : HttpRequest) : Bool :=
  m.method == r.method && m.path == r.url.path && occursIn m.needle r.body

def isMet (m : Mock) : Bool := m.expected?.all (· == m.calls)

end Mock

structure Provider where
  realm : String
  mocks : List Mock
  requests : List HttpRequest

namespace Provider

def start (realm : String) : Provider := ⟨realm, [], []⟩

def certsPath (p : Provider) : String :=
  "/realms/" ++ p.realm ++ "/protocol/openid-connect/certs"

def tokenPath (p : Provider) : String :=
  "/realms/" ++ p.realm ++ "/protocol/openid-connect/token"

def mount (p : Provider) (m : Mock) : Provider := { p with mocks := p.mocks ++ [m] }

def documentResponse (v : Value) : HttpResponse := ⟨200, none, some (utf8 v.render)⟩

def statusResponse (status : Nat) : HttpResponse := ⟨status, none, some []⟩

def mountKeySet (p : Provider) (keys : List Value) (expected? : Option Nat) : Provider :=
  p.mount ⟨.get, p.certsPath.toList, [], documentResponse (.object [("keys", .array keys)]),
    expected?, 0⟩

def mountKeySetStatus (p : Provider) (status : Nat) : Provider :=
  p.mount ⟨.get, p.certsPath.toList, [], statusResponse status, none, 0⟩

def mountDecision (p : Provider) (granted : Bool) : Provider :=
  p.mount ⟨.post, p.tokenPath.toList, bytesOf "response_mode=decision",
    documentResponse (.object [("result", .bool granted)]), none, 0⟩

def mountDecisionStatus (p : Provider) (status : Nat) : Provider :=
  p.mount ⟨.post, p.tokenPath.toList, [], statusResponse status, none, 0⟩

def reset (p : Provider) : Provider := start p.realm

def requestCount (p : Provider) (path : String) : Nat :=
  p.requests.countP fun r => r.url.path == path.toList

def expectationsMet (p : Provider) : Bool := p.mocks.all Mock.isMet

def pick (r : HttpRequest) : List Mock → HttpResponse × List Mock
  | [] => (statusResponse 404, [])
  | m :: ms =>
    if m.answers r then (m.response, { m with calls := m.calls + 1 } :: ms)
    else
      let (response, ms) := pick r ms
      (response, m :: ms)

def peer : Peer Provider := fun r p =>
  let (response, mocks) := pick r p.mocks
  (.response response, { p with mocks, requests := p.requests ++ [r] })

end Provider

end BearerAccess.Testing
