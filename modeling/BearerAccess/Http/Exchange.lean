import BearerAccess.Http.Url
/-!
Sending a request. A peer is any machine that answers requests; it can be reached or not.
Redirects are followed, ten at most: some turn the request into one that only reads, and none
takes the credentials to another server. All in all a request takes no longer than its timeout.
-/
set_option autoImplicit false

namespace BearerAccess

inductive HttpMethod where
  | get
  | post
  deriving DecidableEq, Repr

def HttpMethod.name : HttpMethod → String
  | .get => "GET"
  | .post => "POST"

structure HttpRequest where
  method : HttpMethod
  url : Url
  authorization? : Option String
  contentType? : Option String
  body : Bytes
  deriving DecidableEq, Repr

structure HttpResponse where
  status : Nat
  location? : Option String
  /-- The body, unless the connection ended before all of it had come. -/
  body? : Option Bytes
  deriving DecidableEq, Repr

/-- What a peer does with a request: it answers, or closes the connection after a while. -/
inductive Reply where
  | response (r : HttpResponse)
  | closed (after : Nat)
  deriving DecidableEq, Repr

abbrev Peer (σ : Type) := HttpRequest → σ → Reply × σ

inductive Link where
  | up
  | down
  deriving DecidableEq, Repr

inductive HttpFault where
  | badRequest
  | badScheme (url : String)
  | noAnswer (url : String)
  | tooManyRedirects (url : String)
  deriving DecidableEq, Repr

def HttpFault.message : HttpFault → String
  | .badRequest => "builder error"
  | .badScheme url => "builder error for url (" ++ url ++ ")"
  | .noAnswer url => "error sending request for url (" ++ url ++ ")"
  | .tooManyRedirects url => "error following redirect for url (" ++ url ++ ")"

def badBodyMessage : String := "error decoding response body"

namespace Http

/-- The header that carries a bearer token; a control other than a tab cannot be sent. -/
def bearerHeader? (token : String) : Option String :=
  if (bytesOf token).all fun b => b = 0x09 ∨ (0x20 ≤ b ∧ b ≠ 0x7F) then some ("Bearer " ++ token)
  else none

def url? (text : String) : Except HttpFault Url :=
  match Url.ofText? text.toList with
  | .ok u => .ok u
  | .error .unreadable => .error .badRequest
  | .error (.foreign u) => .error (.badScheme (String.ofList u))

def maxRedirects : Nat := 10

def redirected (r : HttpRequest) (keepsMethod : Bool) (target : Url) : HttpRequest :=
  let authorization? := if target.sameServer r.url then r.authorization? else none
  if keepsMethod then { r with url := target, authorization? }
  else ⟨.get, target, authorization?, none, []⟩

def next? (r : HttpRequest) (a : HttpResponse) : Option HttpRequest :=
  let target? := a.location?.bind fun l => r.url.join? l.toList
  if a.status = 301 ∨ a.status = 302 ∨ a.status = 303 then
    target?.map (redirected r (r.method = .get))
  else if a.status = 307 ∨ a.status = 308 then target?.map (redirected r true)
  else none

inductive Turn where
  | done (result : Except HttpFault HttpResponse) (time : Nat)
  | again (r : HttpRequest)

def turn (timeout : Nat) (r : HttpRequest) : Reply → Turn
  | .closed after => .done (.error (.noAnswer r.url.text)) (min after timeout)
  | .response a =>
    match next? r a with
    | none => .done (.ok a) 0
    | some r' => .again r'

variable {σ : Type}

def follow (peer : Peer σ) (timeout : Nat) :
    Nat → HttpRequest → σ → (Except HttpFault HttpResponse × Nat) × σ
  | 0, r, s =>
    let (reply, s) := peer r s
    match turn timeout r reply with
    | .done result time => ((result, time), s)
    | .again _ => ((.error (.tooManyRedirects r.url.text), 0), s)
  | more + 1, r, s =>
    let (reply, s) := peer r s
    match turn timeout r reply with
    | .done result time => ((result, time), s)
    | .again r' => follow peer timeout more r' s

def send (link : Link) (peer : Peer σ) (timeout : Nat) (r : HttpRequest) (s : σ) :
    (Except HttpFault HttpResponse × Nat) × σ :=
  match link with
  | .down => ((.error (.noAnswer r.url.text), 0), s)
  | .up => follow peer timeout maxRedirects r s

end Http

end BearerAccess
