import BearerAccess.Config
import BearerAccess.Decision.Client
import BearerAccess.KeySet.Fetch
import BearerAccess.Session
set_option autoImplicit false

namespace BearerAccess

structure Service where
  config : Config
  check : SignatureCheck
  link : Link

structure Service.State (σ : Type) where
  session : Session
  provider : σ

namespace Service

variable {σ : Type}

def timeout (v : Service) : Nat := Duration.seconds v.config.httpTimeoutSeconds

def verifier (v : Service) : Verifier where
  endpoints := v.config.endpoints
  skew := Verifier.clampSkew v.config.clockSkewSeconds
  check := v.check
  cache := ⟨Duration.seconds v.config.keySetTtlSeconds, v.timeout, v.config.refreshPolicy⟩

def initial (provider : σ) : State σ := ⟨.initial, provider⟩

/-- What a fetch would lead to now, and the provider's state after it. -/
def source (v : Service) (peer : Peer σ) (provider : σ) : KeySource × σ :=
  match KeySet.fetch v.link peer v.timeout v.config.endpoints provider with
  | ((.ok keys, time), provider) => (.answering time (.value keys), provider)
  | ((.error e, time), provider) => (.answering time (.error e), provider)

def authenticate (v : Service) (peer : Peer σ) (now : Int64) (token : String) (s : State σ) :
    Except Rejection AccessClaims × State σ :=
  let (source, provider) := v.source peer s.provider
  let (verdict, session) := s.session.authenticate v.verifier source now token
  (verdict, ⟨session, if session.fetches = s.session.fetches then s.provider else provider⟩)

def verify (v : Service) (peer : Peer σ) (now : Int64) (token : String) (s : State σ) :
    Bool × State σ :=
  let (verdict, s) := v.authenticate peer now token s
  (verdict.isOk, s)

def decider (v : Service) (peer : Peer σ) : Decider σ DecisionError :=
  Decision.ask v.link peer v.timeout v.config.endpoints v.config.clientId

def isGranted (v : Service) (peer : Peer σ) (token : String) (permissions : PermissionSet)
    (s : State σ) : Bool × State σ :=
  let (granted, provider) := Gate.isGranted (v.decider peer) token permissions s.provider
  (granted, { s with provider })

def requireGranted (v : Service) (peer : Peer σ) (token : String) (permissions : PermissionSet)
    (s : State σ) : Except AuthError Unit × State σ :=
  let (answer, provider) := Gate.requireGranted (v.decider peer) token permissions s.provider
  (answer, { s with provider })

end Service

end BearerAccess
