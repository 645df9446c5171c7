import BearerAccess.Cache.Policy
import BearerAccess.Number.IntegerText
import BearerAccess.Realm
import BearerAccess.Text.Blank
import BearerAccess.Text.Quotation
set_option autoImplicit false

namespace BearerAccess

abbrev Variables := String → Option String

inductive ConfigError where
  | missing (name : String)
  | badBaseUrl (url : String)
  | ttlUnreadable (text : String) (fault : IntegerFault)
  | ttlZero
  | ttlTooLong (seconds : Nat)
  | timeoutUnreadable (text : String) (fault : IntegerFault)
  | timeoutOutOfRange (seconds : Nat)
  | skewUnreadable (text : String) (fault : IntegerFault)
  | skewNegative (seconds : Int)
  | skewTooLong (seconds : Int)
  | badPolicy (text : String)
  deriving DecidableEq, Repr

structure Config where
  baseUrl : String
  realm : Realm
  clientId : String
  keySetTtlSeconds : Nat
  httpTimeoutSeconds : Nat
  clockSkewSeconds : Nat
  refreshPolicy : RefreshPolicy
  deriving DecidableEq, Repr

namespace Config

def defaultKeySetTtlSeconds : Nat := 14400

def maxKeySetTtlSeconds : Nat := 604800

def defaultHttpTimeoutSeconds : Nat := 10

def maxHttpTimeoutSeconds : Nat := 60

def defaultClockSkewSeconds : Nat := 0

def maxClockSkewSeconds : Nat := 600

/-- A variable that has to hold something other than blanks. -/
def required (vars : Variables) (name : String) : Except ConfigError String :=
  match vars name with
  | some text => if isAllBlank text.toList then .error (.missing name) else .ok text
  | none => .error (.missing name)

def readBaseUrl (vars : Variables) : Except ConfigError String := do
  let url ← required vars "IDP_BASE_URL"
  if "http://".toList.isPrefixOf url.toList || "https://".toList.isPrefixOf url.toList then pure url
  else throw (.badBaseUrl url)

def readTtl (vars : Variables) : Except ConfigError Nat :=
  match vars "KEY_SET_CACHE_TTL_SECONDS" with
  | none => .ok defaultKeySetTtlSeconds
  | some text =>
    match readUnsigned text.toList with
    | .error fault => .error (.ttlUnreadable text fault)
    | .ok n =>
      if n = 0 then .error .ttlZero
      else if maxKeySetTtlSeconds < n then .error (.ttlTooLong n)
      else .ok n

def readTimeout (vars : Variables) : Except ConfigError Nat :=
  match vars "IDP_HTTP_TIMEOUT_SECONDS" with
  | none => .ok defaultHttpTimeoutSeconds
  | some text =>
    match readUnsigned text.toList with
    | .error fault => .error (.timeoutUnreadable text fault)
    | .ok n => if 1 ≤ n ∧ n ≤ maxHttpTimeoutSeconds then .ok n else .error (.timeoutOutOfRange n)

def readSkew (vars : Variables) : Except ConfigError Nat :=
  match vars "JWT_CLOCK_SKEW_SECONDS" with
  | none => .ok defaultClockSkewSeconds
  | some text =>
    match readSigned text.toList with
    | .error fault => .error (.skewUnreadable text fault)
    | .ok i =>
      if i < 0 then .error (.skewNegative i)
      else if (maxClockSkewSeconds : Int) < i then .error (.skewTooLong i)
      else .ok i.toNat

def readPolicy (vars : Variables) : Except ConfigError RefreshPolicy :=
  match vars "KEY_SET_REFRESH_POLICY" with
  | none => .ok .waitForRefresh
  | some text =>
    match RefreshPolicy.ofText? text with
    | some policy => .ok policy
    | none => .error (.badPolicy text)

def variableNames : List String :=
  ["IDP_BASE_URL", "IDP_REALM", "IDP_CLIENT_ID", "KEY_SET_CACHE_TTL_SECONDS",
    "IDP_HTTP_TIMEOUT_SECONDS", "JWT_CLOCK_SKEW_SECONDS", "KEY_SET_REFRESH_POLICY"]

def ofVariables (vars : Variables) : Except ConfigError Config := do
  let baseUrl ← readBaseUrl vars
  let realm ← required vars "IDP_REALM"
  let clientId ← required vars "IDP_CLIENT_ID"
  let ttl ← readTtl vars
  let timeout ← readTimeout vars
  let skew ← readSkew vars
  let policy ← readPolicy vars
  pure ⟨baseUrl, ⟨realm⟩, clientId, ttl, timeout, skew, policy⟩

def endpoints (c : Config) : Endpoints := .ofBase c.baseUrl c.realm

end Config

namespace ConfigError

def numberText (n : Nat) : String := String.ofList (decimal n)

def unreadable (name kind text : String) (fault : IntegerFault) : String :=
  name ++ " must be a valid " ++ kind ++ ", got '" ++ text ++ "': " ++ fault.message

def detail : ConfigError → String
  | .missing name => name
  | .badBaseUrl url => "IDP_BASE_URL must start with http:// or https://, got '" ++ url ++ "'"
  | .ttlUnreadable text fault =>
    unreadable "KEY_SET_CACHE_TTL_SECONDS" "positive integer" text fault
  | .ttlZero => "KEY_SET_CACHE_TTL_SECONDS must be greater than 0"
  | .ttlTooLong n =>
    "KEY_SET_CACHE_TTL_SECONDS must not exceed " ++ numberText Config.maxKeySetTtlSeconds ++
      " seconds, got " ++ numberText n
  | .timeoutUnreadable text fault =>
    unreadable "IDP_HTTP_TIMEOUT_SECONDS" "positive integer" text fault
  | .timeoutOutOfRange n =>
    "IDP_HTTP_TIMEOUT_SECONDS must be between 1 and " ++ numberText Config.maxHttpTimeoutSeconds ++
      ", got " ++ numberText n
  | .skewUnreadable text fault => unreadable "JWT_CLOCK_SKEW_SECONDS" "integer" text fault
  | .skewNegative i =>
    "JWT_CLOCK_SKEW_SECONDS must not be negative, got " ++ String.ofList (signedDecimal i)
  | .skewTooLong i =>
    "JWT_CLOCK_SKEW_SECONDS must not exceed " ++ numberText Config.maxClockSkewSeconds ++
      " seconds, got " ++ String.ofList (signedDecimal i)
  | .badPolicy text =>
    "KEY_SET_REFRESH_POLICY must be 'wait' or 'stale-while-revalidate', got '" ++ text ++ "'"

def kind : ConfigError → String × String
  | .missing _ => ("MissingEnvVar", "Missing required environment variable: ")
  | .badBaseUrl _ => ("InvalidBaseUrl", "Invalid identity provider URL: ")
  | .ttlUnreadable _ _ => ("InvalidCacheTtl", "Invalid key set cache TTL configuration: ")
  | .ttlZero => ("InvalidCacheTtl", "Invalid key set cache TTL configuration: ")
  | .ttlTooLong _ => ("InvalidCacheTtl", "Invalid key set cache TTL configuration: ")
  | .timeoutUnreadable _ _ => ("InvalidHttpTimeout", "Invalid HTTP timeout configuration: ")
  | .timeoutOutOfRange _ => ("InvalidHttpTimeout", "Invalid HTTP timeout configuration: ")
  | .skewUnreadable _ _ => ("InvalidJwtClockSkew", "Invalid JWT clock skew configuration: ")
  | .skewNegative _ => ("InvalidJwtClockSkew", "Invalid JWT clock skew configuration: ")
  | .skewTooLong _ => ("InvalidJwtClockSkew", "Invalid JWT clock skew configuration: ")
  | .badPolicy _ => ("InvalidRefreshPolicy", "Invalid key set refresh policy: ")

def name (e : ConfigError) : String := e.kind.1

def message (e : ConfigError) : String := e.kind.2 ++ e.detail

def diagnostic (e : ConfigError) : String := e.name ++ "(" ++ Text.quotation e.detail ++ ")"

end ConfigError

end BearerAccess
