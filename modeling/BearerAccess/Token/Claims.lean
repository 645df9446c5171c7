import BearerAccess.Json.Record
import BearerAccess.Json.Writer
import BearerAccess.Text.Blank
import BearerAccess.Text.Quotation
set_option autoImplicit false

namespace BearerAccess

open Json

structure AccessClaims where
  issuer : String
  subject? : Option String
  kind? : Option String
  expires : Int64
  notBefore? : Option Int64
  issuedAt? : Option Int64
  client? : Option String
  username? : Option String
  email? : Option String
  scope : String
  deriving DecidableEq, Repr

namespace AccessClaims

def bearerKind : String := "Bearer"

def subject (c : AccessClaims) : String := c.subject?.getD ""

def scopes (c : AccessClaims) : List String := (words c.scope.toList).map String.ofList

def hasScope (c : AccessClaims) (scope : String) : Bool := c.scopes.contains scope

def names : List String :=
  ["iss", "sub", "typ", "exp", "nbf", "iat", "azp", "preferred_username", "email", "scope"]

def ofDoc? (d : Doc) : Option AccessClaims := do
  let fields ← d.fields? names
  let issuer ← fields.required "iss" Doc.text?
  let subject? ← fields.optional "sub" Doc.text?
  let kind? ← fields.optional "typ" Doc.text?
  let expires ← fields.required "exp" Doc.int64?
  let notBefore? ← fields.optional "nbf" Doc.int64?
  let issuedAt? ← fields.optional "iat" Doc.int64?
  let client? ← fields.optional "azp" Doc.text?
  let username? ← fields.optional "preferred_username" Doc.text?
  let email? ← fields.optional "email" Doc.text?
  let scope ← fields.defaulted "scope" Doc.text? ""
  pure ⟨issuer, subject?, kind?, expires, notBefore?, issuedAt?, client?, username?, email?, scope⟩

def ofText? (text : String) : Option AccessClaims := (Doc.ofText? text).bind ofDoc?

def ofBytes? (bytes : Bytes) : Option AccessClaims := (Doc.ofBytes? bytes).bind ofDoc?

def timeValue (t : Int64) : Value := .integer t.toInt

def value (c : AccessClaims) : Value :=
  .object
    ([("iss", .string c.issuer), ("sub", .ofOption c.subject?), ("typ", .ofOption c.kind?),
        ("exp", timeValue c.expires)] ++
      Value.memberIf "nbf" timeValue c.notBefore? ++
      Value.memberIf "iat" timeValue c.issuedAt? ++
      Value.memberIf "azp" .string c.client? ++
      Value.memberIf "preferred_username" .string c.username? ++
      Value.memberIf "email" .string c.email? ++
      [("scope", .string c.scope)])

def json (c : AccessClaims) : String := c.value.compact

def timeText (t : Int64) : String := String.ofList (signedDecimal t.toInt)

def timeText? : Option Int64 → String
  | none => "None"
  | some t => "Some(" ++ timeText t ++ ")"

def redacted : String := "[REDACTED]"

def diagnostic (c : AccessClaims) : String :=
  "AccessClaims \x7b iss: " ++ Text.quotation c.issuer ++
    ", sub: " ++ Text.quotation redacted ++
    ", typ: " ++ Text.quotation? c.kind? ++
    ", exp: " ++ timeText c.expires ++
    ", nbf: " ++ timeText? c.notBefore? ++
    ", iat: " ++ timeText? c.issuedAt? ++
    ", azp: " ++ Text.quotation? c.client? ++
    ", preferred_username: " ++ Text.quotation? c.username? ++
    ", email: " ++ Text.quotation? (c.email?.map fun _ => redacted) ++
    ", scope: " ++ Text.quotation c.scope ++ " \x7d"

end AccessClaims

end BearerAccess
