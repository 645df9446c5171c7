import BearerAccess.Proofs.Json.Written
import BearerAccess.Token.Claims
set_option autoImplicit false

namespace BearerAccess

open Json

structure AccessClaims.GivenBy (c : AccessClaims) (fields : Fields) : Prop where
  distinct : (fields.map Prod.fst).Nodup
  issuer : fields.required "iss" Doc.text? = some c.issuer
  subject : fields.optional "sub" Doc.text? = some c.subject?
  kind : fields.optional "typ" Doc.text? = some c.kind?
  expires : fields.required "exp" Doc.int64? = some c.expires
  notBefore : fields.optional "nbf" Doc.int64? = some c.notBefore?
  issuedAt : fields.optional "iat" Doc.int64? = some c.issuedAt?
  client : fields.optional "azp" Doc.text? = some c.client?
  username : fields.optional "preferred_username" Doc.text? = some c.username?
  email : fields.optional "email" Doc.text? = some c.email?
  scope : fields.defaulted "scope" Doc.text? "" = some c.scope

theorem AccessClaims.GivenBy.ofDoc? {c : AccessClaims} {fields : Fields} (h : c.GivenBy fields) :
    AccessClaims.ofDoc? (.ofFields fields) = some c := by
  have hasked (name : String) (hn : names.contains name = true) := hn
  simp only [AccessClaims.ofDoc?, Doc.fields?_ofFields h.distinct, Option.bind_eq_bind,
    Option.bind_some, Fields.required_filter (hasked "iss" rfl),
    Fields.optional_filter (hasked "sub" rfl), Fields.optional_filter (hasked "typ" rfl),
    Fields.required_filter (hasked "exp" rfl), Fields.optional_filter (hasked "nbf" rfl),
    Fields.optional_filter (hasked "iat" rfl), Fields.optional_filter (hasked "azp" rfl),
    Fields.optional_filter (hasked "preferred_username" rfl),
    Fields.optional_filter (hasked "email" rfl), Fields.defaulted_filter (hasked "scope" rfl),
    h.issuer, h.subject, h.kind, h.expires, h.notBefore, h.issuedAt, h.client, h.username, h.email,
    h.scope]
  rfl

end BearerAccess
