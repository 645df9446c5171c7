import BearerAccess.Proofs.Token.GivenClaims
import BearerAccess.Testing.TokenDraft
import BearerAccess.Token.Registered
import Mathlib.Data.List.Induction
set_option autoImplicit false

namespace BearerAccess.Testing.TokenDraft

open Json

section Calls

variable {α : Type}

namespace Call

def issuer? : Call → Option String
  | .issuedBy issuer => some issuer
  | _ => none

def subject? : Call → Option (Option String)
  | .forUser subject => some (some subject)
  | .withoutSubject => some none
  | _ => none

def kind? : Call → Option (Option String)
  | .withType kind => some (some kind)
  | .withoutType => some none
  | _ => none

def expires? (now : Int64) : Call → Option Int64
  | .expiresIn seconds => some (now + seconds)
  | _ => none

def notBefore? (now : Int64) : Call → Option (Option Int64)
  | .notBeforeIn seconds => some (some (now + seconds))
  | _ => none

def issuedAt? : Call → Option Int64
  | .issuedAt time => some time
  | _ => none

def scope? : Call → Option String
  | .withScope scope => some scope
  | _ => none

end Call

/-- What the last of the calls that set something sets it to, or what it was at first. -/
def lastSet (sets : Call → Option α) (first : α) (calls : List Call) : α :=
  (calls.filterMap sets).getLast?.getD first

theorem view_foldl {view : TokenDraft → α} {sets : Call → Option α} {now : Int64}
    (h : ∀ d call, view (apply now d call) = (sets call).getD (view d)) (d : TokenDraft)
    (calls : List Call) : view (calls.foldl (apply now) d) = lastSet sets (view d) calls := by
  induction calls using List.reverseRecOn with
  | nil => rfl
  | append_singleton calls call ih =>
    rw [List.foldl_append, List.foldl_cons, List.foldl_nil, h, ih, lastSet, lastSet,
      List.filterMap_append]
    cases hc : sets call <;> simp [hc]

def accessClaims (d : TokenDraft) : AccessClaims where
  issuer := d.issuer
  subject? := d.subject?
  kind? := d.kind?
  expires := d.expires
  notBefore? := d.notBefore?
  issuedAt? := some d.issuedAt
  client? := some d.client
  username? := none
  email? := none
  scope := d.scope

/-- The claims that calls leave, each as it was set last. -/
def claimsSet (now : Int64) (issuer : String) (calls : List Call) : AccessClaims where
  issuer := lastSet Call.issuer? issuer calls
  subject? := lastSet Call.subject? (some "test-subject") calls
  kind? := lastSet Call.kind? (some "Bearer") calls
  expires := lastSet (Call.expires? now) (now + 3600) calls
  notBefore? := lastSet (Call.notBefore? now) none calls
  issuedAt? := some (lastSet Call.issuedAt? now calls)
  client? := some "grants-frontend"
  username? := none
  email? := none
  scope := lastSet Call.scope? "openid profile" calls

theorem accessClaims_ofCalls (now : Int64) (issuer : String) (calls : List Call) :
    (ofCalls now issuer calls).accessClaims = claimsSet now issuer calls := by
  have hview {α : Type} (view : TokenDraft → α) (sets : Call → Option α)
      (h : ∀ d call, view (apply now d call) = (sets call).getD (view d)) :
      view (ofCalls now issuer calls) = lastSet sets (view (new now issuer)) calls :=
    view_foldl h (new now issuer) calls
  have hissuer := hview TokenDraft.issuer Call.issuer? fun d call => by cases call <;> rfl
  have hsubject := hview TokenDraft.subject? Call.subject? fun d call => by cases call <;> rfl
  have hkind := hview TokenDraft.kind? Call.kind? fun d call => by cases call <;> rfl
  have hexpires := hview TokenDraft.expires (Call.expires? now) fun d call => by
    cases call <;> rfl
  have hnotBefore := hview TokenDraft.notBefore? (Call.notBefore? now) fun d call => by
    cases call <;> rfl
  have hissuedAt := hview TokenDraft.issuedAt Call.issuedAt? fun d call => by cases call <;> rfl
  have hscope := hview TokenDraft.scope Call.scope? fun d call => by cases call <;> rfl
  have hclient := hview TokenDraft.client (fun _ => none) fun d call => by cases call <;> rfl
  have hunset : lastSet (fun _ => none) "grants-frontend" calls = "grants-frontend" := by
    simp [lastSet]
  rw [accessClaims, hissuer, hsubject, hkind, hexpires, hnotBefore, hissuedAt, hscope, hclient]
  exact congrArg (fun client => { claimsSet now issuer calls with client? := some client }) hunset

end Calls

def fields (d : TokenDraft) : Fields :=
  [("azp", .ofString d.client), ("exp", .ofTime d.expires), ("iat", .ofTime d.issuedAt),
      ("iss", .ofString d.issuer)] ++
    Fields.only "nbf" .ofTime d.notBefore? ++ [("scope", .ofString d.scope)] ++
    Fields.only "sub" .ofString d.subject? ++ Fields.only "typ" .ofString d.kind?

theorem doc?_claims (d : TokenDraft) : d.claims.doc? = some (.ofFields d.fields) := by
  have htime (name : String) (o : Option Int64) : List.Forall₂ Value.WrittenAs
      (Value.memberIf name (fun t => .integer t.toInt) o) (Fields.only name Doc.ofTime o) :=
    Value.writtenAs_memberIf (fun _ => rfl) name o
  have htext (name : String) (o : Option String) : List.Forall₂ Value.WrittenAs
      (Value.memberIf name .string o) (Fields.only name Doc.ofString o) :=
    Value.writtenAs_memberIf (fun _ => rfl) name o
  have hleading : List.Forall₂ Value.WrittenAs
      [("azp", .string d.client), ("exp", .integer d.expires.toInt),
        ("iat", .integer d.issuedAt.toInt), ("iss", .string d.issuer)]
      [("azp", .ofString d.client), ("exp", .ofTime d.expires), ("iat", .ofTime d.issuedAt),
        ("iss", .ofString d.issuer)] :=
    .cons ⟨rfl, rfl⟩ (.cons ⟨rfl, rfl⟩ (.cons ⟨rfl, rfl⟩ (.cons ⟨rfl, rfl⟩ .nil)))
  have hscope : List.Forall₂ Value.WrittenAs [("scope", .string d.scope)]
      [("scope", .ofString d.scope)] := .cons ⟨rfl, rfl⟩ .nil
  have hbefore := List.rel_append (List.rel_append hleading (htime "nbf" d.notBefore?)) hscope
  exact Value.doc?_object (List.rel_append (List.rel_append hbefore (htext "sub" d.subject?))
    (htext "typ" d.kind?))

theorem names_fields (d : TokenDraft) : (d.fields.map Prod.fst).Sublist
    ["azp", "exp", "iat", "iss", "nbf", "scope", "sub", "typ"] := by
  have hnbf := Fields.names_only "nbf" Doc.ofTime d.notBefore?
  have hsub := Fields.names_only "sub" Doc.ofString d.subject?
  have htyp := Fields.names_only "typ" Doc.ofString d.kind?
  simp only [fields, List.map_append]
  exact (((((List.Sublist.refl ["azp", "exp", "iat", "iss"]).append hnbf).append
    (List.Sublist.refl ["scope"])).append hsub).append htyp)

theorem nodup_fields (d : TokenDraft) : (d.fields.map Prod.fst).Nodup :=
  List.Nodup.sublist d.names_fields (by decide)

theorem lookup_fields (d : TokenDraft) (name : String) : d.fields.lookup name =
    if name = "azp" then some (.ofString d.client)
    else if name = "exp" then some (.ofTime d.expires)
    else if name = "iat" then some (.ofTime d.issuedAt)
    else if name = "iss" then some (.ofString d.issuer)
    else if name = "nbf" then d.notBefore?.map .ofTime
    else if name = "scope" then some (.ofString d.scope)
    else if name = "sub" then d.subject?.map .ofString
    else if name = "typ" then d.kind?.map .ofString
    else none := by
  by_cases hname : name ∈ ["azp", "exp", "iat", "iss", "nbf", "scope", "sub", "typ"]
  · simp only [List.mem_cons, List.not_mem_nil, or_false] at hname
    rcases hname with rfl | rfl | rfl | rfl | rfl | rfl | rfl | rfl <;>
      simp [fields, List.lookup_append, Fields.lookup_cons, Fields.lookup_only]
  · simp only [List.mem_cons, List.not_mem_nil, or_false, not_or] at hname
    simp [fields, List.lookup_append, Fields.lookup_cons, Fields.lookup_only, hname]

theorem accessClaims_givenBy (d : TokenDraft) : d.accessClaims.GivenBy d.fields where
  distinct := d.nodup_fields
  issuer := Fields.required_text d.fields "iss" (d.lookup_fields "iss")
  subject := Fields.optional_of_lookup (d.lookup_fields "sub") Doc.text?_ofString rfl
  kind := Fields.optional_of_lookup (d.lookup_fields "typ") Doc.text?_ofString rfl
  expires := Fields.required_of_lookup (d.lookup_fields "exp") ▸ Doc.int64?_ofTime d.expires
  notBefore := Fields.optional_of_lookup (d.lookup_fields "nbf") Doc.int64?_ofTime rfl
  issuedAt := Fields.optional_of_lookup (d.lookup_fields "iat") Doc.int64?_ofTime rfl
  client := Fields.optional_of_lookup (d.lookup_fields "azp") Doc.text?_ofString rfl
  username := Fields.optional_missing _ _ (d.lookup_fields "preferred_username") Doc.text?
  email := Fields.optional_missing _ _ (d.lookup_fields "email") Doc.text?
  scope := Fields.defaulted_of_lookup (d.lookup_fields "scope") "" ▸ Doc.text?_ofString d.scope

theorem isPayload_claims (d : TokenDraft) : Registered.isPayload (.ofFields d.fields) = true := by
  have hfields := Doc.fields?_ofFields d.nodup_fields Registered.payloadFields
  have haudience : d.fields.lookup "aud" = none := d.lookup_fields "aud"
  have hknown : Registered.payloadFields.contains "aud" = true := rfl
  rw [Doc.ofFields] at hfields ⊢
  simp only [Registered.isPayload, hfields, Registered.absentOr]
  rw [Fields.lookup_filter hknown, haudience]

end BearerAccess.Testing.TokenDraft
