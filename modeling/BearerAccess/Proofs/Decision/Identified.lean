import BearerAccess.Decision.Client
import BearerAccess.Proofs.Http.Exchanges
import BearerAccess.Proofs.Http.Forms
import BearerAccess.Proofs.Permission.Elements
import BearerAccess.Proofs.Permission.WrittenForm
import BearerAccess.Proofs.Sequence
import Mathlib.Data.List.Nodup
set_option autoImplicit false

namespace BearerAccess

namespace Permission

variable {p q : Permission} {ps : List Permission}

/-- What the first permission has before its separator, the second one has partly after it. -/
def Shifted (p q : Permission) : Prop :=
  ∃ middle, p.resource = q.resource ++ "#" ++ middle ∧ q.scope = middle ++ "#" ++ p.scope

theorem Shifted.text_eq (h : p.Shifted q) : p.text = q.text := by
  obtain ⟨middle, hresource, hscope⟩ := h
  simp [text, hresource, hscope, String.append_assoc]

theorem eq_or_shifted {middle : List Char}
    (hresource : p.resource.toList = q.resource.toList ++ middle)
    (hrest : '#' :: q.scope.toList = middle ++ '#' :: p.scope.toList) : p = q ∨ p.Shifted q := by
  match middle with
  | [] =>
    obtain ⟨resource, scope⟩ := p
    obtain ⟨resource', scope'⟩ := q
    obtain rfl : resource = resource' := String.toList_inj.1 (by simpa using hresource)
    obtain rfl : scope' = scope := String.toList_inj.1 (List.cons.inj hrest).2
    exact .inl rfl
  | c :: middle =>
    obtain ⟨rfl, hscope⟩ := List.cons.inj hrest
    refine .inr ⟨String.ofList middle, ?_, ?_⟩
    · rw [← String.toList_inj]
      simp [hresource]
    · rw [← String.toList_inj]
      simp [hscope]

theorem text_eq_iff : p.text = q.text ↔ p = q ∨ p.Shifted q ∨ q.Shifted p := by
  constructor
  · intro h
    rw [← String.toList_inj, toList_text, toList_text] at h
    rcases List.append_eq_append_iff.1 h with ⟨middle, hresource, hrest⟩ | ⟨middle, hresource, hrest⟩
    · exact (eq_or_shifted hresource hrest).imp Eq.symm .inr
    · exact (eq_or_shifted hresource hrest).imp id .inl
  · rintro (rfl | h | h)
    · rfl
    · exact h.text_eq
    · exact h.text_eq.symm

theorem Shifted.ne (h : p.Shifted q) : p ≠ q := by
  rintro rfl
  obtain ⟨middle, hresource, -⟩ := h
  have hlength := congrArg (fun s => s.toList.length) hresource
  simp only [String.toList_append, List.length_append] at hlength
  have hsign : "#".toList.length = 1 := rfl
  omega

theorem Shifted.signs (h : p.Shifted q) : '#' ∈ p.resource.toList ∧ '#' ∈ q.scope.toList := by
  obtain ⟨middle, hresource, hscope⟩ := h
  exact ⟨by simp [hresource], by simp [hscope]⟩

theorem resource_of_ofText? {text : String} (h : ofText? text = .ok p) : '#' ∉ p.resource.toList :=
  (ofText?_eq_ok.1 h).1.unmarked

end Permission

namespace Decision

variable {clientId : String} {P Q : PermissionSet}

theorem form_eq_iff : form clientId P = form clientId Q ↔
    List.Forall₂ (fun p q => p.text = q.text) P.toList Q.toList := by
  have hpair : Function.Injective fun text : String => ("permission", text) :=
    fun _ _ h => (Prod.mk.inj h).2
  rw [form, form, List.append_cancel_left_eq, (List.map_injective_iff.2 hpair).eq_iff,
    PermissionSet.texts, PermissionSet.texts, ← List.forall₂_eq_eq_eq, List.forall₂_map_left_iff,
    List.forall₂_map_right_iff]

theorem request_eq_ok {e : Endpoints} {token : String} {r : HttpRequest} :
    request e clientId token P = .ok r ↔ ∃ url header, Http.url? e.tokenUrl = .ok url ∧
      Http.bearerHeader? token = some header ∧
      r = ⟨.post, url, some header, some Form.contentType,
        utf8 (Form.encode (form clientId P))⟩ := by
  simp only [request, bind_eq_ok]
  cases Http.bearerHeader? token with
  | none => simp [throw, throwThe, MonadExceptOf.throw]
  | some header =>
    constructor
    · rintro ⟨url, hurl, hr⟩
      exact ⟨url, header, hurl, rfl, (pure_eq_ok.1 hr).symm⟩
    · rintro ⟨url, _, hurl, ⟨⟩, rfl⟩
      exact ⟨url, hurl, rfl⟩

theorem request_eq_iff {e : Endpoints} {token : String} {r : HttpRequest}
    (h : request e clientId token P = .ok r) :
    request e clientId token Q = .ok r ↔ form clientId P = form clientId Q := by
  obtain ⟨url, header, hurl, hheader, rfl⟩ := request_eq_ok.1 h
  constructor
  · intro hQ
    obtain ⟨url', header', -, -, hr⟩ := request_eq_ok.1 hQ
    exact Form.encode_injective (utf8_injective (HttpRequest.mk.inj hr).2.2.2.2)
  · intro hform
    exact request_eq_ok.2 ⟨url, header, hurl, hheader, by rw [hform]⟩

theorem form_entries (clientId : String) (P : PermissionSet) :
    (form clientId P).filter (·.1 == "permission") =
      P.toList.map fun p => ("permission", p.text) := by
  have hfixed : [("grant_type", grantType), ("audience", clientId),
      ("response_mode", "decision")].filter (·.1 == "permission") = [] := by
    simp
  rw [form, List.filter_append, hfixed, List.nil_append, List.filter_eq_self.2 (by simp),
    PermissionSet.texts, List.map_map]
  rfl

/-- What is asked about permissions in a row: a form is posted, in the name of the token, to where
decisions are made, with an entry for each of them and in their order. -/
structure Inquiry (e : Endpoints) (clientId token : String) (row : List Permission)
    (r : HttpRequest) : Prop where
  method : r.method = .post
  url : Http.url? e.tokenUrl = .ok r.url
  bearer : r.authorization? = some ("Bearer " ++ token)
  kind : r.contentType? = some Form.contentType
  form : ∃ entries, r.body = utf8 (Form.encode entries) ∧
    entries.lookup "audience" = some clientId ∧
    entries.filter (·.1 == "permission") = row.map fun p => ("permission", p.text)

theorem inquiry_of_request {e : Endpoints} {token : String} {r : HttpRequest}
    (h : request e clientId token P = .ok r) : Inquiry e clientId token P.toList r := by
  obtain ⟨url, header, hurl, hheader, rfl⟩ := request_eq_ok.1 h
  obtain ⟨-, rfl⟩ := Http.bearerHeader?_eq_some.1 hheader
  exact ⟨rfl, hurl, rfl, rfl, _, rfl, rfl, form_entries clientId P⟩

theorem exists_request_iff {e : Endpoints} {token : String} :
    (∃ r, request e clientId token P = .ok r ∧ Inquiry e clientId token P.toList r) ↔
      (∃ url, Http.url? e.tokenUrl = .ok url) ∧
        ∀ b ∈ bytesOf token, b = 0x09 ∨ 0x20 ≤ b ∧ b ≠ 0x7F := by
  constructor
  · rintro ⟨r, hr, -⟩
    obtain ⟨url, header, hurl, hheader, -⟩ := request_eq_ok.1 hr
    exact ⟨⟨url, hurl⟩, (Http.bearerHeader?_eq_some.1 hheader).1⟩
  · rintro ⟨⟨url, hurl⟩, hfits⟩
    have hheader := Http.bearerHeader?_eq_some.2 ⟨hfits, rfl⟩
    have hr : request e clientId token P = .ok _ :=
      request_eq_ok.2 ⟨url, _, hurl, hheader, rfl⟩
    exact ⟨_, hr, inquiry_of_request hr⟩

theorem eq_or_shifted_of_form_eq (h : form clientId P = form clientId Q) :
    P = Q ∨ ∃ p ∈ P.toList, ∃ q ∈ Q.toList, p.Shifted q ∨ q.Shifted p := by
  by_contra hnot
  rw [not_or] at hnot
  obtain ⟨hne, hnone⟩ := hnot
  obtain ⟨hlength, halike⟩ := List.forall₂_iff_zip.1 (form_eq_iff.1 h)
  refine hne (PermissionSet.ext_toList ?_)
  rw [← List.forall₂_eq_eq_eq]
  refine List.forall₂_iff_zip.2 ⟨hlength, fun {p q} hpq => ?_⟩
  obtain ⟨hp, hq⟩ := List.of_mem_zip hpq
  rcases Permission.text_eq_iff.1 (halike hpq) with heq | hshifted
  · exact heq
  · exact absurd ⟨p, hp, q, hq, hshifted⟩ hnone

theorem nodup_entries_iff : ((form clientId P).filter (·.1 == "permission")).Nodup ↔
    ∀ p ∈ P.toList, ∀ q ∈ P.toList, ¬p.Shifted q := by
  rw [form_entries, List.nodup_map_iff_inj_on P.nodup_toList]
  constructor
  · intro hinj p hp q hq hshifted
    exact hshifted.ne (hinj p hp q hq (by rw [hshifted.text_eq]))
  · intro hnone p hp q hq heq
    rcases Permission.text_eq_iff.1 (Prod.mk.inj heq).2 with heq | hshifted | hshifted
    · exact heq
    · exact absurd hshifted (hnone p hp q hq)
    · exact absurd hshifted (hnone q hq p hp)

/-- A form has one entry for each permission, in order, and one request is made for two sets exactly
if their permissions are written alike, one by one. Permissions are written alike if they are the
same or one is the other shifted; so sets with one form are the same, and a form has no entry twice,
unless one of their permissions is another shifted. That takes a number sign in the resource of the
one and in the scope of the other, and no permission that is read from a text has one in its
resource. -/
theorem request_tells_written_permissions :
    (∀ (clientId : String) (P : PermissionSet),
      (form clientId P).filter (·.1 == "permission") =
        P.toList.map fun p => ("permission", p.text)) ∧
    (∀ (clientId : String) (P Q : PermissionSet), form clientId P = form clientId Q ↔
      List.Forall₂ (fun p q => p.text = q.text) P.toList Q.toList) ∧
    (∀ (e : Endpoints) (clientId token : String) (P Q : PermissionSet) (r : HttpRequest),
      request e clientId token P = .ok r →
        (request e clientId token Q = .ok r ↔ form clientId P = form clientId Q)) ∧
    (∀ p q : Permission, p.text = q.text ↔ p = q ∨ p.Shifted q ∨ q.Shifted p) ∧
    (∀ (clientId : String) (P Q : PermissionSet), form clientId P = form clientId Q →
      P = Q ∨ ∃ p ∈ P.toList, ∃ q ∈ Q.toList, p.Shifted q ∨ q.Shifted p) ∧
    (∀ (clientId : String) (P : PermissionSet),
      ((form clientId P).filter (·.1 == "permission")).Nodup ↔
        ∀ p ∈ P.toList, ∀ q ∈ P.toList, ¬p.Shifted q) ∧
    (∀ p q : Permission, p.Shifted q → '#' ∈ p.resource.toList ∧ '#' ∈ q.scope.toList) ∧
    ∀ (text : String) (p : Permission), Permission.ofText? text = .ok p →
      '#' ∉ p.resource.toList :=
  ⟨form_entries, fun _ _ _ => form_eq_iff, fun _ _ _ _ _ _ => request_eq_iff,
    fun _ _ => Permission.text_eq_iff, fun _ _ _ => eq_or_shifted_of_form_eq,
    fun _ _ => nodup_entries_iff, fun _ _ => Permission.Shifted.signs,
    fun _ _ => Permission.resource_of_ofText?⟩

theorem request_tells_written_permissions_read :
    let edit : Permission := ⟨"doc", "edit"⟩
    let odd : Permission := ⟨"a#b", "c"⟩
    let even : Permission := ⟨"a", "b#c"⟩
    let e : Endpoints := ⟨"http://idp", ⟨"r"⟩⟩
    (∃ r, request e "client" "token" (.ofList [odd]) = .ok r ∧
      request e "client" "token" (.ofList [even]) = .ok r) ∧
      ('#' ∈ odd.resource.toList ∧ '#' ∈ even.scope.toList) ∧ '#' ∉ edit.resource.toList ∧
      (PermissionSet.ofList [odd] = .ofList [even] ∨
        ∃ p ∈ (PermissionSet.ofList [odd]).toList, ∃ q ∈ (PermissionSet.ofList [even]).toList,
          p.Shifted q ∨ q.Shifted p) := by
  intro edit odd even e
  obtain ⟨-, -, hrequest, -, hsets, -, hsigns, hread⟩ := request_tells_written_permissions
  have hform : form "client" (.ofList [odd]) = form "client" (.ofList [even]) := by decide +kernel
  have hshifted : odd.Shifted even := ⟨"b", by decide +kernel, by decide +kernel⟩
  have hedit : Permission.ofText? "doc#edit" = .ok edit := by decide +kernel
  have hurl : Http.url? e.tokenUrl = .ok ⟨false, "idp".toList, none,
      "/realms/r/protocol/openid-connect/token".toList, none, none⟩ := by decide +kernel
  have hheader : Http.bearerHeader? "token" = some "Bearer token" := by decide +kernel
  have hmade : request e "client" "token" (.ofList [odd]) = .ok _ :=
    request_eq_ok.2 ⟨_, _, hurl, hheader, rfl⟩
  exact ⟨⟨_, hmade, (hrequest _ _ _ _ _ _ hmade).2 hform⟩, hsigns _ _ hshifted, hread _ _ hedit,
    hsets _ _ _ hform⟩

/-- Two sets with one form, and a set whose form has an entry twice. -/
theorem shifted_separator_confuses :
    let p : Permission := ⟨"a#b", "c"⟩
    let q : Permission := ⟨"a", "b#c"⟩
    form "client" (.ofList [p]) = form "client" (.ofList [q]) ∧
      PermissionSet.ofList [p] ≠ PermissionSet.ofList [q] ∧
      ¬((form "client" (.ofList [p, q])).filter (·.1 == "permission")).Nodup := by
  decide +kernel

end Decision

end BearerAccess
