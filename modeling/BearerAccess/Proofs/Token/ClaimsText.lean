import BearerAccess.Proofs.Json.ObjectText
import BearerAccess.Proofs.Token.GivenClaims
set_option autoImplicit false

namespace BearerAccess.AccessClaims

open Json

section Read

/-- A document that states these claims. -/
structure StatedBy (c : AccessClaims) (d : Doc) : Prop where
  record : d.IsRecord names
  issuer : d.Holds names Doc.text? "iss" c.issuer
  subject : d.MayHold names Doc.text? "sub" c.subject?
  kind : d.MayHold names Doc.text? "typ" c.kind?
  expires : d.Holds names Doc.int64? "exp" c.expires
  notBefore : d.MayHold names Doc.int64? "nbf" c.notBefore?
  issuedAt : d.MayHold names Doc.int64? "iat" c.issuedAt?
  client : d.MayHold names Doc.text? "azp" c.client?
  username : d.MayHold names Doc.text? "preferred_username" c.username?
  email : d.MayHold names Doc.text? "email" c.email?
  scope : d.HoldsOr names Doc.text? "scope" "" c.scope

theorem ofDoc?_eq_some {d : Doc} {c : AccessClaims} : ofDoc? d = some c ↔ c.StatedBy d := by
  have hnames : names.Nodup := by decide
  simp only [ofDoc?, Option.bind_eq_bind, Option.bind_eq_some_iff]
  constructor
  · rintro ⟨fields, hfields, issuer, hissuer, subject?, hsubject, kind?, hkind, expires, hexpires,
      notBefore?, hnotBefore, issuedAt?, hissuedAt, client?, hclient, username?, husername, email?,
      hemail, scope, hscope, hc⟩
    obtain rfl := Option.some.inj hc
    obtain ⟨hrecord, hlookup⟩ := Doc.fields?_eq_some hnames hfields
    exact {
      record := hrecord
      issuer := (Doc.required_eq_some (hlookup "iss" (by decide))).1 hissuer
      subject := (Doc.optional_eq_some (hlookup "sub" (by decide)) rfl).1 hsubject
      kind := (Doc.optional_eq_some (hlookup "typ" (by decide)) rfl).1 hkind
      expires := (Doc.required_eq_some (hlookup "exp" (by decide))).1 hexpires
      notBefore := (Doc.optional_eq_some (hlookup "nbf" (by decide)) rfl).1 hnotBefore
      issuedAt := (Doc.optional_eq_some (hlookup "iat" (by decide)) rfl).1 hissuedAt
      client := (Doc.optional_eq_some (hlookup "azp" (by decide)) rfl).1 hclient
      username := (Doc.optional_eq_some (hlookup "preferred_username" (by decide)) rfl).1 husername
      email := (Doc.optional_eq_some (hlookup "email" (by decide)) rfl).1 hemail
      scope := (Doc.defaulted_eq_some (hlookup "scope" (by decide))).1 hscope }
  · intro h
    obtain ⟨fields, hfields⟩ := h.record.exists_fields
    obtain ⟨-, hlookup⟩ := Doc.fields?_eq_some hnames hfields
    exact ⟨fields, hfields,
      _, (Doc.required_eq_some (hlookup "iss" (by decide))).2 h.issuer,
      _, (Doc.optional_eq_some (hlookup "sub" (by decide)) rfl).2 h.subject,
      _, (Doc.optional_eq_some (hlookup "typ" (by decide)) rfl).2 h.kind,
      _, (Doc.required_eq_some (hlookup "exp" (by decide))).2 h.expires,
      _, (Doc.optional_eq_some (hlookup "nbf" (by decide)) rfl).2 h.notBefore,
      _, (Doc.optional_eq_some (hlookup "iat" (by decide)) rfl).2 h.issuedAt,
      _, (Doc.optional_eq_some (hlookup "azp" (by decide)) rfl).2 h.client,
      _, (Doc.optional_eq_some (hlookup "preferred_username" (by decide)) rfl).2 h.username,
      _, (Doc.optional_eq_some (hlookup "email" (by decide)) rfl).2 h.email,
      _, (Doc.defaulted_eq_some (hlookup "scope" (by decide))).2 h.scope, rfl⟩

variable {c : AccessClaims} {d d' : Doc}

theorem StatedBy.of_agreesOn (h : c.StatedBy d) (hd : d.AgreesOn names d') : c.StatedBy d' where
  record := hd.record h.record
  issuer := (hd.holds (by decide) _).1 h.issuer
  subject := (hd.mayHold (by decide) _).1 h.subject
  kind := (hd.mayHold (by decide) _).1 h.kind
  expires := (hd.holds (by decide) _).1 h.expires
  notBefore := (hd.mayHold (by decide) _).1 h.notBefore
  issuedAt := (hd.mayHold (by decide) _).1 h.issuedAt
  client := (hd.mayHold (by decide) _).1 h.client
  username := (hd.mayHold (by decide) _).1 h.username
  email := (hd.mayHold (by decide) _).1 h.email
  scope := (hd.holdsOr (by decide) _ _).1 h.scope

end Read

section Written

def fields (c : AccessClaims) : Fields :=
  [("iss", .ofString c.issuer), ("sub", Doc.ofOption c.subject?), ("typ", Doc.ofOption c.kind?),
      ("exp", .ofTime c.expires)] ++
    Fields.only "nbf" .ofTime c.notBefore? ++ Fields.only "iat" .ofTime c.issuedAt? ++
    Fields.only "azp" .ofString c.client? ++
    Fields.only "preferred_username" .ofString c.username? ++
    Fields.only "email" .ofString c.email? ++ [("scope", .ofString c.scope)]

theorem doc?_value (c : AccessClaims) : c.value.doc? = some (.ofFields c.fields) := by
  have htime (name : String) (o : Option Int64) : List.Forall₂ Value.WrittenAs
      (Value.memberIf name timeValue o) (Fields.only name Doc.ofTime o) :=
    Value.writtenAs_memberIf (fun _ => rfl) name o
  have htext (name : String) (o : Option String) : List.Forall₂ Value.WrittenAs
      (Value.memberIf name .string o) (Fields.only name Doc.ofString o) :=
    Value.writtenAs_memberIf (fun _ => rfl) name o
  have hleading : List.Forall₂ Value.WrittenAs
      [("iss", .string c.issuer), ("sub", .ofOption c.subject?), ("typ", .ofOption c.kind?),
        ("exp", timeValue c.expires)]
      [("iss", .ofString c.issuer), ("sub", Doc.ofOption c.subject?),
        ("typ", Doc.ofOption c.kind?), ("exp", .ofTime c.expires)] :=
    .cons ⟨rfl, rfl⟩ (.cons (Value.writtenAs_ofOption _ _)
      (.cons (Value.writtenAs_ofOption _ _) (.cons ⟨rfl, rfl⟩ .nil)))
  have hscope : List.Forall₂ Value.WrittenAs [("scope", .string c.scope)]
      [("scope", .ofString c.scope)] := .cons ⟨rfl, rfl⟩ .nil
  have htimes := List.rel_append (List.rel_append hleading (htime "nbf" c.notBefore?))
    (htime "iat" c.issuedAt?)
  have htexts := List.rel_append (List.rel_append (List.rel_append htimes (htext "azp" c.client?))
    (htext "preferred_username" c.username?)) (htext "email" c.email?)
  exact Value.doc?_object (List.rel_append htexts hscope)

theorem names_fields (c : AccessClaims) : (c.fields.map Prod.fst).Sublist names := by
  have hnbf := Fields.names_only "nbf" Doc.ofTime c.notBefore?
  have hiat := Fields.names_only "iat" Doc.ofTime c.issuedAt?
  have hazp := Fields.names_only "azp" Doc.ofString c.client?
  have husername := Fields.names_only "preferred_username" Doc.ofString c.username?
  have hemail := Fields.names_only "email" Doc.ofString c.email?
  simp only [fields, List.map_append]
  exact ((((((List.Sublist.refl ["iss", "sub", "typ", "exp"]).append hnbf).append hiat).append
    hazp).append husername).append hemail).append (List.Sublist.refl ["scope"])

theorem lookup_fields (c : AccessClaims) (name : String) : c.fields.lookup name =
    if name = "iss" then some (.ofString c.issuer)
    else if name = "sub" then some (.ofOption c.subject?)
    else if name = "typ" then some (.ofOption c.kind?)
    else if name = "exp" then some (.ofTime c.expires)
    else if name = "nbf" then c.notBefore?.map .ofTime
    else if name = "iat" then c.issuedAt?.map .ofTime
    else if name = "azp" then c.client?.map .ofString
    else if name = "preferred_username" then c.username?.map .ofString
    else if name = "email" then c.email?.map .ofString
    else if name = "scope" then some (.ofString c.scope)
    else none := by
  by_cases hname : name ∈ names
  · simp only [names, List.mem_cons, List.not_mem_nil, or_false] at hname
    rcases hname with rfl | rfl | rfl | rfl | rfl | rfl | rfl | rfl | rfl | rfl <;>
      simp [fields, List.lookup_append, Fields.lookup_cons, Fields.lookup_only]
  · simp only [names, List.mem_cons, List.not_mem_nil, or_false, not_or] at hname
    simp [fields, List.lookup_append, Fields.lookup_cons, Fields.lookup_only, hname]

theorem givenBy_fields (c : AccessClaims) : c.GivenBy c.fields where
  distinct := c.names_fields.nodup (by decide)
  issuer := Fields.required_text c.fields "iss" (c.lookup_fields "iss")
  subject := Fields.optional_ofOption (c.lookup_fields "sub")
  kind := Fields.optional_ofOption (c.lookup_fields "typ")
  expires := Fields.required_of_lookup (c.lookup_fields "exp") ▸ Doc.int64?_ofTime c.expires
  notBefore := Fields.optional_of_lookup (c.lookup_fields "nbf") Doc.int64?_ofTime rfl
  issuedAt := Fields.optional_of_lookup (c.lookup_fields "iat") Doc.int64?_ofTime rfl
  client := Fields.optional_of_lookup (c.lookup_fields "azp") Doc.text?_ofString rfl
  username := Fields.optional_of_lookup (c.lookup_fields "preferred_username") Doc.text?_ofString rfl
  email := Fields.optional_of_lookup (c.lookup_fields "email") Doc.text?_ofString rfl
  scope := Fields.defaulted_of_lookup (c.lookup_fields "scope") "" ▸ Doc.text?_ofString c.scope

theorem ofText?_json (c : AccessClaims) : ofText? c.json = some c := by
  rw [ofText?, json, Value.ofText?_compact c.doc?_value, Option.bind_some, c.givenBy_fields.ofDoc?]

theorem ofBytes?_bytesOf (text : String) : ofBytes? (bytesOf text) = ofText? text := by
  rw [ofBytes?, Doc.ofBytes?, bytesOf, Symbol.ofBytes_utf8, ofText?, Doc.ofText?]

end Written

section Texts

variable {o o' : ObjectText} {c : AccessClaims}

theorem ofText?_objectText : ofText? o.text = some c ↔ c.StatedBy o.doc := by
  rw [ofText?, o.ofText?_text, Option.bind_some, ofDoc?_eq_some]

/-- Why members give no claims: a name of a claim stands twice, or one of the two claims that have
to be there is missing or null. -/
inductive Unclaimed (members : List MemberText) : Prop where
  | repeated {m m' : MemberText} {name : String} : name ∈ names → [m, m'].Sublist members →
      Called name m.member → Called name m'.member → Unclaimed members
  | lacking {name : String} : name = "iss" ∨ name = "exp" →
      (∀ m ∈ members, Called name m.member → m.member.2 = .null) → Unclaimed members

theorem not_holds_of_null {α : Type} {read : Doc → Option α} {name : String} {a : α}
    (hread : read .null = none)
    (hnull : ∀ m ∈ o.members, Called name m.member → m.member.2 = .null) :
    ¬o.doc.Holds names read name a := by
  rintro ⟨v, hstates, hv⟩
  obtain ⟨_, hmem, hcalled, rfl⟩ := Doc.states_object.1 hstates
  obtain ⟨m, hm, rfl⟩ := List.mem_map.1 hmem
  rw [hnull m hm hcalled, hread] at hv
  cases hv

theorem Unclaimed.ofText?_eq_none (h : Unclaimed o.members) : ofText? o.text = none := by
  refine Option.eq_none_iff_forall_ne_some.2 fun c hc => ?_
  have hstated := ofText?_objectText.1 hc
  cases h with
  | @repeated m m' name hname htwice hm hm' =>
    obtain ⟨-, hone⟩ := Doc.isRecord_object.1 hstated.record
    have hpair := hone.sublist (htwice.map MemberText.member)
    exact List.rel_of_pairwise_cons hpair (List.mem_singleton.2 rfl) name hname hm hm'
  | lacking hname hnull =>
    rcases hname with rfl | rfl
    · exact not_holds_of_null rfl hnull hstated.issuer
    · exact not_holds_of_null rfl hnull hstated.expires

def normalForm? (text : String) : Option String := (ofText? text).map json

/-- Claims are read back from the text, and from the bytes, that they are written as. Texts of
objects are read as the same claims whatever the order of their members and whatever members are put
in or left out that other texts name, every text that is read as an object being one of these; and a
text whose members give no claims is rejected. So different claims have different texts, and what is
written after reading is read as the same claims and stays as it is. -/
theorem text_carries_claims :
    (∀ c : AccessClaims, ofText? c.json = some c) ∧
      (∀ text : String, ofBytes? (bytesOf text) = ofText? text) ∧
      (∀ (o o' : ObjectText) (c : AccessClaims), ofText? o.text = some c →
        Edits names o.members o'.members → ofText? o'.text = some c) ∧
      (∀ (text : String) (members : List (List Piece × Doc)),
        Doc.ofText? text = some (.object members) → ∃ o : ObjectText, o.text = text) ∧
      (∀ o : ObjectText, Unclaimed o.members → ofText? o.text = none) ∧
      Function.Injective json ∧
      ∀ text n : String, normalForm? text = some n →
        ofText? n = ofText? text ∧ normalForm? n = some n := by
  refine ⟨ofText?_json, ofBytes?_bytesOf, ?_, ?_, fun o h => h.ofText?_eq_none, ?_, ?_⟩
  · intro o o' c hc hedits
    have hstated := ofText?_objectText.1 hc
    exact ofText?_objectText.2 (hstated.of_agreesOn hedits.agreesOn)
  · intro text members htext
    obtain ⟨o, ho, -⟩ := ObjectText.exists_of_ofText? htext
    exact ⟨o, ho⟩
  · intro c c' h
    have hread := ofText?_json c
    rw [h, ofText?_json] at hread
    exact (Option.some.inj hread).symm
  · intro text n h
    obtain ⟨c, hc, rfl⟩ := Option.map_eq_some_iff.1 h
    rw [normalForm?, ofText?_json, hc]
    exact ⟨rfl, rfl⟩

theorem text_carries_claims_edited :
    let issuer : MemberText := ⟨"\"iss\":\"\"".toList, (pieces "iss".toList, .string []), rfl⟩
    let expires : MemberText := ⟨"\"exp\":0".toList, (pieces "exp".toList, .ofTime 0), rfl⟩
    let other : MemberText := ⟨" \"x\": []".toList, (pieces ['x'], .array []), rfl⟩
    let written (members : List MemberText) : ObjectText := ⟨[], [], members, [], rfl, rfl, rfl⟩
    let c : AccessClaims := ⟨"", none, none, 0, none, none, none, none, none, ""⟩
    ofText? (written [expires, other, issuer]).text = some c ∧
      ofText? (written [issuer, expires, issuer]).text = none ∧
      (∃ o : ObjectText, o.text = (written [issuer, expires]).text) ∧
      ofText? c.json = ofText? (written [issuer, expires]).text := by
  intro issuer expires other written c
  have hread : ofText? (written [issuer, expires]).text = some c := by decide +kernel
  have hother : Called "x" other.member := rfl
  have hinserted : Edit names ([issuer] ++ [expires]) ([issuer] ++ other :: [expires]) :=
    .inserted hother (by decide)
  have hpermuted : Edit names [issuer, other, expires] [expires, other, issuer] :=
    .permuted (by simpa using (List.reverse_perm [issuer, other, expires]).symm)
  have hedits : Edits names [issuer, expires] [expires, other, issuer] :=
    .tail (.single hinserted) hpermuted
  have hnormal : normalForm? (written [issuer, expires]).text = some c.json := by
    rw [normalForm?, hread]
    rfl
  have hcalled : Called "iss" issuer.member := rfl
  have htwice : [issuer, issuer].Sublist [issuer, expires, issuer] :=
    .cons_cons issuer (.cons expires (.refl _))
  obtain ⟨-, -, hsame, hobject, hnone, -, hform⟩ := text_carries_claims
  exact ⟨hsame (written _) (written _) c hread hedits,
    hnone (written _) (.repeated (by decide) htwice hcalled hcalled),
    hobject _ _ (written [issuer, expires]).ofText?_text, (hform _ _ hnormal).1⟩

theorem lone_surrogate_name_rejected :
    let issuer : MemberText := ⟨"\"iss\":\"\"".toList, (pieces "iss".toList, .string []), rfl⟩
    let expires : MemberText := ⟨"\"exp\":0".toList, (pieces "exp".toList, .ofTime 0), rfl⟩
    let other : MemberText := ⟨"\"\\ud800\":0".toList, ([.unit 0xD800], .ofTime 0), rfl⟩
    let written (members : List MemberText) : ObjectText := ⟨[], [], members, [], rfl, rfl, rfl⟩
    (∀ name ∈ names, ¬Called name other.member) ∧
      (written [issuer, expires, other]).text =
        "\x7b\"iss\":\"\",\"exp\":0,\"\\ud800\":0\x7d" ∧
      ofText? (written [issuer, expires]).text =
        some ⟨"", none, none, 0, none, none, none, none, none, ""⟩ ∧
      ofText? (written [issuer, expires, other]).text = none := by
  refine ⟨fun name _ h => ?_, by decide +kernel, by decide +kernel, by decide +kernel⟩
  cases h

end Texts

end BearerAccess.AccessClaims
