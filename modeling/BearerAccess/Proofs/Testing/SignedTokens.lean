import BearerAccess.Proofs.KeySet.Lookup
import BearerAccess.Proofs.Session.Verdicts
import BearerAccess.Proofs.Testing.Drafts
import BearerAccess.Proofs.Text.Base64
import BearerAccess.Proofs.Token.ActiveWindow
import BearerAccess.Proofs.Token.SecondReading
import BearerAccess.Testing.Keypair
/-!
Tokens that a key pair signs, read and judged. Both readings of such a token find the header, the
claims and the signature that were written, and the published key is one that its signature can be
checked with; so with this key in the key set nothing but the claims decides.
-/
set_option autoImplicit false

namespace BearerAccess.Testing.Keypair

open Json

variable (k : Keypair)

def headerFields : Fields := [("typ", .ofString "JWT"), ("alg", .ofString "EdDSA"),
  ("kid", .ofString k.kid)]

theorem doc?_header : k.header.doc? = some (.ofFields k.headerFields) :=
  Value.doc?_object (.cons ⟨rfl, rfl⟩ (.cons ⟨rfl, rfl⟩ (.cons ⟨rfl, rfl⟩ .nil)))

theorem nodup_headerFields : (k.headerFields.map Prod.fst).Nodup :=
  (by decide : ["typ", "alg", "kid"].Nodup)

theorem ofDoc?_header : WrittenHeader.ofDoc? (.ofFields k.headerFields) =
    some ⟨"EdDSA", some k.kid, some "JWT"⟩ := by
  have hasked (name : String) (hn : ["alg", "kid", "typ"].contains name = true) := hn
  simp only [WrittenHeader.ofDoc?, Doc.fields?_ofFields k.nodup_headerFields, Option.bind_eq_bind,
    Option.bind_some, Fields.required_filter (hasked "alg" rfl),
    Fields.optional_filter (hasked "kid" rfl), Fields.optional_filter (hasked "typ" rfl),
    Fields.required_text k.headerFields "alg" rfl, Fields.optional_text k.headerFields "kid" rfl,
    Fields.optional_text k.headerFields "typ" rfl]
  rfl

theorem isHeader_header : Registered.isHeader (.ofFields k.headerFields) = true := by
  have hall : (k.headerFields.filter fun f => Registered.headerFields.contains f.1) =
    k.headerFields := rfl
  have hfields := Doc.fields?_ofFields k.nodup_headerFields Registered.headerFields
  have htext (name : String) {text : String}
      (h : k.headerFields.lookup name = some (.ofString text)) :
      Registered.absentOr Registered.isText k.headerFields name = true := by
    simp [Registered.absentOr, h, Registered.isText, Doc.ofString, Doc.text?, spelling?_ofChar]
  rw [hall, Doc.ofFields] at hfields
  rw [Doc.ofFields]
  simp only [Registered.isHeader, hfields, Bool.and_eq_true, List.all_cons, List.all_nil, and_true]
  exact ⟨⟨⟨rfl, htext "typ" rfl, rfl, rfl, htext "kid" rfl, rfl, rfl, rfl⟩, rfl⟩, rfl⟩

def published : Jwk where
  kty := "OKP"
  kid := k.kid
  alg? := some "EdDSA"
  use? := some "sig"
  crv? := some "Ed25519"
  x? := some (String.ofList (Base64Url.encode k.publicKey))
  y? := none
  n? := none
  e? := none

def jwkFields : Fields :=
  [("alg", .ofString "EdDSA"), ("crv", .ofString "Ed25519"), ("kid", .ofString k.kid),
    ("kty", .ofString "OKP"), ("use", .ofString "sig"),
    ("x", .ofString (String.ofList (Base64Url.encode k.publicKey)))]

theorem ofText?_jwk : (Doc.ofText? k.jwk.compact).bind Jwk.ofDoc? = some k.published := by
  have hdoc : k.jwk.doc? = some (.ofFields k.jwkFields) :=
    Value.doc?_object (.cons ⟨rfl, rfl⟩ (.cons ⟨rfl, rfl⟩ (.cons ⟨rfl, rfl⟩ (.cons ⟨rfl, rfl⟩
      (.cons ⟨rfl, rfl⟩ (.cons ⟨rfl, rfl⟩ .nil))))))
  have hdistinct : (k.jwkFields.map Prod.fst).Nodup :=
    (by decide : ["alg", "crv", "kid", "kty", "use", "x"].Nodup)
  have hneeded (name : String) {text : String}
      (h : k.jwkFields.lookup name = some (.ofString text)) :=
    Fields.required_text k.jwkFields name h
  have hread (name : String) {text : String}
      (h : k.jwkFields.lookup name = some (.ofString text)) :=
    Fields.optional_text k.jwkFields name h
  have hmissing (name : String) (h : k.jwkFields.lookup name = none) :=
    Fields.optional_missing k.jwkFields name h Doc.text?
  have hall : (k.jwkFields.filter fun f =>
      ["kty", "kid", "alg", "use", "crv", "x", "y", "n", "e"].contains f.1) = k.jwkFields := rfl
  rw [Value.ofText?_compact hdoc, Option.bind_some, Jwk.ofDoc?, Doc.fields?_ofFields hdistinct,
    hall]
  simp only [Option.bind_eq_bind, Option.bind_some,
    hneeded "kty" rfl, hneeded "kid" rfl, hread "alg" rfl, hread "use" rfl, hread "crv" rfl,
    hread "x" rfl, hmissing "y" rfl, hmissing "n" rfl, hmissing "e" rfl]
  rfl

theorem algorithm_published : k.published.algorithm ⟨"EdDSA", k.kid, some "JWT"⟩ = .ok .edDsa :=
  rfl

theorem material_published : k.published.material = .ok (.edwards k.publicKey) := by
  have hx : Jwk.bytes (String.ofList (Base64Url.encode k.publicKey)).toList =
      .ok k.publicKey := by
    rw [String.toList_ofList, Jwk.bytes, Base64Url.decode?_encode]
  have hmaterial : k.published.material =
      (Jwk.bytes (String.ofList (Base64Url.encode k.publicKey)).toList).map .edwards := rfl
  rw [hmaterial, hx]
  rfl

theorem ofBytes?_segment {v : Value} {d : Doc} (h : v.doc? = some d) :
    (Base64Url.decode? (segment v)).bind Doc.ofBytes? = some d := by
  rw [segment, Base64Url.decode?_encode, Option.bind_some, Value.ofBytes?_render h]

def segments (claims : Value) : Segments where
  header := segment k.header
  payload := segment claims
  signature := Base64Url.encode
    (k.signingKey.sign (utf8 (segment k.header ++ '.' :: segment claims)))

theorem ofText?_sign (claims : Value) :
    Segments.ofText? (k.sign claims).toList = some (k.segments claims) := by
  have hdot (bytes : Bytes) : '.' ∉ Base64Url.encode bytes :=
    Base64Url.not_mem_encode (by decide) bytes
  refine Segments.ofText?_eq_some.2 ⟨?_, hdot _, hdot _, hdot _⟩
  rw [sign, String.toList_ofList]
  rfl

/-- Reading a signed token fails for its size or its empty key id only. -/
theorem decode_sign {claims : Value} {d : Doc} {c : AccessClaims} (hd : claims.doc? = some d)
    (hc : AccessClaims.ofDoc? d = some c) :
    Session.decode (k.sign claims) =
      if UnverifiedToken.maxSize < (k.sign claims).utf8ByteSize then .error .tooLarge
      else if k.kid = "" then .error .missingKid
      else .ok ⟨⟨"EdDSA", k.kid, some "JWT"⟩, c, k.segments claims⟩ := by
  have hheader : ((Base64Url.decode? (k.segments claims).header).bind Doc.ofBytes?).bind
      WrittenHeader.ofDoc? = some ⟨"EdDSA", some k.kid, some "JWT"⟩ := by
    rw [segments, ofBytes?_segment k.doc?_header, Option.bind_some, ofDoc?_header]
  have hpayload : (Base64Url.decode? (k.segments claims).payload).bind AccessClaims.ofBytes? =
      some c := by
    change (Base64Url.decode? (Base64Url.encode (utf8 claims.render))).bind _ = _
    rw [Base64Url.decode?_encode, Option.bind_some, AccessClaims.ofBytes?,
      Value.ofBytes?_render hd, Option.bind_some, hc]
  rw [Session.decode, UnverifiedToken.decode]
  by_cases hk : k.kid = ""
  · simp only [ofText?_sign, hheader, WrittenHeader.keyed?, if_pos hk]
  · simp only [ofText?_sign, hheader, WrittenHeader.keyed?, if_neg hk, hpayload]

theorem verdict_sign {claims : Value} {d : Doc} {c : AccessClaims} {check : SignatureCheck}
    (hd : claims.doc? = some d) (hregistered : Registered.isPayload d = true)
    (hcheck : check .edDsa (.edwards k.publicKey) (utf8 (k.segments claims).signed)
      (k.signingKey.sign (utf8 (k.segments claims).signed)) = true) {set : KeySet}
    (hset : set.find? k.kid = some k.published) (issuer : String) (skew now : Int64) :
    (UnverifiedToken.mk ⟨"EdDSA", k.kid, some "JWT"⟩ c (k.segments claims)).verdict check issuer
        skew now (.ok set) =
      match c.fault? issuer now skew with
      | some fault => .error (.claim fault)
      | none => .ok c := by
  have hheader : Segments.spells (k.segments claims).header Registered.isHeader = true := by
    rw [segments, Segments.spells, ofBytes?_segment k.doc?_header]
    exact k.isHeader_header
  have hpayload : Segments.spells (k.segments claims).payload Registered.isPayload = true := by
    rw [segments, Segments.spells, ofBytes?_segment hd]
    exact hregistered
  have hsignature : Base64Url.decode? (k.segments claims).signature =
      some (k.signingKey.sign (utf8 (k.segments claims).signed)) := Base64Url.decode?_encode _
  simp only [UnverifiedToken.verdict, hset, UnverifiedToken.signatureRejection?,
    k.algorithm_published, k.material_published, Segments.signatureFault?, hheader, hsignature,
    hcheck, hpayload]
  cases c.fault? issuer now skew <;> rfl

/-- A document of keys, read as a key set, in which the key pair's own published form stands before
no other key with its id that may verify signatures. -/
structure PublishedIn (document : Bytes) (set : KeySet) : Prop where
  key : ∃ before key after, (Doc.ofBytes? document).bind Jwk.listOfDoc? =
      some (before ++ key :: after) ∧
    (Doc.ofText? k.jwk.compact).bind Jwk.ofDoc? = some key ∧
    ∀ later ∈ after, later.kid = k.kid → later.use? = some "enc"
  read : KeySet.ofBytes? document = some set

theorem PublishedIn.find? {k : Keypair} {document : Bytes} {set : KeySet}
    (h : k.PublishedIn document set) : set.find? k.kid = some k.published := by
  obtain ⟨before, key, after, hkeys, hkey, hlast⟩ := h.key
  obtain rfl := Option.some.inj (k.ofText?_jwk.symm.trans hkey)
  obtain ⟨d, hd, hlist⟩ := Option.bind_eq_some_iff.1 hkeys
  have hset := h.read
  rw [KeySet.ofBytes?, hd, Option.bind_some, KeySet.ofDoc?, hlist] at hset
  obtain rfl := Option.some.inj hset
  have hpublished : k.published.verifies = true := rfl
  refine KeySet.find?_last hpublished fun later hl hverifies hkid => ?_
  simp [Jwk.verifies, hlast later hl hkid] at hverifies

end Keypair

open Keypair (segment)
open TokenDraft (claimsSet)

/-- For every key pair, realm, clock, skew and sequence of calls on a draft, in every session: if
the realm's document of keys publishes the key pair, and the session gives the signed token that
document's key set should it ask for one, then the token is accepted if and only if its key id is
not empty, it is not too large, and the issuer, subject, type and times that were set last are
those of a bearer token of the realm that is active now; what is then returned are the claims that
were set last. The signature check is asked to accept only what the key pair has signed here. -/
theorem signed_accepted_iff (seed : UInt8) (kid base : String) (realm : Realm) (seconds : Nat)
    (check : SignatureCheck) (settings : Cache.Settings) (history : List Session.Deed)
    (source : KeySource) (built now : Int64) (issuer : String) (calls : List TokenDraft.Call)
    (document : Bytes) (set : KeySet) :
    let k := Keypair.ofSeed seed kid
    let claims := (TokenDraft.ofCalls built issuer calls).claims
    let signed := utf8 (segment k.header ++ '.' :: segment claims)
    let t := k.sign claims
    let v : Verifier := ⟨.ofBase base realm, Verifier.clampSkew seconds, check, settings⟩
    let s := Session.after v history
    let last := claimsSet built issuer calls
    now < Int64.maxValue →
    k.PublishedIn document set →
    (∀ u, Session.decode t = .ok u → Session.Given s.nextCall
      (Session.answers v source s.cache (s.numbered [t])).2 (.ok set)) →
    check .edDsa (.edwards k.publicKey) signed (k.signingKey.sign signed) = true →
    ∀ c, (s.authenticate v source now t).1 = .ok c ↔
      kid ≠ "" ∧ t.utf8ByteSize ≤ 8192 ∧
        last.issuer = String.ofList (trimSlashes base.toList) ++ "/realms/" ++ realm.name ∧
        (∃ sub ∈ last.subject?, sub ≠ "") ∧ last.kind? = some "Bearer" ∧
        last.ActiveAt now.toInt (min (seconds : Int) (2 ^ 63 - 1)) ∧ last = c := by
  intro k claims signed t v s last hclock hpublished hgiven hcheck c
  have hdoc := TokenDraft.doc?_claims (TokenDraft.ofCalls built issuer calls)
  have hclaims : AccessClaims.ofDoc? (.ofFields (TokenDraft.ofCalls built issuer calls).fields) =
      some last := by
    rw [(TokenDraft.accessClaims_givenBy _).ofDoc?, TokenDraft.accessClaims_ofCalls]
  have hdecode := k.decode_sign hdoc hclaims
  have hskew : v.skew.toInt = min (seconds : Int) (2 ^ 63 - 1) := by
    change (Epoch.clamp seconds).toInt = _
    rw [Epoch.toInt_clamp]
    omega
  have hfault : last.fault? v.endpoints.issuer now v.skew = none ↔ _ :=
    AccessClaims.fault?_eq_none (by omega)
  rw [hskew] at hfault
  by_cases hsize : UnverifiedToken.maxSize < t.utf8ByteSize
  · rw [if_pos hsize] at hdecode
    rw [Session.authenticate_of_fault v source now s hdecode]
    exact ⟨nofun, fun ⟨_, hle, _⟩ => absurd hle (Nat.not_le.2 hsize)⟩
  by_cases hkid : k.kid = ""
  · rw [if_neg hsize, if_pos hkid] at hdecode
    rw [Session.authenticate_of_fault v source now s hdecode]
    exact ⟨nofun, fun ⟨hne, _⟩ => absurd hkid hne⟩
  rw [if_neg hsize, if_neg hkid] at hdecode
  rw [Session.authenticate_of_given hdecode (hgiven _ hdecode),
    k.verdict_sign hdoc (TokenDraft.isPayload_claims _) hcheck hpublished.find?]
  have hrules : last.fault? v.endpoints.issuer now v.skew = none ↔
      last.issuer = String.ofList (trimSlashes base.toList) ++ "/realms/" ++ realm.name ∧
        (∃ sub ∈ last.subject?, sub ≠ "") ∧ last.kind? = some "Bearer" ∧
        last.ActiveAt now.toInt (min (seconds : Int) (2 ^ 63 - 1)) := by
    rw [hfault]
    exact ⟨fun ⟨hi, hs, hb, ha, _⟩ => ⟨hi, hs, hb, ha⟩,
      fun ⟨hi, hs, hb, ha⟩ => ⟨hi, hs, hb, ha, hclock⟩⟩
  cases hf : last.fault? v.endpoints.issuer now v.skew with
  | some fault =>
    refine ⟨nofun, fun ⟨_, _, hi, hs, hb, ha, _⟩ => ?_⟩
    cases hf.symm.trans (hrules.2 ⟨hi, hs, hb, ha⟩)
  | none =>
    obtain ⟨hi, hs, hb, ha⟩ := hrules.1 hf
    constructor
    · intro h
      exact ⟨hkid, Nat.not_lt.1 hsize, hi, hs, hb, ha, Except.ok.inj h⟩
    · rintro ⟨_, _, _, _, _, _, rfl⟩
      rfl

/-- A token for a subject with a line break, whose type and expiry are set twice, is accepted by the
standard check once a key set with an older key of the same id has been fetched. -/
theorem signed_accepted_iff_twice_set :
    let k := Keypair.ofSeed 7 "k"
    let document := utf8 (Json.Value.object [("keys", .array [(k.withKid "j").jwk, k.jwk])]).render
    let set := KeySet.ofKeys [(k.withKid "j").published, k.published]
    let calls : List TokenDraft.Call :=
      [.withType "ID", .expiresIn 5, .forUser "a\n", .withType "Bearer", .expiresIn (-2)]
    let v : Verifier := ⟨.ofBase "h/" ⟨"r"⟩, Verifier.clampSkew 9, .standard,
      ⟨100, 1000, .waitForRefresh⟩⟩
    let claims : AccessClaims := ⟨"h/realms/r", some "a\n", some "Bearer", 3, none, some 5,
      some "grants-frontend", none, none, "openid profile"⟩
    let t := k.sign (TokenDraft.ofCalls 5 "h/realms/r" calls).claims
    k.PublishedIn document set ∧
      (Session.initial.authenticate v (.answering 5 (.value set)) 8 t).1 = .ok claims := by
  intro k document set calls v claims t
  have hlisted : (Json.Doc.ofBytes? document).bind Jwk.listOfDoc? =
      some [(k.withKid "j").published, k.published] := by decide +kernel
  have hpublished : k.PublishedIn document set := by
    refine ⟨⟨[(k.withKid "j").published], k.published, [], hlisted, k.ofText?_jwk, by simp⟩, ?_⟩
    obtain ⟨d, hd, hlist⟩ := Option.bind_eq_some_iff.1 hlisted
    rw [KeySet.ofBytes?, hd, Option.bind_some, KeySet.ofDoc?, hlist]
    rfl
  have hgiven : ∀ u, Session.decode t = .ok u → Session.Given 0
      (Session.answers v (.answering 5 (.value set)) .empty (Session.initial.numbered [t])).2
      (.ok set) := by
    intro u hu
    have hnumbered : Session.initial.numbered [t] = [(.ok u, 0)] := by
      simp [Session.numbered, hu, Session.initial]
    -- what the token says does not matter to what its call is told
    have htold : Cache.reports (Session.answers v (.answering 5 (.value set)) .empty
        [(.ok ⟨⟨"", "", none⟩, claims, ⟨[], [], []⟩⟩, 0)]).2 0 = [(.value set, 1000000)] := by
      decide +kernel
    rw [hnumbered]
    exact .keys set 1000000 htold
  refine ⟨hpublished, (signed_accepted_iff 7 "k" "h/" ⟨"r"⟩ 9 .standard
    ⟨100, 1000, .waitForRefresh⟩ [] (.answering 5 (.value set)) 5 8 "h/realms/r" calls document set
    (by decide) hpublished hgiven (by decide +kernel) claims).2
    ⟨by decide, by decide +kernel, by decide +kernel, ?_, rfl, ?_, rfl⟩⟩
  · exact ⟨"a\n", rfl, by decide⟩
  · have hbefore : (claimsSet 5 "h/realms/r" calls).notBefore? = none := rfl
    refine ⟨by simp [hbefore], by decide, ?_⟩
    intro time htime
    obtain rfl : 5 = time := Option.some.inj htime
    decide

end BearerAccess.Testing
