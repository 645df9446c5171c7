import BearerAccess.KeySet.Fetch
import BearerAccess.Proofs.Json.Stated
import BearerAccess.Proofs.KeySet.Contents
import BearerAccess.Proofs.Sequence
set_option autoImplicit false

namespace BearerAccess

open Json

namespace Jwk

def names : List String := ["kty", "kid", "alg", "use", "crv", "x", "y", "n", "e"]

/-- A document that states this key. -/
structure StatedBy (k : Jwk) (d : Doc) : Prop where
  record : d.IsRecord names
  kty : d.Holds names Doc.text? "kty" k.kty
  kid : d.Holds names Doc.text? "kid" k.kid
  alg : d.MayHold names Doc.text? "alg" k.alg?
  use : d.MayHold names Doc.text? "use" k.use?
  crv : d.MayHold names Doc.text? "crv" k.crv?
  x : d.MayHold names Doc.text? "x" k.x?
  y : d.MayHold names Doc.text? "y" k.y?
  n : d.MayHold names Doc.text? "n" k.n?
  e : d.MayHold names Doc.text? "e" k.e?

theorem ofDoc?_eq_some {d : Doc} {k : Jwk} : ofDoc? d = some k ↔ k.StatedBy d := by
  have hnames : names.Nodup := by decide
  simp only [ofDoc?, Option.bind_eq_bind, Option.bind_eq_some_iff]
  constructor
  · rintro ⟨fields, hfields, kty, hkty, kid, hkid, alg?, halg, use?, huse, crv?, hcrv, x?, hx, y?,
      hy, n?, hn, e?, he, hk⟩
    obtain rfl := Option.some.inj hk
    obtain ⟨hrecord, hlookup⟩ := Doc.fields?_eq_some hnames hfields
    exact {
      record := hrecord
      kty := (Doc.required_eq_some (hlookup "kty" (by decide))).1 hkty
      kid := (Doc.required_eq_some (hlookup "kid" (by decide))).1 hkid
      alg := (Doc.optional_eq_some (hlookup "alg" (by decide)) rfl).1 halg
      use := (Doc.optional_eq_some (hlookup "use" (by decide)) rfl).1 huse
      crv := (Doc.optional_eq_some (hlookup "crv" (by decide)) rfl).1 hcrv
      x := (Doc.optional_eq_some (hlookup "x" (by decide)) rfl).1 hx
      y := (Doc.optional_eq_some (hlookup "y" (by decide)) rfl).1 hy
      n := (Doc.optional_eq_some (hlookup "n" (by decide)) rfl).1 hn
      e := (Doc.optional_eq_some (hlookup "e" (by decide)) rfl).1 he }
  · intro h
    obtain ⟨fields, hfields⟩ := h.record.exists_fields
    obtain ⟨-, hlookup⟩ := Doc.fields?_eq_some hnames hfields
    exact ⟨fields, hfields,
      _, (Doc.required_eq_some (hlookup "kty" (by decide))).2 h.kty,
      _, (Doc.required_eq_some (hlookup "kid" (by decide))).2 h.kid,
      _, (Doc.optional_eq_some (hlookup "alg" (by decide)) rfl).2 h.alg,
      _, (Doc.optional_eq_some (hlookup "use" (by decide)) rfl).2 h.use,
      _, (Doc.optional_eq_some (hlookup "crv" (by decide)) rfl).2 h.crv,
      _, (Doc.optional_eq_some (hlookup "x" (by decide)) rfl).2 h.x,
      _, (Doc.optional_eq_some (hlookup "y" (by decide)) rfl).2 h.y,
      _, (Doc.optional_eq_some (hlookup "n" (by decide)) rfl).2 h.n,
      _, (Doc.optional_eq_some (hlookup "e" (by decide)) rfl).2 h.e, rfl⟩

/-- A document that lists these keys, and nothing else under their name. -/
structure ListedIn (keys : List Jwk) (d : Doc) : Prop where
  record : d.IsRecord ["keys"]
  listed : ∃ items, d.States ["keys"] "keys" (.array items) ∧
    List.Forall₂ (fun item k => StatedBy k item) items keys

theorem items?_eq_some {d : Doc} {items : List Doc} : d.items? = some items ↔ d = .array items := by
  cases d <;> simp [Doc.items?]

theorem listOfDoc?_eq_some {d : Doc} {keys : List Jwk} :
    listOfDoc? d = some keys ↔ ListedIn keys d := by
  have hnames : ["keys"].Nodup := by decide
  have hmembers (items : List Doc) : items.mapM ofDoc? = some keys ↔
      List.Forall₂ (fun item k => StatedBy k item) items keys := by
    simp only [mapM_eq_some, ofDoc?_eq_some]
  simp only [listOfDoc?, Option.bind_eq_bind, Option.bind_eq_some_iff, hmembers]
  constructor
  · rintro ⟨fields, hfields, items, hitems, hkeys⟩
    obtain ⟨hrecord, hlookup⟩ := Doc.fields?_eq_some hnames hfields
    obtain ⟨v, hv, hread⟩ := (Doc.required_eq_some (hlookup "keys" (by decide))).1 hitems
    exact ⟨hrecord, items, items?_eq_some.1 hread ▸ hv, hkeys⟩
  · rintro ⟨hrecord, items, hitems, hkeys⟩
    obtain ⟨fields, hfields⟩ := hrecord.exists_fields
    obtain ⟨-, hlookup⟩ := Doc.fields?_eq_some hnames hfields
    exact ⟨fields, hfields, items,
      (Doc.required_eq_some (hlookup "keys" (by decide))).2 ⟨_, hitems, rfl⟩, hkeys⟩

end Jwk

namespace KeySet

def Lists (a : HttpResponse) (keys : List Jwk) : Prop :=
  ∃ body d, a.body? = some body ∧ Doc.ofBytes? body = some d ∧ Jwk.ListedIn keys d

theorem lists_iff {a : HttpResponse} {keys : List Jwk} :
    (a.body?.bind Doc.ofBytes?).bind Jwk.listOfDoc? = some keys ↔ Lists a keys := by
  simp only [Lists, Option.bind_eq_some_iff, Jwk.listOfDoc?_eq_some]
  constructor
  · rintro ⟨d, ⟨body, hbody, hd⟩, hlisted⟩
    exact ⟨body, d, hbody, hd, hlisted⟩
  · rintro ⟨body, d, hbody, hd, hlisted⟩
    exact ⟨d, ⟨body, hbody, hd⟩, hlisted⟩

theorem body_ofBytes? (a : HttpResponse) : a.body?.bind ofBytes? =
    ((a.body?.bind Doc.ofBytes?).bind Jwk.listOfDoc?).map ofKeys := by
  cases a.body? with
  | none => rfl
  | some body => cases hd : Doc.ofBytes? body <;> simp [ofBytes?, ofDoc?, hd]

section Response

variable {a : HttpResponse}

theorem ofResponse_of_lists {keys : List Jwk} (hs : 200 ≤ a.status ∧ a.status ≤ 299)
    (h : Lists a keys) : ofResponse a = .ok (ofKeys keys) := by
  rw [ofResponse, if_pos (by omega), body_ofBytes?, lists_iff.2 h]
  rfl

theorem ofResponse_unreadable (hs : 200 ≤ a.status ∧ a.status ≤ 299)
    (h : ∀ keys, ¬Lists a keys) : ofResponse a = .error (.parse badBodyMessage) := by
  have hnone : (a.body?.bind Doc.ofBytes?).bind Jwk.listOfDoc? = none :=
    Option.eq_none_iff_forall_ne_some.2 fun keys hkeys => h keys (lists_iff.1 hkeys)
  rw [ofResponse, if_pos (by omega), body_ofBytes?, hnone]
  rfl

theorem ofResponse_refusal (hs : ¬(200 ≤ a.status ∧ a.status ≤ 299)) :
    ofResponse a = .error (.status a.status) := by
  rw [ofResponse, if_neg (by omega)]

end Response

variable {σ : Type}

inductive Answered (link : Link) (peer : Peer σ) (timeout : Nat) (e : Endpoints) (s : σ) :
    Except HttpFault HttpResponse → Prop where
  | unsent {fault : HttpFault} : Http.url? e.certsUrl = .error fault →
      Answered link peer timeout e s (.error fault)
  | sent {url : Url} {result : Except HttpFault HttpResponse} : Http.url? e.certsUrl = .ok url →
      (Http.send link peer timeout ⟨.get, url, none, none, []⟩ s).1.1 = result →
      Answered link peer timeout e s result

/-- How a fetch ends: without a final answer, with one that is no success, with one whose body lists
no keys, or with a key set. -/
inductive Ended (link : Link) (peer : Peer σ) (timeout : Nat) (e : Endpoints) (s : σ) :
    Except FetchError KeySet → Prop where
  | failed {fault : HttpFault} : Answered link peer timeout e s (.error fault) →
      Ended link peer timeout e s (.error (.http fault.message))
  | refused {a : HttpResponse} : Answered link peer timeout e s (.ok a) →
      ¬(200 ≤ a.status ∧ a.status ≤ 299) → Ended link peer timeout e s (.error (.status a.status))
  | unreadable {a : HttpResponse} : Answered link peer timeout e s (.ok a) →
      200 ≤ a.status ∧ a.status ≤ 299 → (∀ keys, ¬Lists a keys) →
      Ended link peer timeout e s (.error (.parse badBodyMessage))
  | read {a : HttpResponse} {keys : List Jwk} : Answered link peer timeout e s (.ok a) →
      200 ≤ a.status ∧ a.status ≤ 299 → Lists a keys →
      Ended link peer timeout e s (.ok (ofKeys keys))

variable {link : Link} {peer : Peer σ} {timeout : Nat} {e : Endpoints} {s : σ}

theorem exists_answered (link : Link) (peer : Peer σ) (timeout : Nat) (e : Endpoints) (s : σ) :
    ∃ result, Answered link peer timeout e s result := by
  cases hurl : Http.url? e.certsUrl with
  | error fault => exact ⟨_, .unsent hurl⟩
  | ok url => exact ⟨_, .sent hurl rfl⟩

theorem fetch_of_answered {result : Except HttpFault HttpResponse}
    (h : Answered link peer timeout e s result) : (fetch link peer timeout e s).1.1 =
      match result with
      | .error fault => .error (.http fault.message)
      | .ok a => ofResponse a := by
  cases h with
  | unsent hurl => simp only [fetch, hurl]
  | @sent url _ hurl hresult =>
    rcases hsend : Http.send link peer timeout ⟨.get, url, none, none, []⟩ s with
      ⟨⟨answer, time⟩, s'⟩
    obtain rfl : answer = result := by rw [← hresult, hsend]
    cases answer <;> simp only [fetch, hurl, hsend]

theorem Ended.fetch_eq {r : Except FetchError KeySet} (h : Ended link peer timeout e s r) :
    (fetch link peer timeout e s).1.1 = r := by
  cases h with
  | failed ha => exact fetch_of_answered ha
  | refused ha hs => exact (fetch_of_answered ha).trans (ofResponse_refusal hs)
  | unreadable ha hs hkeys => exact (fetch_of_answered ha).trans (ofResponse_unreadable hs hkeys)
  | read ha hs hkeys => exact (fetch_of_answered ha).trans (ofResponse_of_lists hs hkeys)

theorem exists_ended (link : Link) (peer : Peer σ) (timeout : Nat) (e : Endpoints) (s : σ) :
    ∃ r, Ended link peer timeout e s r := by
  obtain ⟨result, ha⟩ := exists_answered link peer timeout e s
  cases result with
  | error fault => exact ⟨_, .failed ha⟩
  | ok a =>
    by_cases hs : 200 ≤ a.status ∧ a.status ≤ 299
    case neg => exact ⟨_, .refused ha hs⟩
    by_cases hkeys : ∃ keys, Lists a keys
    · obtain ⟨keys, hkeys⟩ := hkeys
      exact ⟨_, .read ha hs hkeys⟩
    · exact ⟨_, .unreadable ha hs (not_exists.1 hkeys)⟩

/-- A fetch ends as its final answer says. In the key set of a list of keys the last key with an id
is found that is not meant for encryption, and a token whose id has none is turned down for that;
the set has as many keys as there are such ids. Keys for encryption change nothing wherever they
stand, and neither does the order of keys whose ids differ. -/
theorem keys_read_whole_and_found :
    (∀ {σ : Type} (link : Link) (peer : Peer σ) (timeout : Nat) (e : Endpoints) (s : σ)
      (r : Except FetchError KeySet),
      Ended link peer timeout e s r ↔ (fetch link peer timeout e s).1.1 = r) ∧
    (∀ (keys : List Jwk) (kid : String) (k : Jwk), (ofKeys keys).find? kid = some k ↔
      ∃ before after, keys = before ++ k :: after ∧ k.kid = kid ∧ k.use? ≠ some "enc" ∧
        ∀ later ∈ after, later.kid = kid → later.use? = some "enc") ∧
    (∀ (keys : List Jwk) (kid : String), (ofKeys keys).find? kid = none ↔
      ∀ k ∈ keys, k.kid = kid → k.use? = some "enc") ∧
    (∀ (check : SignatureCheck) (issuer : String) (skew now : Int64) (keys : List Jwk)
      (t : UnverifiedToken AccessClaims) (kid : String),
      t.verdict check issuer skew now (.ok (ofKeys keys)) = .error (.keySet (.keyNotFound kid)) ↔
        t.header.kid = kid ∧ ∀ k ∈ keys, k.kid = kid → k.use? = some "enc") ∧
    (∀ keys : List Jwk, (ofKeys keys).size =
      ((keys.filter fun k => k.use? ≠ some "enc").map Jwk.kid).toFinset.card) ∧
    (∀ (before after : List Jwk) (k : Jwk), k.use? = some "enc" →
      ofKeys (before ++ k :: after) = ofKeys (before ++ after)) ∧
    ∀ keys keys' : List Jwk, (keys.map Jwk.kid).Nodup → keys.Perm keys' →
      ofKeys keys = ofKeys keys' := by
  refine ⟨?_, fun _ _ _ => find?_eq_some, fun _ _ => find?_eq_none, ?_, ?_,
    fun _ _ _ => ofKeys_encryption, fun _ _ => ofKeys_perm⟩
  · intro σ link peer timeout e s r
    refine ⟨Ended.fetch_eq, ?_⟩
    rintro rfl
    obtain ⟨r, hr⟩ := exists_ended link peer timeout e s
    rwa [hr.fetch_eq]
  · intro check issuer skew now keys t kid
    rw [UnverifiedToken.verdict_keyNotFound, find?_eq_none]
  · intro keys
    have hsame : (keys.filter fun k => k.use? ≠ some "enc") = keys.filter Jwk.verifies :=
      List.filter_congr fun k _ => by simp [Jwk.verifies, bne, beq_eq_decide]
    rw [size_ofKeys, hsame]

theorem keys_read_whole_and_found_shadowed :
    let a : Jwk := ⟨"OKP", "a", none, none, none, none, none, none, none⟩
    let b : Jwk := ⟨"OKP", "b", none, some "sig", none, none, none, none, none⟩
    let other : Jwk := ⟨"RSA", "a", none, some "enc", none, none, none, none, none⟩
    let body := "\x7b\"keys\":[\x7b\"kty\":\"OKP\",\"kid\":\"a\"\x7d]\x7d"
    let peer : Peer Unit := fun _ s => (.response ⟨203, none, some (bytesOf body)⟩, s)
    let e : Endpoints := ⟨"http://idp", ⟨"r"⟩⟩
    ofKeys ([a, b] ++ other :: []) = ofKeys [b, a] ∧ (ofKeys [a, other]).find? "a" = some a ∧
      (fetch .up peer 0 e ()).1.1 = .ok (ofKeys [a]) := by
  intro a b other body peer e
  obtain ⟨hfetch, hfind, -, -, -, hencryption, hperm⟩ := keys_read_whole_and_found
  have hdropped := hencryption [a, b] [] other rfl
  have hswapped := hperm [a, b] [b, a] (by decide) (.swap b a [])
  have hlists : Lists ⟨203, none, some (bytesOf body)⟩ [a] := lists_iff.1 (by decide +kernel)
  have hurl : Http.url? e.certsUrl = .ok ⟨false, "idp".toList, none,
      "/realms/r/protocol/openid-connect/certs".toList, none, none⟩ := by decide +kernel
  exact ⟨hdropped.trans hswapped,
    (hfind [a, other] "a" a).2 ⟨[], [other], rfl, rfl, by decide, by simp [other]⟩,
    (hfetch .up peer 0 e () _).1 (.read (.sent hurl rfl) (by decide) hlists)⟩

end KeySet

end BearerAccess
