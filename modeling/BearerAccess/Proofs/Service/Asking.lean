import BearerAccess.Proofs.Cache.Failure
import BearerAccess.Proofs.Decision.Identified
import BearerAccess.Proofs.Decision.Outcome
import BearerAccess.Proofs.Http.Addresses
import BearerAccess.Proofs.Http.Exchanges
import BearerAccess.Proofs.Session.Verdicts
import BearerAccess.Proofs.Text.Base64
import BearerAccess.Proofs.Token.SecondReading
import BearerAccess.Service
/-!
What a service asks of the identity provider. Keys are fetched by requests that only read; a
decision is one request that posts, with its redirects. Whatever token has been accepted can be
asked about: it fits into a header, and the keys came from the same place as decisions.
-/
set_option autoImplicit false

namespace BearerAccess

namespace Base64Url

theorem graphic_of_decode? {text : List Char} {bytes : Bytes} (h : decode? text = some bytes) :
    ∀ c ∈ text, 0x20 < c.toNat ∧ c.toNat < 0x7F := by
  have hgraphic : ∀ c ∈ alphabet, 0x20 < c.toNat ∧ c.toNat < 0x7F :=
    forall_mem_alphabet.2 (by decide)
  exact fun c hc => hgraphic c ((exists_decode?_iff.1 ⟨bytes, h⟩).letters c hc)

end Base64Url

theorem Http.fits_of_graphic {token : String}
    (h : ∀ c ∈ token.toList, 0x20 < c.toNat ∧ c.toNat < 0x7F) :
    ∀ b ∈ bytesOf token, b = 0x09 ∨ 0x20 ≤ b ∧ b ≠ 0x7F := by
  intro b hb
  obtain ⟨c, hc, hb⟩ := List.mem_flatMap.1 hb
  obtain ⟨hlow, hhigh⟩ := h c hc
  rw [Symbol.utf8EncodeChar_eq, if_pos (by omega)] at hb
  obtain rfl := List.mem_singleton.1 hb
  have hbyte : (UInt8.ofNat c.toNat).toNat = c.toNat := Symbol.toNat_ofNat_of_lt (by omega)
  refine .inr ⟨?_, fun he => ?_⟩
  · rw [UInt8.le_iff_toNat_le, hbyte]
    exact Nat.le_of_lt hlow
  · have hbad := congrArg UInt8.toNat he
    rw [hbyte] at hbad
    exact Nat.ne_of_lt hhigh hbad

/-- A token that has been accepted is written in characters that a header can carry. -/
theorem Trial.Accepted.graphic {x : Trial} {t : UnverifiedToken AccessClaims} {set : KeySet}
    {k : Jwk} {a : Algorithm} {m : KeyMaterial} {signature : Bytes}
    (h : x.Accepted t set k a m signature) :
    ∀ c ∈ x.token.toList, 0x20 < c.toNat ∧ c.toNat < 0x7F := by
  obtain ⟨hsegments, ⟨w, hw, -⟩, hpayload⟩ := UnverifiedToken.decode_eq_ok h.decoded
  obtain ⟨doc, hheader, -⟩ := Option.bind_eq_some_iff.1 hw
  obtain ⟨header, hheader, -⟩ := Option.bind_eq_some_iff.1 hheader
  obtain ⟨payload, hpayload, -⟩ := Option.bind_eq_some_iff.1 hpayload
  rw [(Segments.ofText?_eq_some.1 hsegments).1, Segments.signed]
  simp only [List.forall_mem_append, List.forall_mem_cons]
  exact ⟨⟨Base64Url.graphic_of_decode? hheader, by decide, Base64Url.graphic_of_decode? hpayload⟩,
    by decide, Base64Url.graphic_of_decode? h.spelled⟩

namespace Session

open Cache

/-- The first token that a session accepts has been judged by keys that a fetch gave. -/
theorem fetched_of_accepted {v : Verifier} {source : KeySource} {now : Int64} {token : String}
    {c : AccessClaims} (h : (initial.authenticate v source now token).1 = .ok c) :
    ∃ delay keys, source = .answering delay (.value keys) := by
  cases hd : decode token with
  | error fault => cases (authenticate_of_fault v source now initial hd).symm.trans h
  | ok t =>
    obtain ⟨given, hgiven⟩ := (lived_initial v).given source [] [] hd
    have hverdict := (authenticate_of_given hd hgiven).symm.trans h
    obtain ⟨set, k, rfl, -⟩ := Trial.verdict_of_read.1 hverdict
    obtain ⟨waits, hquiet, hrun⟩ := answers_run v source initial.cache (initial.numbered [token])
    have hasked : calls v source (initial.numbered [token]) =
        [.call 0 v.endpoints.realm source.loader] := by
      simp [numbered, hd, initial, calls]
    cases hgiven with
    | keys _ told hrep =>
      rw [List.nil_append, hrun] at hrep
      have hm := mem_reports.1 (hrep ▸ List.mem_singleton_self _)
      obtain ⟨load, key, ended, hended⟩ := run_value_source v.cache _ hm
      obtain ⟨due, call, loader, start, hcall, -, hplan⟩ :=
        (run_sourced v.cache _).2 load key _ ended hended
      -- the call of this token is the only one
      obtain rfl : source.loader = loader := by
        rcases List.mem_append.1 hcall with hcall | hcall
        · rw [hasked] at hcall
          cases List.mem_singleton.1 hcall
          rfl
        · cases hquiet _ hcall
      have hgives := Cache.Loader.gives_of_plan? hplan
      cases source with
      | silent => cases hgives
      | answering delay ending =>
        cases hgives
        exact ⟨delay, set, rfl⟩

end Session

theorem KeySet.fetch_eq_ok {σ : Type} {link : Link} {peer : Peer σ} {timeout time : Nat}
    {e : Endpoints} {s s' : σ} {keys : KeySet}
    (h : KeySet.fetch link peer timeout e s = ((.ok keys, time), s')) :
    link = .up ∧ ∃ url, Http.url? e.certsUrl = .ok url := by
  unfold KeySet.fetch at h
  cases hu : Http.url? e.certsUrl with
  | error fault => simp [hu] at h
  | ok url =>
    rcases hsend : Http.send link peer timeout ⟨.get, url, none, none, []⟩ s with
      ⟨⟨answer | answer, elapsed⟩, next⟩
    · simp [hu, hsend] at h
    · exact ⟨Http.send_eq_ok_up hsend, url, rfl⟩

/-- What fetching the keys of a realm sends. -/
inductive KeySet.Fetches (link : Link) (e : Endpoints) : List HttpRequest → Prop where
  | nothing : Fetches link e []
  | sent {url : Url} {requests : List HttpRequest} : Http.url? e.certsUrl = .ok url →
      Http.Sends link ⟨.get, url, none, none, []⟩ requests → Fetches link e requests

theorem KeySet.Fetches.reads {link : Link} {e : Endpoints} {requests : List HttpRequest}
    (h : KeySet.Fetches link e requests) : ∀ q ∈ requests, q.method = .get := by
  cases h with
  | nothing => simp
  | sent _ hsends => exact hsends.reads rfl

theorem KeySet.fetch_overheard {σ : Type} (link : Link) (peer : Peer σ) (timeout : Nat)
    (e : Endpoints) (s : σ) (log : List HttpRequest) :
    ∃ requests, KeySet.Fetches link e requests ∧
      Http.Overheard log requests (KeySet.fetch link peer timeout e s)
        (KeySet.fetch link (Http.overheard peer) timeout e (s, log)) := by
  unfold KeySet.fetch Http.Overheard
  cases hu : Http.url? e.certsUrl with
  | error fault => exact ⟨[], .nothing, by simp⟩
  | ok url =>
    obtain ⟨requests, hsends, hheard⟩ :=
      Http.send_overheard link peer timeout ⟨.get, url, none, none, []⟩ s log
    refine ⟨requests, .sent hu hsends, ?_⟩
    simp only [hheard.eq]
    rcases Http.send link peer timeout ⟨.get, url, none, none, []⟩ s with
      ⟨⟨answer | answer, elapsed⟩, next⟩ <;> rfl

namespace Decision

/-- What asking for a decision sends: the one request for it, if there is such a request. -/
inductive Asks (link : Link) (e : Endpoints) (clientId token : String)
    (permissions : PermissionSet) : List HttpRequest → Prop where
  | unsendable {fault : HttpFault} : request e clientId token permissions = .error fault →
      Asks link e clientId token permissions []
  | sent {r : HttpRequest} {requests : List HttpRequest} :
      request e clientId token permissions = .ok r → Http.Sends link r requests →
      Asks link e clientId token permissions requests

theorem Asks.sends {link : Link} {e : Endpoints} {clientId token : String}
    {permissions : PermissionSet} {requests : List HttpRequest}
    (h : Asks link e clientId token permissions requests) {r : HttpRequest}
    (hr : request e clientId token permissions = .ok r) : Http.Sends link r requests := by
  cases h with
  | unsendable hfault => cases hfault.symm.trans hr
  | sent hother hsends =>
    cases hother.symm.trans hr
    exact hsends

theorem ask_overheard {σ : Type} (link : Link) (peer : Peer σ) (timeout : Nat) (e : Endpoints)
    (clientId token : String) (permissions : PermissionSet) (s : σ) (log : List HttpRequest) :
    ∃ requests, Asks link e clientId token permissions requests ∧
      Http.Overheard log requests (ask link peer timeout e clientId token permissions s)
        (ask link (Http.overheard peer) timeout e clientId token permissions (s, log)) := by
  unfold ask Http.Overheard
  cases hr : request e clientId token permissions with
  | error fault => exact ⟨[], .unsendable hr, by simp⟩
  | ok r =>
    obtain ⟨requests, hsends, hheard⟩ := Http.send_overheard link peer timeout r s log
    refine ⟨requests, .sent hr hsends, ?_⟩
    simp only [hheard.eq]
    rcases Http.send link peer timeout r s with ⟨⟨answer | answer, elapsed⟩, next⟩ <;> rfl

end Decision

namespace Service

variable {σ : Type} (v : Service) (peer : Peer σ) (now : Int64) (token : String)

theorem authenticate_initial (provider : σ) :
    (v.authenticate peer now token (initial provider)).1 =
      (Session.initial.authenticate v.verifier (v.source peer provider).1 now token).1 := by
  simp only [authenticate, initial]

theorem source_overheard (provider : σ) (log : List HttpRequest) :
    ∃ requests, KeySet.Fetches v.link v.config.endpoints requests ∧
      Http.Overheard log requests (v.source peer provider)
        (v.source (Http.overheard peer) (provider, log)) := by
  obtain ⟨requests, hfetches, hheard⟩ :=
    KeySet.fetch_overheard v.link peer v.timeout v.config.endpoints provider log
  refine ⟨requests, hfetches, ?_⟩
  unfold source Http.Overheard
  simp only [hheard.eq]
  rcases KeySet.fetch v.link peer v.timeout v.config.endpoints provider with
    ⟨⟨fetched | fetched, time⟩, next⟩ <;> rfl

theorem authenticate_overheard (s : State σ) (log : List HttpRequest) :
    ∃ requests, KeySet.Fetches v.link v.config.endpoints requests ∧
      let r := v.authenticate peer now token s
      v.authenticate (Http.overheard peer) now token ⟨s.session, s.provider, log⟩ =
        (r.1, ⟨r.2.session, r.2.provider, log ++ requests⟩) := by
  obtain ⟨requests, hfetches, hheard⟩ :=
    source_overheard v peer s.provider log
  simp only [authenticate, hheard.eq]
  split
  · exact ⟨[], .nothing, by simp⟩
  · exact ⟨requests, hfetches, rfl⟩

theorem isGranted_overheard (s : State σ) (permissions : PermissionSet) (log : List HttpRequest) :
    ∃ requests,
      Decision.Asks v.link v.config.endpoints v.config.clientId token permissions requests ∧
      let r := v.isGranted peer token permissions s
      v.isGranted (Http.overheard peer) token permissions ⟨s.session, s.provider, log⟩ =
        (r.1, ⟨r.2.session, r.2.provider, log ++ requests⟩) := by
  obtain ⟨requests, hasks, hheard⟩ := Decision.ask_overheard v.link peer v.timeout
    v.config.endpoints v.config.clientId token permissions s.provider log
  refine ⟨requests, hasks, ?_⟩
  simp only [isGranted, Gate.isGranted, decider, hheard.eq]

variable {v peer now token}

theorem request_of_accepted {provider : σ} {c : AccessClaims}
    (h : (v.authenticate peer now token (initial provider)).1 = .ok c)
    (permissions : PermissionSet) : v.link = .up ∧
      ∃ r, Decision.request v.config.endpoints v.config.clientId token permissions = .ok r ∧
        Decision.Inquiry v.config.endpoints v.config.clientId token permissions.toList r := by
  rw [authenticate_initial] at h
  obtain ⟨delay, keys, hsource⟩ := Session.fetched_of_accepted h
  have hfetch : v.link = .up ∧ ∃ url, Http.url? v.config.endpoints.certsUrl = .ok url := by
    unfold source at hsource
    rcases hf : KeySet.fetch v.link peer v.timeout v.config.endpoints provider with
      ⟨⟨fetched | fetched, time⟩, s'⟩
    · simp [hf] at hsource
    · exact KeySet.fetch_eq_ok hf
  obtain ⟨hup, keysUrl, hkeys⟩ := hfetch
  obtain ⟨url, hurl⟩ := Endpoints.tokenUrl_readable hkeys
  refine ⟨hup, Decision.exists_request_iff.2 ⟨⟨url, hurl⟩, Http.fits_of_graphic ?_⟩⟩
  rw [Session.authenticate_verdict, Session.verdict_eq_trial] at h
  obtain ⟨_, _, _, _, _, _, haccepted, -⟩ := Trial.verdict_eq_ok.1 h
  exact haccepted.graphic

end Service

end BearerAccess
