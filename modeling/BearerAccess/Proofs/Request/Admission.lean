import BearerAccess.Proofs.Request.Presented
import BearerAccess.Proofs.Session.Verdicts
set_option autoImplicit false

namespace BearerAccess

theorem Session.authenticate_eq_ok {v : Verifier} {source : KeySource} {now : Int64}
    {token : String} {s : Session} {c : AccessClaims}
    (h : (s.authenticate v source now token).1 = .ok c) :
    c.fault? v.endpoints.issuer now v.skew = none := by
  rw [authenticate_verdict, verdict_eq_trial] at h
  obtain ⟨t, _, _, _, _, _, haccepted, rfl⟩ := Trial.verdict_eq_ok.1 h
  exact haccepted.active

theorem AccessClaims.subject_ne_of_active {c : AccessClaims} {issuer : String} {now skew : Int64}
    (h : c.fault? issuer now skew = none) : c.subject ≠ "" := by
  intro hs
  unfold fault? at h
  rw [if_pos hs] at h
  split at h <;> cases h

namespace RequestGuard

variable {π σ : Type}

/-- What makes a request one of an identity. -/
structure Admitted (v : Verifier) (source : KeySource) (now : Int64) (resolve : Resolver π)
    (r : Request) (s : Session) (i : Identity π) : Prop where
  presented : r.Presents i.token
  verified : (s.authenticate v source now i.token).1 = .ok i.claims
  resolved : resolve i.claims = .ok i.principal

/-- Why a request is turned away: by the resolver, or for a reason that is not told. -/
inductive Refused (v : Verifier) (source : KeySource) (now : Int64) (resolve : Resolver π)
    (r : Request) (s : Session) : AuthError → Prop where
  | tokenless : (∀ token, ¬r.Presents token) → Refused v source now resolve r s .invalidPrincipal
  | unverified (token : String) (rejection : Rejection) : r.Presents token →
      (s.authenticate v source now token).1 = .error rejection →
      Refused v source now resolve r s .invalidPrincipal
  | unresolved (token : String) (claims : AccessClaims) (e : AuthError) : r.Presents token →
      (s.authenticate v source now token).1 = .ok claims → resolve claims = .error e →
      Refused v source now resolve r s e

def sessionAfter (v : Verifier) (source : KeySource) (now : Int64) (r : Request) (s : Session) :
    Session :=
  match r.bearer? with
  | none => s
  | some token => (s.authenticate v source now token).2

section Outcome

variable {v : Verifier} {source : KeySource} {now : Int64} {resolve : Resolver π} {r : Request}
  {s : Session}

theorem identify_session :
    (identify v source now resolve r s).2 = sessionAfter v source now r s := by
  unfold identify sessionAfter
  cases r.bearer? with
  | none => rfl
  | some token =>
    simp only
    cases s.authenticate v source now token with
    | mk verdict after =>
      cases verdict with
      | error rejection => rfl
      | ok claims => cases hr : resolve claims <;> simp only [hr]

theorem identify_of_admitted {i : Identity π} (h : Admitted v source now resolve r s i) :
    (identify v source now resolve r s).1 = .ok i := by
  have hbearer := Request.bearer?_eq_some.2 h.presented
  have hverdict : s.authenticate v source now i.token =
      (.ok i.claims, (s.authenticate v source now i.token).2) := Prod.ext h.verified rfl
  unfold identify
  simp only [hbearer]
  rw [hverdict]
  simp only [h.resolved]

theorem identify_cases (v : Verifier) (source : KeySource) (now : Int64) (resolve : Resolver π)
    (r : Request) (s : Session) :
    (∃ i, (identify v source now resolve r s).1 = .ok i ∧
        Admitted v source now resolve r s i) ∨
      ∃ e, (identify v source now resolve r s).1 = .error e ∧
        Refused v source now resolve r s e := by
  unfold identify
  cases hb : r.bearer? with
  | none => exact .inr ⟨_, rfl, .tokenless (Request.bearer?_eq_none.1 hb)⟩
  | some token =>
    have hp := Request.bearer?_eq_some.1 hb
    simp only
    cases ha : s.authenticate v source now token with
    | mk verdict after =>
      cases verdict with
      | error rejection => exact .inr ⟨_, rfl, .unverified token rejection hp (by rw [ha])⟩
      | ok claims =>
        simp only
        cases hr : resolve claims with
        | error e => exact .inr ⟨e, rfl, .unresolved token claims e hp (by rw [ha]) hr⟩
        | ok principal => exact .inl ⟨_, rfl, hp, by rw [ha], hr⟩

theorem Admitted.unique {i j : Identity π} (hi : Admitted v source now resolve r s i)
    (hj : Admitted v source now resolve r s j) : i = j :=
  Except.ok.inj ((identify_of_admitted hi).symm.trans (identify_of_admitted hj))

theorem respond_of_admitted {i : Identity π} (h : Admitted v source now resolve r s i)
    (handler : Identity π → σ → Response × σ) (t : σ) :
    respond v source now resolve handler r s t =
      ((handler i t).1, sessionAfter v source now r s, (handler i t).2) := by
  have hidentified : identify v source now resolve r s = (.ok i, sessionAfter v source now r s) :=
    Prod.ext (identify_of_admitted h) identify_session
  rw [respond, hidentified]

theorem respond_of_not_admitted (h : ∀ i, ¬Admitted v source now resolve r s i) :
    ∃ e, Refused v source now resolve r s e ∧
      ∀ {σ : Type} (handler : Identity π → σ → Response × σ) (t : σ),
        respond v source now resolve handler r s t =
          (e.response, sessionAfter v source now r s, t) := by
  rcases identify_cases v source now resolve r s with ⟨i, -, hi⟩ | ⟨e, he, hrefused⟩
  · exact absurd hi (h i)
  · have hidentified : identify v source now resolve r s =
        (.error e, sessionAfter v source now r s) := Prod.ext he identify_session
    exact ⟨e, hrefused, fun handler t => by rw [respond, hidentified]⟩

end Outcome

/-- The identities that a handler is run for, in the order of its runs. -/
def handled (v : Verifier) (source : KeySource) (now : Int64) (resolve : Resolver π) (r : Request)
    (s : Session) : List (Identity π) :=
  let noting (i : Identity π) (seen : List (Identity π)) := (Response.notFound, seen ++ [i])
  (respond v source now resolve noting r s []).2.2

theorem handled_cases (v : Verifier) (source : KeySource) (now : Int64) (resolve : Resolver π)
    (r : Request) (s : Session) :
    (∃ i, Admitted v source now resolve r s i ∧ handled v source now resolve r s = [i]) ∨
      (∀ i, ¬Admitted v source now resolve r s i) ∧ handled v source now resolve r s = [] := by
  by_cases h : ∃ i, Admitted v source now resolve r s i
  · obtain ⟨i, hi⟩ := h
    exact .inl ⟨i, hi, by simp [handled, respond_of_admitted hi]⟩
  · have hnone := not_exists.1 h
    obtain ⟨e, -, hrespond⟩ := respond_of_not_admitted hnone
    exact .inr ⟨hnone, by simp [handled, hrespond]⟩

def unauthorized : Response where
  status := 401
  challenge? := some "Bearer error=\"invalid_token\""
  contentType? := some "application/json"
  body := "\x7b\"error\":\x7b\"code\":\"INVALID_TOKEN\"," ++
    "\"message\":\"The access token is invalid or expired\"\x7d\x7d"

theorem response_invalidPrincipal : AuthError.invalidPrincipal.response = unauthorized := by decide

theorem ofClaims_of_verified {v : Verifier} {source : KeySource} {now : Int64} {token : String}
    {s : Session} {c : AccessClaims} (h : (s.authenticate v source now token).1 = .ok c) :
    TokenPrincipal.ofClaims c = .ok ⟨c.subject, c.username?, c.scopes⟩ :=
  if_neg (AccessClaims.subject_ne_of_active (Session.authenticate_eq_ok h))

/-- For every request, verifier, session and source of keys: the handler runs exactly for an
identity whose token the request presents, whose claims that token is verified with, and whose
principal those claims resolve to; it runs once, and the answer is its own. If there is none, the
answer does not depend on the handler. Only a presented token touches the session. If the identity
is taken from the claims, every verified token has one, and all rejections are one answer. -/
theorem handler_runs_exactly_for_admitted (v : Verifier) (source : KeySource) (now : Int64)
    (r : Request) (s : Session) :
    (∀ (π : Type) (resolve : Resolver π),
      (∀ i, handled v source now resolve r s = [i] ↔
        r.Presents i.token ∧ (s.authenticate v source now i.token).1 = .ok i.claims ∧
          resolve i.claims = .ok i.principal) ∧
      (∀ i, i ∈ handled v source now resolve r s → handled v source now resolve r s = [i]) ∧
      (∀ i, handled v source now resolve r s = [i] →
        ∀ {σ : Type} (handler : Identity π → σ → Response × σ) (t : σ),
          respond v source now resolve handler r s t =
            ((handler i t).1, (s.authenticate v source now i.token).2, (handler i t).2)) ∧
      (handled v source now resolve r s = [] →
        ∃ e, Refused v source now resolve r s e ∧
          ∀ {σ : Type} (handler : Identity π → σ → Response × σ) (t : σ),
            respond v source now resolve handler r s t =
              (e.response, sessionAfter v source now r s, t)) ∧
      ((∀ token, ¬r.Presents token) →
        ∀ {σ : Type} (handler : Identity π → σ → Response × σ) (t : σ),
          respond v source now resolve handler r s t =
            (unauthorized, s, t))) ∧
    (∀ token c, (s.authenticate v source now token).1 = .ok c →
      ∃ p, TokenPrincipal.ofClaims c = .ok p) ∧
    (handled v source now TokenPrincipal.ofClaims r s = [] →
      ∀ {σ : Type} (handler : Identity TokenPrincipal → σ → Response × σ) (t : σ),
        (respond v source now TokenPrincipal.ofClaims handler r s t).1 = unauthorized) := by
  have hsession {token : String} (h : r.Presents token) :
      sessionAfter v source now r s = (s.authenticate v source now token).2 := by
    rw [sessionAfter, Request.bearer?_eq_some.2 h]
  have hclaims : ∀ token c, (s.authenticate v source now token).1 = .ok c →
      ∃ p, TokenPrincipal.ofClaims c = .ok p := fun token c h => ⟨_, ofClaims_of_verified h⟩
  refine ⟨fun π resolve => ?_, hclaims, ?_⟩
  · rcases handled_cases v source now resolve r s with ⟨i, hi, hone⟩ | ⟨hnone, hnil⟩
    · rw [hone]
      refine ⟨fun j => ?_, fun j hj => by rw [List.mem_singleton.1 hj], fun j hj σ handler t => ?_,
        nofun, fun htokenless => absurd hi.presented (htokenless _)⟩
      · constructor
        · intro hj
          obtain rfl := List.singleton_inj.1 hj
          exact ⟨hi.presented, hi.verified, hi.resolved⟩
        · rintro ⟨hp, hv, hr⟩
          rw [hi.unique ⟨hp, hv, hr⟩]
      · obtain rfl := List.singleton_inj.1 hj
        rw [respond_of_admitted hi, hsession hi.presented]
    · obtain ⟨e, hrefused, hrespond⟩ := respond_of_not_admitted hnone
      rw [hnil]
      refine ⟨fun j => ⟨nofun, fun ⟨hp, hv, hr⟩ => absurd ⟨hp, hv, hr⟩ (hnone j)⟩, nofun, nofun,
        fun _ => ⟨e, hrefused, hrespond⟩, fun htokenless σ handler t => ?_⟩
      have hbearer := Request.bearer?_eq_none.2 htokenless
      rw [hrespond, sessionAfter, hbearer, ← response_invalidPrincipal]
      cases hrefused with
      | tokenless => rfl
      | unverified token _ hp | unresolved token _ _ hp => exact absurd hp (htokenless token)
  · intro hnil σ handler t
    rcases handled_cases v source now TokenPrincipal.ofClaims r s with ⟨i, -, hone⟩ | ⟨hnone, -⟩
    · cases hnil.symm.trans hone
    · obtain ⟨e, hrefused, hrespond⟩ := respond_of_not_admitted hnone
      rw [hrespond, ← response_invalidPrincipal]
      cases hrefused with
      | tokenless | unverified => rfl
      | unresolved token c e _ hv he =>
        obtain ⟨p, hp⟩ := hclaims token c hv
        cases hp.symm.trans he

/-- The same request reaches the handler if the keys can be had and is turned away if they cannot;
one whose scheme is written in small letters presents no token. -/
theorem handler_runs_exactly_for_admitted_bearer :
    let key : Jwk := ⟨"OKP", "k", none, none, none, some "AA", none, none, none⟩
    let v : Verifier :=
      ⟨.ofBase "h/" ⟨"r"⟩, 0, fun _ _ _ _ => true, ⟨100, 1000, .waitForRefresh⟩⟩
    let source : KeySource := .answering 5 (.value (.ofKeys [key]))
    let token := "eyJhbGciOiJFZERTQSIsImtpZCI6ImsifQ" ++
      ".eyJpc3MiOiJoL3JlYWxtcy9yIiwic3ViIjoicyIsInR5cCI6IkJlYXJlciIsImV4cCI6OX0.AA"
    let request (text : String) : Request :=
      ⟨['/'], [("host".toList, [0xFF]), ("AUTHORIZATION".toList, bytesOf text)]⟩
    let claims : AccessClaims :=
      ⟨"h/realms/r", some "s", some "Bearer", 9, none, none, none, none, none, ""⟩
    let i : Identity TokenPrincipal := ⟨⟨"s", none, []⟩, claims, token⟩
    let greet (i : Identity TokenPrincipal) (runs : Nat) := (Response.ofText i.token, runs + 1)
    handled v source 8 TokenPrincipal.ofClaims (request ("Bearer " ++ token)) .initial = [i] ∧
      (respond v source 8 TokenPrincipal.ofClaims greet (request ("Bearer " ++ token)) .initial
        0).1 = .ofText token ∧
      (respond v .silent 8 TokenPrincipal.ofClaims greet (request ("Bearer " ++ token)) .initial
        0).1 = unauthorized ∧
      respond v source 8 TokenPrincipal.ofClaims greet (request ("bearer " ++ token)) .initial 0 =
        (unauthorized, .initial, 0) := by
  intro key v source token request claims i greet
  obtain ⟨hguard, -, -⟩ :=
    handler_runs_exactly_for_admitted v source 8 (request ("Bearer " ++ token)) .initial
  obtain ⟨hiff, -, hanswer, -, -⟩ := hguard TokenPrincipal TokenPrincipal.ofClaims
  have hone : handled v source 8 TokenPrincipal.ofClaims (request ("Bearer " ++ token)) .initial =
      [i] :=
    (hiff i).2 ⟨Request.bearer?_eq_some.1 (by decide +kernel), by decide +kernel, by decide +kernel⟩
  obtain ⟨-, -, halike⟩ :=
    handler_runs_exactly_for_admitted v .silent 8 (request ("Bearer " ++ token)) .initial
  have hnone : handled v .silent 8 TokenPrincipal.ofClaims (request ("Bearer " ++ token)) .initial =
      [] := List.eq_nil_of_length_eq_zero (by decide +kernel)
  obtain ⟨hguard, -, -⟩ :=
    handler_runs_exactly_for_admitted v source 8 (request ("bearer " ++ token)) .initial
  obtain ⟨-, -, -, -, htokenless⟩ := hguard TokenPrincipal TokenPrincipal.ofClaims
  have hbare : ∀ other, ¬(request ("bearer " ++ token)).Presents other :=
    Request.bearer?_eq_none.1 (by decide +kernel)
  have hgreeted := hanswer i hone greet 0
  exact ⟨hone, by rw [hgreeted], halike hnone greet 0, htokenless hbare greet 0⟩

end RequestGuard

end BearerAccess
