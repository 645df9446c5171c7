import BearerAccess.Proofs.Session.Answers
import BearerAccess.Proofs.Token.Stages
set_option autoImplicit false

namespace BearerAccess.Session

open Cache

def trial (v : Verifier) (now : Int64) (token : String) (keys : Except AuthError KeySet) : Trial :=
  ⟨token, keys, v.endpoints.issuer, v.skew, now, v.check⟩

theorem verdict_eq_trial (v : Verifier) (now : Int64) (token : String) (call : Nat)
    (log : List KeySetNotice) :
    verdict v now log (decode token, call) = (trial v now token (keysReported call log)).verdict :=
  rfl

theorem not_mem_callers_of_fault (v : Verifier) (source : KeySource) (s : Session)
    (earlier later : List String) {token : String} {fault : TokenFault}
    (h : decode token = .error fault) :
    s.nextCall + earlier.length ∉
      callers (calls v source (s.numbered (earlier ++ token :: later))) := by
  rw [numbered_split, h, calls_append, callers_append, List.mem_append]
  rintro (hm | hm)
  · exact not_mem_callers_earlier v source (earlier.map decode) s.nextCall (by simpa using hm)
  · exact not_mem_callers_later v source _ _ hm

theorem authenticateAll_verdict (v : Verifier) (source : KeySource) (now : Int64)
    (earlier later : List String) (token : String) (s : Session) :
    (s.authenticateAll v source now (earlier ++ token :: later)).1[earlier.length]? =
      some (verdict v now (answers v source s.cache (s.numbered (earlier ++ token :: later))).2
        (decode token, s.nextCall + earlier.length)) := by
  rw [authenticateAll_eq, numbered_split]
  simp

theorem Lived.judged {v : Verifier} {s : Session} (h : Lived v s) (source : KeySource)
    (now : Int64) (earlier later : List String) (token : String) :
    let call := s.nextCall + earlier.length
    let log := (answers v source s.cache (s.numbered (earlier ++ token :: later))).2
    ∃ keys, (∀ t, decode token = .ok t → Given call log keys) ∧
      verdict v now log (decode token, call) = (trial v now token keys).verdict := by
  intro call log
  cases hd : decode token with
  | error fault =>
    have hdecoded : (trial v now token (keysReported call log)).decoded = .error fault := hd
    exact ⟨keysReported call log, by simp, by rw [Trial.verdict, hdecoded]; rfl⟩
  | ok t =>
    obtain ⟨keys, hgiven⟩ := h.given source earlier later hd
    refine ⟨keys, fun _ _ => hgiven, ?_⟩
    rw [← hd, verdict_eq_trial, hgiven.keysReported_eq]

theorem mem_calls_of_read (v : Verifier) (source : KeySource) (s : Session)
    (earlier later : List String) {token : String} {t : UnverifiedToken AccessClaims}
    (h : decode token = .ok t) :
    .call (s.nextCall + earlier.length) v.endpoints.realm source.loader ∈
      calls v source (s.numbered (earlier ++ token :: later)) := by
  rw [numbered_split, h, calls_append, calls_cons_ok]
  simp

theorem authenticate_verdict (v : Verifier) (source : KeySource) (now : Int64) (token : String)
    (s : Session) : (s.authenticate v source now token).1 =
      verdict v now (answers v source s.cache (s.numbered [token])).2 (decode token, s.nextCall) :=
  rfl

theorem authenticate_of_fault (v : Verifier) (source : KeySource) (now : Int64) (s : Session)
    {token : String} {fault : TokenFault} (h : decode token = .error fault) :
    (s.authenticate v source now token).1 = .error (.malformed fault) := by
  rw [authenticate_verdict, h]
  rfl

theorem authenticate_of_given {v : Verifier} {source : KeySource} {now : Int64} {s : Session}
    {token : String} {t : UnverifiedToken AccessClaims} {keys : Except AuthError KeySet}
    (h : decode token = .ok t)
    (hgiven : Given s.nextCall (answers v source s.cache (s.numbered [token])).2 keys) :
    (s.authenticate v source now token).1 =
      t.verdict v.check v.endpoints.issuer v.skew now keys := by
  rw [authenticate_verdict, h, verdict, hgiven.keysReported_eq]

end BearerAccess.Session
