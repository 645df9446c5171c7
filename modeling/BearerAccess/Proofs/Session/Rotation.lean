import BearerAccess.Proofs.Cache.Renewal
import BearerAccess.Proofs.Session.Verdicts
set_option autoImplicit false

namespace BearerAccess.Session

open Cache

def Publishes (realm : Realm) (set : KeySet) (since : Nat) (log : List KeySetNotice) : Prop :=
  ∀ load ∈ startsSince log realm since, ∀ ending ∈ endings log load,
    ∀ keys, ending.2.1 = .ok keys → keys = set

/-- What a call is given at an instant, with what was heard before it and what is heard from then
on. -/
structure Current (v : Verifier) (set : KeySet) (since : Nat) (past heard : List KeySetNotice)
    (t call : Nat) (keys : Except AuthError KeySet) : Prop where
  renewed : v.cache.renewedBy since < t ∨ Succeeded past v.endpoints.realm since →
    keys = .ok set ∨ ∃ e, keys = .error (.ofCacheError e)
  fresh : ∀ load ∈ startsSince past v.endpoints.realm since, ∀ other stored,
    .ended load v.endpoints.realm (.ok other) stored ∈ past → t < deadline stored v.cache.ttl →
      keys = .ok set
  awaited : ∀ x y load other stored,
    heard = x ++ .ended load v.endpoints.realm (.ok other) stored :: y →
      load ∈ startsSince (past ++ heard) v.endpoints.realm since → reports x call = [] →
        keys = .ok set

variable {v : Verifier} {set : KeySet} {since : Nat}

theorem Publishes.eq {realm : Realm} {log : List KeySetNotice} (h : Publishes realm set since log)
    {load t : Nat} {keys : KeySet} (hload : load ∈ startsSince log realm since)
    (hended : .ended load realm (.ok keys) t ∈ log) : keys = set :=
  h load hload _ (mem_endings.2 hended) keys rfl

theorem Given.eq_of_reports {call t : Nat} {log : List KeySetNotice}
    {keys : Except AuthError KeySet} {told : KeySet} (h : Given call log keys)
    (hrep : reports log call = [(.value told, t)]) : keys = .ok told := by
  cases h with
  | keys other t' h =>
    cases hrep.symm.trans h
    rfl
  | failure e t' h => cases hrep.symm.trans h

theorem current_of_call {past later : List KeySetEvent} {id : Nat} {source : KeySource}
    {keys : Except AuthError KeySet} (hb : id ∉ callers past) (hl : id ∉ callers later)
    (hc : .cancel id ∉ later) :
    let r := Cache.empty.run v.cache past
    let heard := (r.1.run v.cache (.call id v.endpoints.realm source.loader :: later)).2
    Publishes v.endpoints.realm set since (r.2 ++ heard) → Given id heard keys →
      Current v set since r.2 heard r.1.now id keys := by
  intro r heard hset hgiven
  have hpast : reports r.2 id = [] := (run_silent v.cache (s := Cache.empty) rfl hb).2
  have hwhole : (Cache.empty.run v.cache
      (past ++ .call id v.endpoints.realm source.loader :: later)).2 = r.2 ++ heard := by
    rw [run_append]
  refine ⟨fun h => ?_, ?_, ?_⟩
  · cases hgiven with
    | failure e t _ => exact .inr ⟨e, rfl⟩
    | keys told t hrep =>
      obtain ⟨load, hload, stored, hended⟩ := told_since v.cache _ hb hl hc source.loader
        (by rw [hwhole, reports_append, hpast, hrep]; rfl) h
      rw [hwhole] at hload hended
      exact .inl (by rw [hset.eq hload hended])
  · intro load hload other stored hended hfresh
    have hrep := told_fresh v.cache _ hb hl source.loader hended hfresh
    rw [hwhole, reports_append, hpast, List.nil_append] at hrep
    rw [hgiven.eq_of_reports hrep, hset.eq (by simp [hload]) (List.mem_append_left _ hended)]
  · intro x y load other stored hsplit hload hx
    have hrep := told_awaited v.cache _ hb hl hc source.loader hsplit hx
    rw [hwhole, reports_append, hpast, List.nil_append] at hrep
    have hended : .ended load v.endpoints.realm (.ok other) stored ∈ heard := by simp [hsplit]
    rw [hgiven.eq_of_reports hrep, hset.eq hload (List.mem_append_right _ hended)]

theorem Current.earlier {past more heard : List KeySetNotice} {t call : Nat}
    {keys : Except AuthError KeySet} (h : Current v set since (past ++ more) heard t call keys)
    (hquiet : ∀ load k outcome t, .ended load k outcome t ∉ more) :
    Current v set since past (more ++ heard) t call keys := by
  refine ⟨fun hrenewed => h.renewed (hrenewed.imp_right ?_), ?_, ?_⟩
  · rintro ⟨load, hload, other, stored, hended⟩
    exact ⟨load, by simp [hload], other, stored, List.mem_append_left _ hended⟩
  · intro load hload other stored hended hfresh
    exact h.fresh load (by simp [hload]) other stored (List.mem_append_left _ hended) hfresh
  · intro x y load other stored hsplit hload hx
    rw [← List.append_assoc] at hload
    rcases List.append_eq_append_iff.1 hsplit with ⟨x', rfl, hheard⟩ | ⟨y', rfl, hrest⟩
    · rw [reports_append] at hx
      exact h.awaited x' y load other stored hheard hload (List.append_eq_nil_iff.1 hx).2
    · cases y' with
      | nil => exact h.awaited [] y load other stored hrest.symm hload rfl
      | cons n y' =>
        obtain ⟨rfl, -⟩ := List.cons.inj hrest
        exact absurd (by simp) (hquiet load v.endpoints.realm (.ok other) stored)

theorem Given.of_append {call : Nat} {x y : List KeySetNotice} {keys : Except AuthError KeySet}
    (h : Given call (x ++ y) keys) (hx : reports x call = []) : Given call y keys := by
  cases h with
  | keys told t hrep => exact .keys told t (by simpa [hx] using hrep)
  | failure e t hrep => exact .failure e t (by simpa [hx] using hrep)

theorem calls_caller (v : Verifier) (source : KeySource) (asked : List (Decoded × Nat)) :
    ∀ e ∈ calls v source asked, e.caller? ≠ none := by
  intro e he
  obtain ⟨⟨d, n⟩, -, hd⟩ := List.mem_filterMap.1 he
  cases d <;> cases hd
  simp [Event.caller?]

theorem current_of_asked {past : List KeySetEvent} {source : KeySource} {a b : List (Decoded × Nat)}
    {id : Nat} (hpast : id ∉ callers past) (ha : id ∉ callers (calls v source a))
    (hb : id ∉ callers (calls v source b)) {t : UnverifiedToken AccessClaims}
    {keys : Except AuthError KeySet} :
    let r := Cache.empty.run v.cache past
    let heard := (answers v source r.1 (a ++ (.ok t, id) :: b)).2
    Publishes v.endpoints.realm set since (r.2 ++ heard) → Given id heard keys →
      Current v set since r.2 heard r.1.now id keys := by
  intro r heard hset hgiven
  obtain ⟨waits, hquiet, hrun⟩ := answers_run v source r.1 (a ++ (.ok t, id) :: b)
  have hbefore : id ∉ callers (past ++ calls v source a) := by simp [hpast, ha]
  have hlater : id ∉ callers (calls v source b ++ waits) := by
    simp [hb, callers_unprompted hquiet]
  have hcancel : .cancel id ∉ calls v source b ++ waits := by
    simp [cancel_not_mem_calls, cancel_not_mem_unprompted hquiet]
  -- the calls of the earlier tokens come first, at the same instant
  obtain ⟨hnow, hended⟩ := run_calls v.cache (calls_caller v source a) r.1
  have hearlier : Cache.empty.run v.cache (past ++ calls v source a) =
      ((r.1.run v.cache (calls v source a)).1, r.2 ++ (r.1.run v.cache (calls v source a)).2) :=
    run_append ..
  have hevents : calls v source (a ++ (.ok t, id) :: b) ++ waits = calls v source a ++
      .call id v.endpoints.realm source.loader :: (calls v source b ++ waits) := by simp
  have hheard : heard = (r.1.run v.cache (calls v source a)).2 ++
      ((r.1.run v.cache (calls v source a)).1.run v.cache
        (.call id v.endpoints.realm source.loader :: (calls v source b ++ waits))).2 := by
    simp only [heard, hrun, hevents]
    rw [run_append]
  have hnone := (run_silent v.cache (s := Cache.empty) rfl hbefore).2
  rw [hearlier, reports_append] at hnone
  rw [hheard] at hset hgiven ⊢
  have hgiven := hgiven.of_append (List.append_eq_nil_iff.1 hnone).2
  rw [← List.append_assoc] at hset
  have h : Current v set since _ _ _ id keys := current_of_call hbefore hlater hcancel
    (by rw [hearlier]; exact hset) (by rw [hearlier]; exact hgiven)
  rw [hearlier] at h
  rw [← hnow]
  exact h.earlier hended

theorem current_of_token {past : List KeySetEvent} {s : Session}
    (hs : s.cache = (Cache.empty.run v.cache past).1)
    (hnumbers : ∀ id ∈ callers past, id < s.nextCall) (source : KeySource)
    (earlier later : List String) {token : String} {t : UnverifiedToken AccessClaims}
    (ht : decode token = .ok t) :
    let call := s.nextCall + earlier.length
    let r := Cache.empty.run v.cache past
    let heard := (answers v source s.cache (s.numbered (earlier ++ token :: later))).2
    Publishes v.endpoints.realm set since (r.2 ++ heard) →
      ∃ keys, Given call heard keys ∧ Current v set since r.2 heard r.1.now call keys := by
  intro call r heard hset
  have hlived : Lived v s := ⟨past, hs.symm, hnumbers⟩
  obtain ⟨keys, hgiven⟩ := hlived.given source earlier later ht
  refine ⟨keys, hgiven, ?_⟩
  have hpast : call ∉ callers past := fun hm => by
    have hlt := hnumbers _ hm
    omega
  have hearlier : call ∉ callers (calls v source ((earlier.map decode).zipIdx s.nextCall)) := by
    simpa using not_mem_callers_earlier v source (earlier.map decode) s.nextCall
  have hlater := not_mem_callers_later v source (later.map decode) call
  simp only [heard, numbered_split, ht, hs] at hset hgiven ⊢
  exact current_of_asked hpast hearlier hlater hset hgiven

/-- The answer to a token, under the key set that its call is given. -/
structure Judged (v : Verifier) (set : KeySet) (since : Nat) (past heard : List KeySetNotice)
    (t call : Nat) (now : Int64) (token : String) (keys : Except AuthError KeySet)
    (answer : Except Rejection AccessClaims) : Prop
    extends Current v set since past heard t call keys where
  given : ∀ read, decode token = .ok read → Given call heard keys
  judged : answer = (trial v now token keys).verdict
  revoked : v.cache.renewedBy since < t ∨ Succeeded past v.endpoints.realm since →
    ∀ read, decode token = .ok read → set.find? read.header.kid = none →
      ∃ e, answer = .error (.keySet e)

theorem Current.judges {past heard : List KeySetNotice} {t call : Nat}
    {keys : Except AuthError KeySet} (h : Current v set since past heard t call keys)
    {token : String} (hgiven : ∀ read, decode token = .ok read → Given call heard keys)
    (now : Int64) :
    Judged v set since past heard t call now token keys (trial v now token keys).verdict := by
  refine ⟨h, hgiven, rfl, fun hrenewed read hread hfind => ?_⟩
  have hdecoded : (trial v now token keys).decoded = .ok read := hread
  rw [Trial.verdict, hdecoded]
  rcases h.renewed hrenewed with rfl | ⟨e, rfl⟩
  · exact ⟨.keyNotFound read.header.kid, by simp [UnverifiedToken.verdict, trial, hfind]⟩
  · exact ⟨_, rfl⟩

theorem Current.published (v : Verifier) (set : KeySet) (since : Nat)
    (past heard : List KeySetNotice) (t call : Nat) :
    Current v set since past heard t call (.ok set) :=
  ⟨fun _ => .inl rfl, fun _ _ _ _ _ _ => rfl, fun _ _ _ _ _ _ _ _ => rfl⟩

theorem verdict_of_fault (v : Verifier) (now : Int64) {token : String} {fault : TokenFault}
    (h : decode token = .error fault) (keys : Except AuthError KeySet) :
    (trial v now token keys).verdict = .error (.malformed fault) := by
  have hdecoded : (trial v now token keys).decoded = .error fault := h
  rw [Trial.verdict, hdecoded]

/-- For every session, with any past, whose fetches for its realm from some instant on fail or give
one key set: each token is judged with what its call is given, and that is this key set or nothing
from the bound on and from the first success on. The same holds of a call that comes at any time
and overlaps with any others. -/
theorem rotation_within_bound (v : Verifier) (set : KeySet) (since : Nat)
    (past : List KeySetEvent) (source : KeySource) (now : Int64) (token : String) :
    let r := Cache.empty.run v.cache past
    (∀ (s : Session) (earlier later : List String), s.cache = r.1 →
      (∀ id ∈ callers past, id < s.nextCall) →
      let call := s.nextCall + earlier.length
      let heard := (answers v source s.cache (s.numbered (earlier ++ token :: later))).2
      Publishes v.endpoints.realm set since (r.2 ++ heard) →
        ∃ keys answer,
          (s.authenticateAll v source now (earlier ++ token :: later)).1[earlier.length]? =
            some answer ∧
          Judged v set since r.2 heard r.1.now call now token keys answer) ∧
      ∀ id later keys, id ∉ callers past → id ∉ callers later → .cancel id ∉ later →
        let heard := (r.1.run v.cache (.call id v.endpoints.realm source.loader :: later)).2
        Publishes v.endpoints.realm set since (r.2 ++ heard) → Given id heard keys →
          Judged v set since r.2 heard r.1.now id now token keys
            (verdict v now heard (decode token, id)) := by
  intro r
  refine ⟨?_, ?_⟩
  · intro s earlier later hs hnumbers call heard hset
    cases hd : decode token with
    | ok read =>
      obtain ⟨keys, hgiven, hcurrent⟩ := current_of_token hs hnumbers source earlier later hd hset
      refine ⟨keys, _, ?_, hcurrent.judges (fun _ _ => hgiven) now⟩
      rw [authenticateAll_verdict, verdict_eq_trial, hgiven.keysReported_eq]
    | error fault =>
      -- a token that cannot be read asks for no key set
      have hnone (read : UnverifiedToken AccessClaims) (h : decode token = .ok read) :
          Given call heard (.ok set) := by
        cases hd.symm.trans h
      have hcurrent := Current.published v set since r.2 heard r.1.now call
      refine ⟨.ok set, _, ?_, hcurrent.judges hnone now⟩
      rw [authenticateAll_verdict, verdict_eq_trial, verdict_of_fault v now hd,
        verdict_of_fault v now hd]
  · intro id later keys hb hl hc heard hset hgiven
    have h : Current v set since r.2 heard r.1.now id keys := current_of_call hb hl hc hset hgiven
    rw [verdict_eq_trial, hgiven.keysReported_eq]
    exact h.judges (fun _ _ => hgiven) now

/-- An old key set was fetched just before it was replaced: past the bound a token under the new key
is accepted and one under the old key is turned down. -/
theorem rotation_within_bound_revoked :
    let key (kid : String) : Jwk := ⟨"OKP", kid, none, none, none, some "AA", none, none, none⟩
    let cfg : Settings := ⟨100, 1000, .waitForRefresh⟩
    let v : Verifier := ⟨.ofBase "h/" ⟨"r"⟩, 0, fun _ _ _ _ => true, cfg⟩
    let set : KeySet := .ofKeys [key "k"]
    let past : List KeySetEvent :=
      [.call 0 ⟨"r"⟩ (.finishing 0 (.value (.ofKeys [key "o"]))), .finish 0, .pass 2000000]
    let s : Session := ⟨(Cache.empty.run cfg past).1, 1, 1⟩
    let source : KeySource := .answering 5 (.value set)
    let payload := ".eyJpc3MiOiJoL3JlYWxtcy9yIiwic3ViIjoicyIsInR5cCI6IkJlYXJlciIsImV4cCI6OX0.AA"
    let renewed := "eyJhbGciOiJFZERTQSIsImtpZCI6ImsifQ" ++ payload
    let revoked := "eyJhbGciOiJFZERTQSIsImtpZCI6Im8ifQ" ++ payload
    let verdicts := (s.authenticateAll v source 8 [renewed, revoked]).1
    verdicts.map Except.isOk = [true, false] ∧ cfg.renewedBy 1 < s.cache.now ∧
      ∃ e, verdicts[1]? = some (.error (.keySet e)) := by
  intro key cfg v set past s source payload renewed revoked verdicts
  have hlate : cfg.renewedBy 1 < s.cache.now := by decide +kernel
  have hkid : (decode revoked).toOption.map (fun read => read.header.kid) = some "o" := by
    decide +kernel
  have hset : Publishes v.endpoints.realm set 1 ((Cache.empty.run v.cache past).2 ++
      (answers v source s.cache (s.numbered ([renewed] ++ revoked :: []))).2) := by
    generalize hlog : (Cache.empty.run v.cache past).2 ++ _ = log
    obtain ⟨hstarts, hendings⟩ : startsSince log v.endpoints.realm 1 = [1] ∧
        endings log 1 = [(⟨"r"⟩, .ok set, 3000000)] := by
      rw [← hlog]
      decide +kernel
    intro load hload ending hending keys hkeys
    rw [hstarts] at hload
    obtain rfl := List.mem_singleton.1 hload
    rw [hendings] at hending
    obtain rfl := List.mem_singleton.1 hending
    exact (Except.ok.inj hkeys).symm
  obtain ⟨keys, answer, hanswer, hjudged⟩ :=
    (rotation_within_bound v set 1 past source 8 revoked).1 s [renewed] [] rfl (by decide) hset
  cases hd : decode revoked with
  | error fault =>
    rw [hd] at hkid
    cases hkid
  | ok read =>
    rw [hd] at hkid
    have hread : read.header.kid = "o" := Option.some.inj hkid
    have hfind : set.find? read.header.kid = none := by
      rw [hread]
      decide +kernel
    obtain ⟨e, he⟩ := hjudged.revoked (.inl hlate) read hd hfind
    exact ⟨by decide +kernel, hlate, e, hanswer.trans (congrArg some he)⟩

end BearerAccess.Session
