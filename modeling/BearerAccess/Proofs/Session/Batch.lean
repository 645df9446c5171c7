import BearerAccess.Proofs.Cache.Together
import BearerAccess.Proofs.Session.Traffic
import BearerAccess.Proofs.Session.Verdicts
import Mathlib.Data.List.FinRange
set_option autoImplicit false

namespace BearerAccess.Session

open Cache

variable {v : Verifier} {s : Session}

theorem loader_ne_crash (source : KeySource) : source.loader ≠ .crash := by
  cases source <;> exact nofun

/-- The outcome that a call makes of what it has been told. -/
def keysHeard : List (Report KeySet FetchError × Nat) → Except AuthError KeySet
  | [] => .error (.loadFailure "")
  | (report, _) :: _ => keysTold report

theorem Given.eq_keysHeard {call : Nat} {log : List KeySetNotice} {keys : Except AuthError KeySet}
    (h : Given call log keys) : keys = keysHeard (reports log call) := by
  cases h with
  | keys set t hrep => rw [hrep]; rfl
  | failure e t hrep => rw [hrep]; rfl

section Asked

variable {tokens : List String}

theorem waitingFor_eq (asked : List (Decoded × Nat)) :
    waitingFor asked = (asked.filter (·.1.isOk)).map (·.2) := by
  induction asked with
  | nil => rfl
  | cons t asked ih =>
    simp only [waitingFor] at ih
    cases hok : t.1.isOk <;> simp [waitingFor, hok, ih]

theorem waitingFor_nodup (s : Session) (tokens : List String) :
    (waitingFor (s.numbered tokens)).Nodup := by
  rw [waitingFor_eq]
  refine (List.filter_sublist.map _).nodup ?_
  rw [numbered, List.zipIdx_map_snd]
  exact List.nodup_range'

theorem length_waitingFor (s : Session) (tokens : List String) :
    (waitingFor (s.numbered tokens)).length = tokens.countP readable := by
  have hfst : (s.numbered tokens).map (·.1) = tokens.map decode := List.zipIdx_map_fst ..
  have hread : tokens.countP readable = (tokens.map decode).countP (·.isOk) := by
    rw [List.countP_map]
    rfl
  rw [waitingFor_eq, List.length_map, ← List.countP_eq_length_filter, hread, ← hfst,
    List.countP_map]
  rfl

theorem waitingFor_eq_nil : waitingFor (s.numbered tokens) = [] ↔
    ∀ token ∈ tokens, readable token = false := by
  rw [← List.length_eq_zero_iff, length_waitingFor, List.countP_eq_zero]
  simp

theorem exists_split {i : Nat} {token : String} (h : tokens[i]? = some token) :
    ∃ earlier later, tokens = earlier ++ token :: later ∧ i = earlier.length := by
  obtain ⟨hi, rfl⟩ := List.getElem?_eq_some_iff.1 h
  refine ⟨tokens.take i, tokens.drop (i + 1), ?_, ?_⟩
  · rw [← List.drop_eq_getElem_cons hi, List.take_append_drop]
  · rw [List.length_take, Nat.min_eq_left (Nat.le_of_lt hi)]

theorem mem_waitingFor (s : Session) {i : Nat} {token : String} {t : UnverifiedToken AccessClaims}
    (h : tokens[i]? = some token) (ht : decode token = .ok t) :
    s.nextCall + i ∈ waitingFor (s.numbered tokens) := by
  obtain ⟨earlier, later, rfl, rfl⟩ := exists_split h
  rw [numbered_split, ht]
  exact List.mem_filterMap.2 ⟨(.ok t, s.nextCall + earlier.length), by simp, rfl⟩

end Asked

theorem awaitAll_rested (v : Verifier) {c : KeySetCache} (h : ∀ l ∈ c.running, c.now < l.due)
    {ids : List Nat} (hids : ∀ id ∈ ids, c.waitersOf id = []) : awaitAll v c ids = (c, []) := by
  induction ids with
  | nil => rfl
  | cons id ids ih =>
    have hfirst : c.await v.cache id = (c, []) := by
      rw [await, awaited?_eq_none (hids id (.head _))]
      exact runUntil_rested v.cache h
    simp [awaitAll, hfirst, ih fun id hid => hids id (.tail _ hid)]

/-- The fetches that a batch starts if some token of it can be read. -/
def fetchesNeeded (v : Verifier) (s : Session) : Nat :=
  if (s.cache.slots v.endpoints.realm).needsLoad s.cache.now then 1 else 0

theorem fetchesNeeded_le (v : Verifier) (s : Session) : fetchesNeeded v s ≤ 1 := by
  unfold fetchesNeeded
  split <;> decide

theorem fetchesNeeded_of_fresh {set : KeySet}
    (h : (s.cache.slots v.endpoints.realm).fresh? s.cache.now = some set) :
    fetchesNeeded v s = 0 := by
  refine if_neg fun hneeded => ?_
  cases h.symm.trans (Slot.needsLoad_iff.1 hneeded).1

theorem countP_opening (v : Verifier) (s : Session) (id : Nat) :
    (s.cache.opening v.endpoints.realm id).countP KeySetNotice.isFetch = fetchesNeeded v s := by
  unfold opening fetchesNeeded
  split <;> rfl

theorem isFetch_of_reported {n : KeySetNotice} (h : ∃ id report t, n = .reported id report t) :
    n.isFetch = false := by
  obtain ⟨_, _, _, rfl⟩ := h
  rfl

/-- What a batch does that asks for the key set: whatever its tokens, it leaves one cache behind,
every call is told the same, and a fetch is started if one is needed. -/
theorem Lived.asked (h : Lived v s) (source : KeySource) :
    ∃ (final : KeySetCache) (heard : List (Report KeySet FetchError × Nat)),
      ∀ tokens, waitingFor (s.numbered tokens) ≠ [] →
        let r := answers v source s.cache (s.numbered tokens)
        r.1 = final ∧ (∀ id ∈ waitingFor (s.numbered tokens), reports r.2 id = heard) ∧
          r.2.countP KeySetNotice.isFetch = fetchesNeeded v s := by
  obtain ⟨past, hpast, hnumbers⟩ := h
  have hs : Sound s.cache := hpast ▸ (run_coherent v.cache past).1
  have hahead : ∀ l ∈ s.cache.running, s.cache.now ≤ l.due := hpast ▸ run_ahead v.cache past
  obtain ⟨final, heard, hrested, hnone, htogether⟩ :=
    hs.together v.cache hahead v.endpoints.realm (loader_ne_crash source)
  refine ⟨final, heard, fun tokens hne => ?_⟩
  have hnodup := waitingFor_nodup s tokens
  have hnew : ∀ id ∈ waitingFor (s.numbered tokens), s.cache.waitersOf id = [] := by
    intro id hid
    rw [← callers_calls v source] at hid
    have hle := (mem_callers_calls v source hid).1
    rw [← hpast]
    exact (run_silent v.cache rfl fun hm => Nat.not_lt.2 hle (hnumbers id hm)).1
  rw [answers, calls_eq_map]
  generalize waitingFor (s.numbered tokens) = ids at *
  cases ids with
  | nil => exact absurd rfl hne
  | cons first rest =>
    obtain ⟨asked, served, hserved, hrun, hfinal, htold⟩ := htogether first rest hnodup hnew
    have hawait : awaitAll v asked (first :: rest) = asked.await v.cache first := by
      have hrest : awaitAll v (asked.await v.cache first).1 rest =
          ((asked.await v.cache first).1, []) := by
        rw [hfinal]
        exact awaitAll_rested v hrested fun id hid => hnone id (hnew id (.tail _ hid))
      simp [awaitAll, hrest]
    rw [asking] at hrun
    simp only [hrun, hawait]
    refine ⟨hfinal, htold, ?_⟩
    have hquiet : served.countP KeySetNotice.isFetch = 0 :=
      List.countP_eq_zero.2 fun n hn => by simp [isFetch_of_reported (hserved n hn)]
    have hlater : (asked.await v.cache first).2.countP KeySetNotice.isFetch = 0 :=
      countP_unprompted v.cache asked (agenda_unprompted asked _)
    rw [List.countP_append, List.countP_append, hquiet, hlater, countP_opening,
      Nat.add_zero]

theorem answers_of_none {asked : List (Decoded × Nat)} (h : waitingFor asked = [])
    (v : Verifier) (source : KeySource) (c : KeySetCache) : answers v source c asked = (c, []) := by
  simp [answers, calls_eq_map, h, awaitAll]

theorem Lived.snapshot (h : Lived v s) (source : KeySource) :
    ∃ (final : KeySetCache) (keys : Except AuthError KeySet), ∀ now tokens,
      (s.authenticateAll v source now tokens).2 =
        (if ∀ token ∈ tokens, readable token = false then
          ⟨s.cache, s.nextCall + tokens.length, s.fetches⟩
        else ⟨final, s.nextCall + tokens.length, s.fetches + fetchesNeeded v s⟩) ∧
      ∀ i token t, tokens[i]? = some token → decode token = .ok t →
        Given (s.nextCall + i) (answers v source s.cache (s.numbered tokens)).2 keys := by
  obtain ⟨final, heard, hasked⟩ := h.asked source
  refine ⟨final, keysHeard heard, fun now tokens => ⟨?_, ?_⟩⟩
  · rw [authenticateAll_eq]
    split
    · rename_i hnone
      rw [answers_of_none (waitingFor_eq_nil.2 hnone)]
      rfl
    · rename_i hsome
      obtain ⟨hfinal, -, hfetches⟩ := hasked tokens (mt waitingFor_eq_nil.1 hsome)
      rw [hfinal, hfetches]
  · intro i token t hi ht
    have hmem := mem_waitingFor s hi ht
    obtain ⟨-, htold, -⟩ := hasked tokens (List.ne_nil_of_mem hmem)
    obtain ⟨earlier, later, rfl, rfl⟩ := exists_split hi
    obtain ⟨keys, hgiven⟩ := h.given source earlier later ht
    rw [← htold _ hmem, ← hgiven.eq_keysHeard]
    exact hgiven

theorem verdicts_eq_map {keys : Except AuthError KeySet} {log : List KeySetNotice}
    {tokens : List String} (s : Session) (now : Int64)
    (hgiven : ∀ i token t, tokens[i]? = some token → decode token = .ok t →
      Given (s.nextCall + i) log keys) :
    (s.numbered tokens).map (verdict v now log) =
      tokens.map fun token => (trial v now token keys).verdict := by
  refine List.ext_getElem? fun i => ?_
  cases hi : tokens[i]? with
  | none => simp [numbered, hi]
  | some token =>
    have hnumbered : (s.numbered tokens)[i]? = some (decode token, s.nextCall + i) := by
      simp [numbered, List.getElem?_zipIdx, hi]
    rw [List.getElem?_map, List.getElem?_map, hi, hnumbered]
    cases hd : decode token with
    | error fault =>
      have hdecoded : (trial v now token keys).decoded = .error fault := hd
      simp [verdict, Trial.verdict, hdecoded]
    | ok t =>
      rw [← hd]
      simp [verdict_eq_trial, (hgiven i token t hi hd).keysReported_eq]

/-- For every session with any past, and every source of key sets, there is one outcome of asking
for the key set by which all tokens that are presented together are judged, whatever they are, at
the second of the wall clock at which they are presented. Each call of a token that can be read is
given this outcome; each answer is the verdict on its token alone, and a token that cannot be read
is turned down for that. At most one fetch is started, and none if no token can be read or a fresh
key set is there. The same tokens in another order are given the same answers in that order, and
leave the same session. -/
theorem judged_on_one_snapshot {v : Verifier} {s : Session} (h : Lived v s) (source : KeySource) :
    ∃ keys : Except AuthError KeySet, ∀ (now : Int64) (tokens : List String),
      let r := s.authenticateAll v source now tokens
      (∃ waits log, (∀ e ∈ waits, e.Unprompted) ∧
        s.cache.run v.cache (calls v source (s.numbered tokens) ++ waits) = (r.2.cache, log) ∧
        ∀ i token t, tokens[i]? = some token → decode token = .ok t →
          Given (s.nextCall + i) log keys) ∧
      r.1 = tokens.map (fun token => (trial v now token keys).verdict) ∧
      (∀ (i : Nat) token fault, tokens[i]? = some token → decode token = .error fault →
        r.1[i]? = some (.error (.malformed fault))) ∧
      (∃ started, r.2.fetches = s.fetches + started ∧ started ≤ 1 ∧
        ((∀ token ∈ tokens, readable token = false) ∨
          (∃ set, (s.cache.slots v.endpoints.realm).fresh? s.cache.now = some set) →
            started = 0)) ∧
      ∀ order : Equiv.Perm (Fin tokens.length),
        let other := s.authenticateAll v source now (List.ofFn fun i => tokens.get (order i))
        other.2 = r.2 ∧ ∀ i : Fin tokens.length, other.1[i.val]? = r.1[(order i).val]? := by
  obtain ⟨final, keys, hsnapshot⟩ := h.snapshot source
  have hanswers (now : Int64) (tokens : List String) :
      (s.authenticateAll v source now tokens).1 =
        tokens.map fun token => (trial v now token keys).verdict :=
    verdicts_eq_map s now (hsnapshot now tokens).2
  refine ⟨keys, fun now tokens => ⟨?_, hanswers now tokens, ?_, ?_, ?_⟩⟩
  · obtain ⟨waits, hquiet, hrun⟩ := answers_run v source s.cache (s.numbered tokens)
    exact ⟨waits, _, hquiet, hrun.symm, (hsnapshot now tokens).2⟩
  · intro i token fault hi hfault
    have hdecoded : (trial v now token keys).decoded = .error fault := hfault
    simp [hanswers, hi, Trial.verdict, hdecoded]
  · rw [(hsnapshot now tokens).1]
    split
    · exact ⟨0, rfl, Nat.zero_le _, fun _ => rfl⟩
    · rename_i hsome
      refine ⟨fetchesNeeded v s, rfl, fetchesNeeded_le v s, fun hnone => ?_⟩
      obtain ⟨set, hfresh⟩ := hnone.resolve_left hsome
      exact fetchesNeeded_of_fresh hfresh
  · intro order
    have hperm : (List.ofFn fun i => tokens.get (order i)).Perm tokens := by
      have h := order.ofFn_comp_perm tokens.get
      rwa [List.ofFn_get] at h
    refine ⟨?_, fun i => by simp [hanswers]⟩
    rw [(hsnapshot now tokens).1, (hsnapshot now _).1]
    simp only [hperm.mem_iff, hperm.length_eq]

/-- A key set that is out of date is served to three tokens, of which one cannot be read and one
names an unknown key, while one fetch starts; in another order they have the same answers. -/
theorem judged_on_one_snapshot_stale :
    let key : Jwk := ⟨"OKP", "k", none, none, none, some "AA", none, none, none⟩
    let v : Verifier := ⟨.ofBase "h/" ⟨"r"⟩, 0, fun _ _ _ _ => true,
      ⟨100, Duration.seconds 10, .staleWhileRevalidate⟩⟩
    let published : KeySource := .answering 0 (.value (.ofKeys [key]))
    let withdrawn : KeySource := .answering 0 (.value (.ofKeys []))
    let claims := ".eyJpc3MiOiJoL3JlYWxtcy9yIiwic3ViIjoicyIsInR5cCI6IkJlYXJlciIsImV4cCI6OX0.AA"
    let known := "eyJhbGciOiJFZERTQSIsImtpZCI6ImsifQ" ++ claims
    let unknown := "eyJhbGciOiJFZERTQSIsImtpZCI6InoifQ" ++ claims
    let s := after v [.present published 8 [known], .sleep 1]
    let r := s.authenticateAll v withdrawn 8 [known, "x", unknown]
    let other := s.authenticateAll v withdrawn 8 ["x", known, unknown]
    Lived v s ∧ r.1.map (·.isOk) = [true, false, false] ∧
      other.1.map (·.isOk) = [false, true, false] ∧ other.2 = r.2 ∧
      s.fetches = 1 ∧ r.2.fetches = 2 ∧ (r.2.authenticate v withdrawn 8 known).1.isOk = false := by
  intro key v published withdrawn claims known unknown s r other
  have hlived : Lived v s := lived_after v _
  obtain ⟨keys, hbatch⟩ := judged_on_one_snapshot hlived withdrawn
  obtain ⟨-, -, -, -, horder⟩ := hbatch 8 [known, "x", unknown]
  have hswapped (a b c : String) :
      (List.ofFn fun i => [a, b, c].get (Equiv.swap 0 1 i)) = [b, a, c] := rfl
  have hother : other.2 = r.2 := by
    have h := (horder (Equiv.swap 0 1)).1
    rwa [hswapped] at h
  exact ⟨hlived, by decide +kernel, by decide +kernel, hother, by decide +kernel,
    by decide +kernel, by decide +kernel⟩

end BearerAccess.Session
