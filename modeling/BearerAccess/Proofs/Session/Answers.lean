import BearerAccess.Proofs.Cache.Waiting
import BearerAccess.Session
/-!
Sessions with a past. Every call that tokens make is answered before their verdicts are given: once,
by a key set or by the failure of a load.
-/
set_option autoImplicit false

namespace BearerAccess.Session

open Cache

abbrev KeySetEvent := Event Realm KeySet FetchError Nat

inductive Deed where
  | present (source : KeySource) (now : Int64) (tokens : List String)
  | sleep (span : Nat)

def act (v : Verifier) (s : Session) : Deed → Session
  | .present source now tokens => (s.authenticateAll v source now tokens).2
  | .sleep span => s.sleep v span

/-- The session after all that has been done with it. -/
def after (v : Verifier) (history : List Deed) : Session := history.foldl (act v) initial

/-- The cache has a past, in which only calls occur whose numbers have been given out. -/
def Lived (v : Verifier) (s : Session) : Prop :=
  ∃ past : List KeySetEvent, (Cache.empty.run v.cache past).1 = s.cache ∧
    ∀ id ∈ callers past, id < s.nextCall

inductive Given (call : Nat) (log : List KeySetNotice) : Except AuthError KeySet → Prop where
  | keys (set : KeySet) (t : Nat) : reports log call = [(.value set, t)] → Given call log (.ok set)
  | failure (e : CacheError FetchError) (t : Nat) : reports log call = [(.failure e, t)] →
      Given call log (.error (.ofCacheError e))

def keysTold : Report KeySet FetchError → Except AuthError KeySet
  | .value keys => .ok keys
  | .failure e => .error (.ofCacheError e)
  | .callerPanic => .error (.loadFailure "")

theorem keysReported_of_reports {call t : Nat} {report : Report KeySet FetchError}
    {log : List KeySetNotice} (h : reports log call = [(report, t)]) :
    keysReported call log = keysTold report := by
  induction log with
  | nil => cases h
  | cons n log ih =>
    rw [reports_cons] at h
    cases n with
    | invoked => exact ih h
    | ended => exact ih h
    | reported c r now =>
      by_cases hc : c = call
      · obtain ⟨⟨rfl, -⟩, -⟩ : (r = report ∧ now = t) ∧ reports log call = [] := by
          simpa [Notice.reportOf?, hc] using h
        cases r <;> simp [keysReported, keysTold, hc]
      · simp only [keysReported, if_neg hc]
        exact ih (by simpa [Notice.reportOf?, hc] using h)

theorem Given.keysReported_eq {call : Nat} {log : List KeySetNotice}
    {keys : Except AuthError KeySet} (h : Given call log keys) : keysReported call log = keys := by
  cases h with
  | keys set t h => exact keysReported_of_reports h
  | failure e t h => exact keysReported_of_reports h

def waitingFor (asked : List (Decoded × Nat)) : List Nat :=
  asked.filterMap fun t => if t.1.isOk then some t.2 else none

section Asked

variable (v : Verifier) (source : KeySource)

@[simp] theorem calls_append (a b : List (Decoded × Nat)) :
    calls v source (a ++ b) = calls v source a ++ calls v source b := List.filterMap_append

@[simp] theorem calls_cons_ok (t : UnverifiedToken AccessClaims) (id : Nat)
    (asked : List (Decoded × Nat)) : calls v source ((.ok t, id) :: asked) =
      .call id v.endpoints.realm source.loader :: calls v source asked := rfl

theorem callers_calls (asked : List (Decoded × Nat)) :
    callers (calls v source asked) = waitingFor asked := by
  induction asked with
  | nil => rfl
  | cons t asked ih =>
    obtain ⟨d, n⟩ := t
    cases d <;> simp_all [calls, waitingFor, Except.isOk, Except.toBool]

theorem cancel_not_mem_calls (asked : List (Decoded × Nat)) (id : Nat) :
    .cancel id ∉ calls v source asked := by
  intro h
  obtain ⟨⟨d, n⟩, _, hd⟩ := List.mem_filterMap.1 h
  cases d <;> cases hd

theorem mem_callers_calls {tokens : List Decoded} {first id : Nat}
    (h : id ∈ callers (calls v source (tokens.zipIdx first))) :
    first ≤ id ∧ id < first + tokens.length := by
  rw [callers_calls] at h
  obtain ⟨t, ht, hid⟩ := List.mem_filterMap.1 h
  obtain rfl : t.2 = id := by
    split at hid
    · exact Option.some.inj hid
    · cases hid
  exact ⟨List.le_snd_of_mem_zipIdx ht, by simpa [Nat.add_comm] using List.snd_lt_of_mem_zipIdx ht⟩

theorem not_mem_callers_earlier (tokens : List Decoded) (first : Nat) :
    first + tokens.length ∉ callers (calls v source (tokens.zipIdx first)) := fun h =>
  Nat.lt_irrefl _ (mem_callers_calls v source h).2

theorem not_mem_callers_later (tokens : List Decoded) (id : Nat) :
    id ∉ callers (calls v source (tokens.zipIdx (id + 1))) := fun h =>
  Nat.lt_irrefl _ (mem_callers_calls v source h).1

end Asked

theorem awaitAll_run (v : Verifier) (c : KeySetCache) (ids : List Nat) :
    ∃ waits : List KeySetEvent, (∀ e ∈ waits, e.Unprompted) ∧
      awaitAll v c ids = c.run v.cache waits := by
  induction ids generalizing c with
  | nil => exact ⟨[], by simp, rfl⟩
  | cons id ids ih =>
    obtain ⟨waits, hw, hrun⟩ := ih (c.await v.cache id).1
    refine ⟨c.agenda ((c.awaited? id).getD c.now) ++ waits, ?_, ?_⟩
    · intro e he
      rcases List.mem_append.1 he with he | he
      · exact agenda_unprompted c _ e he
      · exact hw e he
    · simp only [awaitAll, hrun, run_append]
      rfl

theorem awaitAll_answers (v : Verifier) {c : KeySetCache} {log : List KeySetNotice} {id : Nat}
    {key : Realm} {load : Nat} (h : Hearing id key load c log) (hs : Sound c) {ids : List Nat}
    (hid : id ∈ ids) : (awaitAll v c ids).1.waitersOf id = [] := by
  induction ids generalizing c log with
  | nil => cases hid
  | cons first ids ih =>
    change (awaitAll v (c.await v.cache first).1 ids).1.waitersOf id = []
    have hquiet := agenda_unprompted c ((c.awaited? first).getD c.now)
    rcases List.mem_cons.1 hid with rfl | hid
    · obtain ⟨waits, hw, hrun⟩ := awaitAll_run v (c.await v.cache id).1 ids
      rw [hrun]
      exact (run_silent v.cache (h.await hs v.cache) (by simp [callers_unprompted hw])).1
    · have hlater := h.run v.cache hs (by simp [callers_unprompted hquiet])
        (cancel_not_mem_unprompted hquiet id)
      exact ih hlater (hs.run v.cache _) hid

/-- What a batch does to the cache: its tokens call, and all of them wait for their answers. -/
def answers (v : Verifier) (source : KeySource) (c : KeySetCache) (asked : List (Decoded × Nat)) :
    KeySetCache × List KeySetNotice :=
  let called := c.run v.cache (calls v source asked)
  let waited := awaitAll v called.1 (waitingFor asked)
  (waited.1, called.2 ++ waited.2)

theorem answers_run (v : Verifier) (source : KeySource) (c : KeySetCache)
    (asked : List (Decoded × Nat)) :
    ∃ waits : List KeySetEvent, (∀ e ∈ waits, e.Unprompted) ∧
      answers v source c asked = c.run v.cache (calls v source asked ++ waits) := by
  obtain ⟨waits, hquiet, hrun⟩ :=
    awaitAll_run v (c.run v.cache (calls v source asked)).1 (waitingFor asked)
  exact ⟨waits, hquiet, by rw [run_append, answers, hrun]⟩

theorem authenticateAll_eq (v : Verifier) (source : KeySource) (now : Int64) (tokens : List String)
    (s : Session) :
    let r := answers v source s.cache (s.numbered tokens)
    s.authenticateAll v source now tokens =
      ((s.numbered tokens).map (verdict v now r.2),
        ⟨r.1, s.nextCall + tokens.length, s.fetches + r.2.countP KeySetNotice.isFetch⟩) := rfl

theorem given_of_awaited (v : Verifier) {c : KeySetCache} {past log : List KeySetNotice} {id : Nat}
    {ids : List Nat} (hs : Sound c) (hpast : reports past id = []) (hid : id ∈ ids)
    (h : (∃ set t, reports (past ++ log) id = [(.value set, t)] ∧ c.waitersOf id = []) ∨
      ∃ key load, Hearing id key load c (past ++ log)) :
    ∃ keys, Given id (log ++ (awaitAll v c ids).2) keys := by
  obtain ⟨waits, hquiet, hrun⟩ := awaitAll_run v c ids
  have hcallers : id ∉ callers waits := by simp [callers_unprompted hquiet]
  rcases h with ⟨set, t, hrep, hgone⟩ | ⟨key, load, hh⟩
  · obtain ⟨-, hmore⟩ := run_silent v.cache hgone hcallers
    refine ⟨.ok set, .keys set t ?_⟩
    rw [hrun, reports_append, hmore, List.append_nil]
    simpa [hpast] using hrep
  · have hgone := awaitAll_answers v hh hs hid
    have hlater := hh.run v.cache hs hcallers (cancel_not_mem_unprompted hquiet id)
    rw [← hrun] at hlater
    cases hlater with
    | waits _ _ _ _ hw _ _ => exact absurd (hw.symm.trans hgone) (by simp)
    | told outcome now _ _ _ _ hrep =>
      have hrep' : reports (log ++ (awaitAll v c ids).2) id = [(.ofOutcome outcome, now)] := by
        simpa [hpast] using hrep
      cases outcome with
      | ok set => exact ⟨.ok set, .keys set now hrep'⟩
      | error e => exact ⟨_, .failure e now hrep'⟩

theorem given_of_call (v : Verifier) (source : KeySource) {past : List KeySetEvent}
    {a b : List (Decoded × Nat)} {id : Nat} (hpast : id ∉ callers past)
    (ha : id ∉ callers (calls v source a)) (hb : id ∉ callers (calls v source b))
    (t : UnverifiedToken AccessClaims) :
    ∃ keys, Given id
      (answers v source (Cache.empty.run v.cache past).1 (a ++ (.ok t, id) :: b)).2 keys := by
  have hbefore : id ∉ callers (past ++ calls v source a) := by simp [hpast, ha]
  have hsplit : (past ++ calls v source a) ++
      .call id v.endpoints.realm source.loader :: calls v source b =
        past ++ calls v source (a ++ (.ok t, id) :: b) := by simp
  have hanswer := call_answered v.cache hbefore hb (cancel_not_mem_calls v source b id)
    v.endpoints.realm source.loader
  simp only [hsplit, run_append v.cache _ past] at hanswer
  refine given_of_awaited v ((run_coherent v.cache past).1.run v.cache _)
    (run_silent v.cache (s := Cache.empty) rfl hpast).2
    (List.mem_filterMap.2 ⟨(.ok t, id), by simp, rfl⟩) ?_
  rcases hanswer with ⟨set, _, _, _, hrep, hgone⟩ | ⟨load, _, _, _, hh⟩ | ⟨hcrash, _⟩
  · exact .inl ⟨set, _, hrep, hgone⟩
  · exact .inr ⟨_, load, hh⟩
  · cases source <;> cases hcrash

theorem numbered_split (s : Session) (earlier later : List String) (token : String) :
    s.numbered (earlier ++ token :: later) =
      (earlier.map decode).zipIdx s.nextCall ++ (decode token, s.nextCall + earlier.length) ::
        (later.map decode).zipIdx (s.nextCall + earlier.length + 1) := by
  simp [numbered, List.zipIdx_append]

theorem Lived.given {v : Verifier} {s : Session} (h : Lived v s) (source : KeySource)
    (earlier later : List String) {token : String} {t : UnverifiedToken AccessClaims}
    (ht : decode token = .ok t) :
    ∃ keys, Given (s.nextCall + earlier.length)
      (answers v source s.cache (s.numbered (earlier ++ token :: later))).2 keys := by
  obtain ⟨past, hpast, hnumbers⟩ := h
  rw [numbered_split, ht, ← hpast]
  refine given_of_call v source ?_ ?_ (not_mem_callers_later v source _ _) t
  · intro hm
    have hlt := hnumbers _ hm
    omega
  · simpa using not_mem_callers_earlier v source (earlier.map decode) s.nextCall

theorem lived_initial (v : Verifier) : Lived v initial := ⟨[], rfl, by simp⟩

theorem Lived.run {v : Verifier} {s s' : Session} (h : Lived v s) {es : List KeySetEvent}
    (hrun : (s.cache.run v.cache es).1 = s'.cache) (hnext : s.nextCall ≤ s'.nextCall)
    (hnumbers : ∀ id ∈ callers es, id < s'.nextCall) : Lived v s' := by
  obtain ⟨past, hpast, hold⟩ := h
  refine ⟨past ++ es, ?_, ?_⟩
  · rw [run_append, hpast]
    exact hrun
  · intro id hid
    rw [callers_append] at hid
    rcases List.mem_append.1 hid with hid | hid
    · exact Nat.lt_of_lt_of_le (hold id hid) hnext
    · exact hnumbers id hid

theorem Lived.authenticateAll {v : Verifier} {s : Session} (h : Lived v s) (source : KeySource)
    (now : Int64) (tokens : List String) : Lived v (s.authenticateAll v source now tokens).2 := by
  rw [authenticateAll_eq]
  obtain ⟨waits, hquiet, hrun⟩ := answers_run v source s.cache (s.numbered tokens)
  refine h.run (congrArg Prod.fst hrun.symm) (Nat.le_add_right _ _) ?_
  intro id hid
  rw [callers_append, callers_unprompted hquiet, List.append_nil] at hid
  simpa using (mem_callers_calls v source hid).2

theorem Lived.sleep {v : Verifier} {s : Session} (h : Lived v s) (span : Nat) :
    Lived v (s.sleep v span) := by
  refine h.run rfl (Nat.le_refl _) ?_
  simp [callers_unprompted (agenda_unprompted s.cache _)]

theorem lived_after (v : Verifier) (history : List Deed) : Lived v (after v history) := by
  induction history using List.reverseRecOn with
  | nil => exact lived_initial v
  | append_singleton history deed ih =>
    rw [after, List.foldl_append]
    cases deed with
    | present source now tokens => exact ih.authenticateAll source now tokens
    | sleep span => exact ih.sleep span

end BearerAccess.Session
