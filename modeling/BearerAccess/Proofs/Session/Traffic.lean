import BearerAccess.Proofs.Cache.Demand
import BearerAccess.Proofs.Session.Answers
import Mathlib.Data.List.Forall2
set_option autoImplicit false

namespace BearerAccess.Session

open Cache

def readable (token : String) : Bool := (decode token).isOk

theorem readable_eq_false {token : String} :
    readable token = false ↔ ∃ fault, decode token = .error fault := by
  cases h : decode token <;> simp [readable, h, Except.isOk, Except.toBool]

section Asked

variable (v : Verifier) (source : KeySource)

theorem calls_eq_map (asked : List (Decoded × Nat)) : calls v source asked =
    (waitingFor asked).map fun id => .call id v.endpoints.realm source.loader := by
  induction asked with
  | nil => rfl
  | cons t asked ih =>
    obtain ⟨d, n⟩ := t
    cases d <;> simp_all [calls, waitingFor, Except.isOk, Except.toBool]

theorem answers_congr (c : KeySetCache) {asked other : List (Decoded × Nat)}
    (h : waitingFor asked = waitingFor other) :
    answers v source c asked = answers v source c other := by
  simp only [answers, calls_eq_map, h]

end Asked

theorem waitingFor_filter (asked : List (Decoded × Nat)) :
    waitingFor (asked.filter (·.1.isOk)) = waitingFor asked := by
  rw [waitingFor, List.filterMap_filter]
  refine List.filterMap_congr fun t _ => ?_
  cases t.1.isOk <;> rfl

/-- Tokens of which the same can be read, place by place. -/
def SameReadable (tokens other : List String) : Prop :=
  List.Forall₂ (fun a b => readable a = readable b) tokens other

theorem SameReadable.waitingFor {tokens other : List String} (h : SameReadable tokens other)
    (first : Nat) : Session.waitingFor ((tokens.map decode).zipIdx first) =
      Session.waitingFor ((other.map decode).zipIdx first) := by
  induction h generalizing first with
  | nil => rfl
  | @cons a b tokens other hab _ ih =>
    have hok : (decode a).isOk = (decode b).isOk := hab
    have hrest := ih (first + 1)
    simp only [Session.waitingFor] at hrest
    simp only [Session.waitingFor, List.map_cons, List.zipIdx_cons, List.filterMap_cons, hok, hrest]

inductive Deed.Alike : Deed → Deed → Prop where
  | present (source : KeySource) (now now' : Int64) {tokens other : List String} :
      SameReadable tokens other → Alike (.present source now tokens) (.present source now' other)
  | sleep (span : Nat) : Alike (.sleep span) (.sleep span)

def heard (v : Verifier) (s : Session) : Deed → List KeySetNotice
  | .present source _ tokens => (answers v source s.cache (s.numbered tokens)).2
  | .sleep span => (s.cache.sleep v.cache span).2

theorem Deed.Alike.act {v : Verifier} {s : Session} {deed other : Deed} (h : deed.Alike other) :
    Session.act v s deed = Session.act v s other ∧ heard v s deed = heard v s other := by
  cases h with
  | sleep span => exact ⟨rfl, rfl⟩
  | present source now now' hsame =>
    have hanswers := answers_congr v source s.cache (hsame.waitingFor s.nextCall)
    have hlength := List.Forall₂.length_eq hsame
    refine ⟨?_, congrArg Prod.snd hanswers⟩
    simp only [Session.act, authenticateAll_eq, numbered, hanswers, hlength]

def heardIn (v : Verifier) (s : Session) : List Deed → List KeySetNotice
  | [] => []
  | deed :: history => heard v s deed ++ heardIn v (act v s deed) history

theorem heard_run (v : Verifier) (s : Session) (deed : Deed) :
    ∃ es : List KeySetEvent, s.cache.run v.cache es = ((act v s deed).cache, heard v s deed) := by
  cases deed with
  | present source now tokens =>
    obtain ⟨waits, _, hrun⟩ := answers_run v source s.cache (s.numbered tokens)
    exact ⟨_, hrun.symm⟩
  | sleep span => exact ⟨_, rfl⟩

theorem heardIn_run (v : Verifier) (history : List Deed) (s : Session) :
    ∃ es : List KeySetEvent,
      s.cache.run v.cache es = ((history.foldl (act v) s).cache, heardIn v s history) := by
  induction history generalizing s with
  | nil => exact ⟨[], rfl⟩
  | cons deed history ih =>
    obtain ⟨es, hes⟩ := heard_run v s deed
    obtain ⟨later, hlater⟩ := ih (act v s deed)
    refine ⟨es ++ later, ?_⟩
    rw [run_append, hes, hlater]
    rfl

theorem countP_unprompted (cfg : Settings) (c : KeySetCache) {es : List KeySetEvent}
    (h : ∀ e ∈ es, e.Unprompted) : (c.run cfg es).2.countP KeySetNotice.isFetch = 0 := by
  rw [List.countP_eq_zero]
  intro n hn hfetch
  obtain ⟨a, e, b, rfl, hstep⟩ := exists_step_of_mem cfg hn
  cases n with
  | invoked call key load? now =>
    have hm := mem_invocations.2 ⟨load?, hstep⟩
    rw [(step_move cfg _ e).invocations_eq key] at hm
    cases h e (by simp) <;> simp [demand?] at hm
  | ended | reported => cases hfetch

theorem fetches_eq (v : Verifier) (history : List Deed) (s : Session) :
    (history.foldl (act v) s).fetches =
      s.fetches + (heardIn v s history).countP KeySetNotice.isFetch := by
  induction history generalizing s with
  | nil => rfl
  | cons deed history ih =>
    have hdeed : (act v s deed).fetches =
        s.fetches + (heard v s deed).countP KeySetNotice.isFetch := by
      cases deed with
      | present source now tokens => rw [act, authenticateAll_eq]; rfl
      | sleep span =>
        have hnone := countP_unprompted v.cache s.cache (agenda_unprompted s.cache
          (Duration.ceilMillis (s.cache.now + span)))
        exact (congrArg (s.fetches + ·) hnone).symm
    rw [List.foldl_cons, ih, hdeed, heardIn, List.countP_append, Nat.add_assoc]

/-- What can happen to a verifier whose callers overlap: one comes with a token or gives up, a fetch
ends, time passes. -/
inductive Incident where
  | arrive (source : KeySource) (token : String)
  | leave (call : Nat)
  | finish (load : Nat)
  | pass (target : Nat)

def Incident.events (v : Verifier) : Incident × Nat → List KeySetEvent
  | (.arrive source token, call) => calls v source [(decode token, call)]
  | (.leave call, _) => [.cancel call]
  | (.finish load, _) => [.finish load]
  | (.pass target, _) => [.pass target]

def course (v : Verifier) (incidents : List Incident) : List KeySetEvent :=
  incidents.zipIdx.flatMap (Incident.events v)

inductive Incident.Alike : Incident → Incident → Prop where
  | arrive (source : KeySource) {token other : String} : readable token = readable other →
      Alike (.arrive source token) (.arrive source other)
  | same (incident : Incident) : Alike incident incident

theorem Incident.Alike.events {a b : Incident} (h : a.Alike b) (v : Verifier) (n : Nat) :
    Incident.events v (a, n) = Incident.events v (b, n) := by
  cases h with
  | same => rfl
  | arrive source hr =>
    have hsame : SameReadable [_] [_] := .cons hr .nil
    simp only [Incident.events, calls_eq_map]
    exact congrArg _ (hsame.waitingFor n)

theorem course_congr (v : Verifier) {incidents other : List Incident}
    (h : List.Forall₂ Incident.Alike incidents other) : course v incidents = course v other := by
  have hfrom (n : Nat) : (incidents.zipIdx n).flatMap (Incident.events v) =
      (other.zipIdx n).flatMap (Incident.events v) := by
    induction h generalizing n with
    | nil => rfl
    | cons hab _ ih => simp only [List.zipIdx_cons, List.flatMap_cons, hab.events v n, ih]
  exact hfrom 0

theorem alike_histories (v : Verifier) {history other : List Deed}
    (h : List.Forall₂ Deed.Alike history other) (s : Session) :
    history.foldl (act v) s = other.foldl (act v) s ∧
      heardIn v s history = heardIn v s other := by
  induction h generalizing s with
  | nil => exact ⟨rfl, rfl⟩
  | @cons deed deed' history other hdeed _ ih =>
    obtain ⟨hact, hheard⟩ := hdeed.act (v := v) (s := s)
    obtain ⟨hafter, hlater⟩ := ih (act v s deed')
    simp only [List.foldl_cons, heardIn, hact, hheard]
    exact ⟨hafter, by rw [hlater]⟩

theorem authenticate_unreadable (v : Verifier) (source : KeySource) (now : Int64) {token : String}
    {fault : TokenFault} (h : decode token = .error fault) (s : Session) :
    s.authenticate v source now token =
      (.error (.malformed fault), { s with nextCall := s.nextCall + 1 }) := by
  simp [authenticate, authenticateAll_eq, numbered, answers, h, calls, waitingFor, awaitAll,
    verdict, Except.isOk, Except.toBool]

/-- Two sessions that differ in the tokens presented to them and in the wall clock, where at each
place both tokens can be read or neither: after every step the caches, and with them the clocks and
key sets, are the same, and so is all that has been heard of them, the fetches with their instants
among it. The same holds where callers overlap and give up. A token that cannot be read is turned
down without a word to the cache, alone or among others. -/
theorem traffic_blind_to_contents (v : Verifier) :
    (∀ history other, List.Forall₂ Deed.Alike history other → ∀ n,
      after v (history.take n) = after v (other.take n) ∧
        heardIn v initial (history.take n) = heardIn v initial (other.take n)) ∧
    (∀ history, (∃ es : List KeySetEvent, Cache.empty.run v.cache es =
        ((after v history).cache, heardIn v initial history)) ∧
      (after v history).fetches = (heardIn v initial history).countP KeySetNotice.isFetch) ∧
    (∀ incidents other, List.Forall₂ Incident.Alike incidents other → ∀ n,
      Cache.empty.run v.cache (course v (incidents.take n)) =
        Cache.empty.run v.cache (course v (other.take n))) ∧
    (∀ source c asked,
      answers v source c asked = answers v source c (asked.filter (·.1.isOk))) ∧
    ∀ token fault, decode token = .error fault →
      (∀ s source now, authenticate v source now token s =
        (.error (.malformed fault), { s with nextCall := s.nextCall + 1 })) ∧
      ∀ source call, Incident.events v (.arrive source token, call) = [] := by
  refine ⟨?_, ?_, ?_, ?_, ?_⟩
  · exact fun history other h n => alike_histories v (List.forall₂_take n h) initial
  · intro history
    exact ⟨heardIn_run v history initial,
      (fetches_eq v history initial).trans (Nat.zero_add _)⟩
  · intro incidents other h n
    rw [course_congr v (List.forall₂_take n h)]
  · exact fun source c asked => answers_congr v source c (waitingFor_filter asked).symm
  · intro token fault h
    refine ⟨fun s source now => authenticate_unreadable v source now h s, ?_⟩
    intro source call
    simp [Incident.events, h, calls]

theorem traffic_blind_to_contents_unknown :
    let key : Jwk := ⟨"OKP", "k", none, none, none, some "AA", none, none, none⟩
    let v : Verifier :=
      ⟨.ofBase "h/" ⟨"r"⟩, 0, fun _ _ _ _ => true, ⟨100, 1000, .waitForRefresh⟩⟩
    let source : KeySource := .answering 5 (.value (.ofKeys [key]))
    let claims := ".eyJpc3MiOiJoL3JlYWxtcy9yIiwic3ViIjoicyIsInR5cCI6IkJlYXJlciIsImV4cCI6OX0.AA"
    let known := "eyJhbGciOiJFZERTQSIsImtpZCI6ImsifQ" ++ claims
    let unknown := "eyJhbGciOiJFZERTQSIsImtpZCI6InoifQ" ++ claims
    let mine := after v [.present source 8 [known], .present source 8 [""]]
    let theirs := after v [.present source 8 [unknown], .present source 9 ["x"]]
    let leaving token := Cache.empty.run v.cache (course v [.arrive source token, .leave 0])
    mine = theirs ∧ mine.fetches = 1 ∧ (mine.authenticate v source 8 known).1.isOk = true ∧
      (theirs.authenticate v source 8 unknown).1.isOk = false ∧
      leaving known = leaving unknown ∧
      (mine.authenticate v source 8 "x").2.cache = mine.cache := by
  intro key v source claims known unknown mine theirs leaving
  obtain ⟨hsame, -, hcourse, -, hfault⟩ := traffic_blind_to_contents v
  have hread : readable known = readable unknown := by decide +kernel
  have hnone : readable "" = readable "x" := by decide +kernel
  have halike : List.Forall₂ Deed.Alike
      [.present source 8 [known], .present source 8 [""]]
      [.present source 8 [unknown], .present source 9 ["x"]] :=
    .cons (.present source 8 8 (.cons hread .nil))
      (.cons (.present source 8 9 (.cons hnone .nil)) .nil)
  have hleave : List.Forall₂ Incident.Alike [.arrive source known, .leave 0]
      [.arrive source unknown, .leave 0] := .cons (.arrive source hread) (.cons (.same _) .nil)
  obtain ⟨fault, hx⟩ := readable_eq_false.1 (by decide +kernel : readable "x" = false)
  have halone := (hfault "x" fault hx).1 mine source 8
  exact ⟨(hsame _ _ halike 2).1, by decide +kernel, by decide +kernel, by decide +kernel,
    hcourse _ _ hleave 2, by rw [halone]⟩

end BearerAccess.Session
