import BearerAccess.Proofs.Decision.Identified
import BearerAccess.Proofs.Decision.Outcome
set_option autoImplicit false

namespace BearerAccess.Gate

structure Question where
  token : String
  permissions : PermissionSet
  deriving DecidableEq

inductive Call where
  | check (q : Question)
  | require (q : Question)
  deriving DecidableEq

def Call.question : Call → Question
  | .check q => q
  | .require q => q

inductive Answer where
  | granted (yes : Bool)
  | required (result : Except AuthError Unit)
  deriving DecidableEq

section Run

variable {σ ε : Type} (decide : Decider σ ε)

def answer (s : σ) : Call → Answer × σ
  | .check q =>
    let (yes, s) := isGranted decide q.token q.permissions s
    (.granted yes, s)
  | .require q =>
    let (result, s) := requireGranted decide q.token q.permissions s
    (.required result, s)

def run (s : σ) : List Call → List Answer × σ
  | [] => ([], s)
  | c :: calls =>
    let (first, s) := answer decide s c
    let (rest, s) := run s calls
    (first :: rest, s)

def consult (s : σ) : List Question → List (Except ε Bool) × σ
  | [] => ([], s)
  | q :: qs =>
    let (outcome, s) := decide q.token q.permissions s
    let (rest, s) := consult s qs
    (outcome :: rest, s)

def overheard : Decider (σ × List Question) ε := fun token permissions s =>
  let (outcome, next) := decide token permissions s.1
  (outcome, next, s.2 ++ [⟨token, permissions⟩])

end Run

/-- The answer to a call that an outcome calls for: only a yes grants, and a refusal names the whole
set that was asked for. -/
inductive Answers {ε : Type} (outcome : Except ε Bool) : Call → Answer → Prop where
  | granted (q : Question) : outcome = .ok true → Answers outcome (.check q) (.granted true)
  | denied (q : Question) : outcome ≠ .ok true → Answers outcome (.check q) (.granted false)
  | passed (q : Question) : outcome = .ok true → Answers outcome (.require q) (.required (.ok ()))
  | refused (q : Question) : outcome ≠ .ok true →
      Answers outcome (.require q) (.required (.error (.permissionDenied q.permissions)))

variable {σ ε : Type}

theorem isYes_iff {outcome : Except ε Bool} : isYes outcome = true ↔ outcome = .ok true := by
  cases outcome <;> simp [isYes]

theorem answer_spec (decide : Decider σ ε) (s : σ) (c : Call) :
    let r := decide c.question.token c.question.permissions s
    (answer decide s c).2 = r.2 ∧ Answers r.1 c (answer decide s c).1 := by
  cases c with
  | check q =>
    refine ⟨rfl, ?_⟩
    change Answers (decide q.token q.permissions s).1 (.check q)
      (.granted (isYes (decide q.token q.permissions s).1))
    cases h : isYes (decide q.token q.permissions s).1 with
    | true => exact .granted q (isYes_iff.1 h)
    | false => exact .denied q fun hyes => by simp [isYes_iff.2 hyes] at h
  | require q =>
    refine ⟨rfl, ?_⟩
    change Answers (decide q.token q.permissions s).1 (.require q)
      (.required (if isYes (decide q.token q.permissions s).1 then .ok ()
        else .error (.permissionDenied q.permissions)))
    cases h : isYes (decide q.token q.permissions s).1 with
    | true => exact .passed q (isYes_iff.1 h)
    | false => exact .refused q fun hyes => by simp [isYes_iff.2 hyes] at h

theorem run_cons (decide : Decider σ ε) (s : σ) (c : Call) (calls : List Call) :
    run decide s (c :: calls) =
      ((answer decide s c).1 :: (run decide (answer decide s c).2 calls).1,
        (run decide (answer decide s c).2 calls).2) := rfl

theorem consult_cons (decide : Decider σ ε) (s : σ) (q : Question) (qs : List Question) :
    consult decide s (q :: qs) =
      ((decide q.token q.permissions s).1 ::
          (consult decide (decide q.token q.permissions s).2 qs).1,
        (consult decide (decide q.token q.permissions s).2 qs).2) := rfl

theorem run_consults (decide : Decider σ ε) (calls : List Call) (s : σ) :
    let said := consult decide s (calls.map Call.question)
    (run decide s calls).2 = said.2 ∧ said.1.length = calls.length ∧
      List.Forall₂ (fun c a => Answers c.2 c.1 a) (calls.zip said.1) (run decide s calls).1 := by
  induction calls generalizing s with
  | nil => exact ⟨rfl, rfl, .nil⟩
  | cons c calls ih =>
    obtain ⟨hnext, hfirst⟩ := answer_spec decide s c
    obtain ⟨hend, hlength, hrest⟩ := ih (answer decide s c).2
    simp only [List.map_cons, run_cons, consult_cons, List.zip_cons_cons, List.length_cons]
    rw [hnext] at hend hlength hrest ⊢
    exact ⟨hend, congrArg (· + 1) hlength, .cons hfirst hrest⟩

theorem answer_overheard (decide : Decider σ ε) (s : σ) (asked : List Question) (c : Call) :
    answer (overheard decide) (s, asked) c =
      ((answer decide s c).1, (answer decide s c).2, asked ++ [c.question]) := by
  cases c <;> rfl

theorem run_overheard (decide : Decider σ ε) (calls : List Call) (s : σ) (asked : List Question) :
    run (overheard decide) (s, asked) calls =
      ((run decide s calls).1, (run decide s calls).2,
        asked ++ calls.map Call.question) := by
  induction calls generalizing s asked with
  | nil => simp [run]
  | cons c calls ih => simp [run_cons, answer_overheard, ih]

/-- For any collaborator and any calls: it is asked once for each call, in their order, with the
token and the set of each; a call is granted, or goes through, exactly if what the collaborator says
to that question is a yes, and else is denied with the whole set. Where the identity provider
decides, its answers are a yes or a no under the conditions given and all others are no decision; a
token that fits into a header can be asked about if there is a place to ask, and a call is granted
exactly if the request for it can be sent and is answered by a yes. -/
theorem decided_anew :
    (∀ (σ ε : Type) (decide : Decider σ ε) (calls : List Call) (s : σ),
      let said := consult decide s (calls.map Call.question)
      let r := run (overheard decide) (s, []) calls
      run decide s calls = (r.1, r.2.1) ∧ r.2.2 = calls.map Call.question ∧ r.2.1 = said.2 ∧
        said.1.length = calls.length ∧
        List.Forall₂ (fun c a => Answers c.2 c.1 a) (calls.zip said.1) r.1) ∧
    (∀ a : HttpResponse,
      (Decision.ofResponse a = .ok true ↔ a.status = 200 ∧ Decision.Reads a true) ∧
      (Decision.ofResponse a = .ok false ↔
        a.status = 200 ∧ Decision.Reads a false ∨ a.status = 401 ∨ a.status = 403) ∧
      ((∃ e, Decision.ofResponse a = .error e) ↔
        a.status = 200 ∧ (∀ granted, ¬Decision.Reads a granted) ∨
          a.status ≠ 200 ∧ a.status ≠ 401 ∧ a.status ≠ 403)) ∧
    ∀ (σ : Type) (link : Link) (peer : Peer σ) (timeout : Nat) (e : Endpoints) (clientId : String)
      (q : Question) (s : σ),
      let provider := Decision.ask link peer timeout e clientId
      ((∃ r, Decision.request e clientId q.token q.permissions = .ok r ∧
          Decision.Inquiry e clientId q.token q.permissions.toList r) ↔
        (∃ url, Http.url? e.tokenUrl = .ok url) ∧
          ∀ b ∈ bytesOf q.token, b = 0x09 ∨ 0x20 ≤ b ∧ b ≠ 0x7F) ∧
      (∀ granted, (provider q.token q.permissions s).1 = .ok granted ↔
        ∃ r a time s', Decision.request e clientId q.token q.permissions = .ok r ∧
          Http.send link peer timeout r s = ((.ok a, time), s') ∧
            Decision.ofResponse a = .ok granted) ∧
      ((isGranted provider q.token q.permissions s).1 = true ↔
        ∃ r a time s', Decision.request e clientId q.token q.permissions = .ok r ∧
          Http.send link peer timeout r s = ((.ok a, time), s') ∧ a.status = 200 ∧
            Decision.Reads a true) := by
  refine ⟨?_, ?_, ?_⟩
  · intro σ ε decide calls s said r
    obtain ⟨hend, hlength, hanswers⟩ := run_consults decide calls s
    have hr : r = ((run decide s calls).1, (run decide s calls).2, calls.map Call.question) :=
      run_overheard decide calls s []
    rw [hr]
    exact ⟨rfl, rfl, hend, hlength, hanswers⟩
  · intro a
    refine ⟨by simp [Decision.ofResponse_eq_ok], by simp [Decision.ofResponse_eq_ok], ?_⟩
    constructor
    · rintro ⟨e, he⟩
      have hnone (granted : Bool) : Decision.ofResponse a ≠ .ok granted := by simp [he]
      simp only [ne_eq, Decision.ofResponse_eq_ok, not_or, not_and] at hnone
      by_cases hok : a.status = 200
      · exact .inl ⟨hok, fun granted => (hnone granted).1 hok⟩
      · exact .inr ⟨hok, (hnone false).2 rfl⟩
    · rintro (⟨hok, hread⟩ | ⟨hok, hno⟩)
      · exact ⟨_, Decision.ofResponse_unreadable hok hread⟩
      · exact ⟨_, Decision.ofResponse_other hok (not_or.2 hno)⟩
  · intro σ link peer timeout e clientId q s provider
    refine ⟨Decision.exists_request_iff, fun granted => Decision.ask_eq_ok, ?_⟩
    have hgranted : (isGranted provider q.token q.permissions s).1 = true ↔
        (provider q.token q.permissions s).1 = .ok true := isYes_iff
    simp only [hgranted, provider, Decision.ask_eq_ok, Decision.ofResponse_eq_ok,
      Bool.true_eq_false, false_and, or_false]

end BearerAccess.Gate
