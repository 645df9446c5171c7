import BearerAccess.Decision.Client
import BearerAccess.Proofs.Json.Members
set_option autoImplicit false

namespace BearerAccess.Decision

open Json

/-- A decision document: an object with one member `result` among members of other names, or an
array that holds the result alone. -/
inductive Decides : Doc → Bool → Prop where
  | object (before after : List (List Piece × Doc)) (name : List Piece) (granted : Bool) :
      spelling? name = some "result".toList →
      (∀ m ∈ before ++ after, ∃ other, spelling? m.1 = some other ∧ other ≠ "result".toList) →
      Decides (.object (before ++ (name, .bool granted) :: after)) granted
  | array (granted : Bool) : Decides (.array [.bool granted]) granted

theorem bool?_eq_some {d : Doc} {b : Bool} : d.bool? = some b ↔ d = .bool b := by
  cases d <;> simp [Doc.bool?]

theorem ofDoc?_iff_only_field {d : Doc} {granted : Bool} : ofDoc? d = some granted ↔
    ((d.fields? ["result"]).bind fun fields => fields.lookup "result") = some (.bool granted) := by
  simp [ofDoc?, Fields.required, Option.bind_eq_some_iff, bool?_eq_some]

theorem decides_object {members : List (List Piece × Doc)} {granted : Bool} :
    ofDoc? (.object members) = some granted ↔ Decides (.object members) granted := by
  rw [ofDoc?_iff_only_field, Doc.only_field]
  constructor
  · rintro ⟨x, y, hall, hothers⟩
    obtain ⟨before, name, after, rfl, hbefore, hname, hafter⟩ := named?_split hall
    refine .object before after name granted hname fun m hm => ?_
    obtain ⟨other, hother, hmem⟩ : ∃ other, spelling? m.1 = some other ∧
        (String.ofList other, m.2) ∈ x ++ y :=
      named?_of_mem (by rw [named?_append, hbefore, hafter]; rfl) hm
    exact ⟨other, hother, fun he => hothers _ hmem (by simp [he])⟩
  · intro h
    generalize hd : Doc.object members = d at h
    obtain ⟨before, after, name, granted, hname, hothers⟩ | _ := h
    · obtain rfl := Doc.object.inj hd
      obtain ⟨x, hx, hxn⟩ := named?_without fun m hm => hothers m (List.mem_append_left _ hm)
      obtain ⟨y, hy, hyn⟩ := named?_without fun m hm => hothers m (List.mem_append_right _ hm)
      refine ⟨x, y, ?_, fun f hf => (List.mem_append.1 hf).elim (hxn f) (hyn f)⟩
      rw [named?_append, hx]
      simp only [named?, hname, hy]
      rfl
    · cases hd

theorem ofDoc?_eq_some {d : Doc} {granted : Bool} :
    ofDoc? d = some granted ↔ Decides d granted := by
  cases d with
  | object members => exact decides_object
  | array items =>
    rcases items with _ | ⟨item, _ | ⟨_, _⟩⟩
    · constructor <;> intro h <;> cases h
    · rw [ofDoc?_iff_only_field]
      constructor
      · intro h
        obtain rfl : item = .bool granted := by simpa [Doc.fields?] using h
        exact .array granted
      · rintro ⟨⟩
        rfl
    · constructor <;> intro h <;> cases h
  | null | bool | number | string => constructor <;> intro h <;> cases h

/-- The body of an answer has come whole and is a decision document. -/
def Reads (a : HttpResponse) (granted : Bool) : Prop :=
  ∃ body d, a.body? = some body ∧ Doc.ofBytes? body = some d ∧ Decides d granted

theorem reads_iff {a : HttpResponse} {granted : Bool} :
    (a.body?.bind Doc.ofBytes?).bind ofDoc? = some granted ↔ Reads a granted := by
  simp only [Reads, Option.bind_eq_some_iff, ofDoc?_eq_some]
  constructor
  · rintro ⟨d, ⟨body, hbody, hd⟩, hdecides⟩
    exact ⟨body, d, hbody, hd, hdecides⟩
  · rintro ⟨body, d, hbody, hd, hdecides⟩
    exact ⟨d, ⟨body, hbody, hd⟩, hdecides⟩

section Response

variable {a : HttpResponse}

theorem ofResponse_of_reads {granted : Bool} (hs : a.status = 200) (h : Reads a granted) :
    ofResponse a = .ok granted := by
  simp [ofResponse, hs, reads_iff.2 h]

theorem ofResponse_unreadable (hs : a.status = 200) (h : ∀ granted, ¬Reads a granted) :
    ofResponse a = .error (.parse badBodyMessage) := by
  cases hread : (a.body?.bind Doc.ofBytes?).bind ofDoc? with
  | none => simp [ofResponse, hs, hread]
  | some granted => exact absurd (reads_iff.1 hread) (h granted)

theorem ofResponse_refusal (hs : a.status = 401 ∨ a.status = 403) : ofResponse a = .ok false := by
  rcases hs with hs | hs <;> simp [ofResponse, hs]

theorem ofResponse_other (hok : a.status ≠ 200) (hno : ¬(a.status = 401 ∨ a.status = 403)) :
    ofResponse a = .error (.status a.status) := by
  simp [ofResponse, hok, hno]

theorem ofResponse_eq_ok {granted : Bool} : ofResponse a = .ok granted ↔
    a.status = 200 ∧ Reads a granted ∨
      granted = false ∧ (a.status = 401 ∨ a.status = 403) := by
  constructor
  · intro h
    by_cases hok : a.status = 200
    · refine .inl ⟨hok, ?_⟩
      by_cases hread : ∃ other, Reads a other
      · obtain ⟨other, hother⟩ := hread
        rwa [← Except.ok.inj ((ofResponse_of_reads hok hother).symm.trans h)]
      · cases (ofResponse_unreadable hok (not_exists.1 hread)).symm.trans h
    · by_cases hno : a.status = 401 ∨ a.status = 403
      · exact .inr ⟨Except.ok.inj (h.symm.trans (ofResponse_refusal hno)), hno⟩
      · cases (ofResponse_other hok hno).symm.trans h
  · rintro (⟨hs, h⟩ | ⟨rfl, h⟩)
    · exact ofResponse_of_reads hs h
    · exact ofResponse_refusal h

end Response

variable {σ : Type}

theorem ask_eq_ok {link : Link} {peer : Peer σ} {timeout : Nat} {e : Endpoints}
    {clientId token : String} {permissions : PermissionSet} {s : σ} {granted : Bool} :
    (ask link peer timeout e clientId token permissions s).1 = .ok granted ↔
      ∃ r a time s', request e clientId token permissions = .ok r ∧
        Http.send link peer timeout r s = ((.ok a, time), s') ∧ ofResponse a = .ok granted := by
  unfold ask
  cases request e clientId token permissions with
  | error fault => simp
  | ok r =>
    rcases hsend : Http.send link peer timeout r s with ⟨⟨result, time⟩, s'⟩
    cases result <;> simp [hsend]

end BearerAccess.Decision
