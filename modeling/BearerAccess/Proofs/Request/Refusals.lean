import BearerAccess.KeySet.FetchError
import BearerAccess.Proofs.Json.Values
set_option autoImplicit false

namespace BearerAccess

namespace AuthError

open Json

/-- The members that stand in a body after the code and the message. -/
inductive Lists : AuthError → List (String × Value) → Prop where
  | denial {ps : PermissionSet} (h : ps.toList ≠ []) : Lists (.permissionDenied ps)
      [("permissions", .array (ps.toList.map fun p => .string p.text))]
  | nothing {e : AuthError} (h : ∀ ps, e = .permissionDenied ps → ps.toList = []) : Lists e []

theorem Refusal.plain_body {depth : Nat} (r : Refusal) : Plain (depth + 3) r.body := by
  -- the names stand in byte order already, so reading, which sorts members, keeps their order
  have hnames (c m ps : Value) : Increasing.Holds (fun m : String × Value => [bytesOf m.1])
      ([("code", c), ("message", m)] ++ [("permissions", ps)]) := by
    simp only [Increasing.Holds, List.cons_append, List.nil_append, List.pairwise_cons,
      List.forall_mem_cons, List.not_mem_nil, false_implies, implies_true, and_true,
      List.Pairwise.nil]
    decide
  refine .object (List.pairwise_singleton _ _) (List.forall_mem_singleton.2 ?_)
  dsimp only
  split
  · refine .object ((hnames _ _ .null).sublist (List.sublist_append_left _ _)) ?_
    simp [Plain.string]
  · refine .object (hnames _ _ _) ?_
    have hlist : Plain (depth + 1) (.array (r.permissions.map .string)) :=
      .array (by simp [Plain.string])
    simp [Plain.string, hlist]

theorem exists_lists (e : AuthError) : ∃ listed, Lists e listed ∧ e.refusal.body =
    .object [("error", .object ([("code", .string e.refusal.code),
      ("message", .string e.refusal.message)] ++ listed))] := by
  cases e with
  | permissionDenied ps =>
    by_cases hempty : ps.toList = []
    · refine ⟨[], .nothing fun ps' hps => ?_, ?_⟩
      · obtain rfl := permissionDenied.inj hps
        exact hempty
      · simp [refusal, Refusal.body, PermissionSet.texts, hempty]
    · refine ⟨_, .denial hempty, ?_⟩
      simp [refusal, Refusal.body, PermissionSet.texts, hempty, Function.comp_def]
  | _ => exact ⟨[], .nothing nofun, rfl⟩

theorem read_body (e : AuthError) : Value.ofText? e.response.body = some e.refusal.body ∧
    Value.ofBytes? (bytesOf e.response.body) = some e.refusal.body :=
  Plain.read_compact (e.refusal.plain_body : Plain (124 + 3) _)

theorem Refusal.permissions_eq {r r' : Refusal} (h : r.body = r'.body) :
    r.permissions = r'.permissions := by
  have hstring : Function.Injective Value.string := fun _ _ => Value.string.inj
  unfold body at h
  split at h <;> split at h
  · rename_i hr hr'
    rw [List.isEmpty_iff.1 hr, List.isEmpty_iff.1 hr']
  · simp at h
  · simp at h
  · refine List.map_injective_iff.2 hstring ?_
    simp only [List.cons_append, List.nil_append, Value.object.injEq, List.cons.injEq,
      Prod.mk.injEq, Value.array.injEq, true_and, and_true] at h
    exact h.2.2

example : (permissionDenied (.ofList [⟨"a\"\\", "\x01é"⟩])).response.body =
    "\x7b\"error\":\x7b\"code\":\"PERMISSION_DENIED\"," ++
    "\"message\":\"The request requires permissions the caller does not hold\"," ++
    "\"permissions\":[\"a\\\"\\\\#\\u0001é\"]\x7d\x7d" := by decide +kernel

theorem response_permissionDenied_eq_iff {ps qs : PermissionSet} :
    (permissionDenied ps).response = (permissionDenied qs).response ↔ ps.texts = qs.texts := by
  constructor
  · intro h
    have hread := (permissionDenied ps).read_body.1
    rw [h, (permissionDenied qs).read_body.1] at hread
    exact (Refusal.permissions_eq (Option.some.inj hread)).symm
  · intro h
    simp only [response, refusal, h]

theorem response_eq_of_statusCode {e e' : AuthError} (h : e.statusCode = e'.statusCode)
    (hquiet : e.statusCode ≠ 403) : e.response = e'.response := by
  have hrefusal : e.refusal = e'.refusal := by
    cases e <;> cases e' <;> simp_all [statusCode, refusal]
  rw [response, response, hrefusal]

theorem response_status (e : AuthError) : e.response.status = e.statusCode := by
  cases e <;> rfl

theorem response_challenge (e : AuthError) :
    (∃ c, e.response.challenge? = some c) ↔ e.response.status = 401 := by
  simp [response, Refusal.response]

/-- For every error: the response has the error's status and a challenge exactly with the status of
an unknown caller; its body is read as one member, with a code, a message and, exactly for a denial
of some permissions, their texts in the order of the set. Denials are told apart by these texts. A
key id, or the reason why keys are not there, is in no part of a response. -/
theorem refusals_tell_denials_only (e : AuthError) :
    e.response.status = e.statusCode ∧
    ((∃ c, e.response.challenge? = some c) ↔ e.response.status = 401) ∧
    (∃ listed, Lists e listed ∧
      let body := Value.object [("error", .object ([("code", .string e.refusal.code),
        ("message", .string e.refusal.message)] ++ listed))]
      Value.ofText? e.response.body = some body ∧
        Value.ofBytes? (bytesOf e.response.body) = some body) ∧
    (∀ ps qs, (permissionDenied ps).response = (permissionDenied qs).response ↔
      ps.texts = qs.texts) ∧
    (∀ kid, (keyNotFound kid).response = invalidPrincipal.response) ∧
    (∀ reason reason', (loadFailure reason).response = (loadFailure reason').response) ∧
    (∀ fault reason, (ofCacheError fault).response = (loadFailure reason).response) := by
  refine ⟨e.response_status, e.response_challenge, ?_, fun _ _ => response_permissionDenied_eq_iff,
    fun _ => ?_, fun _ _ => ?_, fun _ _ => ?_⟩
  · obtain ⟨listed, hlists, hbody⟩ := e.exists_lists
    refine ⟨listed, hlists, ?_⟩
    dsimp only
    rw [← hbody]
    exact e.read_body
  · exact response_eq_of_statusCode rfl (by simp [statusCode])
  · exact response_eq_of_statusCode rfl (by simp [statusCode])
  · exact response_eq_of_statusCode rfl (by simp [ofCacheError, statusCode])

end AuthError

end BearerAccess
