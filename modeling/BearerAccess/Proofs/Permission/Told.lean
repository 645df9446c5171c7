import BearerAccess.Proofs.Decision.Identified
import BearerAccess.Proofs.Permission.Elements
import BearerAccess.Proofs.Request.Refusals
import BearerAccess.TokenCheck
set_option autoImplicit false

namespace BearerAccess.PermissionSet

open Json

variable {ps qs : List Permission}

/-- What is told of permissions that stand in a row: in a question about them, in the text and the
body of their denial, and in the tool's verdict. -/
structure ToldAs (row : List Permission) (s : PermissionSet) : Prop where
  asked : ∀ clientId, (Decision.form clientId s).filter (·.1 == "permission") =
    row.map fun p => ("permission", p.text)
  denied : (AuthError.permissionDenied s).message =
    "Permission denied: " ++ ", ".intercalate (row.map Permission.text)
  refused : ∃ code message, Value.ofText? (AuthError.permissionDenied s).response.body =
    some (.object [("error", .object ([("code", .string code), ("message", .string message)] ++
      if row = [] then [] else [("permissions", .array (row.map fun p => .string p.text))]))])
  judged : ∀ claims? granted?, ∃ members,
    (TokenCheck.Outcome.verdict claims? s granted?).output = (Value.object members).pretty ++ "\n" ∧
      members.lookup "permissions" = some (.array (row.map fun p => .string p.text))

theorem map_texts (s : PermissionSet) :
    s.texts.map Value.string = s.toList.map fun p => .string p.text := List.map_map

theorem toldAs (s : PermissionSet) : ToldAs s.toList s where
  asked clientId := Decision.form_entries clientId s
  denied := rfl
  refused := by
    let refusal := (AuthError.permissionDenied s).refusal
    refine ⟨refusal.code, refusal.message, (AuthError.read_body _).1.trans ?_⟩
    rw [← map_texts]
    simp only [refusal, AuthError.refusal, AuthError.Refusal.body, texts, List.isEmpty_iff,
      List.map_eq_nil_iff]
  judged claims? granted? := by
    refine ⟨_, rfl, ?_⟩
    rw [← map_texts]
    rfl

/-- Permissions with the same elements, however often and in whatever order they come, are gathered
in the same set, at once or one by one, as they are or from their written forms. The set holds each
element once, in the order of the bytes of resources and scopes. What is told of it is made from
that row: the form that asks about it, the text and the response of its denial, what the tool prints
of it, and all that the tool does if it reads them from its arguments. -/
theorem told_by_elements_alone (h : ∀ p, p ∈ ps ↔ p ∈ qs) :
    (∀ s, Gathered ps s → s.toList.Pairwise Permission.Precedes ∧ s.toList.Nodup ∧
      (∀ p, p ∈ s.toList ↔ p ∈ ps) ∧ ToldAs s.toList s) ∧
    (∀ s t, Gathered ps s → Gathered qs t → s = t ∧
      (∀ clientId, Decision.form clientId s = Decision.form clientId t) ∧
      (AuthError.permissionDenied s).message = (AuthError.permissionDenied t).message ∧
      (AuthError.permissionDenied s).response = (AuthError.permissionDenied t).response ∧
      ∀ claims? granted?, (TokenCheck.Outcome.verdict claims? s granted?).output =
        (TokenCheck.Outcome.verdict claims? t granted?).output) ∧
    ∀ texts texts', TokenCheck.readPermissions texts = .ok ps →
      TokenCheck.readPermissions texts' = .ok qs →
      ∀ (σ : Type) (check : SignatureCheck) (link : Link) (peer : Peer σ) (now : Int64)
        (vars : Variables) (token : String) (provider : σ),
        TokenCheck.run check link peer now vars (token :: texts) provider =
          TokenCheck.run check link peer now vars (token :: texts') provider := by
  refine ⟨fun s hs => ?_, fun s t hs ht => ?_, ?_⟩
  · exact ⟨s.pairwise_precedes, s.nodup_toList, hs.mem, s.toldAs⟩
  · obtain rfl := hs.unique ht h
    exact ⟨rfl, fun _ => rfl, rfl, rfl, fun _ _ => rfl⟩
  · intro texts texts' hps hqs σ check link peer now vars token provider
    have hset : ofList ps = ofList qs := (Gathered.collected ps).unique (.collected qs) h
    simp only [TokenCheck.run, hps, hqs, hset]

theorem told_by_elements_alone_repeated :
    let edit : Permission := ⟨"a", "edit"⟩
    let view : Permission := ⟨"b", "view"⟩
    let s := ofList [view, edit, view]
    let t := (empty.insert edit).insert view
    let run (texts : List String) := TokenCheck.run (fun _ _ _ _ => true) .up
      (fun _ asked => (.response ⟨404, none, none⟩, asked + 1)) 0 (fun _ => some "http://h")
      ("token" :: texts) 0
    (∀ p, p ∈ [view, edit, view] ↔ p ∈ [edit, view]) ∧ Gathered [view, edit, view] s ∧
      Gathered [edit, view] t ∧ s = t ∧ s.toList = [edit, view] ∧
      Decision.form "client" s = Decision.form "client" t ∧
      TokenCheck.readPermissions ["b#view", "a#edit", "b#view"] = .ok [view, edit, view] ∧
      TokenCheck.readPermissions ["a#edit", "b#view"] = .ok [edit, view] ∧
      run ["b#view", "a#edit", "b#view"] = run ["a#edit", "b#view"] := by
  intro edit view s t run
  have helements : ∀ p, p ∈ [view, edit, view] ↔ p ∈ [edit, view] := fun p => by
    simp only [List.mem_cons, List.not_mem_nil, or_false]
    tauto
  have hs : Gathered [view, edit, view] s := .collected _
  have hedit : Permission.ofText? "a#edit" = .ok edit := by decide +kernel
  have ht : Gathered [edit, view] t := .inserted view (.read hedit (.collected []))
  have hnamed : TokenCheck.readPermissions ["b#view", "a#edit", "b#view"] =
      .ok [view, edit, view] := by decide +kernel
  have hnamed' : TokenCheck.readPermissions ["a#edit", "b#view"] = .ok [edit, view] := by
    decide +kernel
  obtain ⟨-, hsame, hrun⟩ := told_by_elements_alone helements
  obtain ⟨heq, hform, -⟩ := hsame s t hs ht
  exact ⟨helements, hs, ht, heq, by decide +kernel, hform "client", hnamed, hnamed',
    hrun _ _ hnamed hnamed' _ _ _ _ _ _ _ _⟩

end BearerAccess.PermissionSet
