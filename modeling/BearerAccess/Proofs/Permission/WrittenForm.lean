import BearerAccess.Permission
import Mathlib.Data.List.Basic
import Mathlib.Data.List.TakeDrop
import Mathlib.Data.List.TakeWhile
set_option autoImplicit false

namespace BearerAccess.Permission

variable {p : Permission} {text : String}

/-- A permission with two parts, the first of which has no number sign. -/
structure Legible (p : Permission) : Prop where
  resource : p.resource ≠ ""
  unmarked : '#' ∉ p.resource.toList
  scope : p.scope ≠ ""

theorem toList_text (p : Permission) :
    p.text.toList = p.resource.toList ++ '#' :: p.scope.toList := by
  simp [Permission.text]

theorem ofText?_unmarked (h : '#' ∉ text.toList) : ofText? text = .error ⟨text⟩ := by
  have hrest : text.toList.dropWhile (· != '#') = [] := by
    simpa using fun c hc => ne_of_mem_of_not_mem hc h
  simp [ofText?, hrest]

theorem ofText?_cut {before after : List Char} (htext : text.toList = before ++ '#' :: after)
    (hbefore : '#' ∉ before) : ofText? text =
      if before = [] ∨ after = [] then .error ⟨text⟩
      else .ok ⟨String.ofList before, String.ofList after⟩ := by
  have hplain : ∀ c ∈ before, (c != '#') = true := fun c hc => by
    simpa using ne_of_mem_of_not_mem hc hbefore
  have htake : text.toList.takeWhile (· != '#') = before := by
    rw [htext, List.takeWhile_append_of_pos hplain]
    simp
  have hdrop : text.toList.dropWhile (· != '#') = '#' :: after := by
    rw [htext, List.dropWhile_append_of_pos hplain]
    simp
  simp [ofText?, htake, hdrop]

theorem ofText?_cases (text : String) : ofText? text = .error ⟨text⟩ ∨
    ∃ before after, text.toList = before ++ '#' :: after ∧ '#' ∉ before ∧ before ≠ [] ∧ after ≠ [] ∧
      ofText? text = .ok ⟨String.ofList before, String.ofList after⟩ := by
  by_cases hmem : '#' ∈ text.toList
  · obtain ⟨before, after, htext, hbefore⟩ := List.eq_append_cons_of_mem hmem
    have hcut := ofText?_cut htext hbefore
    split at hcut
    · exact .inl hcut
    · rename_i hparts
      rw [not_or] at hparts
      exact .inr ⟨before, after, htext, hbefore, hparts.1, hparts.2, hcut⟩
  · exact .inl (ofText?_unmarked hmem)

/-- Reading is the converse of writing a permission that is legible. -/
theorem ofText?_eq_ok : ofText? text = .ok p ↔ p.Legible ∧ p.text = text := by
  constructor
  · intro h
    rcases ofText?_cases text with herror | ⟨before, after, htext, hbefore, hresource, hscope, hok⟩
    · cases herror.symm.trans h
    · cases hok.symm.trans h
      refine ⟨⟨?_, by simpa using hbefore, ?_⟩, ?_⟩
      · simpa [← String.toList_inj] using hresource
      · simpa [← String.toList_inj] using hscope
      · rw [← String.toList_inj, toList_text, htext, String.toList_ofList, String.toList_ofList]
  · rintro ⟨hp, rfl⟩
    rw [ofText?_cut (toList_text p) hp.unmarked, if_neg]
    · simp
    · simp [hp.resource, hp.scope]

theorem ofText?_eq_error {fault : PermissionFault} (h : ofText? text = .error fault) :
    fault = ⟨text⟩ := by
  rcases ofText?_cases text with herror | ⟨_, _, -, -, -, -, hok⟩
  · cases herror.symm.trans h
    rfl
  · cases hok.symm.trans h

theorem exists_ofText?_iff : (∃ p, ofText? text = .ok p) ↔
    '#' ∈ text.toList ∧ 0 < text.toList.idxOf '#' ∧
      text.toList.idxOf '#' + 1 < text.toList.length := by
  by_cases hmem : '#' ∈ text.toList
  · obtain ⟨before, after, htext, hbefore⟩ := List.eq_append_cons_of_mem hmem
    have hplace : text.toList.idxOf '#' = before.length := by
      rw [htext, List.idxOf_append_of_notMem hbefore, List.idxOf_cons_self, Nat.add_zero]
    have hlength : text.toList.length = before.length + 1 + after.length := by
      rw [htext, List.length_append, List.length_cons]
      omega
    have hparts : (0 < before.length ∧ before.length + 1 < before.length + 1 + after.length) ↔
        ¬(before = [] ∨ after = []) := by
      rw [← List.length_eq_zero_iff, ← List.length_eq_zero_iff]
      omega
    rw [ofText?_cut htext hbefore, hplace, hlength, hparts]
    split
    · rename_i hempty
      simp [hempty]
    · rename_i hfull
      simp [hmem, hfull]
  · simp [ofText?_unmarked hmem, hmem]

/-- A text is read exactly if it has a number sign and the first one is neither its first character
nor its last. What is read is legible and is written as that text again, and a text that is not read
is named in the fault. A legible permission is read back from its written form, so permissions that
have been read are told apart by theirs; every other permission is lost or taken for another one. -/
theorem written_form_read_back :
    (∀ text : String, (∃ p, ofText? text = .ok p) ↔
      '#' ∈ text.toList ∧ 0 < text.toList.idxOf '#' ∧
        text.toList.idxOf '#' + 1 < text.toList.length) ∧
    (∀ (text : String) (p : Permission), ofText? text = .ok p → p.Legible ∧ p.text = text) ∧
    (∀ (text : String) (fault : PermissionFault), ofText? text = .error fault → fault = ⟨text⟩) ∧
    (∀ p : Permission, p.Legible → ofText? p.text = .ok p) ∧
    (∀ (s t : String) (p q : Permission), ofText? s = .ok p → ofText? t = .ok q →
      p.text = q.text → p = q) ∧
    ∀ p : Permission, ¬p.Legible →
      (∃ fault, ofText? p.text = .error fault) ∨ ∃ q, ofText? p.text = .ok q ∧ q ≠ p := by
  refine ⟨fun _ => exists_ofText?_iff, fun _ _ => ofText?_eq_ok.1, fun _ _ => ofText?_eq_error,
    fun p hp => ofText?_eq_ok.2 ⟨hp, rfl⟩, fun s t p q hp hq htext => ?_, fun p hp => ?_⟩
  · obtain ⟨-, rfl⟩ := ofText?_eq_ok.1 hp
    obtain ⟨-, rfl⟩ := ofText?_eq_ok.1 hq
    rw [htext] at hp
    exact Except.ok.inj (hp.symm.trans hq)
  · cases hread : ofText? p.text with
    | error fault => exact .inl ⟨fault, rfl⟩
    | ok q =>
      refine .inr ⟨q, rfl, ?_⟩
      rintro rfl
      exact hp (ofText?_eq_ok.1 hread).1

theorem written_form_read_back_scope :
    let p : Permission := ⟨"doc", "#edit#"⟩
    let q : Permission := ⟨"a#b", "c"⟩
    p.Legible ∧ ofText? "doc##edit#" = .ok p ∧ p.text = "doc##edit#" ∧
      ofText? "#edit" = .error ⟨"#edit"⟩ ∧ ¬q.Legible ∧
      ((∃ fault, ofText? q.text = .error fault) ∨ ∃ r, ofText? q.text = .ok r ∧ r ≠ q) := by
  intro p q
  obtain ⟨hread, hok, herror, hback, halike, hlost⟩ := written_form_read_back
  have hlegible : p.Legible := ⟨by decide +kernel, by decide +kernel, by decide +kernel⟩
  have hmarked : ¬q.Legible := fun h => absurd h.unmarked (by decide +kernel)
  obtain ⟨r, hr⟩ := (hread "doc##edit#").2 (by decide +kernel)
  obtain rfl : r = p := halike _ _ _ _ hr (hback p hlegible) (hok _ _ hr).2
  cases hfault : ofText? "#edit" with
  | ok r => exact absurd ((hread "#edit").1 ⟨r, hfault⟩) (by decide +kernel)
  | error fault =>
    rw [herror _ _ hfault]
    exact ⟨hlegible, hr, (hok _ _ hr).2, rfl, hmarked, hlost q hmarked⟩

end BearerAccess.Permission
