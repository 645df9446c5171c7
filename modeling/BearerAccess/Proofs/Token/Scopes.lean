import BearerAccess.Principal
import BearerAccess.Proofs.Text.Words
set_option autoImplicit false

namespace BearerAccess

theorem mem_map_ofList {s : String} {texts : List (List Char)} :
    s ∈ texts.map String.ofList ↔ s.toList ∈ texts := by
  rw [List.mem_map]
  constructor
  · rintro ⟨w, hw, rfl⟩
    rwa [String.toList_ofList]
  · exact fun h => ⟨s.toList, h, String.ofList_toList⟩

namespace AccessClaims

variable {c : AccessClaims} {s : String}

theorem mem_scopes : s ∈ c.scopes ↔ ∃ place, WordAt c.scope.toList place s.toList :=
  mem_map_ofList.trans mem_words

theorem hasScope_iff : c.hasScope s = true ↔ s ∈ c.scopes := List.contains_iff_mem

theorem exists_scopes_placed (c : AccessClaims) : ∃ placed, WordsOf c.scope.toList placed ∧
    c.scopes = placed.map fun word => String.ofList word.2 := by
  obtain ⟨placed, hplaced, hwords⟩ := exists_wordsOf c.scope.toList
  refine ⟨placed, hplaced, ?_⟩
  rw [scopes, ← hwords, List.map_map]
  rfl

theorem scopes_spaced {spaced : Spaced} (h : c.scope = String.ofList spaced.written) :
    c.scopes = spaced.words.map String.ofList := by
  rw [scopes, h, String.toList_ofList, spaced.words_written]

end AccessClaims

theorem TokenPrincipal.ofClaims_of_subject {c : AccessClaims} (h : c.subject ≠ "") :
    ofClaims c = .ok ⟨c.subject, c.username?, c.scopes⟩ := if_neg h

namespace AccessClaims

/-- For all claims: a scope is given exactly if it stands in the scope claim as a word, that is, as
a run of characters which are not blank that goes on on neither side. If the claims have a subject,
the principal made from them has the scopes that are given and no others: all the words of the claim
in their order, one for each place. Scopes written in a row are read back as they are, whatever
blanks stand between and around them. -/
theorem scope_readings_agree (c : AccessClaims) :
    (∀ s : String, c.hasScope s = true ↔ ∃ place, WordAt c.scope.toList place s.toList) ∧
    (c.subject ≠ "" → ∃ p, TokenPrincipal.ofClaims c = .ok p ∧
      (∀ s, c.hasScope s = true ↔ s ∈ p.scopes) ∧
      ∃ placed, WordsOf c.scope.toList placed ∧
        p.scopes = placed.map fun word => String.ofList word.2) ∧
    ∀ spaced : Spaced, c.scope = String.ofList spaced.written →
      c.scopes = spaced.words.map String.ofList ∧
      (∀ s : String, c.hasScope s = true ↔ s.toList ∈ spaced.words) ∧
      (c.subject ≠ "" → ∃ p, TokenPrincipal.ofClaims c = .ok p ∧
        p.scopes = spaced.words.map String.ofList) := by
  refine ⟨fun s => hasScope_iff.trans mem_scopes, fun hsubject => ?_, fun spaced hscope => ?_⟩
  · exact ⟨_, TokenPrincipal.ofClaims_of_subject hsubject, fun s => hasScope_iff,
      c.exists_scopes_placed⟩
  · have hscopes := scopes_spaced hscope
    refine ⟨hscopes, fun s => ?_, fun hsubject => ?_⟩
    · rw [hasScope_iff, hscopes, mem_map_ofList]
    · exact ⟨_, TokenPrincipal.ofClaims_of_subject hsubject, hscopes⟩

theorem scope_readings_agree_repeated :
    let c : AccessClaims := ⟨"", some "u", none, 0, none, none, none, none, none, " a b\u2003a"⟩
    c.subject ≠ "" ∧ WordAt c.scope.toList 1 ['a'] ∧ c.hasScope "a" = true ∧
      c.hasScope "a b" = false ∧
      ∃ p, TokenPrincipal.ofClaims c = .ok p ∧ p.scopes = ["a", "b", "a"] := by
  intro c
  obtain ⟨hgiven, -, hspaced⟩ := scope_readings_agree c
  have hsubject : c.subject ≠ "" := by decide
  have hspace : isBlank ' ' = true := by decide
  have hwide : isBlank '\u2003' = true := by decide
  have ha : IsWord ['a'] := ⟨by simp, List.forall_mem_singleton.2 (by decide)⟩
  have hb : IsWord ['b'] := ⟨by simp, List.forall_mem_singleton.2 (by decide)⟩
  let spaced : Spaced := ⟨[' '], [(['a'], [' ']), (['b'], ['\u2003']), (['a'], [])],
    by simp [hspace], by simp [ha, hb], by simp [hspace, hwide], by simp⟩
  obtain ⟨-, hexact, hprincipal⟩ := hspaced spaced rfl
  have hword : WordAt c.scope.toList 1 ['a'] :=
    ⟨[' '], [' ', 'b', '\u2003', 'a'], ⟨by decide, ha, by simp [hspace], by simp [hspace]⟩, rfl⟩
  have hpair : c.hasScope "a b" = false := by
    rw [← Bool.not_eq_true, hexact]
    change "a b".toList ∉ [['a'], ['b'], ['a']]
    decide
  exact ⟨hsubject, hword, (hgiven "a").2 ⟨1, hword⟩, hpair, hprincipal hsubject⟩

end AccessClaims

end BearerAccess
