import BearerAccess.Proofs.KeySet.Lookup
import BearerAccess.Proofs.Order.Members
import BearerAccess.Token.Verification
import Mathlib.Data.List.Sort
import Mathlib.Data.Finset.Dedup
import Mathlib.Data.Finset.Card
/-!
What a key set made from a list holds. A key set is known by what is found in it, so lists in which
the same keys are found make the same key set: keys for encryption do not count, and where no two
keys have one id their order does not either.
-/
set_option autoImplicit false

namespace BearerAccess

theorem Jwk.verifies_iff {k : Jwk} : k.verifies = true ↔ k.use? ≠ some "enc" := by
  simp [Jwk.verifies]

namespace KeySet

variable {s t : KeySet} {keys keys' : List Jwk} {kid : String} {k : Jwk}

theorem nodup_kids (s : KeySet) : (s.toList.map Jwk.kid).Nodup := by
  refine List.pairwise_map.2 (s.increasing.imp fun {a b} hlt hkid => ?_)
  rw [Jwk.key_inj.2 hkid] at hlt
  exact List.lt_irrefl _ hlt

theorem mem_iff_find? : k ∈ s.toList ↔ s.find? k.kid = some k := by
  constructor
  · intro hk
    cases hfound : s.find? k.kid with
    | none => exact absurd (List.find?_eq_none.1 hfound k hk) (by simp)
    | some k' =>
      have hkid : k'.kid = k.kid := by simpa using List.find?_some hfound
      exact congrArg some (List.inj_on_of_nodup_map s.nodup_kids (List.mem_of_find?_eq_some hfound)
        hk hkid)
  · exact List.mem_of_find?_eq_some

theorem ext_find? (h : ∀ kid, s.find? kid = t.find? kid) : s = t := by
  refine ext_toList (s.increasing.ext t.increasing fun k => ?_)
  rw [mem_iff_find?, mem_iff_find?, h]

theorem find?_eq_some : (ofKeys keys).find? kid = some k ↔
    ∃ before after, keys = before ++ k :: after ∧ k.kid = kid ∧ k.use? ≠ some "enc" ∧
      ∀ later ∈ after, later.kid = kid → later.use? = some "enc" := by
  rw [find?_ofKeys, List.getLast?_filter, List.find?_eq_some_iff_append]
  simp only [Bool.and_eq_true, Jwk.verifies_iff, beq_iff_eq, Bool.not_eq_eq_eq_not, Bool.not_true,
    Bool.and_eq_false_imp, beq_eq_false_iff_ne]
  constructor
  · rintro ⟨⟨huse, hkid⟩, after, before, hkeys, hafter⟩
    refine ⟨before.reverse, after.reverse, by simpa using congrArg List.reverse hkeys, hkid, huse,
      fun later hl hk => ?_⟩
    by_contra hne
    exact hafter later (List.mem_reverse.1 hl) hne hk
  · rintro ⟨before, after, rfl, hkid, huse, hafter⟩
    refine ⟨⟨huse, hkid⟩, after.reverse, before.reverse, by simp, fun later hl hne hk => ?_⟩
    exact hne (hafter later (List.mem_reverse.1 hl) hk)

theorem find?_eq_none : (ofKeys keys).find? kid = none ↔
    ∀ k ∈ keys, k.kid = kid → k.use? = some "enc" := by
  rw [find?_ofKeys, List.getLast?_eq_none_iff, List.filter_eq_nil_iff]
  simp only [Bool.and_eq_true, Jwk.verifies_iff, beq_iff_eq, not_and']
  simp

theorem mem_kids : kid ∈ (ofKeys keys).toList.map Jwk.kid ↔
    kid ∈ (keys.filter Jwk.verifies).map Jwk.kid := by
  have hfound : kid ∈ (ofKeys keys).toList.map Jwk.kid ↔ (ofKeys keys).find? kid ≠ none := by
    simp [find?]
  rw [hfound, ne_eq, find?_eq_none]
  simp [Jwk.verifies_iff, and_right_comm, and_assoc]

theorem size_ofKeys (keys : List Jwk) :
    (ofKeys keys).size = ((keys.filter Jwk.verifies).map Jwk.kid).toFinset.card := by
  have hkids : ((ofKeys keys).toList.map Jwk.kid).toFinset =
      ((keys.filter Jwk.verifies).map Jwk.kid).toFinset := by
    ext kid
    rw [List.mem_toFinset, List.mem_toFinset, mem_kids]
  rw [← hkids, List.toFinset_card_of_nodup (nodup_kids _), List.length_map, size]

theorem ofKeys_encryption {before after : List Jwk} (hk : k.use? = some "enc") :
    ofKeys (before ++ k :: after) = ofKeys (before ++ after) := by
  have hdropped : ¬k.verifies = true := by simp [Jwk.verifies_iff, hk]
  refine ext_find? fun kid => ?_
  simp only [find?_ofKeys, List.filter_append]
  rw [List.filter_cons_of_neg (by simp [hdropped])]

theorem ofKeys_perm (hkids : (keys.map Jwk.kid).Nodup) (hperm : keys.Perm keys') :
    ofKeys keys = ofKeys keys' := by
  refine ext_find? fun kid => Option.ext fun k => ?_
  have hfound {keys : List Jwk} (hkids : (keys.map Jwk.kid).Nodup) :
      (ofKeys keys).find? kid = some k ↔ k ∈ keys ∧ k.kid = kid ∧ k.use? ≠ some "enc" := by
    rw [find?_eq_some]
    constructor
    · rintro ⟨before, after, rfl, hkid, huse, -⟩
      exact ⟨by simp, hkid, huse⟩
    · rintro ⟨hk, hkid, huse⟩
      obtain ⟨before, after, rfl⟩ := List.append_of_mem hk
      refine ⟨before, after, rfl, hkid, huse, fun later hl hlater => ?_⟩
      rw [List.map_append, List.map_cons, List.nodup_append] at hkids
      have hnot := (List.nodup_cons.1 hkids.2.1).1
      exact absurd (List.mem_map.2 ⟨later, hl, hlater.trans hkid.symm⟩) hnot
  rw [hfound hkids, hfound ((hperm.map Jwk.kid).nodup_iff.1 hkids), hperm.mem_iff]

end KeySet

namespace UnverifiedToken

theorem signatureRejection?_ne_keySet {α : Type} {check : SignatureCheck} {t : UnverifiedToken α}
    {k : Jwk} {e : AuthError} : t.signatureRejection? check k ≠ some (.keySet e) := by
  unfold signatureRejection?
  cases k.algorithm t.header with
  | error fault => simp
  | ok a => cases k.material <;> simp

theorem verdict_keyNotFound {check : SignatureCheck} {issuer : String} {skew now : Int64}
    {keys : KeySet} {t : UnverifiedToken AccessClaims} {kid : String} :
    t.verdict check issuer skew now (.ok keys) = .error (.keySet (.keyNotFound kid)) ↔
      t.header.kid = kid ∧ keys.find? kid = none := by
  unfold verdict
  constructor
  · cases hfound : keys.find? t.header.kid with
    | none =>
      intro h
      obtain rfl : t.header.kid = kid := by simpa [hfound] using h
      exact ⟨rfl, hfound⟩
    | some k =>
      cases t.claims.fault? issuer now skew with
      | some fault => simp [hfound]
      | none =>
        cases hrejected : t.signatureRejection? check k with
        | none => simp [hfound, hrejected]
        | some rejection =>
          intro h
          obtain rfl : rejection = .keySet (.keyNotFound kid) := by
            simpa [hfound, hrejected] using h
          exact absurd hrejected signatureRejection?_ne_keySet
  · rintro ⟨rfl, hfound⟩
    simp [hfound]

end UnverifiedToken

end BearerAccess
