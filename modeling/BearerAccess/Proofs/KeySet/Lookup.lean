import BearerAccess.KeySet
import BearerAccess.Proofs.Text.Utf8
import Mathlib.Data.List.Induction
set_option autoImplicit false

namespace BearerAccess

namespace Jwk

theorem key_inj {a b : Jwk} : a.key = b.key ↔ a.kid = b.kid := by
  rw [key, key, List.singleton_inj, bytesOf_inj]

theorem find?_insert (a : Jwk) (xs : List Jwk) (kid : String) :
    (Increasing.insert Jwk.key a xs).find? (·.kid == kid) =
      if a.kid = kid then some a else xs.find? (·.kid == kid) := by
  induction xs with
  | nil => by_cases ha : a.kid = kid <;> simp [Increasing.insert, ha]
  | cons b xs ih =>
    rw [Increasing.insert]
    split
    · rename_i hkey
      have hkid : a.kid = b.kid := key_inj.1 hkey
      by_cases ha : a.kid = kid
      · simp [ha]
      · have hb : b.kid ≠ kid := hkid ▸ ha
        simp [ha, hb]
    · rename_i hkey
      have hkid : a.kid ≠ b.kid := mt key_inj.2 hkey
      split
      · by_cases ha : a.kid = kid <;> simp [ha]
      · rw [List.find?_cons, List.find?_cons, ih]
        by_cases ha : a.kid = kid
        · have hb : (b.kid == kid) = false := by simpa [ha] using Ne.symm hkid
          simp [ha, hb]
        · simp [ha]

end Jwk

theorem KeySet.find?_ofKeys (keys : List Jwk) (kid : String) : (KeySet.ofKeys keys).find? kid =
    (keys.filter fun k => k.verifies && k.kid == kid).getLast? := by
  have hfound : ∀ xs : List Jwk, (Increasing.ofList Jwk.key xs).find? (·.kid == kid) =
      (xs.filter (·.kid == kid)).getLast? := by
    intro xs
    induction xs using List.reverseRecOn with
    | nil => rfl
    | append_singleton xs a ih =>
      have hstep : Increasing.ofList Jwk.key (xs ++ [a]) =
          Increasing.insert Jwk.key a (Increasing.ofList Jwk.key xs) := by
        simp [Increasing.ofList]
      rw [hstep, Jwk.find?_insert, ih, List.filter_append]
      by_cases ha : a.kid = kid <;> simp [ha]
  rw [KeySet.find?, KeySet.ofKeys, hfound, List.filter_filter]
  simp only [Bool.and_comm]

theorem KeySet.find?_last {before after : List Jwk} {key : Jwk} (hkey : key.verifies)
    (hafter : ∀ later ∈ after, later.verifies → later.kid ≠ key.kid) :
    (KeySet.ofKeys (before ++ key :: after)).find? key.kid = some key := by
  have hnone : after.filter (fun k => k.verifies && k.kid == key.kid) = [] :=
    List.filter_eq_nil_iff.2 fun later hl => by simpa using hafter later hl
  rw [KeySet.find?_ofKeys, List.filter_append, List.filter_cons_of_pos (by simp [hkey]), hnone,
    List.getLast?_append]
  rfl

end BearerAccess
