import BearerAccess.Order.Increasing
import Mathlib.Data.List.Basic
import Mathlib.Data.List.Induction
set_option autoImplicit false

namespace BearerAccess

namespace Increasing

variable {α : Type} {key : α → List Bytes}

theorem ofList_append_singleton (xs : List α) (a : α) :
    ofList key (xs ++ [a]) = insert key a (ofList key xs) := by simp [ofList]

theorem insert_of_last {a : α} {xs : List α} (h : ∀ b ∈ xs, key b < key a) :
    insert key a xs = xs ++ [a] := by
  induction xs with
  | nil => rfl
  | cons b r ih =>
    obtain ⟨hb, hr⟩ := List.forall_mem_cons.1 h
    have hne : key a ≠ key b := by
      intro he
      rw [he] at hb
      exact List.lt_irrefl _ hb
    rw [insert, if_neg hne, if_neg (List.lt_asymm hb), ih hr, List.cons_append]

theorem ofList_of_holds {xs : List α} (h : Holds key xs) : ofList key xs = xs := by
  induction xs using List.reverseRecOn with
  | nil => rfl
  | append_singleton xs a ih =>
    obtain ⟨hxs, -, hlast⟩ := List.pairwise_append.1 h
    rw [ofList_append_singleton, ih hxs, insert_of_last fun b hb => hlast b hb a (.head _)]

theorem Holds.nodup {xs : List α} (h : Holds key xs) : xs.Nodup :=
  h.imp fun {a b} hlt heq => by
    subst heq
    exact List.lt_irrefl _ hlt

theorem Holds.ext {xs ys : List α} (hxs : Holds key xs) (hys : Holds key ys)
    (h : ∀ a, a ∈ xs ↔ a ∈ ys) : xs = ys := by
  have hperm : xs.Perm ys := (List.perm_ext_iff_of_nodup hxs.nodup hys.nodup).2 h
  exact hperm.eq_of_pairwise (fun a b _ _ hab hba => absurd hab (List.lt_asymm hba)) hxs hys

variable (hkey : ∀ a b, key a = key b → a = b)

include hkey

theorem mem_insert {a x : α} {xs : List α} : x ∈ insert key a xs ↔ x = a ∨ x ∈ xs := by
  refine ⟨mem_of_mem_insert key, ?_⟩
  induction xs with
  | nil => simp [insert]
  | cons b r ih =>
    rw [insert]
    split
    · rename_i he
      obtain rfl := hkey a b he
      simp
    · split
      · simp
      · rintro (hx | hx)
        · exact .tail _ (ih (.inl hx))
        · rcases List.mem_cons.1 hx with rfl | hx
          · exact .head _
          · exact .tail _ (ih (.inr hx))

theorem mem_ofList {x : α} {xs : List α} : x ∈ ofList key xs ↔ x ∈ xs := by
  induction xs using List.reverseRecOn with
  | nil => simp [ofList]
  | append_singleton xs a ih =>
    rw [ofList_append_singleton, mem_insert hkey, ih]
    simp [or_comm]

end Increasing

end BearerAccess
