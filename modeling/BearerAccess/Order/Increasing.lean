import BearerAccess.Text.Symbols
/-!
Lists in strictly increasing order of a key. Keys are lists of texts, compared text by text in byte
order. What is inserted replaces an element with the same key, so no two elements share one.
-/
set_option autoImplicit false

namespace BearerAccess

namespace Increasing

variable {α : Type} (key : α → List Bytes)

/-- Puts an element at its place; it replaces one with the same key. -/
def insert (a : α) : List α → List α
  | [] => [a]
  | b :: r =>
    if key a = key b then a :: r
    else if key a < key b then a :: b :: r
    else b :: insert a r

def ofList (xs : List α) : List α := xs.foldl (fun sorted a => insert key a sorted) []

def Holds (xs : List α) : Prop := xs.Pairwise fun a b => key a < key b

theorem mem_of_mem_insert {a x : α} {xs : List α} (h : x ∈ insert key a xs) : x = a ∨ x ∈ xs := by
  induction xs with
  | nil => simpa [insert] using h
  | cons b r ih =>
    rw [insert] at h
    split at h
    · simp only [List.mem_cons] at h ⊢
      exact h.imp id fun hx => .inr hx
    · split at h
      · simpa using h
      · simp only [List.mem_cons] at h ⊢
        rcases h with rfl | h
        · exact .inr (.inl rfl)
        · exact (ih h).imp id .inr

theorem holds_insert {a : α} {xs : List α} (h : Holds key xs) : Holds key (insert key a xs) := by
  induction xs with
  | nil => simp [insert, Holds]
  | cons b r ih =>
    obtain ⟨hb, hr⟩ := List.pairwise_cons.1 h
    rw [insert]
    split
    · rename_i he
      exact List.pairwise_cons.2 ⟨fun x hx => he ▸ hb x hx, hr⟩
    · rename_i he
      split
      · rename_i hl
        refine List.pairwise_cons.2 ⟨fun x hx => ?_, h⟩
        rcases List.mem_cons.1 hx with rfl | hx
        · exact hl
        · exact List.lt_trans hl (hb x hx)
      · rename_i hl
        have hba : key b < key a := by
          by_cases hc : key b < key a
          · exact hc
          · exact absurd (List.le_antisymm hc hl) he
        refine List.pairwise_cons.2 ⟨fun x hx => ?_, ih hr⟩
        rcases mem_of_mem_insert key hx with rfl | hx
        · exact hba
        · exact hb x hx

theorem holds_ofList (xs : List α) : Holds key (ofList key xs) := by
  have h : ∀ (ys sorted : List α), Holds key sorted →
      Holds key (ys.foldl (fun sorted a => insert key a sorted) sorted) := by
    intro ys
    induction ys with
    | nil => exact fun _ h => h
    | cons a r ih => exact fun sorted hs => ih _ (holds_insert key hs)
  exact h xs [] List.Pairwise.nil

end Increasing

end BearerAccess
