import BearerAccess.Token.Window
import Mathlib.Algebra.Group.Int.Defs
/-!
The window in which claims are active, in whole numbers without bounds. Sums that stop at the last
representable second decide it exactly, as long as the skew is not negative and the clock has not
reached that second.
-/
set_option autoImplicit false

namespace BearerAccess

namespace Epoch

theorem toInt_clamp (t : Int) : (clamp t).toInt = max (-2 ^ 63) (min t (2 ^ 63 - 1)) := by
  have hmin : Int64.minValue.toInt = -2 ^ 63 := rfl
  have hmax : Int64.maxValue.toInt = 2 ^ 63 - 1 := rfl
  unfold clamp
  rw [hmin, hmax]
  split
  · rw [hmin]
    omega
  · split
    · rw [hmax]
      omega
    · rw [Int64.toInt_ofInt_of_le (by omega) (by omega)]
      omega

theorem sub_le {t skew now : Int64} (hskew : 0 ≤ skew.toInt) :
    sub t skew ≤ now ↔ t.toInt - skew.toInt ≤ now.toInt := by
  have ht := t.toInt_lt
  have hnow := now.le_toInt
  rw [Int64.le_iff_toInt_le, sub, toInt_clamp]
  omega

theorem lt_add {t skew now : Int64} (hskew : 0 ≤ skew.toInt) :
    now < add t skew ↔ now.toInt < t.toInt + skew.toInt ∧ now < Int64.maxValue := by
  have ht := t.le_toInt
  have hmax : Int64.maxValue.toInt = 2 ^ 63 - 1 := rfl
  rw [Int64.lt_iff_toInt_lt, Int64.lt_iff_toInt_lt, add, toInt_clamp, hmax]
  omega

theorem le_add {t skew now : Int64} (hskew : 0 ≤ skew.toInt) :
    t ≤ add now skew ↔ t.toInt ≤ now.toInt + skew.toInt := by
  have ht := t.toInt_lt
  have hnow := now.le_toInt
  rw [Int64.le_iff_toInt_le, add, toInt_clamp]
  omega

end Epoch

namespace AccessClaims

/-- A clock and a skew that claims are active for, in unbounded integers. -/
structure ActiveAt (c : AccessClaims) (now skew : Int) : Prop where
  started : ∀ t ∈ c.notBefore?, t.toInt - skew ≤ now
  unexpired : now < c.expires.toInt + skew
  issued : ∀ t ∈ c.issuedAt?, t.toInt ≤ now + skew

variable {c : AccessClaims} {issuer : String} {now skew : Int64}

theorem started_iff (hskew : 0 ≤ skew.toInt) :
    c.started now skew = true ↔ ∀ t ∈ c.notBefore?, t.toInt - skew.toInt ≤ now.toInt := by
  unfold started
  cases c.notBefore? with
  | none => simp
  | some t => simp [Int64.not_lt, Epoch.sub_le hskew]

theorem fromFuture_iff (hskew : 0 ≤ skew.toInt) :
    c.fromFuture now skew = false ↔ ∀ t ∈ c.issuedAt?, t.toInt ≤ now.toInt + skew.toInt := by
  unfold fromFuture
  cases c.issuedAt? with
  | none => simp
  | some t => simp [Int64.not_lt, Epoch.le_add hskew]

/-- The claims that pass: those of a bearer token of the issuer, with a subject, in their window. A
clock at the last representable second finds every token expired. -/
theorem fault?_eq_none (hskew : 0 ≤ skew.toInt) : c.fault? issuer now skew = none ↔
    c.issuer = issuer ∧ (∃ sub ∈ c.subject?, sub ≠ "") ∧ c.kind? = some "Bearer" ∧
      c.ActiveAt now.toInt skew.toInt ∧ now < Int64.maxValue := by
  have hsubject : c.subject ≠ "" ↔ ∃ sub ∈ c.subject?, sub ≠ "" := by
    unfold subject
    cases c.subject? <;> simp
  have hexpired : ¬Epoch.add c.expires skew ≤ now ↔
      now.toInt < c.expires.toInt + skew.toInt ∧ now < Int64.maxValue := by
    rw [Int64.not_le, Epoch.lt_add hskew]
  have hactive : c.ActiveAt now.toInt skew.toInt ↔ c.started now skew = true ∧
      now.toInt < c.expires.toInt + skew.toInt ∧ c.fromFuture now skew = false := by
    rw [started_iff hskew, fromFuture_iff hskew]
    exact ⟨fun h => ⟨h.started, h.unexpired, h.issued⟩, fun ⟨hs, he, hi⟩ => ⟨hs, he, hi⟩⟩
  have hnext {p : Prop} [Decidable p] {fault : ClaimFault} {rest : Option ClaimFault} :
      (if p then some fault else rest) = none ↔ ¬p ∧ rest = none := by
    split <;> simp [*]
  rw [hactive, ← hsubject]
  simp only [fault?, bearerKind, hnext, Decidable.not_not, hexpired, Bool.not_eq_true',
    Bool.not_eq_false, Bool.not_eq_true, ne_eq]
  grind

end AccessClaims

end BearerAccess
