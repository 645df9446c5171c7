import BearerAccess.Proofs.Token.ActiveWindow
import BearerAccess.Session
set_option autoImplicit false

namespace BearerAccess

theorem Verifier.toInt_clampSkew (seconds : Nat) :
    (clampSkew seconds).toInt = min (seconds : Int) maxSigned := by
  have hmax : (maxSigned : Int) = 2 ^ 63 - 1 := by decide
  rw [clampSkew, Epoch.toInt_clamp, hmax]
  omega

namespace AccessClaims

variable {c : AccessClaims}

theorem ActiveAt.widen {now skew wider : Int} (h : c.ActiveAt now skew) (hle : skew ≤ wider) :
    c.ActiveAt now wider := by
  refine ⟨fun t ht => ?_, ?_, fun t ht => ?_⟩
  · have hstarted := h.started t ht
    omega
  · have hunexpired := h.unexpired
    omega
  · have hissued := h.issued t ht
    omega

theorem activeAt_interval (c : AccessClaims) (skew least : Int) :
    ∃ first last, ∀ now, least ≤ now → (c.ActiveAt now skew ↔ first ≤ now ∧ now < last) := by
  have hfrom (bound? : Option Int64) :
      ∃ first, ∀ now, least ≤ now → ((∀ t ∈ bound?, t.toInt - skew ≤ now) ↔ first ≤ now) := by
    cases bound? with
    | none => exact ⟨least, fun now hnow => by simp [hnow]⟩
    | some t => exact ⟨t.toInt - skew, fun now _ => by simp⟩
  obtain ⟨start, hstart⟩ := hfrom c.notBefore?
  obtain ⟨issue, hissue⟩ := hfrom c.issuedAt?
  refine ⟨max start issue, c.expires.toInt + skew, fun now hnow => ?_⟩
  rw [Int.max_le, ← hstart now hnow, ← hissue now hnow]
  constructor
  · intro h
    exact ⟨⟨h.started, fun t ht => Int.sub_right_le_of_le_add (h.issued t ht)⟩, h.unexpired⟩
  · rintro ⟨⟨hs, hi⟩, he⟩
    exact ⟨hs, he, fun t ht => Int.le_add_of_sub_right_le (hi t ht)⟩

variable {issuer : String}

/-- What claims need beside their window. -/
structure BearerOf (c : AccessClaims) (issuer : String) : Prop where
  issuer : c.issuer = issuer
  subject : ∃ sub ∈ c.subject?, sub ≠ ""
  kind : c.kind? = some "Bearer"

/-- Clamping counts a skew beyond the last representable second as that second. -/
theorem BearerOf.fault?_eq_none (h : c.BearerOf issuer) (now : Int64) (skew : Nat) :
    c.fault? issuer now (Verifier.clampSkew skew) = none ↔
      c.ActiveAt now.toInt (min (skew : Int) maxSigned) ∧ now < Int64.maxValue := by
  have hskew := Verifier.toInt_clampSkew skew
  rw [AccessClaims.fault?_eq_none (by rw [hskew]; omega), hskew]
  exact ⟨fun ⟨_, _, _, hpass⟩ => hpass, fun hpass => ⟨h.issuer, h.subject, h.kind, hpass⟩⟩

/-- Claims of a bearer token of the issuer, under a skew of any number of whole seconds: if the skew
can be represented and the clock has not reached the last representable second, they pass exactly if
the clock is in their window, in unbounded integers. Whatever the skew and the clock, they pass only
in their window; under a wider skew they still pass; and the instants at which they pass are those
from one integer until before another. -/
theorem saturation_only_rejects (c : AccessClaims) (issuer : String) (hissuer : c.issuer = issuer)
    (hsubject : ∃ sub ∈ c.subject?, sub ≠ "") (hkind : c.kind? = some "Bearer") :
    let passes (now : Int64) (skew : Nat) : Prop :=
      c.fault? issuer now (Verifier.clampSkew skew) = none
    (∀ now skew, skew ≤ maxSigned → now < Int64.maxValue →
      (passes now skew ↔ c.ActiveAt now.toInt skew)) ∧
    (∀ now skew, passes now skew → c.ActiveAt now.toInt skew) ∧
    (∀ now skew wider, skew ≤ wider → passes now skew → passes now wider) ∧
    ∀ skew, ∃ first last : Int, ∀ now, passes now skew ↔ first ≤ now.toInt ∧ now.toInt < last := by
  intro passes
  have hbearer : c.BearerOf issuer := ⟨hissuer, hsubject, hkind⟩
  have hpasses (now : Int64) (skew : Nat) : passes now skew ↔ _ := hbearer.fault?_eq_none now skew
  refine ⟨?_, ?_, ?_, ?_⟩
  · intro now skew hskew hnow
    rw [hpasses, Int.min_eq_left (by omega)]
    exact and_iff_left hnow
  · intro now skew h
    exact ((hpasses now skew).1 h).1.widen (Int.min_le_left _ _)
  · intro now skew wider hle h
    obtain ⟨hactive, hnow⟩ := (hpasses now skew).1 h
    exact (hpasses now wider).2 ⟨hactive.widen (by omega), hnow⟩
  · intro skew
    obtain ⟨first, last, hinterval⟩ :=
      c.activeAt_interval (min (skew : Int) maxSigned) Int64.minValue.toInt
    refine ⟨first, min last Int64.maxValue.toInt, fun now => ?_⟩
    rw [hpasses, hinterval now.toInt now.le_toInt, Int64.lt_iff_toInt_lt]
    omega

theorem saturation_only_rejects_whole_clock :
    let c : AccessClaims := ⟨"i", some "s", some "Bearer", Int64.maxValue, some Int64.minValue,
      some 15, none, none, none, ""⟩
    c.ActiveAt 5 10 ∧ c.fault? "i" 5 (Verifier.clampSkew 10) = none ∧
      c.fault? "i" 5 (Verifier.clampSkew maxUnsigned) = none ∧ c.ActiveAt 5 maxUnsigned := by
  intro c
  obtain ⟨hexact, honly, hwiden, -⟩ :=
    saturation_only_rejects c "i" rfl ⟨"s", rfl, by decide⟩ rfl
  have hactive : c.ActiveAt 5 10 := ⟨by simp [c], by decide, by simp [c]⟩
  have hpasses := (hexact 5 10 (by decide) (by decide)).2 hactive
  have hwidest := hwiden 5 10 maxUnsigned (by decide) hpasses
  exact ⟨hactive, hpasses, hwidest, honly 5 maxUnsigned hwidest⟩

end AccessClaims

end BearerAccess
