import BearerAccess.Number.IntegerText
import BearerAccess.Proofs.Sequence
import Mathlib.Data.List.TakeWhile
/-!
Which texts denote integers. A text of digits denotes the number that they write, however many zeros
stand in front, and a sign may stand before the digits. Reading gives just what a text denotes as
long as that fits; otherwise the digits that a text begins with tell which fault is found first.
-/
set_option autoImplicit false

namespace BearerAccess

def numberOf (digits : List Char) : Nat := Nat.ofDigitChars 10 digits 0

def leadingDigits (text : List Char) : List Char := text.takeWhile Char.isDigit

/-- Digits, at least one of them, that write a number. -/
structure Writes (text : List Char) (n : Nat) : Prop where
  nonempty : text ≠ []
  digits : ∀ c ∈ text, c.isDigit
  value : numberOf text = n

/-- A text for a number: digits, or a plus sign and digits. -/
inductive DenotesNat : List Char → Nat → Prop where
  | plain {text : List Char} {n : Nat} (h : Writes text n) : DenotesNat text n
  | plus {text : List Char} {n : Nat} (h : Writes text n) : DenotesNat ('+' :: text) n

inductive DenotesInt : List Char → Int → Prop where
  | nat {text : List Char} {n : Nat} (h : DenotesNat text n) : DenotesInt text n
  | minus {text : List Char} {n : Nat} (h : Writes text n) : DenotesInt ('-' :: text) (-n)

section Digits

variable {limit n m : Nat} {excess fault : IntegerFault} {text : List Char}

theorem le_ofDigitChars (n : Nat) (text : List Char) : n ≤ Nat.ofDigitChars 10 text n := by
  induction text generalizing n with
  | nil => simp
  | cons c text ih =>
    rw [Nat.ofDigitChars_cons]
    exact Nat.le_trans (by omega) (ih _)

theorem digitsUpTo_eq (h : n ≤ limit) : digitsUpTo limit excess n text =
    if limit < Nat.ofDigitChars 10 (leadingDigits text) n then .error excess
    else if text.all Char.isDigit then .ok (Nat.ofDigitChars 10 text n)
    else .error .notADigit := by
  induction text generalizing n with
  | nil => simp [digitsUpTo, leadingDigits, Nat.not_lt.2 h]
  | cons c text ih =>
    by_cases hc : c.isDigit
    · have hleading : leadingDigits (c :: text) = c :: leadingDigits text := by
        simp [leadingDigits, hc]
      rw [digitsUpTo, if_pos hc, hleading, Nat.ofDigitChars_cons, Nat.ofDigitChars_cons]
      by_cases hn : 10 * n + (c.toNat - '0'.toNat) ≤ limit
      · simp only [if_pos hn, ih hn, List.all_cons, hc, Bool.true_and]
      · -- more digits do not make the number smaller, so the excess shows in all of them
        have hle := le_ofDigitChars (10 * n + (c.toNat - '0'.toNat)) (leadingDigits text)
        simp only [if_neg hn]
        rw [if_pos (by omega)]
    · simp [digitsUpTo, leadingDigits, hc, Nat.not_lt.2 h]

/-- What is wrong with a text that should be digits for a number up to a limit. -/
inductive DigitFault (limit : Nat) (excess : IntegerFault) (text : List Char) :
    IntegerFault → Prop where
  | excess (h : limit < numberOf (leadingDigits text)) : DigitFault limit excess text excess
  | stray (h : numberOf (leadingDigits text) ≤ limit)
      (hstray : text = [] ∨ ∃ c ∈ text, ¬c.isDigit) : DigitFault limit excess text .notADigit

theorem allDigits_iff :
    (!text.isEmpty && text.all Char.isDigit) = true ↔ text ≠ [] ∧ ∀ c ∈ text, c.isDigit := by
  simp

theorem someDigitsUpTo_eq (limit : Nat) (excess : IntegerFault) (text : List Char) :
    someDigitsUpTo limit excess text =
      if limit < numberOf (leadingDigits text) then .error excess
      else if !text.isEmpty && text.all Char.isDigit then .ok (numberOf text)
      else .error .notADigit := by
  cases text with
  | nil => simp [someDigitsUpTo, numberOf, leadingDigits]
  | cons c text => simp [someDigitsUpTo, digitsUpTo_eq (Nat.zero_le limit), numberOf]

theorem someDigitsUpTo_eq_ok :
    someDigitsUpTo limit excess text = .ok n ↔ Writes text n ∧ n ≤ limit := by
  rw [someDigitsUpTo_eq]
  constructor
  · intro h
    split at h
    · cases h
    · split at h
      · rename_i hlimit hdigits
        cases h
        obtain ⟨hne, hdigits⟩ := allDigits_iff.1 hdigits
        have hall : leadingDigits text = text := List.takeWhile_eq_self_iff.2 hdigits
        exact ⟨⟨hne, hdigits, rfl⟩, by rw [← hall]; omega⟩
      · cases h
  · rintro ⟨⟨hne, hdigits, rfl⟩, hn⟩
    have hall : leadingDigits text = text := List.takeWhile_eq_self_iff.2 hdigits
    rw [hall, if_neg (by omega), if_pos (allDigits_iff.2 ⟨hne, hdigits⟩)]

theorem someDigitsUpTo_eq_error :
    someDigitsUpTo limit excess text = .error fault ↔ DigitFault limit excess text fault := by
  rw [someDigitsUpTo_eq]
  constructor
  · intro h
    split at h
    · rename_i hlimit
      cases h
      exact .excess hlimit
    · rename_i hlimit
      split at h
      · cases h
      · rename_i hstray
        cases h
        rw [allDigits_iff, not_and_or, not_not] at hstray
        exact .stray (by omega) (by simpa using hstray)
  · rintro (hlimit | ⟨hlimit, hstray⟩)
    · rw [if_pos hlimit]
    · have hnot : ¬(!text.isEmpty && text.all Char.isDigit) = true := by
        rw [allDigits_iff, not_and_or, not_not]
        simpa using hstray
      rw [if_neg (by omega), if_neg hnot]

end Digits

section Texts

variable {text : List Char} {n : Nat} {i : Int} {fault : IntegerFault}

inductive NatFault : List Char → IntegerFault → Prop where
  | empty : NatFault [] .empty
  | plain {text : List Char} {fault : IntegerFault} (hne : text ≠ []) (hplus : text.head? ≠ some '+')
      (h : DigitFault maxUnsigned .tooLarge text fault) : NatFault text fault
  | plus {text : List Char} {fault : IntegerFault}
      (h : DigitFault maxUnsigned .tooLarge text fault) : NatFault ('+' :: text) fault

inductive IntFault : List Char → IntegerFault → Prop where
  | empty : IntFault [] .empty
  | plain {text : List Char} {fault : IntegerFault} (hne : text ≠ []) (hplus : text.head? ≠ some '+')
      (hminus : text.head? ≠ some '-') (h : DigitFault maxSigned .tooLarge text fault) :
      IntFault text fault
  | plus {text : List Char} {fault : IntegerFault}
      (h : DigitFault maxSigned .tooLarge text fault) : IntFault ('+' :: text) fault
  | minus {text : List Char} {fault : IntegerFault}
      (h : DigitFault (maxSigned + 1) .tooSmall text fault) : IntFault ('-' :: text) fault

theorem readUnsigned_plain (hne : text ≠ []) (hplus : text.head? ≠ some '+') :
    readUnsigned text = someDigitsUpTo maxUnsigned .tooLarge text := by
  unfold readUnsigned
  split
  · exact absurd rfl hne
  · exact absurd rfl hplus
  · rfl

theorem readSigned_plain (hne : text ≠ []) (hplus : text.head? ≠ some '+')
    (hminus : text.head? ≠ some '-') :
    readSigned text = (someDigitsUpTo maxSigned .tooLarge text).map Int.ofNat := by
  unfold readSigned
  split
  · exact absurd rfl hne
  · exact absurd rfl hplus
  · exact absurd rfl hminus
  · rfl

theorem Writes.head?_ne (h : Writes text n) {c : Char} (hc : c.isDigit = false) :
    text.head? ≠ some c := by
  intro hhead
  have hdigit := h.digits c (List.mem_of_mem_head? hhead)
  rw [hc] at hdigit
  cases hdigit

theorem begins_cases (c : Char) (text : List Char) :
    text = [] ∨ (∃ rest, text = c :: rest) ∨ text ≠ [] ∧ text.head? ≠ some c := by
  cases text with
  | nil => exact .inl rfl
  | cons d rest =>
    by_cases hd : d = c
    · exact .inr (.inl ⟨rest, by rw [hd]⟩)
    · exact .inr (.inr ⟨List.cons_ne_nil _ _, by simpa using hd⟩)

theorem readUnsigned_eq_ok : readUnsigned text = .ok n ↔ DenotesNat text n ∧ n ≤ maxUnsigned := by
  constructor
  · intro h
    rcases begins_cases '+' text with rfl | ⟨rest, rfl⟩ | ⟨hne, hplus⟩
    · cases h
    · obtain ⟨hwrites, hn⟩ := someDigitsUpTo_eq_ok.1 h
      exact ⟨.plus hwrites, hn⟩
    · rw [readUnsigned_plain hne hplus] at h
      obtain ⟨hwrites, hn⟩ := someDigitsUpTo_eq_ok.1 h
      exact ⟨.plain hwrites, hn⟩
  · rintro ⟨hwrites | hwrites, hn⟩
    · rw [readUnsigned_plain hwrites.nonempty (hwrites.head?_ne rfl)]
      exact someDigitsUpTo_eq_ok.2 ⟨hwrites, hn⟩
    · exact someDigitsUpTo_eq_ok.2 ⟨hwrites, hn⟩

theorem readUnsigned_eq_error : readUnsigned text = .error fault ↔ NatFault text fault := by
  constructor
  · intro h
    rcases begins_cases '+' text with rfl | ⟨rest, rfl⟩ | ⟨hne, hplus⟩
    · cases h
      exact .empty
    · exact .plus (someDigitsUpTo_eq_error.1 h)
    · rw [readUnsigned_plain hne hplus] at h
      exact .plain hne hplus (someDigitsUpTo_eq_error.1 h)
  · intro h
    cases h with
    | empty => rfl
    | plain hne hplus h =>
      rw [readUnsigned_plain hne hplus]
      exact someDigitsUpTo_eq_error.2 h
    | plus h => exact someDigitsUpTo_eq_error.2 h

theorem readSigned_eq_ok : readSigned text = .ok i ↔
    DenotesInt text i ∧ -((maxSigned : Int) + 1) ≤ i ∧ i ≤ maxSigned := by
  constructor
  · intro h
    rcases begins_cases '+' text with rfl | ⟨rest, rfl⟩ | ⟨hne, hplus⟩
    · cases h
    · obtain ⟨n, hread, rfl⟩ := map_eq_ok.1 h
      obtain ⟨hwrites, hn⟩ := someDigitsUpTo_eq_ok.1 hread
      exact ⟨.nat (.plus hwrites), by simp only [Int.ofNat_eq_natCast]; omega⟩
    · rcases begins_cases '-' text with rfl | ⟨rest, rfl⟩ | ⟨-, hminus⟩
      · exact absurd rfl hne
      · obtain ⟨n, hread, rfl⟩ := map_eq_ok.1 h
        obtain ⟨hwrites, hn⟩ := someDigitsUpTo_eq_ok.1 hread
        exact ⟨.minus hwrites, by simp only [Int.ofNat_eq_natCast]; omega⟩
      · rw [readSigned_plain hne hplus hminus] at h
        obtain ⟨n, hread, rfl⟩ := map_eq_ok.1 h
        obtain ⟨hwrites, hn⟩ := someDigitsUpTo_eq_ok.1 hread
        exact ⟨.nat (.plain hwrites), by simp only [Int.ofNat_eq_natCast]; omega⟩
  · rintro ⟨(hwrites | hwrites) | hwrites, hlow, hhigh⟩
    · rw [readSigned_plain hwrites.nonempty (hwrites.head?_ne rfl) (hwrites.head?_ne rfl)]
      exact map_eq_ok.2 ⟨_, someDigitsUpTo_eq_ok.2 ⟨hwrites, by omega⟩, rfl⟩
    · exact map_eq_ok.2 ⟨_, someDigitsUpTo_eq_ok.2 ⟨hwrites, by omega⟩, rfl⟩
    · exact map_eq_ok.2 ⟨_, someDigitsUpTo_eq_ok.2 ⟨hwrites, by omega⟩, rfl⟩

theorem readSigned_eq_error : readSigned text = .error fault ↔ IntFault text fault := by
  constructor
  · intro h
    rcases begins_cases '+' text with rfl | ⟨rest, rfl⟩ | ⟨hne, hplus⟩
    · cases h
      exact .empty
    · exact .plus (someDigitsUpTo_eq_error.1 (map_eq_error.1 h))
    · rcases begins_cases '-' text with rfl | ⟨rest, rfl⟩ | ⟨-, hminus⟩
      · exact absurd rfl hne
      · exact .minus (someDigitsUpTo_eq_error.1 (map_eq_error.1 h))
      · rw [readSigned_plain hne hplus hminus] at h
        exact .plain hne hplus hminus (someDigitsUpTo_eq_error.1 (map_eq_error.1 h))
  · intro h
    cases h with
    | empty => rfl
    | plain hne hplus hminus h =>
      rw [readSigned_plain hne hplus hminus]
      exact map_eq_error.2 (someDigitsUpTo_eq_error.2 h)
    | plus h | minus h => exact map_eq_error.2 (someDigitsUpTo_eq_error.2 h)

end Texts

end BearerAccess
