import BearerAccess.Proofs.Sequence
import BearerAccess.Proofs.Text.Utf8
import BearerAccess.Text.Base64Url
import Mathlib.Algebra.Group.Nat.Defs
/-!
Base64 read back: bytes are decoded from what they are encoded as and from no other text, and no
other character than the 64 of the alphabet is written. Whether a text is read is seen from its
characters, its length and the last bits of its last character.
-/
set_option autoImplicit false

namespace BearerAccess.Base64Url

theorem lt_of_mem_sextets {bytes : Bytes} {n : Nat} (h : n ∈ sextets bytes) : n < 64 := by
  induction bytes using sextets.induct with
  | case1 a b c r ih =>
    have ha := a.toNat_lt
    have hb := b.toNat_lt
    have hc := c.toNat_lt
    simp only [sextets, List.mem_cons] at h
    rcases h with rfl | rfl | rfl | rfl | h
    · omega
    · omega
    · omega
    · omega
    · exact ih h
  | case2 a b =>
    have ha := a.toNat_lt
    have hb := b.toNat_lt
    simp only [sextets, List.mem_cons, List.not_mem_nil, or_false] at h
    omega
  | case3 a =>
    have ha := a.toNat_lt
    simp only [sextets, List.mem_cons, List.not_mem_nil, or_false] at h
    omega
  | case4 => cases h

theorem ofNat_eq_of_toNat {n : Nat} {b : UInt8} (h : n = b.toNat) : UInt8.ofNat n = b := by
  rw [h, UInt8.ofNat_toNat]

theorem ofSextets?_sextets (bytes : Bytes) : ofSextets? (sextets bytes) = some bytes := by
  induction bytes using sextets.induct with
  | case1 a b c r ih =>
    have ha : a.toNat / 4 * 4 + (a.toNat % 4 * 16 + b.toNat / 16) / 16 = a.toNat := by
      have := b.toNat_lt
      omega
    have hb : (a.toNat % 4 * 16 + b.toNat / 16) % 16 * 16 + (b.toNat % 16 * 4 + c.toNat / 64) / 4 =
        b.toNat := by
      have := b.toNat_lt
      have := c.toNat_lt
      omega
    have hc : (b.toNat % 16 * 4 + c.toNat / 64) % 4 * 64 + c.toNat % 64 = c.toNat := by
      have := c.toNat_lt
      omega
    simp only [sextets, ofSextets?, ih, Option.map_some, ofNat_eq_of_toNat ha, ofNat_eq_of_toNat hb,
      ofNat_eq_of_toNat hc]
  | case2 a b =>
    have ha : a.toNat / 4 * 4 + (a.toNat % 4 * 16 + b.toNat / 16) / 16 = a.toNat := by
      have := b.toNat_lt
      omega
    have hb : (a.toNat % 4 * 16 + b.toNat / 16) % 16 * 16 + b.toNat % 16 * 4 / 4 = b.toNat := by
      have := b.toNat_lt
      omega
    have hrest : b.toNat % 16 * 4 % 4 = 0 := by omega
    simp only [sextets, ofSextets?, if_pos hrest, ofNat_eq_of_toNat ha, ofNat_eq_of_toNat hb]
  | case3 a =>
    have ha : a.toNat / 4 * 4 + a.toNat % 4 * 16 / 16 = a.toNat := by omega
    have hrest : a.toNat % 4 * 16 % 16 = 0 := by omega
    simp only [sextets, ofSextets?, if_pos hrest, ofNat_eq_of_toNat ha]
  | case4 => rfl

theorem mapM_value?_digit {ns : List Nat} (h : ∀ n ∈ ns, n < 64) :
    (ns.map digit).mapM value? = some ns := by
  induction ns with
  | nil => rfl
  | cons n ns ih =>
    obtain ⟨hn, hrest⟩ := List.forall_mem_cons.1 h
    have hdigit : value? (digit n) = some n := value?_digit ⟨n, hn⟩
    rw [List.map_cons, List.mapM_cons, hdigit, ih hrest]
    rfl

theorem decode?_encode (bytes : Bytes) : decode? (encode bytes) = some bytes := by
  rw [decode?, encode, mapM_value?_digit fun n => lt_of_mem_sextets]
  exact ofSextets?_sextets bytes

section Canonical

open BearerAccess.Symbol (toNat_ofNat_of_lt)

theorem digit_of_value? {c : Char} {n : Nat} (h : value? c = some n) : n < 64 ∧ digit n = c := by
  have hcode {m : Nat} (hm : m = c.toNat) : Char.ofNat m = c := by rw [hm, Char.ofNat_toNat]
  simp only [value?] at h
  split at h
  · obtain rfl := Option.some.inj h
    exact ⟨by omega, by rw [digit, if_pos (by omega), hcode (by omega)]⟩
  split at h
  · obtain rfl := Option.some.inj h
    refine ⟨by omega, ?_⟩
    rw [digit, if_neg (by omega), if_pos (by omega), hcode (by omega)]
  split at h
  · obtain rfl := Option.some.inj h
    refine ⟨by omega, ?_⟩
    rw [digit, if_neg (by omega), if_neg (by omega), if_pos (by omega), hcode (by omega)]
  split at h
  · rename_i hc
    obtain rfl := Option.some.inj h
    exact ⟨by decide, hc.symm⟩
  split at h
  · rename_i hc
    obtain rfl := Option.some.inj h
    exact ⟨by decide, hc.symm⟩
  · cases h

theorem map_digit_of_mapM {text : List Char} {ns : List Nat} (h : text.mapM value? = some ns) :
    (∀ n ∈ ns, n < 64) ∧ ns.map digit = text := by
  have hread := mapM_eq_some.1 h
  clear h
  induction hread with
  | nil => exact ⟨by simp, rfl⟩
  | cons hc _ ih =>
    obtain ⟨hlt, hdigit⟩ := digit_of_value? hc
    obtain ⟨hall, hmap⟩ := ih
    exact ⟨List.forall_mem_cons.2 ⟨hlt, hall⟩, by rw [List.map_cons, hdigit, hmap]⟩

/-- Sextets that are read as bytes are the sextets of these bytes: no unused bit is set. -/
theorem sextets_of_ofSextets? {ns : List Nat} {bytes : Bytes} (hlt : ∀ n ∈ ns, n < 64)
    (h : ofSextets? ns = some bytes) : sextets bytes = ns := by
  induction ns using ofSextets?.induct generalizing bytes with
  | case1 a b c d r ih =>
    simp only [List.forall_mem_cons] at hlt
    obtain ⟨ha, hb, hc, hd, hr⟩ := hlt
    simp only [ofSextets?, Option.map_eq_some_iff] at h
    obtain ⟨rest, hrest, rfl⟩ := h
    simp only [sextets, toNat_ofNat_of_lt (show a * 4 + b / 16 < 256 by omega),
      toNat_ofNat_of_lt (show b % 16 * 16 + c / 4 < 256 by omega),
      toNat_ofNat_of_lt (show c % 4 * 64 + d < 256 by omega), ih hr hrest]
    simp only [List.cons.injEq, and_true]
    omega
  | case2 a b c hrest =>
    simp only [List.forall_mem_cons] at hlt
    obtain ⟨ha, hb, hc, -⟩ := hlt
    rw [ofSextets?, if_pos hrest] at h
    obtain rfl := Option.some.inj h
    simp only [sextets, toNat_ofNat_of_lt (show a * 4 + b / 16 < 256 by omega),
      toNat_ofNat_of_lt (show b % 16 * 16 + c / 4 < 256 by omega), List.cons.injEq, and_true]
    omega
  | case3 a b c hrest =>
    rw [ofSextets?, if_neg hrest] at h
    cases h
  | case4 a b hrest =>
    simp only [List.forall_mem_cons] at hlt
    obtain ⟨ha, hb, -⟩ := hlt
    rw [ofSextets?, if_pos hrest] at h
    obtain rfl := Option.some.inj h
    simp only [sextets, toNat_ofNat_of_lt (show a * 4 + b / 16 < 256 by omega), List.cons.injEq,
      and_true]
    omega
  | case5 a b hrest =>
    rw [ofSextets?, if_neg hrest] at h
    cases h
  | case6 => cases h
  | case7 =>
    obtain rfl := Option.some.inj h
    rfl

theorem decode?_eq_some {text : List Char} {bytes : Bytes} :
    decode? text = some bytes ↔ text = encode bytes := by
  constructor
  · intro h
    obtain ⟨ns, hns, hbytes⟩ := Option.bind_eq_some_iff.1 h
    obtain ⟨hlt, hmap⟩ := map_digit_of_mapM hns
    rw [encode, sextets_of_ofSextets? hlt hbytes, hmap]
  · rintro rfl
    exact decode?_encode bytes

end Canonical

section Accepted

def alphabet : List Char :=
  "ABCDEFGHIJKLMNOPQRSTUVWXYZabcdefghijklmnopqrstuvwxyz0123456789-_".toList

/-- The bits of that many characters which no byte takes up; they end the last character. -/
def spareBits (characters : Nat) : Nat := 6 * characters % 8

/-- What a text has to be like for bytes to be encoded as it. -/
structure Canonical (text : List Char) : Prop where
  letters : ∀ c ∈ text, c ∈ alphabet
  length : text.length % 4 ≠ 1
  spare : ∀ c ∈ text.getLast?, alphabet.idxOf c % 2 ^ spareBits text.length = 0

theorem alphabet_eq : alphabet = (List.finRange 64).map fun n => digit n := by decide

theorem forall_mem_alphabet {p : Char → Prop} :
    (∀ c ∈ alphabet, p c) ↔ ∀ n : Fin 64, p (digit n) := by
  simp [alphabet_eq]

theorem digit_mem_alphabet : ∀ n : Fin 64, digit n ∈ alphabet :=
  forall_mem_alphabet.1 fun _ => id

theorem idxOf_digit : ∀ n : Fin 64, alphabet.idxOf (digit n) = n.val := by decide

theorem digit_idxOf : ∀ c ∈ alphabet, digit (alphabet.idxOf c) = c :=
  forall_mem_alphabet.2 fun n => congrArg digit (idxOf_digit n)

theorem exists_ofSextets?_iff {ns : List Nat} : (∃ bytes, ofSextets? ns = some bytes) ↔
    ns.length % 4 ≠ 1 ∧ ∀ n ∈ ns.getLast?, n % 2 ^ spareBits ns.length = 0 := by
  induction ns using ofSextets?.induct with
  | case1 a b c d r ih =>
    have hspare : spareBits (r.length + 4) = spareBits r.length := by
      unfold spareBits
      omega
    have hread : (∃ bytes, ofSextets? (a :: b :: c :: d :: r) = some bytes) ↔
        ∃ bytes, ofSextets? r = some bytes := by
      cases hr : ofSextets? r <;> simp [ofSextets?, hr]
    rw [hread, ih]
    refine and_congr (by simp only [List.length_cons]; omega) ?_
    cases r with
    | nil => simp [spareBits, Nat.mod_one]
    | cons e r =>
      simp only [List.getLast?_cons_cons, List.length_cons] at hspare ⊢
      rw [← hspare]
  | case2 a b c hrest => simp [ofSextets?, hrest, spareBits]
  | case3 a b c hrest => simp [ofSextets?, hrest, spareBits]
  | case4 a b hrest => simp [ofSextets?, hrest, spareBits]
  | case5 a b hrest => simp [ofSextets?, hrest, spareBits]
  | case6 => simp [ofSextets?]
  | case7 => simp [ofSextets?]

theorem exists_digits {text : List Char} (h : ∀ c ∈ text, c ∈ alphabet) :
    ∃ ns : List Nat, (∀ n ∈ ns, n < 64) ∧ ns.map digit = text := by
  refine ⟨text.map alphabet.idxOf, ?_, ?_⟩
  · exact List.forall_mem_map.2 fun c hc => List.idxOf_lt_length_of_mem (h c hc)
  · have hback : text.map (digit ∘ alphabet.idxOf) = text.map id :=
      List.map_congr_left fun c hc => digit_idxOf c (h c hc)
    rw [List.map_map, hback, List.map_id]

theorem canonical_map_digit {ns : List Nat} (h : ∀ n ∈ ns, n < 64) : Canonical (ns.map digit) ↔
    ns.length % 4 ≠ 1 ∧ ∀ n ∈ ns.getLast?, n % 2 ^ spareBits ns.length = 0 := by
  have hletters : ∀ c ∈ ns.map digit, c ∈ alphabet :=
    List.forall_mem_map.2 fun n hn => digit_mem_alphabet ⟨n, h n hn⟩
  have hlast : (∀ c ∈ (ns.map digit).getLast?, alphabet.idxOf c % 2 ^ spareBits ns.length = 0) ↔
      ∀ n ∈ ns.getLast?, n % 2 ^ spareBits ns.length = 0 := by
    rw [List.getLast?_map]
    cases hn : ns.getLast? with
    | none => simp
    | some n =>
      have hdigit : alphabet.idxOf (digit n) = n :=
        idxOf_digit ⟨n, h n (List.mem_of_getLast? hn)⟩
      simp [hdigit]
  rw [← hlast]
  constructor
  · rintro ⟨-, hlength, hspare⟩
    rw [List.length_map] at hlength hspare
    exact ⟨hlength, hspare⟩
  · rintro ⟨hlength, hspare⟩
    rw [← List.length_map digit] at hlength hspare
    exact ⟨hletters, hlength, hspare⟩

theorem mem_alphabet_of_mem_encode {c : Char} {bytes : Bytes} (h : c ∈ encode bytes) :
    c ∈ alphabet := by
  obtain ⟨n, hn, rfl⟩ := List.mem_map.1 h
  exact digit_mem_alphabet ⟨n, lt_of_mem_sextets hn⟩

theorem not_mem_encode {c : Char} (h : c ∉ alphabet) (bytes : Bytes) : c ∉ encode bytes :=
  fun hc => h (mem_alphabet_of_mem_encode hc)

theorem exists_decode?_iff {text : List Char} :
    (∃ bytes, decode? text = some bytes) ↔ Canonical text := by
  by_cases hletters : ∀ c ∈ text, c ∈ alphabet
  · obtain ⟨ns, hns, rfl⟩ := exists_digits hletters
    rw [decode?, mapM_value?_digit hns, Option.bind_some, exists_ofSextets?_iff,
      canonical_map_digit hns]
  · refine iff_of_false ?_ fun h => hletters h.letters
    rintro ⟨bytes, hbytes⟩
    obtain rfl := decode?_eq_some.1 hbytes
    exact hletters fun _ => mem_alphabet_of_mem_encode

theorem decode?_eq_none {text : List Char} (h : ¬Canonical text) : decode? text = none :=
  Option.eq_none_iff_forall_ne_some.2 fun bytes hbytes =>
    h (exists_decode?_iff.1 ⟨bytes, hbytes⟩)

end Accepted

end BearerAccess.Base64Url
