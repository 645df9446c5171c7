import BearerAccess.Text.Symbols
set_option autoImplicit false

namespace BearerAccess

namespace Symbol

theorem toNat_ofNat_of_lt {n : Nat} (h : n < 256) : (UInt8.ofNat n).toNat = n := by
  rw [UInt8.toNat_ofNat']
  exact Nat.mod_eq_of_lt h

theorem continuation_mark {n : Nat} (h : n < 64) :
    continuation (UInt8.ofNat (n + 128)) = some n := by
  have hn : (UInt8.ofNat (n + 128)).toNat = n + 128 := toNat_ofNat_of_lt (by omega)
  simp only [continuation, hn]
  rw [if_pos (by omega), Nat.add_sub_cancel]

theorem ofScalar_toNat {low high : Nat} {c : Char} (hl : low ≤ c.toNat) (hh : c.toNat ≤ high) :
    ofScalar low high c.toNat = some c := by
  have hv : c.toNat.isValidChar := c.valid
  rw [ofScalar, if_pos ⟨hl, hh, hv⟩, Char.ofNat_toNat]

theorem utf8EncodeChar_eq (c : Char) : String.utf8EncodeChar c =
    if c.toNat ≤ 0x7F then [UInt8.ofNat c.toNat]
    else if c.toNat ≤ 0x7FF then
      [UInt8.ofNat (c.toNat / 64 % 32 + 192), UInt8.ofNat (c.toNat % 64 + 128)]
    else if c.toNat ≤ 0xFFFF then
      [UInt8.ofNat (c.toNat / 4096 % 16 + 224), UInt8.ofNat (c.toNat / 64 % 64 + 128),
        UInt8.ofNat (c.toNat % 64 + 128)]
    else
      [UInt8.ofNat (c.toNat / 262144 % 8 + 240), UInt8.ofNat (c.toNat / 4096 % 64 + 128),
        UInt8.ofNat (c.toNat / 64 % 64 + 128), UInt8.ofNat (c.toNat % 64 + 128)] := rfl

theorem leading_utf8EncodeChar (c : Char) (rest : Bytes) :
    leading (String.utf8EncodeChar c ++ rest) =
      some (c, (String.utf8EncodeChar c).length - 1) := by
  have hmax : c.toNat < 0x110000 := by
    have h := c.valid
    change c.toNat < 0xD800 ∨ 0xDFFF < c.toNat ∧ c.toNat < 0x110000 at h
    omega
  rw [utf8EncodeChar_eq]
  by_cases h1 : c.toNat ≤ 0x7F
  · have ha : (UInt8.ofNat c.toNat).toNat = c.toNat := toNat_ofNat_of_lt (by omega)
    simp only [if_pos h1, List.cons_append, List.nil_append, leading, ha]
    rw [if_pos (by omega), Char.ofNat_toNat]
    rfl
  by_cases h2 : c.toNat ≤ 0x7FF
  · have ha : (UInt8.ofNat (c.toNat / 64 % 32 + 192)).toNat = c.toNat / 64 + 192 := by
      rw [toNat_ofNat_of_lt (by omega)]
      omega
    have hsum : (c.toNat / 64 + 192 - 0xC0) * 64 + c.toNat % 64 = c.toNat := by omega
    simp only [if_neg h1, if_pos h2, List.cons_append, List.nil_append, leading, ha]
    rw [if_neg (by omega), if_neg (by omega), if_pos (by omega)]
    simp only [continuation_mark (Nat.mod_lt _ (by decide : 64 > 0)), Option.bind_eq_bind,
      Option.bind_some, hsum]
    rw [ofScalar_toNat (by omega) (by omega)]
    rfl
  by_cases h3 : c.toNat ≤ 0xFFFF
  · have ha : (UInt8.ofNat (c.toNat / 4096 % 16 + 224)).toNat = c.toNat / 4096 + 224 := by
      rw [toNat_ofNat_of_lt (by omega)]
      omega
    have hsum : ((c.toNat / 4096 + 224 - 0xE0) * 64 + c.toNat / 64 % 64) * 64 + c.toNat % 64 =
        c.toNat := by omega
    simp only [if_neg h1, if_neg h2, if_pos h3, List.cons_append, List.nil_append, leading, ha]
    rw [if_neg (by omega), if_neg (by omega), if_neg (by omega), if_pos (by omega)]
    simp only [continuation_mark (Nat.mod_lt _ (by decide : 64 > 0)), Option.bind_eq_bind,
      Option.bind_some, hsum]
    rw [ofScalar_toNat (by omega) (by omega)]
    rfl
  · have ha : (UInt8.ofNat (c.toNat / 262144 % 8 + 240)).toNat = c.toNat / 262144 + 240 := by
      rw [toNat_ofNat_of_lt (by omega)]
      omega
    have hsum : (((c.toNat / 262144 + 240 - 0xF0) * 64 + c.toNat / 4096 % 64) * 64 +
        c.toNat / 64 % 64) * 64 + c.toNat % 64 = c.toNat := by omega
    simp only [if_neg h1, if_neg h2, if_neg h3, List.cons_append, List.nil_append, leading, ha]
    rw [if_neg (by omega), if_neg (by omega), if_neg (by omega), if_neg (by omega)]
    simp only [continuation_mark (Nat.mod_lt _ (by decide : 64 > 0)), Option.bind_eq_bind,
      Option.bind_some, hsum]
    rw [ofScalar_toNat (by omega) (by omega)]
    rfl

theorem ofBytesAfter_append (a rest : Bytes) :
    ofBytesAfter a.length (a ++ rest) = ofBytes rest := by
  induction a with
  | nil => rfl
  | cons b a ih => exact ih

theorem ofBytes_char (c : Char) (rest : Bytes) :
    ofBytes (String.utf8EncodeChar c ++ rest) = .char c :: ofBytes rest := by
  have hlead := leading_utf8EncodeChar c rest
  obtain ⟨b, more, hmore⟩ := List.exists_cons_of_length_pos
    (by simpa using c.utf8Size_pos : 0 < (String.utf8EncodeChar c).length)
  rw [hmore] at hlead ⊢
  simp only [List.cons_append, ofBytes, ofBytesAfter] at hlead ⊢
  rw [hlead]
  exact congrArg _ (ofBytesAfter_append more rest)

theorem ofBytes_utf8 (text : List Char) : ofBytes (utf8 text) = ofText text := by
  induction text with
  | nil => rfl
  | cons c text ih => rw [utf8_cons, ofBytes_char, ih, ofText, ofText, List.map_cons]

end Symbol

theorem length_bytesOf (s : String) : (bytesOf s).length = s.utf8ByteSize := by
  have h : s.toList.utf8Encode = s.toByteArray := String.utf8Encode_toList
  rw [← String.size_toByteArray, ← h, List.utf8Encode, List.size_toByteArray]
  rfl

theorem utf8_injective {a b : List Char} (h : utf8 a = utf8 b) : a = b := by
  have htext := congrArg (Symbol.text? ∘ Symbol.ofBytes) h
  simpa [Symbol.ofBytes_utf8, Symbol.text?_ofText] using htext

theorem bytesOf_inj {s t : String} : bytesOf s = bytesOf t ↔ s = t :=
  ⟨fun h => String.toList_inj.1 (utf8_injective h), congrArg bytesOf⟩

theorem toNat_ofNat_of_isValidChar {n : Nat} (h : n.isValidChar) : (Char.ofNat n).toNat = n := by
  rw [Char.ofNat, dif_pos h]
  rfl

theorem utf8_ascii {bytes : Bytes} (h : ∀ b ∈ bytes, b < 0x80) :
    utf8 (bytes.map fun b => Char.ofNat b.toNat) = bytes := by
  induction bytes with
  | nil => rfl
  | cons b bytes ih =>
    obtain ⟨hb, hrest⟩ := List.forall_mem_cons.1 h
    have hb : b.toNat < 0x80 := hb
    have hc : (Char.ofNat b.toNat).toNat = b.toNat := toNat_ofNat_of_isValidChar (.inl (by omega))
    have hspelt : String.utf8EncodeChar (Char.ofNat b.toNat) = [b] := by
      rw [Symbol.utf8EncodeChar_eq, hc, if_pos (by omega), UInt8.ofNat_toNat]
    rw [List.map_cons, utf8_cons, hspelt, ih hrest]
    rfl

end BearerAccess
