import BearerAccess.Http.Form
import BearerAccess.Proofs.KeySet.Lookup
import Mathlib.Data.List.Basic
set_option autoImplicit false

namespace BearerAccess

namespace Percent

theorem value?_digit : ∀ n : Fin 16, value? (digit n) = some n.val := by decide

theorem decode_ofByte (b : UInt8) (rest : List Char) :
    decode (ofByte b ++ rest) = b :: decode rest := by
  have hb := b.toNat_lt
  have hhigh : value? (digit (b.toNat / 16)) = some (b.toNat / 16) :=
    value?_digit ⟨b.toNat / 16, by omega⟩
  have hlow : value? (digit (b.toNat % 16)) = some (b.toNat % 16) :=
    value?_digit ⟨b.toNat % 16, by omega⟩
  have hsum : b.toNat / 16 * 16 + b.toNat % 16 = b.toNat := by omega
  rw [ofByte, List.cons_append, List.cons_append, List.cons_append, List.nil_append, decode]
  simp only [hhigh, hlow, hsum, UInt8.ofNat_toNat]

theorem decode_bytes (bytes : Bytes) (rest : List Char) :
    decode (bytes.flatMap ofByte ++ rest) = bytes ++ decode rest := by
  induction bytes with
  | nil => rfl
  | cons b bytes ih => rw [List.flatMap_cons, List.append_assoc, decode_ofByte, ih, List.cons_append]

theorem decode_plain {c : Char} (h : c ≠ '%') (rest : List Char) :
    decode (c :: rest) = String.utf8EncodeChar c ++ decode rest := by
  rw [decode]
  rintro a b r rfl
  exact absurd rfl h

end Percent

namespace Form

def spaced (c : Char) : Char := if c = '+' then ' ' else c

theorem isPlain_digit : ∀ n : Fin 16, isPlain (Percent.digit n) = true := by decide

theorem spaced_of_plain {c : Char} (h : isPlain c = true) : spaced c = c := by
  refine if_neg ?_
  rintro rfl
  exact absurd h (by decide)

theorem mem_ofByte {b : UInt8} {c : Char} (h : c ∈ Percent.ofByte b) : c = '%' ∨ isPlain c = true := by
  have hb := b.toNat_lt
  simp only [Percent.ofByte, List.mem_cons, List.not_mem_nil, or_false] at h
  rcases h with rfl | rfl | rfl
  · exact .inl rfl
  · exact .inr (isPlain_digit ⟨b.toNat / 16, by omega⟩)
  · exact .inr (isPlain_digit ⟨b.toNat % 16, by omega⟩)

theorem mem_component {text : String} {c : Char} (h : c ∈ component text) :
    c = '+' ∨ c = '%' ∨ isPlain c = true := by
  obtain ⟨x, -, hc⟩ := List.mem_flatMap.1 h
  split at hc
  · exact .inl (List.mem_singleton.1 hc)
  · simp only [Percent.encode, List.flatMap_cons, List.flatMap_nil, List.append_nil] at hc
    split at hc
    · rename_i hplain
      exact .inr (.inr (List.mem_singleton.1 hc ▸ hplain))
    · obtain ⟨b, -, hb⟩ := List.mem_flatMap.1 hc
      exact .inr (mem_ofByte hb)

theorem not_mem_component {c : Char} (hplain : isPlain c = false) (hplus : c ≠ '+')
    (hpercent : c ≠ '%') (text : String) : c ∉ component text := by
  intro h
  rcases mem_component h with rfl | rfl | h
  · exact hplus rfl
  · exact hpercent rfl
  · rw [hplain] at h
    cases h

theorem map_spaced_bytes (bytes : Bytes) :
    (bytes.flatMap Percent.ofByte).map spaced = bytes.flatMap Percent.ofByte := by
  have hkept : ∀ c ∈ bytes.flatMap Percent.ofByte, spaced c = c := by
    intro c hc
    obtain ⟨b, -, hb⟩ := List.mem_flatMap.1 hc
    rcases mem_ofByte hb with rfl | hplain
    · rfl
    · exact spaced_of_plain hplain
  rw [List.map_congr_left hkept, List.map_id']

theorem decode_char (c : Char) (rest : List Char) :
    Percent.decode ((if c = ' ' then ['+'] else Percent.encode isPlain [c]).map spaced ++ rest) =
      String.utf8EncodeChar c ++ Percent.decode rest := by
  split
  · rename_i hc
    subst hc
    exact Percent.decode_plain (by decide) rest
  · simp only [Percent.encode, List.flatMap_cons, List.flatMap_nil, List.append_nil]
    split
    · rename_i hplain
      have hpercent : c ≠ '%' := by
        rintro rfl
        exact absurd hplain (by decide)
      rw [List.map_singleton, spaced_of_plain hplain]
      exact Percent.decode_plain hpercent rest
    · rw [map_spaced_bytes, Percent.decode_bytes]

theorem decode_component (text : String) :
    Percent.decode ((component text).map spaced) = bytesOf text := by
  have hchars (chars : List Char) : Percent.decode
      ((chars.flatMap fun c => if c = ' ' then ['+'] else Percent.encode isPlain [c]).map spaced) =
        utf8 chars := by
    induction chars with
    | nil => simp [Percent.decode]
    | cons c chars ih => rw [List.flatMap_cons, List.map_append, decode_char, ih, utf8_cons]
  exact hchars text.toList

theorem component_injective : Function.Injective component := by
  intro a b h
  rw [← bytesOf_inj, ← decode_component, h, decode_component]

theorem field_injective : Function.Injective field := by
  rintro ⟨n, v⟩ ⟨n', v'⟩ h
  have hequals := not_mem_component (c := '=') (by decide) (by decide) (by decide)
  obtain ⟨hn, -, hv⟩ := (List.append_cons_inj_of_notMem (hequals n) (hequals v)).1 h
  rw [component_injective hn, component_injective hv]

theorem splitOn_encode {fields : List (String × String)} (h : fields ≠ []) :
    (encode fields).splitOn '&' = fields.map field := by
  refine List.splitOn_intercalate '&' (fun part hpart hmem => ?_) (by simpa using h)
  obtain ⟨f, -, rfl⟩ := List.mem_map.1 hpart
  have hnot := not_mem_component (c := '&') (by decide) (by decide) (by decide)
  rcases List.mem_append.1 hmem with hmem | hmem
  · exact hnot _ hmem
  · exact hnot _ ((List.mem_cons.1 hmem).resolve_left (by decide))

theorem encode_cons_ne (f : String × String) (fields : List (String × String)) :
    encode (f :: fields) ≠ encode [] := by
  intro h
  have hparts : [[]] = (f :: fields).map field := by
    rw [← splitOn_encode (List.cons_ne_nil f fields), h]
    rfl
  have hempty : [] = field f := (List.cons.inj hparts).1
  simp [field] at hempty

theorem encode_injective : Function.Injective encode := by
  intro a b h
  match a, b with
  | [], [] => rfl
  | [], f :: b => exact absurd h.symm (encode_cons_ne f b)
  | f :: a, [] => exact absurd h (encode_cons_ne f a)
  | f :: a, g :: b =>
    have hparts := splitOn_encode (List.cons_ne_nil f a)
    rw [h, splitOn_encode (List.cons_ne_nil g b)] at hparts
    exact (List.map_injective_iff.2 field_injective hparts).symm

end Form

end BearerAccess
