import BearerAccess.Proofs.Token.Classified
import BearerAccess.Text.Blank
set_option autoImplicit false

namespace BearerAccess

open Json

namespace Base64Url

/-- What no segment may have: padding, the letters of another alphabet, blanks, a character that
begins a byte and does not end it, or spare bits that are set. -/
inductive Flaw (text : List Char) : Prop where
  | letter {c : Char} : c ∈ text → c = '=' ∨ c = '+' ∨ c = '/' ∨ isBlank c = true → Flaw text
  | single : text.length % 4 = 1 → Flaw text
  | spare {c : Char} : c ∈ text.getLast? → alphabet.idxOf c % 2 ^ spareBits text.length ≠ 0 →
      Flaw text

theorem Flaw.not_canonical {text : List Char} (h : Flaw text) : ¬Canonical text := by
  have hplain : ∀ c ∈ alphabet, ¬(c = '=' ∨ c = '+' ∨ c = '/' ∨ isBlank c = true) :=
    forall_mem_alphabet.2 (by decide +kernel)
  intro hcanonical
  cases h with
  | letter hc hflaw => exact hplain _ (hcanonical.letters _ hc) hflaw
  | single hlength => exact hcanonical.length hlength
  | spare hc hspare => exact hspare (hcanonical.spare _ hc)

theorem decode?_inj {text text' : List Char} {bytes : Bytes} (h : decode? text = some bytes)
    (h' : decode? text' = some bytes) : text = text' :=
  (decode?_eq_some.1 h).trans (decode?_eq_some.1 h').symm

end Base64Url

namespace UnverifiedToken

open Base64Url

theorem exists_bytes_of_decode {α : Type} {read : Bytes → Option α} {token : String}
    {t : UnverifiedToken α} (h : decode read token = .ok t) : ∃ header payload written,
      token.toList = encode header ++ '.' :: encode payload ++ '.' :: t.segments.signature ∧
        (Doc.ofBytes? header).bind WrittenHeader.ofDoc? = some written ∧
        written.keyed? = some t.header ∧ read payload = some t.claims := by
  obtain ⟨hsegments, ⟨written, hheader, hkeyed⟩, hclaims⟩ := decode_eq_ok h
  rw [Option.bind_assoc] at hheader
  obtain ⟨header, hbytes, hwritten⟩ := Option.bind_eq_some_iff.1 hheader
  obtain ⟨payload, hbytes', hread⟩ := Option.bind_eq_some_iff.1 hclaims
  refine ⟨header, payload, written, ?_, hwritten, hkeyed, hread⟩
  rw [← decode?_eq_some.1 hbytes, ← decode?_eq_some.1 hbytes']
  exact (Segments.of_iff.1 hsegments).whole

/-- Bytes are read back from what they are written as, and from no other text. A text is read
exactly if its letters are those of the alphabet, it is not one longer than a multiple of four and
its spare bits are zero; so a text with a flaw is not, and texts that are read as the same bytes are
the same. Tokens whose headers and payloads are the same bytes are the same up to the last dot; a
token that has been read is written from these bytes and its signature. -/
theorem segments_have_one_spelling :
    (∀ bytes, decode? (encode bytes) = some bytes) ∧
    (∀ text bytes, decode? text = some bytes → encode bytes = text) ∧
    (∀ text, (∃ bytes, decode? text = some bytes) ↔ Canonical text) ∧
    (∀ text, Flaw text → decode? text = none) ∧
    (∀ text text' bytes, decode? text = some bytes → decode? text' = some bytes → text = text') ∧
    (∀ (token token' : String) (s s' : Segments) (header payload : Bytes),
      Segments.ofText? token.toList = some s → Segments.ofText? token'.toList = some s' →
      decode? s.header = some header → decode? s'.header = some header →
      decode? s.payload = some payload → decode? s'.payload = some payload →
      s.header = s'.header ∧ s.payload = s'.payload ∧
        token.toList = s.signed ++ '.' :: s.signature ∧
        token'.toList = s.signed ++ '.' :: s'.signature) ∧
    ∀ (α : Type) (read : Bytes → Option α) (token : String) (t : UnverifiedToken α),
      UnverifiedToken.decode read token = .ok t → ∃ header payload written,
        token.toList = encode header ++ '.' :: encode payload ++ '.' :: t.segments.signature ∧
          (Doc.ofBytes? header).bind WrittenHeader.ofDoc? = some written ∧
          written.keyed? = some t.header ∧ read payload = some t.claims := by
  refine ⟨decode?_encode, fun _ _ h => (decode?_eq_some.1 h).symm, fun _ => exists_decode?_iff,
    fun _ h => decode?_eq_none h.not_canonical, fun _ _ _ => decode?_inj, ?_,
    fun _ _ _ _ => exists_bytes_of_decode⟩
  intro _ _ s s' header payload hs hs' hheader hheader' hpayload hpayload'
  have hfirst : s.header = s'.header := decode?_inj hheader hheader'
  have hsecond : s.payload = s'.payload := decode?_inj hpayload hpayload'
  refine ⟨hfirst, hsecond, (Segments.of_iff.1 hs).whole, ?_⟩
  rw [Segments.signed, hfirst, hsecond]
  exact (Segments.of_iff.1 hs').whole

theorem segments_have_one_spelling_two_signatures :
    let token := "eyJhbGciOiJhIiwia2lkIjoiayJ9.e30.AA"
    let token' := "eyJhbGciOiJhIiwia2lkIjoiayJ9.e30.AQ"
    let s : Segments := ⟨"eyJhbGciOiJhIiwia2lkIjoiayJ9".toList, "e30".toList, "AA".toList⟩
    let s' : Segments := { s with signature := "AQ".toList }
    decode? "YQ".toList = some [97] ∧ encode [97] = "YQ".toList ∧
      decode? "YR".toList = none ∧ decode? "YQ==".toList = none ∧ decode? "Y".toList = none ∧
      decode? "Y\n".toList = none ∧
      token.toList = s.signed ++ '.' :: s.signature ∧
      token'.toList = s.signed ++ '.' :: s'.signature ∧
      (∃ t, UnverifiedToken.decode some token = .ok t ∧ ∃ header payload written,
        token.toList = encode header ++ '.' :: encode payload ++ '.' :: t.segments.signature ∧
          (Doc.ofBytes? header).bind WrittenHeader.ofDoc? = some written ∧
          written.keyed? = some t.header ∧ some payload = some t.claims) := by
  intro token token' s s'
  obtain ⟨-, hback, -, hflaw, -, htokens, hwritten⟩ := segments_have_one_spelling
  have hbyte : decode? "YQ".toList = some [97] := by decide +kernel
  have hsegments : Segments.ofText? token.toList = some s := by decide +kernel
  have hsegments' : Segments.ofText? token'.toList = some s' := by decide +kernel
  have hheader : decode? s.header = some (bytesOf "\x7b\"alg\":\"a\",\"kid\":\"k\"\x7d") := by
    decide +kernel
  have hpayload : decode? s.payload = some (bytesOf "\x7b\x7d") := by decide +kernel
  obtain ⟨-, -, hfirst, hsecond⟩ :=
    htokens _ _ s s' _ _ hsegments hsegments' hheader hheader hpayload hpayload
  have hread : UnverifiedToken.decode some token =
      .ok ⟨⟨"a", "k", none⟩, bytesOf "\x7b\x7d", s⟩ := by decide +kernel
  exact ⟨hbyte, hback _ _ hbyte, hflaw _ (.spare rfl (by decide)),
    hflaw _ (.letter (c := '=') (by decide) (.inl rfl)), hflaw _ (.single rfl),
    hflaw _ (.letter (c := '\n') (by decide) (by decide +kernel)), hfirst, hsecond, _, hread,
    hwritten _ _ _ _ hread⟩

end UnverifiedToken

end BearerAccess
