import BearerAccess.Proofs.Json.Members
import BearerAccess.Proofs.Text.Utf8
import BearerAccess.Proofs.Token.Families
import BearerAccess.Proofs.Token.Stages
/-!
A token is read twice. The first reading cuts it into three at all its dots and gives the header
that selects a key and the claims that are judged; the second cuts it at its last two dots, reads
the header anew, and puts to the signature check all that stands before the last dot. What both
readings find is compared here, for every text that the first one accepts.
-/
set_option autoImplicit false

namespace BearerAccess

open Json

theorem not_mem_of_mem_splitOn {c : Char} {text part : List Char} (h : part ∈ text.splitOn c) :
    c ∉ part := by
  induction text generalizing part with
  | nil =>
    obtain rfl : part = [] := by simpa using h
    exact List.not_mem_nil
  | cons d text ih =>
    rw [List.splitOn_cons_eq_if_modifyHead] at h
    obtain ⟨first, rest, hsplit⟩ := List.exists_cons_of_ne_nil (List.splitOn_ne_nil c text)
    rw [hsplit] at h ih
    split at h
    · rcases List.mem_cons.1 h with rfl | h
      · exact List.not_mem_nil
      · exact ih h
    · rename_i hd
      rcases List.mem_cons.1 h with rfl | h
      · exact mt List.mem_cons.1 (not_or.2 ⟨fun he => hd (by simp [he]), ih (.head _)⟩)
      · exact ih (.tail _ h)

def cutLast? : List Char → Option (List Char × List Char)
  | [] => none
  | c :: r =>
    match cutLast? r with
    | some (before, after) => some (c :: before, after)
    | none => if c = '.' then some ([], r) else none

theorem cutLast?_eq_none {text : List Char} : cutLast? text = none ↔ '.' ∉ text := by
  induction text with
  | nil => simp [cutLast?]
  | cons c r ih =>
    cases h : cutLast? r with
    | none =>
      have hr := ih.1 h
      by_cases hc : c = '.' <;> simp [cutLast?, h, hc, hr, Ne.symm]
    | some p =>
      have hr : '.' ∈ r := Classical.not_not.1 fun hn => by simp [ih.2 hn] at h
      simp [cutLast?, h, hr]

theorem cutLast?_append (before : List Char) {after : List Char} (h : '.' ∉ after) :
    cutLast? (before ++ '.' :: after) = some (before, after) := by
  induction before with
  | nil => simp [cutLast?, cutLast?_eq_none.2 h]
  | cons c before ih => simp [cutLast?, ih]

theorem cutLast?_eq_some {text before after : List Char} :
    cutLast? text = some (before, after) ↔ text = before ++ '.' :: after ∧ '.' ∉ after := by
  constructor
  · intro h
    induction text generalizing before with
    | nil => cases h
    | cons c r ih =>
      simp only [cutLast?] at h
      split at h
      · rename_i before' after' hr
        obtain ⟨rfl, rfl⟩ : c :: before' = before ∧ after' = after := by simpa using h
        obtain ⟨rfl, hafter⟩ := ih hr
        exact ⟨rfl, hafter⟩
      · rename_i hr
        split at h
        · rename_i hc
          obtain ⟨rfl, rfl⟩ : [] = before ∧ r = after := by simpa using h
          exact ⟨by simp [hc], cutLast?_eq_none.1 hr⟩
        · cases h
  · rintro ⟨rfl, h⟩
    exact cutLast?_append before h

namespace Segments

theorem ofText?_eq_some {text : List Char} {s : Segments} : ofText? text = some s ↔
    text = s.signed ++ '.' :: s.signature ∧
      '.' ∉ s.header ∧ '.' ∉ s.payload ∧ '.' ∉ s.signature := by
  obtain ⟨header, payload, signature⟩ := s
  constructor
  · intro h
    have hsplit : text.splitOn '.' = [header, payload, signature] := by
      simp only [ofText?] at h
      split at h
      · rename_i a b c hs
        obtain ⟨rfl, rfl, rfl⟩ : a = header ∧ b = payload ∧ c = signature := by simpa using h
        exact hs
      · cases h
    have hpart (part : List Char) (hp : part ∈ [header, payload, signature]) : '.' ∉ part :=
      not_mem_of_mem_splitOn (hsplit ▸ hp)
    refine ⟨?_, hpart _ (by simp), hpart _ (by simp), hpart _ (by simp)⟩
    have htext : ['.'].intercalate (text.splitOn '.') = text := List.intercalate_splitOn '.'
    rw [← htext, hsplit]
    simp [signed, List.intercalate]
  · rintro ⟨rfl, hh, hp, hs⟩
    simp only [signed, List.append_assoc, List.cons_append, ofText?,
      List.splitOn_append_cons_self_of_not_mem hh, List.splitOn_append_cons_self_of_not_mem hp,
      List.splitOn_eq_singleton hs]

/-- Cutting at all dots and cutting at the last two agree wherever the first gives three parts. -/
theorem ofText?_iff_cutLast? {text : List Char} {s : Segments} : ofText? text = some s ↔
    cutLast? text = some (s.signed, s.signature) ∧
      cutLast? s.signed = some (s.header, s.payload) ∧ '.' ∉ s.header := by
  rw [ofText?_eq_some, cutLast?_eq_some, cutLast?_eq_some]
  constructor
  · rintro ⟨ht, hh, hp, hs⟩
    exact ⟨⟨ht, hs⟩, ⟨rfl, hp⟩, hh⟩
  · rintro ⟨⟨ht, hs⟩, ⟨-, hp⟩, hh⟩
    exact ⟨ht, hh, hp, hs⟩

end Segments

theorem Segments.eq_of_signed {s t : Segments} (hs : '.' ∉ s.payload) (ht : '.' ∉ t.payload)
    (h : utf8 s.signed = utf8 t.signed) : s.header = t.header ∧ s.payload = t.payload := by
  have hcut := cutLast?_append s.header hs
  have hcut' := cutLast?_append t.header ht
  have hsigned : s.header ++ '.' :: s.payload = t.header ++ '.' :: t.payload := utf8_injective h
  rw [hsigned, hcut'] at hcut
  simpa [eq_comm] using hcut

theorem Json.Doc.lookup_fields? {members : List (List Piece × Doc)} {names other : List String}
    {fields fields' : Fields} (h : (Doc.object members).fields? names = some fields)
    (h' : (Doc.object members).fields? other = some fields') {name : String}
    (hn : name ∈ names) (hn' : name ∈ other) : fields.lookup name = fields'.lookup name := by
  have hfields {names : List String} {fields : Fields}
      (h : (Doc.object members).fields? names = some fields) (hn : name ∈ names) :
      ∃ all, named? members = some all ∧ fields.lookup name = all.lookup name := by
    obtain ⟨all, hall, hknown⟩ := Option.bind_eq_some_iff.1 h
    simp only at hknown
    split at hknown
    · obtain rfl := Option.some.inj hknown
      exact ⟨all, hall, Fields.lookup_filter (by simpa using hn)⟩
    · cases hknown
  obtain ⟨all, hall, he⟩ := hfields h hn
  obtain ⟨all', hall', he'⟩ := hfields h' hn'
  obtain rfl := Option.some.inj (hall.symm.trans hall')
  exact he.trans he'.symm

def Json.Doc.algorithm? (d : Doc) : Option Algorithm :=
  if Registered.isHeader d then do
    let fields ← d.fields? Registered.headerFields
    let written ← fields.lookup "alg"
    Algorithm.all.find? fun a => Registered.isNameOf [a.name] Registered.isNull written
  else none

theorem WrittenHeader.alg_of_ofDoc? {d : Doc} {w : WrittenHeader} (h : ofDoc? d = some w) :
    ∃ fields written, d.fields? ["alg", "kid", "typ"] = some fields ∧
      fields.lookup "alg" = some written ∧ written.text? = some w.alg := by
  simp only [ofDoc?, Fields.required, Option.bind_eq_bind, Option.bind_eq_some_iff] at h
  obtain ⟨fields, hf, alg, ⟨written, hl, ha⟩, _, _, _, _, hw⟩ := h
  obtain rfl : _ = w := Option.some.inj hw
  exact ⟨fields, written, hf, hl, ha⟩

theorem WrittenHeader.alg_of_keyed? {w : WrittenHeader} {h : TokenHeader} (hk : w.keyed? = some h) :
    h.alg = w.alg := by
  unfold WrittenHeader.keyed? at hk
  split at hk
  · split at hk
    · cases hk
    · obtain rfl := Option.some.inj hk
      rfl
  · cases hk

theorem Registered.isNameOf_text {written : Doc} {text : String}
    (h : written.text? = some text) (a : Algorithm) :
    isNameOf [a.name] isNull written = (a.name == text) := by
  cases written with
  | string s =>
    obtain ⟨chars, hs, rfl⟩ : ∃ chars, spelling? s = some chars ∧ String.ofList chars = text := by
      simpa [Doc.text?] using h
    have hname : chars = a.name.toList ↔ a.name = String.ofList chars := by
      rw [← String.toList_inj, String.toList_ofList, eq_comm]
    rw [Bool.eq_iff_iff]
    simp [isNameOf, hs, hname]
  | null | bool | number | array | object => cases h

theorem Json.Doc.algorithm?_eq {d : Doc} {w : WrittenHeader} (hw : WrittenHeader.ofDoc? d = some w)
    (hd : Registered.isHeader d) : d.algorithm? = Algorithm.ofName? w.alg := by
  obtain ⟨fields, written, hf, hl, htext⟩ := WrittenHeader.alg_of_ofDoc? hw
  cases d with
  | object members =>
    obtain ⟨fields', hf'⟩ : ∃ fields',
        (Doc.object members).fields? Registered.headerFields = some fields' := by
      cases hf' : (Doc.object members).fields? Registered.headerFields with
      | none => simp [Registered.isHeader, hf'] at hd
      | some fields' => exact ⟨fields', rfl⟩
    have hl' : fields'.lookup "alg" = some written :=
      (Doc.lookup_fields? hf' hf (by decide) (by decide)).trans hl
    simp [algorithm?, hd, hf', hl', Registered.isNameOf_text htext, Algorithm.ofName?]
  | null | bool | number | string | array => cases hd

/-- What the signature check is asked about a token. -/
structure Question where
  algorithm : Algorithm
  material : KeyMaterial
  message : Bytes
  signature : Bytes
  deriving DecidableEq, Repr

namespace Question

/-- The second reading, for a key of which one algorithm is expected: there is a question only if
the header names that algorithm and the signature can be decoded. -/
def ofText? (expected : Algorithm) (material : KeyMaterial) (text : List Char) :
    Option Question := do
  let (message, signature) ← cutLast? text
  let (header, _) ← cutLast? message
  let named ← ((Base64Url.decode? header).bind Doc.ofBytes?).bind Doc.algorithm?
  let bytes ← Base64Url.decode? signature
  if named = expected then some ⟨named, material, utf8 message, bytes⟩ else none

def passes (q : Question) (check : SignatureCheck) : Bool :=
  check q.algorithm q.material q.message q.signature

/-- A question about what has been read of a token: its message is made of the segments that gave
the header and the claims, its signature is the third segment, its algorithm the one that the
header names. -/
structure Concerns {α : Type} (q : Question) (read : Bytes → Option α) (t : UnverifiedToken α)
    (k : Jwk) : Prop where
  message : q.message = utf8 (t.segments.header ++ '.' :: t.segments.payload)
  header : (((Base64Url.decode? t.segments.header).bind Doc.ofBytes?).bind
    WrittenHeader.ofDoc?).bind WrittenHeader.keyed? = some t.header
  claims : (Base64Url.decode? t.segments.payload).bind read = some t.claims
  signature : Base64Url.decode? t.segments.signature = some q.signature
  algorithm : q.algorithm.name = t.header.alg
  material : k.material = .ok q.material

end Question

def Jwk.question? (k : Jwk) (h : TokenHeader) (token : String) : Option Question := do
  let expected ← (k.algorithm h).toOption
  let material ← k.material.toOption
  Question.ofText? expected material token.toList

namespace UnverifiedToken

variable {α : Type} {read : Bytes → Option α} {token : String} {t : UnverifiedToken α}

theorem decode_eq_ok (h : decode read token = .ok t) :
    Segments.ofText? token.toList = some t.segments ∧
      (∃ w, ((Base64Url.decode? t.segments.header).bind Doc.ofBytes?).bind
        WrittenHeader.ofDoc? = some w ∧ w.keyed? = some t.header) ∧
      (Base64Url.decode? t.segments.payload).bind read = some t.claims := by
  unfold decode at h
  split at h
  · cases h
  · split at h
    · cases h
    · rename_i s hs
      split at h
      · cases h
      · rename_i w hw
        split at h
        · cases h
        · rename_i header hk
          split at h
          · cases h
          · rename_i claims hc
            obtain rfl := Except.ok.inj h
            exact ⟨hs, ⟨w, hw, hk⟩, hc⟩

theorem question_of_decoded (ht : decode read token = .ok t) {k : Jwk} {a : Algorithm}
    (ha : k.algorithm t.header = .ok a) (m : KeyMaterial) :
    Question.ofText? a m token.toList =
      if Segments.spells t.segments.header Registered.isHeader then
        (Base64Url.decode? t.segments.signature).map fun bytes =>
          ⟨a, m, utf8 t.segments.signed, bytes⟩
      else none := by
  obtain ⟨hs, ⟨w, hw, hk⟩, -⟩ := decode_eq_ok ht
  obtain ⟨hlast, hfirst, -⟩ := Segments.ofText?_iff_cutLast?.1 hs
  obtain ⟨d, hd, hwd⟩ := Option.bind_eq_some_iff.1 hw
  have hspells : Segments.spells t.segments.header Registered.isHeader = Registered.isHeader d := by
    simp [Segments.spells, hd]
  have hnamed : d.algorithm? = if Registered.isHeader d then some a else none := by
    split
    · rename_i hd'
      rw [Doc.algorithm?_eq hwd hd', ← WrittenHeader.alg_of_keyed? hk]
      exact Algorithm.ofName?_eq_some.2 (Jwk.algorithm_eq_ok.1 ha).1
    · rename_i hd'
      simp [Doc.algorithm?, hd']
  simp only [Question.ofText?, hlast, hfirst, hd, hnamed, hspells, Option.bind_eq_bind,
    Option.bind_some]
  cases Registered.isHeader d <;> cases Base64Url.decode? t.segments.signature <;> simp

theorem question?_eq_some {k : Jwk} {q : Question} (ht : decode read token = .ok t) :
    k.question? t.header token = some q ↔
      k.algorithm t.header = .ok q.algorithm ∧ k.material = .ok q.material ∧
        Segments.spells t.segments.header Registered.isHeader ∧
        Base64Url.decode? t.segments.signature = some q.signature ∧
        q.message = utf8 t.segments.signed := by
  obtain ⟨algorithm, material, message, signature⟩ := q
  cases ha : k.algorithm t.header with
  | error fault => simp [Jwk.question?, ha, Except.toOption]
  | ok a =>
    cases hm : k.material with
    | error fault => simp [Jwk.question?, ha, hm, Except.toOption]
    | ok m =>
      simp only [Jwk.question?, ha, hm, Except.toOption, Option.bind_eq_bind, Option.bind_some,
        question_of_decoded ht ha m]
      cases Segments.spells t.segments.header Registered.isHeader <;>
        cases Base64Url.decode? t.segments.signature <;> simp
      grind

theorem concerns_of_question {k : Jwk} {q : Question} (ht : decode read token = .ok t)
    (hq : k.question? t.header token = some q) : q.Concerns read t k := by
  obtain ⟨ha, hm, -, hsignature, hmessage⟩ := (question?_eq_some ht).1 hq
  obtain ⟨-, ⟨w, hw, hk⟩, hclaims⟩ := decode_eq_ok ht
  have hname := (Jwk.algorithm_eq_ok.1 ha).1
  exact ⟨hmessage, by rw [hw]; exact hk, hclaims, hsignature, hname, hm⟩

theorem rejection_of_question {k : Jwk} {q : Question} (ht : decode read token = .ok t)
    (hq : k.question? t.header token = some q) (check : SignatureCheck) :
    t.signatureRejection? check k =
      if q.passes check then
        if Segments.spells t.segments.payload Registered.isPayload then none
        else some (.signature .badJson)
      else some (.signature .invalid) := by
  obtain ⟨ha, hm, hheader, hsignature, hmessage⟩ := (question?_eq_some ht).1 hq
  simp only [signatureRejection?, ha, hm, Segments.signatureFault?, hheader, hsignature,
    Question.passes, hmessage]
  cases check q.algorithm q.material (utf8 t.segments.signed) q.signature <;>
    cases Segments.spells t.segments.payload Registered.isPayload <;> rfl

theorem rejection_of_no_question {k : Jwk} (ht : decode read token = .ok t)
    (hq : k.question? t.header token = none) :
    ∃ rejection, ∀ check, t.signatureRejection? check k = some rejection := by
  cases ha : k.algorithm t.header with
  | error fault => exact ⟨.algorithm fault, fun check => by simp only [signatureRejection?, ha]⟩
  | ok a =>
    cases hm : k.material with
    | error fault =>
      exact ⟨.signature fault, fun check => by simp only [signatureRejection?, ha, hm]⟩
    | ok m =>
      cases hh : Segments.spells t.segments.header Registered.isHeader with
      | false =>
        refine ⟨.signature .badJson, fun check => ?_⟩
        simp [signatureRejection?, ha, hm, Segments.signatureFault?, hh]
      | true =>
        cases hs : Base64Url.decode? t.segments.signature with
        | none =>
          refine ⟨.signature .badBase64, fun check => ?_⟩
          simp [signatureRejection?, ha, hm, Segments.signatureFault?, hh, hs]
        | some bytes =>
          have hsome : k.question? t.header token = some ⟨a, m, utf8 t.segments.signed, bytes⟩ :=
            (question?_eq_some ht).2 ⟨ha, hm, hh, hs, rfl⟩
          cases hsome.symm.trans hq

end UnverifiedToken

end BearerAccess
