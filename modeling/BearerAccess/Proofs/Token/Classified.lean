import BearerAccess.Proofs.Json.Stated
import BearerAccess.Proofs.Text.Base64
import BearerAccess.Proofs.Token.SecondReading
import BearerAccess.Token.Claims
set_option autoImplicit false

namespace BearerAccess

open Json

namespace WrittenHeader

def names : List String := ["alg", "kid", "typ"]

/-- A document that states this header. -/
structure StatedBy (h : WrittenHeader) (d : Doc) : Prop where
  record : d.IsRecord names
  alg : d.Holds names Doc.text? "alg" h.alg
  kid : d.MayHold names Doc.text? "kid" h.kid?
  typ : d.MayHold names Doc.text? "typ" h.typ?

theorem ofDoc?_eq_some {d : Doc} {h : WrittenHeader} : ofDoc? d = some h ↔ h.StatedBy d := by
  have hnames : names.Nodup := by decide
  simp only [ofDoc?, Option.bind_eq_bind, Option.bind_eq_some_iff]
  constructor
  · rintro ⟨fields, hfields, alg, halg, kid?, hkid, typ?, htyp, hh⟩
    obtain rfl := Option.some.inj hh
    obtain ⟨hrecord, hlookup⟩ := Doc.fields?_eq_some hnames hfields
    exact ⟨hrecord, (Doc.required_eq_some (hlookup "alg" (by decide))).1 halg,
      (Doc.optional_eq_some (hlookup "kid" (by decide)) rfl).1 hkid,
      (Doc.optional_eq_some (hlookup "typ" (by decide)) rfl).1 htyp⟩
  · rintro ⟨hrecord, halg, hkid, htyp⟩
    obtain ⟨fields, hfields⟩ := hrecord.exists_fields
    obtain ⟨-, hlookup⟩ := Doc.fields?_eq_some hnames hfields
    exact ⟨fields, hfields, h.alg, (Doc.required_eq_some (hlookup "alg" (by decide))).2 halg,
      h.kid?, (Doc.optional_eq_some (hlookup "kid" (by decide)) rfl).2 hkid,
      h.typ?, (Doc.optional_eq_some (hlookup "typ" (by decide)) rfl).2 htyp, rfl⟩

def IsIn (h : WrittenHeader) (segment : List Char) : Prop :=
  ∃ bytes d, segment = Base64Url.encode bytes ∧ Doc.ofBytes? bytes = some d ∧ h.StatedBy d

theorem isIn_iff {h : WrittenHeader} {segment : List Char} :
    ((Base64Url.decode? segment).bind Doc.ofBytes?).bind ofDoc? = some h ↔ h.IsIn segment := by
  simp only [IsIn, Option.bind_eq_some_iff, Base64Url.decode?_eq_some, ofDoc?_eq_some]
  constructor
  · rintro ⟨d, ⟨bytes, hbytes, hd⟩, hstated⟩
    exact ⟨bytes, d, hbytes, hd, hstated⟩
  · rintro ⟨bytes, d, hbytes, hd, hstated⟩
    exact ⟨d, ⟨bytes, hbytes, hd⟩, hstated⟩

theorem keyed?_eq_some {h : WrittenHeader} {kid : String} (hk : h.kid? = some kid)
    (hne : kid ≠ "") : h.keyed? = some ⟨h.alg, kid, h.typ?⟩ := by
  rw [keyed?, hk]
  exact if_neg hne

theorem keyed?_eq_none {h : WrittenHeader} (hk : h.kid? = none ∨ h.kid? = some "") :
    h.keyed? = none := by
  rcases hk with hk | hk <;> simp [keyed?, hk]

end WrittenHeader

namespace Segments

/-- The texts around the only two dots of a text. -/
structure Of (text : List Char) (s : Segments) : Prop where
  whole : text = s.header ++ '.' :: s.payload ++ '.' :: s.signature
  header : '.' ∉ s.header
  payload : '.' ∉ s.payload
  signature : '.' ∉ s.signature

theorem of_iff {text : List Char} {s : Segments} : ofText? text = some s ↔ s.Of text := by
  rw [ofText?_eq_some]
  exact ⟨fun ⟨hw, hh, hp, hs⟩ => ⟨hw, hh, hp, hs⟩, fun ⟨hw, hh, hp, hs⟩ => ⟨hw, hh, hp, hs⟩⟩

theorem Of.count_dots {text : List Char} {s : Segments} (h : s.Of text) : text.count '.' = 2 := by
  have hh := List.count_eq_zero.2 h.header
  have hp := List.count_eq_zero.2 h.payload
  have hs := List.count_eq_zero.2 h.signature
  simp [h.whole, hh, hp, hs]

theorem exists_of_count_dots {text : List Char} (h : text.count '.' = 2) :
    ∃ s : Segments, s.Of text := by
  have hfirst : '.' ∈ text := List.count_pos_iff.1 (by omega)
  obtain ⟨header, rest, rfl, hheader⟩ := List.eq_append_cons_of_mem hfirst
  have hrest : rest.count '.' = 1 := by
    have hzero := List.count_eq_zero.2 hheader
    simp only [List.count_append, List.count_cons_self, hzero] at h
    omega
  have hsecond : '.' ∈ rest := List.count_pos_iff.1 (by omega)
  obtain ⟨payload, signature, rfl, hpayload⟩ := List.eq_append_cons_of_mem hsecond
  have hsignature : signature.count '.' = 0 := by
    have hzero := List.count_eq_zero.2 hpayload
    simp only [List.count_append, List.count_cons_self, hzero] at hrest
    omega
  exact ⟨⟨header, payload, signature⟩, by simp, hheader, hpayload, List.count_eq_zero.1 hsignature⟩

end Segments

namespace UnverifiedToken

variable {α : Type}

/-- What a text is as a token. Of a token that can be read, header and claims are told. -/
inductive Outcome (read : Bytes → Option α) (token : String) :
    Except TokenFault (TokenHeader × α) → Prop where
  | tooLarge : 8192 < (bytesOf token).length → Outcome read token (.error .tooLarge)
  | otherDots : (bytesOf token).length ≤ 8192 → token.toList.count '.' ≠ 2 →
      Outcome read token (.error .malformed)
  | noHeader {s : Segments} : (bytesOf token).length ≤ 8192 → s.Of token.toList →
      (∀ h : WrittenHeader, ¬h.IsIn s.header) → Outcome read token (.error .malformed)
  | noKid {s : Segments} {h : WrittenHeader} : (bytesOf token).length ≤ 8192 →
      s.Of token.toList → h.IsIn s.header → h.kid? = none ∨ h.kid? = some "" →
      Outcome read token (.error .missingKid)
  | noClaims {s : Segments} {h : WrittenHeader} {kid : String} :
      (bytesOf token).length ≤ 8192 → s.Of token.toList → h.IsIn s.header →
      h.kid? = some kid → kid ≠ "" →
      (∀ bytes, s.payload = Base64Url.encode bytes → read bytes = none) →
      Outcome read token (.error .malformed)
  | read {s : Segments} {h : WrittenHeader} {kid : String} {bytes : Bytes} {claims : α} :
      (bytesOf token).length ≤ 8192 → s.Of token.toList → h.IsIn s.header →
      h.kid? = some kid → kid ≠ "" → s.payload = Base64Url.encode bytes →
      read bytes = some claims → Outcome read token (.ok (⟨h.alg, kid, h.typ?⟩, claims))

def told (t : UnverifiedToken α) : TokenHeader × α := (t.header, t.claims)

variable {read : Bytes → Option α} {token : String}

theorem size_le (h : (bytesOf token).length ≤ 8192) : ¬maxSize < token.utf8ByteSize := by
  rw [← length_bytesOf]
  exact Nat.not_lt.2 h

theorem decode_of_segments {s : Segments} (hs : s.Of token.toList) :
    (decode read token).map told =
      if maxSize < token.utf8ByteSize then .error .tooLarge
      else
        match ((Base64Url.decode? s.header).bind Doc.ofBytes?).bind WrittenHeader.ofDoc? with
        | none => .error .malformed
        | some written =>
          match written.keyed? with
          | none => .error .missingKid
          | some header =>
            match (Base64Url.decode? s.payload).bind read with
            | none => .error .malformed
            | some claims => .ok (header, claims) := by
  by_cases hsize : maxSize < token.utf8ByteSize
  · rw [decode, if_pos hsize, if_pos hsize]
    rfl
  · rw [decode, if_neg hsize, if_neg hsize, Segments.of_iff.2 hs]
    dsimp only
    cases ((Base64Url.decode? s.header).bind Doc.ofBytes?).bind WrittenHeader.ofDoc? with
    | none => rfl
    | some written =>
      cases hkeyed : written.keyed? with
      | none => simp only [hkeyed]; rfl
      | some header =>
        cases (Base64Url.decode? s.payload).bind read <;> simp only [hkeyed] <;> rfl

theorem Outcome.decode_eq {r : Except TokenFault (TokenHeader × α)} (h : Outcome read token r) :
    (decode read token).map told = r := by
  cases h with
  | tooLarge hsize =>
    have hsize : maxSize < token.utf8ByteSize := by rwa [← length_bytesOf]
    rw [decode, if_pos hsize]
    rfl
  | otherDots hsize hdots =>
    have hnone : Segments.ofText? token.toList = none :=
      Option.eq_none_iff_forall_ne_some.2 fun s hs => hdots (Segments.of_iff.1 hs).count_dots
    rw [decode, if_neg (size_le hsize), hnone]
    rfl
  | @noHeader s hsize hs hheader =>
    have hnone : ((Base64Url.decode? s.header).bind Doc.ofBytes?).bind WrittenHeader.ofDoc? =
        none :=
      Option.eq_none_iff_forall_ne_some.2 fun h hh => hheader h (WrittenHeader.isIn_iff.1 hh)
    rw [decode_of_segments hs, if_neg (size_le hsize), hnone]
  | noKid hsize hs hheader hkid =>
    rw [decode_of_segments hs, if_neg (size_le hsize), WrittenHeader.isIn_iff.2 hheader]
    simp only [WrittenHeader.keyed?_eq_none hkid]
  | @noClaims s h kid hsize hs hheader hkid hne hclaims =>
    have hnone : (Base64Url.decode? s.payload).bind read = none := by
      rw [Option.bind_eq_none_iff]
      exact fun bytes hbytes => hclaims bytes (Base64Url.decode?_eq_some.1 hbytes)
    rw [decode_of_segments hs, if_neg (size_le hsize), WrittenHeader.isIn_iff.2 hheader]
    simp only [WrittenHeader.keyed?_eq_some hkid hne, hnone]
  | read hsize hs hheader hkid hne hbytes hclaims =>
    rw [decode_of_segments hs, if_neg (size_le hsize), WrittenHeader.isIn_iff.2 hheader]
    simp only [WrittenHeader.keyed?_eq_some hkid hne, Base64Url.decode?_eq_some.2 hbytes,
      Option.bind_some, hclaims]

theorem exists_outcome (read : Bytes → Option α) (token : String) :
    ∃ r, Outcome read token r := by
  by_cases hsize : 8192 < (bytesOf token).length
  · exact ⟨_, .tooLarge hsize⟩
  replace hsize := Nat.not_lt.1 hsize
  by_cases hdots : token.toList.count '.' = 2
  case neg => exact ⟨_, .otherDots hsize hdots⟩
  obtain ⟨s, hs⟩ := Segments.exists_of_count_dots hdots
  by_cases hheader : ∃ h : WrittenHeader, h.IsIn s.header
  case neg => exact ⟨_, .noHeader hsize hs (not_exists.1 hheader)⟩
  obtain ⟨h, hheader⟩ := hheader
  cases hkid : h.kid? with
  | none => exact ⟨_, .noKid hsize hs hheader (.inl hkid)⟩
  | some kid =>
    by_cases hne : kid = ""
    · exact ⟨_, .noKid hsize hs hheader (.inr (hne ▸ hkid))⟩
    by_cases hclaims : ∃ bytes claims, s.payload = Base64Url.encode bytes ∧ read bytes = some claims
    · obtain ⟨bytes, claims, hbytes, hclaims⟩ := hclaims
      exact ⟨_, .read hsize hs hheader hkid hne hbytes hclaims⟩
    · refine ⟨_, .noClaims hsize hs hheader hkid hne fun bytes hbytes => ?_⟩
      exact Option.eq_none_iff_forall_ne_some.2 fun claims hc =>
        hclaims ⟨bytes, claims, hbytes, hc⟩

/-- For every text and every kind of claims, reading the text as a token gives the outcome whose
conditions the text meets. Texts with the same first two segments that are both within the limit
or both above it are told the same of, whatever their third segments are. -/
theorem every_text_classified (read : Bytes → Option α) (token : String) :
    (∀ r, Outcome read token r ↔ (decode read token).map told = r) ∧
      ∀ (other : String) (s s' : Segments), s.Of token.toList → s'.Of other.toList →
        s.header = s'.header → s.payload = s'.payload →
        (8192 < (bytesOf token).length ↔ 8192 < (bytesOf other).length) →
        (decode read token).map told = (decode read other).map told := by
  refine ⟨fun r => ⟨Outcome.decode_eq, ?_⟩, ?_⟩
  · rintro rfl
    obtain ⟨r, hr⟩ := exists_outcome read token
    rwa [hr.decode_eq]
  · intro other s s' hs hs' hheader hpayload hsize
    have hlimit : maxSize < token.utf8ByteSize ↔ maxSize < other.utf8ByteSize := by
      rw [← length_bytesOf, ← length_bytesOf]
      exact hsize
    rw [decode_of_segments hs, decode_of_segments hs', hheader, hpayload]
    simp only [hlimit]

theorem every_text_classified_other_signature :
    let header := "eyJhbGciOiJhIiwia2lkIjoiayJ9"
    let read : Bytes → Option Unit := fun _ => some ()
    (decode read (header ++ "..")).map told = .ok (⟨"a", "k", none⟩, ()) ∧
      (decode read (header ++ "..c2ln")).map told = .ok (⟨"a", "k", none⟩, ()) := by
  intro header read
  have hs : (⟨header.toList, [], []⟩ : Segments).Of (header ++ "..").toList :=
    ⟨by decide, by decide, by decide, by decide⟩
  have hs' : (⟨header.toList, [], ['c', '2', 'l', 'n']⟩ : Segments).Of (header ++ "..c2ln").toList :=
    ⟨by decide, by decide, by decide, by decide⟩
  have hheader : (⟨"a", some "k", none⟩ : WrittenHeader).IsIn header.toList :=
    WrittenHeader.isIn_iff.1 (by decide +kernel)
  have hpayload : [] = Base64Url.encode [] := rfl
  have hread := ((every_text_classified read (header ++ "..")).1 _).1
    (.read (by decide +kernel) hs hheader rfl (by decide) hpayload rfl)
  refine ⟨hread, ?_⟩
  rw [← hread]
  exact ((every_text_classified read (header ++ "..")).2 _ _ _ hs hs' rfl rfl
    (iff_of_false (by decide +kernel) (by decide +kernel))).symm

end UnverifiedToken

end BearerAccess
