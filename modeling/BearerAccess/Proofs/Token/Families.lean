import BearerAccess.Proofs.Sequence
import BearerAccess.Token.Verification
import Mathlib.Tactic.ByContra
/-!
Algorithms and keys of one family. The algorithm that a header names is chosen by one rule and the
material of a key by another, and both go by the key's type. What is shown here is that they never
come apart: the signature check is consulted only about an algorithm and material of one family,
which header and key agree on.
-/
set_option autoImplicit false

namespace BearerAccess

theorem Algorithm.ofName?_eq_some {name : String} {a : Algorithm} :
    ofName? name = some a ↔ a.name = name := by
  constructor
  · intro h
    simpa using List.find?_some h
  · rintro rfl
    cases a <;> rfl

theorem Algorithm.name_injective {a b : Algorithm} (h : a.name = b.name) : a = b :=
  Option.some.inj ((ofName?_eq_some.2 h).symm.trans (ofName?_eq_some.2 rfl))

namespace Jwk

/-- A header and a key fit: the header names one of the algorithms for the key's type, and the very
one that the key declares, if it declares one. -/
structure Fits (k : Jwk) (h : TokenHeader) : Prop where
  family : k.kty = "RSA" ∧ h.alg ∈ ["RS256", "RS384", "RS512", "PS256", "PS384", "PS512"] ∨
    k.kty = "EC" ∧ h.alg ∈ ["ES256", "ES384"] ∨ k.kty = "OKP" ∧ h.alg = "EdDSA"
  declared : ∀ own ∈ k.alg?, own = h.alg

/-- The members that a key of its type needs are there, whatever they hold. -/
structure Complete (k : Jwk) : Prop where
  rsa : k.kty = "RSA" → k.n?.isSome ∧ k.e?.isSome
  curve : k.kty = "EC" → k.x?.isSome ∧ k.y?.isSome
  edwards : k.kty = "OKP" → k.x?.isSome ∧ ∀ crv ∈ k.crv?, crv = "Ed25519"

/-- What the members of a key spell, for the key's type. -/
inductive Carries (k : Jwk) : KeyMaterial → Prop where
  | rsa (n e : String) (modulus exponent : Bytes) : k.kty = "RSA" → k.n? = some n → k.e? = some e →
      Base64Url.decode? n.toList = some modulus → Base64Url.decode? e.toList = some exponent →
      Carries k (.rsa modulus exponent)
  | curve (x y : String) (first second : Bytes) : k.kty = "EC" → k.x? = some x → k.y? = some y →
      Base64Url.decode? x.toList = some first → Base64Url.decode? y.toList = some second →
      Carries k (.curve first second)
  | edwards (x : String) (point : Bytes) : k.kty = "OKP" → (∀ crv ∈ k.crv?, crv = "Ed25519") →
      k.x? = some x → Base64Url.decode? x.toList = some point → Carries k (.edwards point)

variable {k : Jwk} {h : TokenHeader} {a : Algorithm} {m : KeyMaterial}

theorem algorithmNamed_eq_ok {name : String} :
    k.algorithmNamed name = .ok a ↔ a.name = name ∧ a.keyType? = some k.kty := by
  rw [← Algorithm.ofName?_eq_some]
  unfold algorithmNamed
  cases Algorithm.ofName? name with
  | none => simp
  | some b => by_cases hb : b.keyType? = some k.kty <;> simp [hb] <;> grind

theorem algorithm_eq_ok : k.algorithm h = .ok a ↔
    a.name = h.alg ∧ a.keyType? = some k.kty ∧ ∀ own ∈ k.alg?, own = h.alg := by
  rw [← and_assoc, ← algorithmNamed_eq_ok]
  unfold algorithm
  cases k.alg? with
  | none => simp
  | some own => by_cases hown : own = h.alg <;> simp [hown]

theorem fits_iff : k.Fits h ↔ ∃ a, k.algorithm h = .ok a := by
  simp only [algorithm_eq_ok]
  constructor
  · rintro ⟨hfamily, hdeclared⟩
    have hnamed {kty : String} (family : List Algorithm)
        (hall : ∀ a ∈ family, a.keyType? = some kty) (hk : k.kty = kty)
        (hn : h.alg ∈ family.map Algorithm.name) :
        ∃ a : Algorithm,
          a.name = h.alg ∧ a.keyType? = some k.kty ∧ ∀ own ∈ k.alg?, own = h.alg := by
      obtain ⟨a, ha, hname⟩ := List.mem_map.1 hn
      exact ⟨a, hname, hk ▸ hall a ha, hdeclared⟩
    rcases hfamily with ⟨hk, hn⟩ | ⟨hk, hn⟩ | ⟨hk, hn⟩
    · exact hnamed [.rs256, .rs384, .rs512, .ps256, .ps384, .ps512] (by decide) hk hn
    · exact hnamed [.es256, .es384] (by decide) hk hn
    · exact hnamed [.edDsa] (by decide) hk (List.mem_singleton.2 hn)
  · rintro ⟨a, ha, hk, hdeclared⟩
    refine ⟨?_, hdeclared⟩
    rw [← ha]
    cases a <;> simp_all [Algorithm.keyType?, Algorithm.name, eq_comm]

theorem needed_eq_ok {name : String} {member? : Option String} {text : List Char} :
    k.needed name member? = .ok text ↔ ∃ s, member? = some s ∧ s.toList = text := by
  cases member? <;> simp [needed]

theorem bytes_eq_ok {text : List Char} {bytes : Bytes} :
    Jwk.bytes text = .ok bytes ↔ Base64Url.decode? text = some bytes := by
  unfold Jwk.bytes
  cases Base64Url.decode? text <;> simp

theorem material_eq_ok : k.material = .ok m ↔ k.Carries m := by
  unfold material
  constructor
  · intro hm
    split at hm
    · rename_i hk
      simp only [bind_eq_ok, pure_eq_ok, needed_eq_ok, bytes_eq_ok] at hm
      obtain ⟨_, ⟨n, hn, rfl⟩, _, ⟨e, he, rfl⟩, modulus, hmod, exponent, hexp, rfl⟩ := hm
      exact .rsa n e modulus exponent hk hn he hmod hexp
    split at hm
    · rename_i hk
      simp only [bind_eq_ok, pure_eq_ok, needed_eq_ok, bytes_eq_ok] at hm
      obtain ⟨_, ⟨x, hx, rfl⟩, _, ⟨y, hy, rfl⟩, first, hfst, second, hsnd, rfl⟩ := hm
      exact .curve x y first second hk hx hy hfst hsnd
    split at hm
    · rename_i hk
      split at hm
      · cases hm
      · rename_i hcrv
        simp only [bind_eq_ok, pure_eq_ok, needed_eq_ok, bytes_eq_ok] at hm
        obtain ⟨_, ⟨x, hx, rfl⟩, point, hpoint, rfl⟩ := hm
        refine .edwards x point hk (fun crv hc => ?_) hx hpoint
        rw [hc] at hcrv
        simpa using hcrv
    · cases hm
  · intro hm
    cases hm with
    | rsa n e modulus exponent hk hn he hmod hexp =>
      simp only [hk, if_true, bind_eq_ok, pure_eq_ok, needed_eq_ok, bytes_eq_ok]
      exact ⟨_, ⟨n, hn, rfl⟩, _, ⟨e, he, rfl⟩, modulus, hmod, exponent, hexp, rfl⟩
    | curve x y first second hk hx hy hfst hsnd =>
      rw [if_neg (by simp [hk]), if_pos hk]
      simp only [bind_eq_ok, pure_eq_ok, needed_eq_ok, bytes_eq_ok]
      exact ⟨_, ⟨x, hx, rfl⟩, _, ⟨y, hy, rfl⟩, first, hfst, second, hsnd, rfl⟩
    | edwards x point hk hcrv hx hpoint =>
      have hcurve : ¬k.crv?.any (· ≠ "Ed25519") := by simpa [Option.any_eq_true] using hcrv
      rw [if_neg (by simp [hk]), if_neg (by simp [hk]), if_pos hk, if_neg hcurve]
      simp only [bind_eq_ok, pure_eq_ok, needed_eq_ok, bytes_eq_ok]
      exact ⟨_, ⟨x, hx, rfl⟩, point, hpoint, rfl⟩

theorem Carries.keyType (hm : k.Carries m) : m.keyType = k.kty := by
  cases hm with
  | rsa _ _ _ _ hk => exact hk.symm
  | curve _ _ _ _ hk => exact hk.symm
  | edwards _ _ hk => exact hk.symm

theorem Carries.complete (hm : k.Carries m) : k.Complete := by
  cases hm with
  | rsa n e _ _ hk hn he => exact ⟨fun _ => by simp [hn, he], by simp [hk], by simp [hk]⟩
  | curve x y _ _ hk hx hy => exact ⟨by simp [hk], fun _ => by simp [hx, hy], by simp [hk]⟩
  | edwards x _ hk hcrv hx => exact ⟨by simp [hk], by simp [hk], fun _ => ⟨by simp [hx], hcrv⟩⟩

theorem Fits.supported (hf : k.Fits h) (kty : String) :
    k.material ≠ .error (.unsupportedKeyType kty) := by
  intro hm
  have hneeded (name : String) (member? : Option String) :
      k.needed name member? ≠ .error (.unsupportedKeyType kty) := by
    cases member? <;> simp [needed]
  have hbytes (text : List Char) : Jwk.bytes text ≠ .error (.unsupportedKeyType kty) := by
    unfold Jwk.bytes
    cases Base64Url.decode? text <;> simp
  unfold material at hm
  rcases hf.family with ⟨hk, -⟩ | ⟨hk, -⟩ | ⟨hk, -⟩
  · rw [if_pos hk] at hm
    simp [bind_eq_error, hneeded, hbytes, pure, Except.pure] at hm
  · rw [if_neg (by simp [hk]), if_pos hk] at hm
    simp [bind_eq_error, hneeded, hbytes, pure, Except.pure] at hm
  · rw [if_neg (by simp [hk]), if_neg (by simp [hk]), if_pos hk] at hm
    split at hm
    · cases hm
    · simp [bind_eq_error, hneeded, hbytes, pure, Except.pure] at hm

end Jwk

theorem Segments.signatureFault?_congr (s : Segments) {check other : SignatureCheck} {a : Algorithm}
    {m : KeyMaterial} (h : check a m = other a m) :
    s.signatureFault? check a m = s.signatureFault? other a m := by
  simp only [signatureFault?, h]

theorem Segments.signatureFault?_unread (s : Segments)
    (h : ¬(Segments.spells s.header Registered.isHeader ∧ (Base64Url.decode? s.signature).isSome))
    (a : Algorithm) (m : KeyMaterial) :
    ∃ fault, ∀ check, s.signatureFault? check a m = some fault := by
  cases hheader : Segments.spells s.header Registered.isHeader with
  | false => exact ⟨.badJson, fun check => by simp [signatureFault?, hheader]⟩
  | true =>
    cases hsignature : Base64Url.decode? s.signature with
    | none => exact ⟨.badBase64, fun check => by simp [signatureFault?, hheader, hsignature]⟩
    | some signature => simp [hheader, hsignature] at h

theorem Segments.supported {s : Segments} {check : SignatureCheck} {a : Algorithm} {m : KeyMaterial}
    (kty : String) : s.signatureFault? check a m ≠ some (.unsupportedKeyType kty) := by
  unfold signatureFault?
  split
  · simp
  · split
    · simp
    · split
      · simp
      · split <;> simp

namespace UnverifiedToken

variable {α : Type} {t : UnverifiedToken α} {k : Jwk} {a : Algorithm} {m : KeyMaterial}

/-- The signature check is consulted about an algorithm and a key's material: what it says of these
two, and of nothing else, makes a difference. -/
def Consults (t : UnverifiedToken α) (k : Jwk) (a : Algorithm) (m : KeyMaterial) : Prop :=
  ∃ check other : SignatureCheck, (∀ b n, ¬(b = a ∧ n = m) → check b n = other b n) ∧
    t.signatureRejection? check k ≠ t.signatureRejection? other k

theorem rejection_of_misfit (h : ¬k.Fits t.header) :
    ∃ fault, ∀ check, t.signatureRejection? check k = some (.algorithm fault) := by
  cases ha : k.algorithm t.header with
  | error fault => exact ⟨fault, fun check => by simp only [signatureRejection?, ha]⟩
  | ok a => exact absurd (Jwk.fits_iff.2 ⟨a, ha⟩) h

theorem rejection_of_no_material (hf : k.Fits t.header) (hm : ∀ m, ¬k.Carries m) :
    ∃ fault, ∀ check, t.signatureRejection? check k = some (.signature fault) := by
  obtain ⟨a, ha⟩ := Jwk.fits_iff.1 hf
  cases hk : k.material with
  | error fault => exact ⟨fault, fun check => by simp only [signatureRejection?, ha, hk]⟩
  | ok m => exact absurd (Jwk.material_eq_ok.1 hk) (hm m)

theorem rejection_of_agreed (ha : k.algorithm t.header = .ok a) (hm : k.material = .ok m)
    (check : SignatureCheck) :
    t.signatureRejection? check k = (t.segments.signatureFault? check a m).map .signature := by
  simp only [signatureRejection?, ha, hm]

theorem agreed_or_settled (t : UnverifiedToken α) (k : Jwk) :
    (∃ a m, k.algorithm t.header = .ok a ∧ k.material = .ok m) ∨
      ∃ rejection, ∀ check, t.signatureRejection? check k = some rejection := by
  by_cases hf : k.Fits t.header
  · obtain ⟨a, ha⟩ := Jwk.fits_iff.1 hf
    by_cases hm : ∃ m, k.Carries m
    · obtain ⟨m, hm⟩ := hm
      exact .inl ⟨a, m, ha, Jwk.material_eq_ok.2 hm⟩
    · obtain ⟨fault, hfault⟩ := rejection_of_no_material hf (not_exists.1 hm)
      exact .inr ⟨.signature fault, hfault⟩
  · obtain ⟨fault, hfault⟩ := rejection_of_misfit hf
    exact .inr ⟨.algorithm fault, hfault⟩

theorem consults_iff : t.Consults k a m ↔
    k.algorithm t.header = .ok a ∧ k.material = .ok m ∧
      Segments.spells t.segments.header Registered.isHeader ∧
      (Base64Url.decode? t.segments.signature).isSome := by
  constructor
  · rintro ⟨check, other, hsame, hdiffer⟩
    rcases agreed_or_settled t k with ⟨b, n, ha, hm⟩ | ⟨rejection, hsettled⟩
    · rw [rejection_of_agreed ha hm, rejection_of_agreed ha hm] at hdiffer
      obtain ⟨rfl, rfl⟩ : a = b ∧ m = n := by
        by_contra hne
        have hagree := hsame b n fun h => hne ⟨h.1.symm, h.2.symm⟩
        exact hdiffer (by rw [t.segments.signatureFault?_congr hagree])
      refine ⟨ha, hm, ?_⟩
      by_contra hunread
      obtain ⟨fault, hfault⟩ := t.segments.signatureFault?_unread hunread a m
      rw [hfault, hfault] at hdiffer
      exact hdiffer rfl
    · exact absurd ((hsettled check).trans (hsettled other).symm) hdiffer
  · rintro ⟨ha, hm, hheader, hsignature⟩
    obtain ⟨signature, hsignature⟩ := Option.isSome_iff_exists.1 hsignature
    refine ⟨fun _ _ _ _ => false, fun b n _ _ => decide (b = a ∧ n = m), ?_, ?_⟩
    · intro b n hne
      simp [hne]
    · rw [rejection_of_agreed ha hm, rejection_of_agreed ha hm]
      simp only [Segments.signatureFault?, hheader, hsignature]
      cases Segments.spells t.segments.payload Registered.isPayload <;> simp

theorem consults_iff_fits : t.Consults k a m ↔
    k.Fits t.header ∧ a.name = t.header.alg ∧ k.Carries m ∧
      Segments.spells t.segments.header Registered.isHeader ∧
        (Base64Url.decode? t.segments.signature).isSome := by
  rw [consults_iff, Jwk.algorithm_eq_ok, Jwk.material_eq_ok]
  constructor
  · rintro ⟨⟨hname, hk, hdeclared⟩, hm, hread⟩
    exact ⟨Jwk.fits_iff.2 ⟨a, Jwk.algorithm_eq_ok.2 ⟨hname, hk, hdeclared⟩⟩, hname, hm, hread⟩
  · rintro ⟨hf, hname, hm, hread⟩
    obtain ⟨b, hb⟩ := Jwk.fits_iff.1 hf
    obtain ⟨hbname, hk, hdeclared⟩ := Jwk.algorithm_eq_ok.1 hb
    obtain rfl := Algorithm.name_injective (hname.trans hbname.symm)
    exact ⟨⟨hname, hk, hdeclared⟩, hm, hread⟩

theorem Consults.one_family (h : t.Consults k a m) : k.Complete ∧ m.keyType = k.kty ∧
    a.keyType? = some k.kty ∧ a ∉ [.hs256, .hs384, .hs512] := by
  obtain ⟨ha, hm, -⟩ := consults_iff.1 h
  have hk := (Jwk.algorithm_eq_ok.1 ha).2.1
  have hcarries := Jwk.material_eq_ok.1 hm
  refine ⟨hcarries.complete, hcarries.keyType, hk, ?_⟩
  intro hshared
  simp only [List.mem_cons, List.not_mem_nil, or_false] at hshared
  rcases hshared with rfl | rfl | rfl <;> cases hk

theorem signatureRejection?_congr {check other : SignatureCheck}
    (hsame : ∀ a m, t.Consults k a m → check a m = other a m) :
    t.signatureRejection? check k = t.signatureRejection? other k := by
  rcases agreed_or_settled t k with ⟨a, m, ha, hm⟩ | ⟨rejection, hsettled⟩
  · rw [rejection_of_agreed ha hm, rejection_of_agreed ha hm]
    by_cases hread : Segments.spells t.segments.header Registered.isHeader ∧
        (Base64Url.decode? t.segments.signature).isSome
    · rw [t.segments.signatureFault?_congr (hsame a m (consults_iff.2 ⟨ha, hm, hread⟩))]
    · obtain ⟨fault, hfault⟩ := t.segments.signatureFault?_unread hread a m
      rw [hfault, hfault]
  · rw [hsettled, hsettled]

/-- A fault of a key that fits is one of its material or of the signature, and never its type. -/
theorem rejection_of_fits (hf : k.Fits t.header) {check : SignatureCheck} {rejection : Rejection}
    (h : t.signatureRejection? check k = some rejection) :
    ∃ fault, rejection = .signature fault ∧ ∀ kty, fault ≠ .unsupportedKeyType kty := by
  obtain ⟨a, ha⟩ := Jwk.fits_iff.1 hf
  cases hm : k.material with
  | error fault =>
    simp only [signatureRejection?, ha, hm] at h
    exact ⟨fault, (Option.some.inj h).symm, fun kty he => hf.supported kty (he ▸ hm)⟩
  | ok m =>
    rw [rejection_of_agreed ha hm] at h
    obtain ⟨fault, hfault, rfl⟩ := Option.map_eq_some_iff.1 h
    exact ⟨fault, rfl, fun kty he => Segments.supported kty (he ▸ hfault)⟩

/-- Whatever header a token has and whatever members a key has: the signature check is consulted
exactly if header and key fit and the key carries material, and about the algorithm that the header
names and that material, both of the key's type; nothing but its answer about these can change the
verdict. A header and a key that do not fit are turned down for the algorithm, whatever the
material; those that fit can be turned down for the signature only, and are if no material can be
had. A key type that no material is read for never comes to be the reason. -/
theorem algorithms_never_confused (t : UnverifiedToken α) (k : Jwk) :
    (∀ a m, t.Consults k a m ↔ k.Fits t.header ∧ a.name = t.header.alg ∧ k.Carries m ∧
      Segments.spells t.segments.header Registered.isHeader ∧
        (Base64Url.decode? t.segments.signature).isSome) ∧
    (∀ a m, t.Consults k a m → k.Complete ∧ m.keyType = k.kty ∧ a.keyType? = some k.kty ∧
      a ∉ [.hs256, .hs384, .hs512]) ∧
    (∀ check other, (∀ a m, t.Consults k a m → check a m = other a m) →
      t.signatureRejection? check k = t.signatureRejection? other k) ∧
    (¬k.Fits t.header → ∃ fault, ∀ check,
      t.signatureRejection? check k = some (.algorithm fault)) ∧
    (k.Fits t.header → ∀ check rejection, t.signatureRejection? check k = some rejection →
      ∃ fault, rejection = .signature fault) ∧
    (k.Fits t.header → (∀ m, ¬k.Carries m) → ∃ fault, ∀ check,
      t.signatureRejection? check k = some (.signature fault)) ∧
    ∀ check kty, t.signatureRejection? check k ≠ some (.signature (.unsupportedKeyType kty)) := by
  refine ⟨fun _ _ => consults_iff_fits, fun _ _ h => h.one_family,
    fun _ _ => signatureRejection?_congr, rejection_of_misfit, ?_, rejection_of_no_material, ?_⟩
  · intro hf check rejection h
    obtain ⟨fault, hfault, -⟩ := rejection_of_fits hf h
    exact ⟨fault, hfault⟩
  · intro check kty h
    by_cases hf : k.Fits t.header
    · obtain ⟨fault, hfault, hsupported⟩ := rejection_of_fits hf h
      exact hsupported kty (Rejection.signature.inj hfault).symm
    · obtain ⟨fault, hfault⟩ := rejection_of_misfit hf
      cases (hfault check).symm.trans h

theorem algorithms_never_confused_shared_secret :
    let key : Jwk := ⟨"RSA", "k", none, none, none, none, none, some "Bw", some "AQAB"⟩
    let segments : Segments := ⟨"eyJhbGciOiJQUzI1NiIsImtpZCI6ImsifQ".toList, [], ['A', 'A']⟩
    let t : UnverifiedToken Unit := ⟨⟨"PS256", "k", none⟩, (), segments⟩
    let shared : UnverifiedToken Unit := ⟨⟨"HS256", "k", none⟩, (), segments⟩
    let partly : Jwk := { key with e? := none }
    t.Consults key .ps256 (.rsa [7] [1, 0, 1]) ∧ key.Complete ∧ ¬key.Fits shared.header ∧
      (∃ fault, ∀ check, shared.signatureRejection? check key = some (.algorithm fault)) ∧
      partly.Fits t.header ∧
      ∃ fault, ∀ check, t.signatureRejection? check partly = some (.signature fault) := by
  intro key segments t shared partly
  obtain ⟨hconsults, hfamily, -, -, -, -, -⟩ := algorithms_never_confused t key
  have hfits : key.Fits t.header := ⟨.inl ⟨rfl, by decide⟩, by simp [key]⟩
  have hcarries : key.Carries (.rsa [7] [1, 0, 1]) :=
    .rsa "Bw" "AQAB" _ _ rfl rfl rfl (by decide +kernel) (by decide +kernel)
  have hasked : t.Consults key .ps256 (.rsa [7] [1, 0, 1]) :=
    (hconsults _ _).2 ⟨hfits, rfl, hcarries, by decide +kernel, by decide +kernel⟩
  have hmisfit : ¬key.Fits shared.header := by
    rintro ⟨⟨-, h⟩ | ⟨h, -⟩ | ⟨h, -⟩, -⟩
    · exact absurd h (by decide)
    · exact absurd h (by decide)
    · exact absurd h (by decide)
  have hpartly : partly.Fits t.header := ⟨.inl ⟨rfl, by decide⟩, by simp [partly, key]⟩
  have hnothing (m : KeyMaterial) : ¬partly.Carries m := fun hm => by
    cases (hm.complete.rsa rfl).2
  exact ⟨hasked, (hfamily _ _ hasked).1, hmisfit,
    (algorithms_never_confused shared key).2.2.2.1 hmisfit, hpartly,
    (algorithms_never_confused t partly).2.2.2.2.2.1 hpartly hnothing⟩

end UnverifiedToken

end BearerAccess
