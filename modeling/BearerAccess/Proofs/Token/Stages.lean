import BearerAccess.Token.Verification
/-!
The stages that a token has to pass, each judged by itself: what a stage looks at does not depend
on the stages before it. A token is accepted if every stage passes it, and is otherwise turned down
for the reason of the first stage that does not.
-/
set_option autoImplicit false

namespace BearerAccess

open Json

structure Trial where
  token : String
  keys : Except AuthError KeySet
  issuer : String
  skew : Int64
  now : Int64
  check : SignatureCheck

inductive Stage where
  | size
  | form
  | keyId
  | payload
  | keySet
  | lookup
  | issuer
  | subject
  | kind
  | notBefore
  | expiry
  | issuedAt
  | algorithm
  | material
  | signature
  deriving DecidableEq, Repr

namespace Stage

def order : List Stage :=
  [.size, .form, .keyId, .payload, .keySet, .lookup, .issuer, .subject, .kind, .notBefore, .expiry,
    .issuedAt, .algorithm, .material, .signature]

def reading : List Stage := [.size, .form, .keyId, .payload]

def resolving : List Stage := [.keySet, .lookup]

def claiming : List Stage := [.issuer, .subject, .kind, .notBefore, .expiry, .issuedAt]

def signing : List Stage := [.algorithm, .material, .signature]

theorem order_eq : order = reading ++ (resolving ++ (claiming ++ signing)) := rfl

end Stage

namespace Trial

section Views

variable (x : Trial)

def decoded : Except TokenFault (UnverifiedToken AccessClaims) :=
  UnverifiedToken.decode AccessClaims.ofBytes? x.token

def segments? : Option Segments := Segments.ofText? x.token.toList

def written? : Option WrittenHeader :=
  x.segments?.bind fun s =>
    ((Base64Url.decode? s.header).bind Doc.ofBytes?).bind WrittenHeader.ofDoc?

def header? : Option TokenHeader := x.written?.bind WrittenHeader.keyed?

def claims? : Option AccessClaims :=
  x.segments?.bind fun s => (Base64Url.decode? s.payload).bind AccessClaims.ofBytes?

def key? : Option Jwk := do
  let header ← x.header?
  let keys ← x.keys.toOption
  keys.find? header.kid

def claimFault? (good : AccessClaims → Bool) (fault : ClaimFault) : Option Rejection := do
  let claims ← x.claims?
  if good claims then none else some (.claim fault)

/-- Why a stage does not pass the token, if it does not. -/
def failure? : Stage → Option Rejection
  | .size =>
    if UnverifiedToken.maxSize < x.token.utf8ByteSize then some (.malformed .tooLarge) else none
  | .form => if x.written?.isSome then none else some (.malformed .malformed)
  | .keyId => if x.header?.isSome then none else some (.malformed .missingKid)
  | .payload => if x.claims?.isSome then none else some (.malformed .malformed)
  | .keySet =>
    match x.keys with
    | .error e => some (.keySet e)
    | .ok _ => none
  | .lookup => do
    let header ← x.header?
    if x.key?.isSome then none else some (.keySet (.keyNotFound header.kid))
  | .issuer => x.claimFault? (fun c => c.issuer = x.issuer) .issuerMismatch
  | .subject => x.claimFault? (fun c => c.subject?.any fun sub => sub ≠ "") .missingSubject
  | .kind => x.claimFault? (fun c => c.kind? = some "Bearer") .wrongKind
  | .notBefore =>
    x.claimFault? (fun c => c.notBefore?.all fun t => Epoch.sub t x.skew ≤ x.now) .notYetValid
  | .expiry => x.claimFault? (fun c => x.now < Epoch.add c.expires x.skew) .expired
  | .issuedAt =>
    x.claimFault? (fun c => c.issuedAt?.all fun t => t ≤ Epoch.add x.now x.skew) .issuedInFuture
  | .algorithm => do
    let header ← x.header?
    let key ← x.key?
    match key.algorithm header with
    | .error fault => some (.algorithm fault)
    | .ok _ => none
  | .material => do
    let key ← x.key?
    match key.material with
    | .error fault => some (.signature fault)
    | .ok _ => none
  | .signature => do
    let segments ← x.segments?
    let key ← x.key?
    let a ← (key.algorithm (← x.header?)).toOption
    let m ← key.material.toOption
    (segments.signatureFault? x.check a m).map .signature

def verdict : Except Rejection AccessClaims :=
  match x.decoded with
  | .error fault => .error (.malformed fault)
  | .ok t => t.verdict x.check x.issuer x.skew x.now x.keys

end Views

/-- A token that passes every stage, with all that is found on the way. -/
structure Accepted (x : Trial) (t : UnverifiedToken AccessClaims) (set : KeySet) (k : Jwk)
    (a : Algorithm) (m : KeyMaterial) (signature : Bytes) : Prop where
  decoded : UnverifiedToken.decode AccessClaims.ofBytes? x.token = .ok t
  given : x.keys = .ok set
  found : set.find? t.header.kid = some k
  active : t.claims.fault? x.issuer x.now x.skew = none
  algorithm : k.algorithm t.header = .ok a
  material : k.material = .ok m
  registered : Segments.spells t.segments.header Registered.isHeader
  spelled : Base64Url.decode? t.segments.signature = some signature
  signed : x.check a m (utf8 t.segments.signed) signature
  payload : Segments.spells t.segments.payload Registered.isPayload

variable {x : Trial} {t : UnverifiedToken AccessClaims} {k : Jwk}

theorem reading_cases (x : Trial) :
    (∃ fault, x.decoded = .error fault ∧
      Stage.reading.findSome? x.failure? = some (.malformed fault)) ∨
    ∃ t, x.decoded = .ok t ∧ Stage.reading.findSome? x.failure? = none ∧
      x.segments? = some t.segments ∧ x.header? = some t.header ∧ x.claims? = some t.claims := by
  simp only [decoded, UnverifiedToken.decode]
  split
  · rename_i hsize
    exact .inl ⟨.tooLarge, rfl, by simp [Stage.reading, failure?, hsize]⟩
  rename_i hsize
  cases hs : Segments.ofText? x.token.toList with
  | none =>
    exact .inl ⟨.malformed, rfl, by simp [Stage.reading, failure?, hsize, written?, segments?, hs]⟩
  | some s =>
    have hsegments : x.segments? = some s := hs
    simp only
    cases hw : ((Base64Url.decode? s.header).bind Doc.ofBytes?).bind WrittenHeader.ofDoc? with
    | none =>
      refine .inl ⟨.malformed, rfl, ?_⟩
      simp [Stage.reading, failure?, hsize, written?, hsegments, hw]
    | some w =>
      have hwritten : x.written? = some w := by simp [written?, hsegments, hw]
      simp only
      cases hk : w.keyed? with
      | none =>
        refine .inl ⟨.missingKid, rfl, ?_⟩
        simp [Stage.reading, failure?, hsize, hwritten, header?, hk]
      | some header =>
        have hheader : x.header? = some header := by simp [header?, hwritten, hk]
        simp only
        cases hc : (Base64Url.decode? s.payload).bind AccessClaims.ofBytes? with
        | none =>
          refine .inl ⟨.malformed, rfl, ?_⟩
          simp [Stage.reading, failure?, hsize, hwritten, hheader, claims?, hsegments, hc]
        | some claims =>
          have hclaims : x.claims? = some claims := by simp [claims?, hsegments, hc]
          refine .inr ⟨⟨header, claims, s⟩, rfl, ?_, hsegments, hheader, hclaims⟩
          simp [Stage.reading, failure?, hsize, hwritten, hheader, hclaims]

theorem subject_eq_empty (c : AccessClaims) :
    c.subject = "" ↔ (c.subject?.any fun sub => sub ≠ "") = false := by
  cases h : c.subject? <;> simp [AccessClaims.subject, h]

theorem started_eq (c : AccessClaims) (now skew : Int64) :
    c.started now skew = c.notBefore?.all fun t => Epoch.sub t skew ≤ now := by
  cases h : c.notBefore? <;> simp [AccessClaims.started, h, ← Int64.not_lt]

theorem fromFuture_eq (c : AccessClaims) (now skew : Int64) :
    c.fromFuture now skew = !c.issuedAt?.all fun t => t ≤ Epoch.add now skew := by
  cases h : c.issuedAt? <;> simp [AccessClaims.fromFuture, h, ← Int64.not_le]

theorem claiming_eq {c : AccessClaims} (h : x.claims? = some c) :
    Stage.claiming.findSome? x.failure? = (c.fault? x.issuer x.now x.skew).map .claim := by
  have hfault (good : AccessClaims → Bool) (fault : ClaimFault) :
      x.claimFault? good fault = if good c then none else some (.claim fault) := by
    simp [claimFault?, h]
  simp only [Stage.claiming, List.findSome?_cons, List.findSome?_nil, failure?, hfault,
    AccessClaims.fault?, subject_eq_empty, started_eq, fromFuture_eq, AccessClaims.bearerKind]
  grind

theorem signing_eq (hs : x.segments? = some t.segments) (hh : x.header? = some t.header)
    (hk : x.key? = some k) :
    Stage.signing.findSome? x.failure? = t.signatureRejection? x.check k := by
  simp only [Stage.signing, List.findSome?_cons, List.findSome?_nil, failure?, hs, hh, hk,
    UnverifiedToken.signatureRejection?, Option.bind_eq_bind, Option.bind_some]
  cases ha : k.algorithm t.header with
  | error fault => rfl
  | ok a =>
    cases hm : k.material with
    | error fault => rfl
    | ok m =>
      simp only [Except.toOption, Option.bind_some]
      cases t.segments.signatureFault? x.check a m <;> rfl

theorem findSome?_failure? (x : Trial) : Stage.order.findSome? x.failure? =
    match x.verdict with
    | .error rejection => some rejection
    | .ok _ => none := by
  rw [Stage.order_eq, List.findSome?_append, List.findSome?_append, List.findSome?_append]
  rcases x.reading_cases with ⟨fault, hd, hr⟩ | ⟨t, hd, hr, hs, hh, hc⟩
  · simp [verdict, hd, hr]
  -- each group of stages answers for one part of the verdict
  rw [hr, claiming_eq hc, Option.none_or, verdict, hd]
  simp only [UnverifiedToken.verdict]
  cases hk : x.keys with
  | error e => simp [Stage.resolving, failure?, hk]
  | ok set =>
    cases hf : set.find? t.header.kid with
    | none => simp [Stage.resolving, failure?, hk, key?, hh, hf, Except.toOption]
    | some k =>
      have hkey : x.key? = some k := by simp [key?, hh, hk, hf, Except.toOption]
      have hresolved : Stage.resolving.findSome? x.failure? = none := by
        simp [Stage.resolving, failure?, hk, hh, hkey]
      rw [hresolved, signing_eq hs hh hkey, Option.none_or]
      simp only [hf]
      cases t.claims.fault? x.issuer x.now x.skew with
      | some fault => rfl
      | none => cases t.signatureRejection? x.check k <;> rfl

theorem verdict_eq_error {rejection : Rejection} : x.verdict = .error rejection ↔
    ∃ earlier stage later, Stage.order = earlier ++ stage :: later ∧
      x.failure? stage = some rejection ∧ ∀ e ∈ earlier, x.failure? e = none := by
  rw [← List.findSome?_eq_some_iff, findSome?_failure?]
  cases x.verdict <;> simp

theorem signatureFault?_eq_none {s : Segments} {check : SignatureCheck} {a : Algorithm}
    {m : KeyMaterial} : s.signatureFault? check a m = none ↔
      Segments.spells s.header Registered.isHeader ∧
      (∃ signature, Base64Url.decode? s.signature = some signature ∧
        check a m (utf8 s.signed) signature) ∧
      Segments.spells s.payload Registered.isPayload := by
  unfold Segments.signatureFault?
  cases Segments.spells s.header Registered.isHeader with
  | false => simp
  | true =>
    cases Base64Url.decode? s.signature with
    | none => simp
    | some signature =>
      cases hc : check a m (utf8 s.signed) signature with
      | false => simp [hc]
      | true => cases Segments.spells s.payload Registered.isPayload <;> simp [hc]

theorem signatureRejection?_eq_none {check : SignatureCheck} :
    t.signatureRejection? check k = none ↔ ∃ a m, k.algorithm t.header = .ok a ∧
      k.material = .ok m ∧ t.segments.signatureFault? check a m = none := by
  unfold UnverifiedToken.signatureRejection?
  cases k.algorithm t.header with
  | error fault => simp
  | ok a => cases k.material <;> simp

theorem verdict_of_read {check : SignatureCheck} {issuer : String} {skew now : Int64}
    {keys : Except AuthError KeySet} {c : AccessClaims} :
    t.verdict check issuer skew now keys = .ok c ↔
      ∃ set k, keys = .ok set ∧ set.find? t.header.kid = some k ∧
        t.claims.fault? issuer now skew = none ∧ t.signatureRejection? check k = none ∧
        t.claims = c := by
  unfold UnverifiedToken.verdict
  cases keys with
  | error e => simp
  | ok set =>
    cases hf : set.find? t.header.kid with
    | none => simp [hf]
    | some k =>
      cases ha : t.claims.fault? issuer now skew with
      | some fault => simp [hf]
      | none => cases hr : t.signatureRejection? check k <;> simp [hf, hr]

theorem verdict_eq_ok {c : AccessClaims} : x.verdict = .ok c ↔
    ∃ t set k a m signature, x.Accepted t set k a m signature ∧ t.claims = c := by
  unfold verdict
  constructor
  · intro h
    cases hd : x.decoded with
    | error fault => simp [hd] at h
    | ok t =>
      rw [hd] at h
      obtain ⟨set, k, hk, hf, hactive, hr, hc⟩ := verdict_of_read.1 h
      obtain ⟨a, m, ha, hm, hfault⟩ := signatureRejection?_eq_none.1 hr
      obtain ⟨hheader, ⟨signature, hsig, hcheck⟩, hpayload⟩ := signatureFault?_eq_none.1 hfault
      exact ⟨t, set, k, a, m, signature,
        ⟨hd, hk, hf, hactive, ha, hm, hheader, hsig, hcheck, hpayload⟩, hc⟩
  · rintro ⟨t, set, k, a, m, signature, h, hc⟩
    have hd : x.decoded = .ok t := h.decoded
    have hfault : t.segments.signatureFault? x.check a m = none :=
      signatureFault?_eq_none.2 ⟨h.registered, ⟨signature, h.spelled, h.signed⟩, h.payload⟩
    have hr : t.signatureRejection? x.check k = none :=
      signatureRejection?_eq_none.2 ⟨a, m, h.algorithm, h.material, hfault⟩
    rw [hd]
    exact verdict_of_read.2 ⟨set, k, h.given, h.found, h.active, hr, hc⟩

end Trial

end BearerAccess
