import BearerAccess.AuthError
import BearerAccess.KeySet
import BearerAccess.Token.Compact
import BearerAccess.Token.Registered
import BearerAccess.Token.Window
/-!
The verdict on a token that has been read, given the key set that the realm publishes now. The
stages are the key, the claims, the algorithm, the key's material, and the signature; the first
one that fails is the reason for which the token is turned down.
-/
set_option autoImplicit false

namespace BearerAccess

open Json

inductive AlgorithmFault where
  | differs (header key : String)
  | unknown (name : String)
  | unusable (name kty : String)
  deriving DecidableEq, Repr

def AlgorithmFault.message : AlgorithmFault → String
  | .differs header key => "header " ++ header ++ " does not match key " ++ key
  | .unknown name => name
  | .unusable name kty => name ++ " not usable with " ++ kty ++ " key"

inductive SignatureFault where
  | lacks (kid member : String)
  | unsupportedCurve (kid : String)
  | unsupportedKeyType (kty : String)
  | badBase64
  | badJson
  | invalid
  deriving DecidableEq, Repr

def SignatureFault.message : SignatureFault → String
  | .lacks kid member => "key " ++ kid ++ " lacks " ++ member
  | .unsupportedCurve kid => "unsupported curve for key " ++ kid
  | .unsupportedKeyType kty => "unsupported key type " ++ kty
  | .badBase64 => "Base64 error"
  | .badJson => "JSON error"
  | .invalid => "InvalidSignature"

inductive Rejection where
  | malformed (fault : TokenFault)
  | keySet (error : AuthError)
  | claim (fault : ClaimFault)
  | algorithm (fault : AlgorithmFault)
  | signature (fault : SignatureFault)
  deriving DecidableEq

def Rejection.message : Rejection → String
  | .malformed fault => "malformed token: " ++ fault.name
  | .keySet error => error.message
  | .claim fault => "claim check failed: " ++ fault.message
  | .algorithm fault => "unacceptable algorithm: " ++ fault.message
  | .signature fault => "signature check failed: " ++ fault.message

def Jwk.algorithmNamed (k : Jwk) (name : String) : Except AlgorithmFault Algorithm :=
  match Algorithm.ofName? name with
  | none => .error (.unknown name)
  | some a => if a.keyType? = some k.kty then .ok a else .error (.unusable name k.kty)

def Jwk.algorithm (k : Jwk) (h : TokenHeader) : Except AlgorithmFault Algorithm :=
  match k.alg? with
  | some a => if a = h.alg then k.algorithmNamed h.alg else .error (.differs h.alg a)
  | none => k.algorithmNamed h.alg

def Jwk.needed (k : Jwk) (name : String) : Option String → Except SignatureFault (List Char)
  | some text => .ok text.toList
  | none => .error (.lacks k.kid name)

def Jwk.bytes (text : List Char) : Except SignatureFault Bytes :=
  match Base64Url.decode? text with
  | some bytes => .ok bytes
  | none => .error .badBase64

def Jwk.material (k : Jwk) : Except SignatureFault KeyMaterial :=
  if k.kty = "RSA" then do
    let n ← k.needed "n" k.n?
    let e ← k.needed "e" k.e?
    pure (.rsa (← bytes n) (← bytes e))
  else if k.kty = "EC" then do
    let x ← k.needed "x" k.x?
    let y ← k.needed "y" k.y?
    pure (.curve (← bytes x) (← bytes y))
  else if k.kty = "OKP" then
    if k.crv?.any (· ≠ "Ed25519") then .error (.unsupportedCurve k.kid)
    else do
      let x ← k.needed "x" k.x?
      pure (.edwards (← bytes x))
  else .error (.unsupportedKeyType k.kty)

namespace Segments

def spells (segment : List Char) (test : Doc → Bool) : Bool :=
  ((Base64Url.decode? segment).bind Doc.ofBytes?).any test

def signatureFault? (check : SignatureCheck) (s : Segments) (a : Algorithm) (m : KeyMaterial) :
    Option SignatureFault :=
  if !spells s.header Registered.isHeader then some .badJson
  else
    match Base64Url.decode? s.signature with
    | none => some .badBase64
    | some signature =>
      if !check a m (utf8 s.signed) signature then some .invalid
      else if !spells s.payload Registered.isPayload then some .badJson
      else none

end Segments

namespace UnverifiedToken

def signatureRejection? {α : Type} (check : SignatureCheck) (t : UnverifiedToken α) (k : Jwk) :
    Option Rejection :=
  match k.algorithm t.header with
  | .error fault => some (.algorithm fault)
  | .ok a =>
    match k.material with
    | .error fault => some (.signature fault)
    | .ok m => (t.segments.signatureFault? check a m).map .signature

/-- The verdict on a token at a second, given the outcome of asking for the key set. -/
def verdict (check : SignatureCheck) (issuer : String) (skew now : Int64)
    (keys : Except AuthError KeySet) (t : UnverifiedToken AccessClaims) :
    Except Rejection AccessClaims :=
  match keys with
  | .error e => .error (.keySet e)
  | .ok keys =>
    match keys.find? t.header.kid with
    | none => .error (.keySet (.keyNotFound t.header.kid))
    | some k =>
      match t.claims.fault? issuer now skew with
      | some fault => .error (.claim fault)
      | none =>
        match t.signatureRejection? check k with
        | some rejection => .error rejection
        | none => .ok t.claims

end UnverifiedToken

end BearerAccess
