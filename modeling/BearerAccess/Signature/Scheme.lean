import BearerAccess.Signature.Ecdsa
import BearerAccess.Signature.Edwards
import BearerAccess.Signature.Rsa
set_option autoImplicit false

namespace BearerAccess

inductive Algorithm where
  | hs256
  | hs384
  | hs512
  | es256
  | es384
  | rs256
  | rs384
  | rs512
  | ps256
  | ps384
  | ps512
  | edDsa
  deriving DecidableEq, Repr

namespace Algorithm

def all : List Algorithm :=
  [.hs256, .hs384, .hs512, .es256, .es384, .rs256, .rs384, .rs512, .ps256, .ps384, .ps512, .edDsa]

def name : Algorithm → String
  | .hs256 => "HS256"
  | .hs384 => "HS384"
  | .hs512 => "HS512"
  | .es256 => "ES256"
  | .es384 => "ES384"
  | .rs256 => "RS256"
  | .rs384 => "RS384"
  | .rs512 => "RS512"
  | .ps256 => "PS256"
  | .ps384 => "PS384"
  | .ps512 => "PS512"
  | .edDsa => "EdDSA"

def ofName? (name : String) : Option Algorithm := all.find? fun a => a.name == name

/-- The key type that an algorithm works with; those that share a secret work with none. -/
def keyType? : Algorithm → Option String
  | .hs256 | .hs384 | .hs512 => none
  | .es256 | .es384 => some "EC"
  | .rs256 | .rs384 | .rs512 | .ps256 | .ps384 | .ps512 => some "RSA"
  | .edDsa => some "OKP"

end Algorithm

inductive KeyMaterial where
  | rsa (modulus exponent : Bytes)
  | curve (x y : Bytes)
  | edwards (x : Bytes)
  deriving DecidableEq, Repr

def KeyMaterial.keyType : KeyMaterial → String
  | .rsa _ _ => "RSA"
  | .curve _ _ => "EC"
  | .edwards _ => "OKP"

abbrev SignatureCheck := Algorithm → KeyMaterial → Bytes → Bytes → Bool

namespace SignatureCheck

def rsa (verify : RsaKey → Bytes → Bytes → Bool) (n e message signature : Bytes) : Bool :=
  match RsaKey.ofBytes? n e with
  | some key => verify key message signature
  | none => false

/-- The check of the published algorithms. Material of another key type never passes. -/
def standard : SignatureCheck
  | .rs256, .rsa n e => rsa (RsaKey.verifyFixed .sha256) n e
  | .rs384, .rsa n e => rsa (RsaKey.verifyFixed .sha384) n e
  | .rs512, .rsa n e => rsa (RsaKey.verifyFixed .sha512) n e
  | .ps256, .rsa n e => rsa (RsaKey.verifyMasked .sha256) n e
  | .ps384, .rsa n e => rsa (RsaKey.verifyMasked .sha384) n e
  | .ps512, .rsa n e => rsa (RsaKey.verifyMasked .sha512) n e
  | .es256, .curve x y => Curve.p256.verify (x ++ y)
  | .es384, .curve x y => Curve.p384.verify (x ++ y)
  | .edDsa, .edwards x => Edwards.verify x
  | _, _ => fun _ _ => false

end SignatureCheck

end BearerAccess
