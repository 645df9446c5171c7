import BearerAccess.Json.Writer
import BearerAccess.Signature.Edwards
import BearerAccess.Text.Base64Url
set_option autoImplicit false

namespace BearerAccess.Testing

open Json

structure Keypair where
  kid : String
  signingKey : Edwards.SigningKey
  publicKey : Bytes
  deriving DecidableEq, Repr

namespace Keypair

def seedBytes (seed : UInt8) : Bytes :=
  seed :: (List.range 31).map fun i => seed * UInt8.ofNat (i + 1) + UInt8.ofNat (i + 1)

def ofSeed (seed : UInt8) (kid : String) : Keypair :=
  let key := Edwards.SigningKey.ofSeed (seedBytes seed)
  ⟨kid, key, key.publicKey⟩

def withKid (k : Keypair) (kid : String) : Keypair := { k with kid := kid }

def jwk (k : Keypair) : Value :=
  .object [("alg", .string "EdDSA"), ("crv", .string "Ed25519"), ("kid", .string k.kid),
    ("kty", .string "OKP"), ("use", .string "sig"),
    ("x", .string (String.ofList (Base64Url.encode k.publicKey)))]

def header (k : Keypair) : Value :=
  .object [("typ", .string "JWT"), ("alg", .string "EdDSA"), ("kid", .string k.kid)]

def segment (v : Value) : List Char := Base64Url.encode (utf8 v.render)

def sign (k : Keypair) (claims : Value) : String :=
  let signed := segment k.header ++ '.' :: segment claims
  String.ofList (signed ++ '.' :: Base64Url.encode (k.signingKey.sign (utf8 signed)))

end Keypair

end BearerAccess.Testing
