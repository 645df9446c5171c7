import BearerAccess.Digest.Sha2
import BearerAccess.Number.Modular
/-!
RSA signatures. A signature is a number below the modulus; its power with the public exponent
spells out an encoding of the message's digest, either the fixed one (PKCS #1 v1.5) or the masked
one with a salt as long as the digest (PSS).
-/
set_option autoImplicit false

namespace BearerAccess

structure RsaKey where
  modulus : Nat
  exponent : Nat
  size : Nat
  deriving DecidableEq, Repr

namespace RsaKey

/-- A number without leading zero bytes. -/
def positive? : Bytes → Option Nat
  | [] => none
  | b :: r => if b = 0 then none else some (ofBigEndian (b :: r))

/-- The key with this modulus and exponent: the modulus is odd and has 2048 to 8192 bits, counted
in whole bytes; the exponent is odd, at least 3 and below `2 ^ 33`. -/
def ofBytes? (n e : Bytes) : Option RsaKey := do
  let modulus ← positive? n
  let exponent ← positive? e
  if 256 ≤ n.length ∧ n.length ≤ 1024 ∧ modulus % 2 = 1 ∧ e.length ≤ 5 ∧ exponent % 2 = 1 ∧
      3 ≤ exponent ∧ exponent < twoTo 33 then
    pure ⟨modulus, exponent, n.length⟩
  else none

def open? (key : RsaKey) (signature : Bytes) : Option Bytes :=
  let s := ofBigEndian signature
  if signature.length = key.size ∧ s < key.modulus then
    some (bigEndian key.size (Modular.pow key.modulus s key.exponent))
  else none

def digestInfo (d : Digest) : Bytes :=
  let number : UInt8 := match d with
    | .sha256 => 1
    | .sha384 => 2
    | .sha512 => 3
  let size := UInt8.ofNat d.size
  [0x30, 0x11 + size, 0x30, 0x0D, 0x06, 0x09, 0x60, 0x86, 0x48, 0x01, 0x65, 0x03, 0x04, 0x02,
    number, 0x05, 0x00, 0x04, size]

def fixedEncoding (d : Digest) (size : Nat) (message : Bytes) : Bytes :=
  let tail := digestInfo d ++ d.of message
  0x00 :: 0x01 :: List.replicate (size - 3 - tail.length) 0xFF ++ 0x00 :: tail

def verifyFixed (d : Digest) (key : RsaKey) (message signature : Bytes) : Bool :=
  key.open? signature == some (fixedEncoding d key.size message)

def mask (d : Digest) (seed : Bytes) (size : Nat) : Bytes :=
  ((List.range (size / d.size + 1)).flatMap fun i => d.of (seed ++ bigEndian 4 i)).take size

/-- Whether `encoded` masks the digest of a message with a salt; it has `bits` bits. -/
def masks (d : Digest) (bits : Nat) (encoded message : Bytes) : Bool :=
  let size := (bits + 7) / 8
  let block := size - d.size - 1
  let masked := encoded.take block
  let digest := (encoded.drop block).take d.size
  let unused := 8 * size - bits
  let fits := match masked with
    | [] => false
    | b :: _ => b.toNat < twoTo (8 - unused)
  let opened := List.zipWith (· ^^^ ·) masked (mask d digest block)
  let opened := match opened with
    | [] => []
    | b :: r => UInt8.ofNat (b.toNat % twoTo (8 - unused)) :: r
  let padding := block - d.size - 1
  let salt := opened.drop (padding + 1)
  fits && encoded.drop (block + d.size) == [0xBC] &&
    opened.take (padding + 1) == List.replicate padding 0 ++ [1] &&
    digest == d.of (List.replicate 8 0 ++ d.of message ++ salt)

def verifyMasked (d : Digest) (key : RsaKey) (message signature : Bytes) : Bool :=
  match key.open? signature with
  | none => false
  | some opened =>
    let bits := bitLength key.modulus - 1
    let extra := key.size - (bits + 7) / 8
    opened.take extra == List.replicate extra 0 && masks d bits (opened.drop extra) message

end RsaKey

end BearerAccess
