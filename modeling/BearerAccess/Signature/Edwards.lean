import BearerAccess.Digest.Sha2
import BearerAccess.Number.Modular
/-!
Ed25519 signatures. Points lie on `y² - x² = 1 + d x² y²` and are written as 32 bytes, the second
coordinate and the sign of the first; their sum has one formula for all cases.
-/
set_option autoImplicit false

namespace BearerAccess.Edwards

def prime : Nat := twoTo 255 - 19

def order : Nat := twoTo 252 + 27742317777372353535851937790883648493

def d : Nat := 37095705934669439343138083508754565189542113879843219016388785533085940283555

def rootOfMinusOne : Nat :=
  19681161376707505956807079304988542015446066515923890162744021073123829784752

structure Point where
  x : Int
  y : Int
  z : Int
  deriving DecidableEq, Repr

def neutral : Point := ⟨0, 1, 1⟩

def base : Point :=
  ⟨15112221349535400772501151409588531511454012693041857206046113283949847762202,
    46316835694926478169428394003475163141307993866256225615783033603165251855960, 1⟩

def add (s t : Point) : Point :=
  let p : Int := prime
  let zz := s.z * t.z % p
  let xx := s.x * t.x % p
  let yy := s.y * t.y % p
  let square := zz * zz % p
  let e := xx * yy % p * d % p
  let f := square - e
  let g := square + e
  ⟨zz * f % p * ((s.x + s.y) * (t.x + t.y) - xx - yy) % p, zz * g % p * (yy + xx) % p, f * g % p⟩

def times (k : Nat) (s : Point) : Point := combineTimes add neutral s k

def negate (s : Point) : Point := ⟨-s.x % (prime : Int), s.y, s.z⟩

def rootOfQuotient? (u v : Nat) : Option Nat :=
  let p := prime
  let x := u * Modular.pow p v 3 % p * Modular.pow p (u * Modular.pow p v 7) ((p - 5) / 8) % p
  let check := v * (x * x % p) % p
  if check = u % p then some x
  else if check = (p - u % p) % p then some (x * rootOfMinusOne % p)
  else none

def ofBytes? (bytes : Bytes) : Option Point :=
  if bytes.length = 32 then
    let n := ofLittleEndian bytes
    let y := n % twoTo 255 % prime
    let square := y * y % prime
    (rootOfQuotient? (Modular.sub prime square 1) ((d * square + 1) % prime)).map fun x =>
      let x := if x % 2 = n / twoTo 255 then x else (prime - x) % prime
      ⟨x, y, 1⟩
  else none

def toBytes (s : Point) : Bytes :=
  let inverse := Modular.inverse prime s.z.toNat
  let x := s.x.toNat * inverse % prime
  let y := s.y.toNat * inverse % prime
  littleEndian 32 (y + x % 2 * twoTo 255)

def challenge (bytes : Bytes) : Nat := ofLittleEndian (Digest.sha512.of bytes) % order

/-- Whether a signature is good: its second half `s` is below the order, and `s` times the base
point less the challenge times the key is the point that its first half names. -/
def verify (key message signature : Bytes) : Bool :=
  let r := signature.take 32
  let s := ofLittleEndian (signature.drop 32)
  match ofBytes? key with
  | none => false
  | some a =>
    signature.length == 64 && s < order &&
      toBytes (add (times s base) (times (challenge (r ++ key ++ message)) (negate a))) == r

structure SigningKey where
  scalar : Nat
  nonce : Bytes
  deriving DecidableEq, Repr

namespace SigningKey

def ofSeed (seed : Bytes) : SigningKey :=
  let digest := Digest.sha512.of seed
  let n := ofLittleEndian (digest.take 32)
  ⟨n % twoTo 254 / 8 * 8 + twoTo 254, digest.drop 32⟩

def publicKey (k : SigningKey) : Bytes := toBytes (times k.scalar base)

def sign (k : SigningKey) (message : Bytes) : Bytes :=
  let once := challenge (k.nonce ++ message)
  let r := toBytes (times once base)
  let h := challenge (r ++ k.publicKey ++ message)
  r ++ littleEndian 32 ((once + h * k.scalar) % order)

end SigningKey

end BearerAccess.Edwards
