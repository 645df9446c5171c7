import BearerAccess.Digest.Sha2
import BearerAccess.Number.Modular
/-!
ECDSA signatures over the prime curves `y² = x³ - 3x + b`. Points are written with three
coordinates; their sum has one formula for all cases, because the number of points is odd.
-/
set_option autoImplicit false

namespace BearerAccess

structure Curve where
  prime : Nat
  b : Nat
  order : Nat
  baseX : Nat
  baseY : Nat
  size : Nat
  digest : Digest

namespace Curve

def p256 : Curve where
  prime := 0xFFFFFFFF00000001000000000000000000000000FFFFFFFFFFFFFFFFFFFFFFFF
  b := 0x5AC635D8AA3A93E7B3EBBD55769886BC651D06B0CC53B0F63BCE3C3E27D2604B
  order := 0xFFFFFFFF00000000FFFFFFFFFFFFFFFFBCE6FAADA7179E84F3B9CAC2FC632551
  baseX := 0x6B17D1F2E12C4247F8BCE6E563A440F277037D812DEB33A0F4A13945D898C296
  baseY := 0x4FE342E2FE1A7F9B8EE7EB4A7C0F9E162BCE33576B315ECECBB6406837BF51F5
  size := 32
  digest := .sha256

def p384 : Curve where
  prime :=
    0xFFFFFFFFFFFFFFFFFFFFFFFFFFFFFFFFFFFFFFFFFFFFFFFFFFFFFFFFFFFFFFFEFFFFFFFF0000000000000000FFFFFFFF
  b :=
    0xB3312FA7E23EE7E4988E056BE3F82D19181D9C6EFE8141120314088F5013875AC656398D8A2ED19D2A85C8EDD3EC2AEF
  order :=
    0xFFFFFFFFFFFFFFFFFFFFFFFFFFFFFFFFFFFFFFFFFFFFFFFFC7634D81F4372DDF581A0DB248B0A77AECEC196ACCC52973
  baseX :=
    0xAA87CA22BE8B05378EB1C71EF320AD746E1D3B628BA79B9859F741E082542A385502F25DBF55296C3A545E3872760AB7
  baseY :=
    0x3617DE4A96262C6F5D9E98BF9292DC29F8F41DBD289A147CE9DA3113B5F0B8C00A60B1CE1D7E819D7A431D7C90EA0E5F
  size := 48
  digest := .sha384

/-- The point `(x / z, y / z)`; the neutral point has `z = 0`. -/
structure Point where
  x : Int
  y : Int
  z : Int
  deriving DecidableEq, Repr

def neutral : Point := ⟨0, 1, 0⟩

def add (c : Curve) (s t : Point) : Point :=
  let p : Int := c.prime
  let b : Int := c.b
  let xx := s.x * t.x % p
  let yy := s.y * t.y % p
  let zz := s.z * t.z % p
  let xy := (s.x * t.y + t.x * s.y) % p
  let xz := (s.x * t.z + t.x * s.z) % p
  let yz := (s.y * t.z + t.y * s.z) % p
  let u := (3 * b * zz - 3 * xz) % p
  let v := (3 * b * xz - 3 * xx - 9 * zz) % p
  let w := (3 * xx - 3 * zz) % p
  ⟨(xy * (yy - u) - yz * v) % p, (w * v + (yy + u) * (yy - u)) % p, (yz * (yy + u) + xy * w) % p⟩

def times (c : Curve) (k : Nat) (s : Point) : Point := combineTimes (add c) neutral s k

def base (c : Curve) : Point := ⟨c.baseX, c.baseY, 1⟩

def point? (c : Curve) (x y : Nat) : Option Point :=
  let p : Int := c.prime
  let X : Int := x
  let Y : Int := y
  if x < c.prime ∧ y < c.prime ∧ (Y * Y - (X * X * X - 3 * X + c.b)) % p = 0 then some ⟨X, Y, 1⟩
  else none

def ofBytes? (c : Curve) (bytes : Bytes) : Option Point :=
  if bytes.length = 2 * c.size then
    c.point? (ofBigEndian (bytes.take c.size)) (ofBigEndian (bytes.drop c.size))
  else none

/-- Whether a signature is good: its halves `r` and `s` lie between 0 and the order, and the
message's digest and `r`, both divided by `s`, lead from the base point and the key to a point
with first coordinate `r`. -/
def verify (c : Curve) (key message signature : Bytes) : Bool :=
  match c.ofBytes? key with
  | none => false
  | some q =>
    let r := ofBigEndian (signature.take c.size)
    let s := ofBigEndian (signature.drop c.size)
    let inRange (n : Nat) : Bool := 0 < n && n < c.order
    if signature.length = 2 * c.size && inRange r && inRange s then
      let e := ofBigEndian (c.digest.of message)
      let w := Modular.inverse c.order s
      let found := c.add (c.times (e * w % c.order) c.base) (c.times (r * w % c.order) q)
      found.z != 0 &&
        found.x.toNat * Modular.inverse c.prime found.z.toNat % c.prime % c.order == r
    else false

end Curve

end BearerAccess
