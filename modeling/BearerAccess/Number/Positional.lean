import BearerAccess.Number.Powers
import BearerAccess.Text.Symbols
set_option autoImplicit false

namespace BearerAccess

def ofBigEndian (bytes : Bytes) : Nat := bytes.foldl (fun n b => n * 256 + b.toNat) 0

def ofLittleEndian (bytes : Bytes) : Nat := ofBigEndian bytes.reverse

def littleEndian : Nat → Nat → Bytes
  | 0, _ => []
  | size + 1, n => UInt8.ofNat n :: littleEndian size (n / 256)

def bigEndian (size n : Nat) : Bytes := (littleEndian size n).reverse

def bitLength (n : Nat) : Nat := if n = 0 then 0 else Nat.log2 n + 1

def bitsOf (n : Nat) : List Bool := (List.range (bitLength n)).reverse.map n.testBit

end BearerAccess
