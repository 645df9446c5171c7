import BearerAccess.Digest.Sha2Table
import BearerAccess.Number.Positional
set_option autoImplicit false

namespace BearerAccess

namespace Sha2

structure Registers (w : Nat) where
  a : BitVec w
  b : BitVec w
  c : BitVec w
  d : BitVec w
  e : BitVec w
  f : BitVec w
  g : BitVec w
  h : BitVec w

namespace Registers

variable {w : Nat}

def ofWords : List (BitVec w) → Registers w
  | a :: b :: c :: d :: e :: f :: g :: h :: _ => ⟨a, b, c, d, e, f, g, h⟩
  | _ => ⟨0, 0, 0, 0, 0, 0, 0, 0⟩

def words (r : Registers w) : List (BitVec w) := [r.a, r.b, r.c, r.d, r.e, r.f, r.g, r.h]

def add (r s : Registers w) : Registers w :=
  ⟨r.a + s.a, r.b + s.b, r.c + s.c, r.d + s.d, r.e + s.e, r.f + s.f, r.g + s.g, r.h + s.h⟩

end Registers

/-- Three amounts by which a word is turned, the last of them perhaps a shift. -/
structure Turns where
  first : Nat
  second : Nat
  third : Nat

def Turns.mix {w : Nat} (t : Turns) (x : BitVec w) : BitVec w :=
  x.rotateRight t.first ^^^ x.rotateRight t.second ^^^ x.rotateRight t.third

def Turns.spread {w : Nat} (t : Turns) (x : BitVec w) : BitVec w :=
  x.rotateRight t.first ^^^ x.rotateRight t.second ^^^ x >>> t.third

structure Variant (w : Nat) where
  initial : Registers w
  constants : List (BitVec w)
  mixA : Turns
  mixE : Turns
  spreadOld : Turns
  spreadNew : Turns
  size : Nat

variable {w : Nat}

def round (v : Variant w) (r : Registers w) (word constant : BitVec w) : Registers w :=
  let choice := (r.e &&& r.f) ^^^ (~~~r.e &&& r.g)
  let majority := (r.a &&& r.b) ^^^ (r.a &&& r.c) ^^^ (r.b &&& r.c)
  let t := r.h + v.mixE.mix r.e + choice + constant + word
  ⟨t + v.mixA.mix r.a + majority, r.a, r.b, r.c, r.d + t, r.e, r.f, r.g⟩

def nextWord (v : Variant w) (window : List (BitVec w)) : BitVec w :=
  match window with
  | w0 :: w1 :: _ :: _ :: _ :: _ :: _ :: _ :: _ :: w9 :: _ :: _ :: _ :: _ :: w14 :: _ =>
    w0 + v.spreadOld.spread w1 + w9 + v.spreadNew.spread w14
  | _ => 0

/-- The rounds of a block, one for each constant; the window holds the next sixteen words. -/
def rounds (v : Variant w) (r : Registers w) (window : List (BitVec w)) :
    List (BitVec w) → Registers w
  | [] => r
  | k :: ks =>
    match window with
    | [] => r
    | x :: rest => rounds v (round v r x k) (rest ++ [nextWord v window]) ks

/-- Cuts a list into pieces of a size; a shorter rest is dropped. -/
def pieces {α : Type} (size : Nat) : Nat → List α → List (List α)
  | 0, _ => []
  | count + 1, xs => xs.take size :: pieces size count (xs.drop size)

def wordsOf (w : Nat) (bytes : Bytes) : List (BitVec w) :=
  (pieces (w / 8) (bytes.length / (w / 8)) bytes).map fun p => BitVec.ofNat w (ofBigEndian p)

def blockSize (w : Nat) : Nat := 2 * w

/-- The message, a one bit, zeros, and the message's length in bits, in whole blocks. -/
def padded (w : Nat) (message : Bytes) : Bytes :=
  let lengthSize := w / 4
  let used := message.length + 1 + lengthSize
  let zeros := (blockSize w - used % blockSize w) % blockSize w
  message ++ 0x80 :: List.replicate zeros 0 ++ bigEndian lengthSize (8 * message.length)

def compress (v : Variant w) (r : Registers w) (block : Bytes) : Registers w :=
  r.add (rounds v r (wordsOf w block) v.constants)

def digest (v : Variant w) (message : Bytes) : Bytes :=
  let bytes := padded w message
  let last := (pieces (blockSize w) (bytes.length / blockSize w) bytes).foldl (compress v) v.initial
  (last.words.flatMap fun x => bigEndian (w / 8) x.toNat).take v.size

def leadingWord (w : Nat) (n : Nat) : BitVec w := BitVec.ofNat w (n >>> (64 - w))

def variant256 : Variant 32 where
  initial := .ofWords (squareRootFractions.map (leadingWord 32))
  constants := (cubeRootFractions.take 64).map (leadingWord 32)
  mixA := ⟨2, 13, 22⟩
  mixE := ⟨6, 11, 25⟩
  spreadOld := ⟨7, 18, 3⟩
  spreadNew := ⟨17, 19, 10⟩
  size := 32

def variant512 : Variant 64 where
  initial := .ofWords (squareRootFractions.map (leadingWord 64))
  constants := cubeRootFractions.map (leadingWord 64)
  mixA := ⟨28, 34, 39⟩
  mixE := ⟨14, 18, 41⟩
  spreadOld := ⟨1, 8, 7⟩
  spreadNew := ⟨19, 61, 6⟩
  size := 64

def variant384 : Variant 64 :=
  { variant512 with
    initial := .ofWords ((squareRootFractions.drop 8).map (leadingWord 64))
    size := 48 }

end Sha2

inductive Digest where
  | sha256
  | sha384
  | sha512
  deriving DecidableEq, Repr

namespace Digest

def size : Digest → Nat
  | .sha256 => 32
  | .sha384 => 48
  | .sha512 => 64

def of : Digest → Bytes → Bytes
  | .sha256 => Sha2.digest Sha2.variant256
  | .sha384 => Sha2.digest Sha2.variant384
  | .sha512 => Sha2.digest Sha2.variant512

end Digest

end BearerAccess
