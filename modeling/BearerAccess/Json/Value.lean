import BearerAccess.Json.Reader
import BearerAccess.Number.Binary64
import BearerAccess.Order.Increasing
/-!
Free values: documents in which every string is a text, every number fits, and arrays and objects
nest at most 127 deep. Members stand in byte order of their names, and of equal names the last one
counts.
-/
set_option autoImplicit false

namespace BearerAccess.Json

inductive Value where
  | null
  | bool (b : Bool)
  | integer (i : Int)
  | real (x : Binary64)
  | string (s : String)
  | array (items : List Value)
  | object (members : List (String × Value))
  deriving Repr

namespace Numeral

def gather : Nat → List Char → Nat × List Char
  | n, [] => (n, [])
  | n, c :: r =>
    let n' := 10 * n + (c.toNat - '0'.toNat)
    if n' ≤ maxUnsigned then gather n' r else (n, c :: r)

/-- The significand and power of ten of a numeral: whole digits that do not fit count as powers of
ten, digits of the fraction after the first that does not fit are dropped. -/
def approximate (n : Numeral) : Nat × Int :=
  let (s, more) := gather 0 n.whole
  let (t, left) := gather s n.fraction
  (t, (more.length : Int) - ((n.fraction.length - left.length : Nat) : Int))

def power? (k : Nat) : Option Binary64 := Binary64.nearest? false (tenTo k) 1

def scaleTen (x : Binary64) (e : Int) : Nat → Option Binary64
  | 0 => some x
  | fuel + 1 =>
    if x.significand = 0 then some x
    else if 0 ≤ e then
      if 308 < e then none else (power? e.toNat).bind x.mul?
    else if -308 ≤ e then (power? (-e).toNat).bind x.div?
    else ((power? 308).bind x.div?).bind fun y => scaleTen y (e + 308) fuel

def maxWritten : Nat := 2147483647

def real? (n : Numeral) : Option Binary64 :=
  let (s, e) := n.approximate
  let signed (x : Binary64) : Binary64 := { x with negative := n.negative }
  match n.exponent with
  | none => ((Binary64.nearest? false s 1).bind fun x => scaleTen x e 8).map signed
  | some (negative, digits) =>
    let k := Nat.ofDigitChars 10 digits 0
    if maxWritten < k then
      if s ≠ 0 ∧ !negative then none else some ⟨n.negative, 0, 0⟩
    else
      let e := if negative then e - k else e + k
      ((Binary64.nearest? false s 1).bind fun x =>
        if e < -700 then some ⟨false, 0, 0⟩ else scaleTen x e 8).map signed

/-- The value of a numeral: an integer if it is written as one and fits 64 bits, signed or
unsigned, and a real number otherwise. -/
def value? (n : Numeral) : Option Value :=
  match n.fraction, n.exponent with
  | [], none =>
    let k := Nat.ofDigitChars 10 n.whole 0
    if !n.negative ∧ k ≤ maxUnsigned then some (.integer k)
    else if n.negative ∧ 0 < k ∧ k ≤ maxSigned + 1 then some (.integer (-(k : Int)))
    else n.real?.map .real
  | _, _ => n.real?.map .real

end Numeral

namespace Value

/-- Members in byte order of their names, the last of equal ones. -/
def sortMembers (members : List (String × Value)) : List (String × Value) :=
  Increasing.ofList (fun m => [bytesOf m.1]) members

mutual

def ofDoc? (depth : Nat) : Doc → Option Value
  | .null => some .null
  | .bool b => some (.bool b)
  | .number n => n.value?
  | .string s => (spelling? s).map fun t => .string (String.ofList t)
  | .array xs =>
    match depth with
    | 0 => none
    | d + 1 => (ofItems? d xs).map .array
  | .object ms =>
    match depth with
    | 0 => none
    | d + 1 => (ofMembers? d ms).map fun vs => .object (sortMembers vs)

def ofItems? (depth : Nat) : List Doc → Option (List Value)
  | [] => some []
  | x :: r => do
    let v ← ofDoc? depth x
    let vs ← ofItems? depth r
    pure (v :: vs)

def ofMembers? (depth : Nat) : List (List Piece × Doc) → Option (List (String × Value))
  | [] => some []
  | (name, x) :: r => do
    let n ← spelling? name
    let v ← ofDoc? depth x
    let vs ← ofMembers? depth r
    pure ((String.ofList n, v) :: vs)

end

def maxDepth : Nat := 127

def ofText? (text : String) : Option Value := (Doc.ofText? text).bind (ofDoc? maxDepth)

def ofBytes? (bytes : Bytes) : Option Value := (Doc.ofBytes? bytes).bind (ofDoc? maxDepth)

end Value

end BearerAccess.Json
