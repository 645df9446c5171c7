import BearerAccess.Number.IntegerText
import BearerAccess.Number.Powers
/-!
Finite numbers of the binary format with 53 significant bits, as exact values `m · 2 ^ q`. Quotients
are rounded to the nearest of them, ties to the even significand; the decimal shown for one is the
shortest that reads back, and of those the nearest.
-/
set_option autoImplicit false

namespace BearerAccess

/-- The number `significand · 2 ^ exponent`, negated if `negative`. -/
structure Binary64 where
  negative : Bool
  significand : Nat
  exponent : Int
  deriving DecidableEq, Repr

namespace Binary64

def minExponent : Int := -1074

def maxExponent : Int := 971

def scaled (num den : Nat) (e : Int) : Nat × Nat :=
  match e with
  | .ofNat k => (num * twoTo k, den)
  | .negSucc k => (num, den * twoTo (k + 1))

def roundDiv (num den : Nat) : Nat :=
  let q := num / den
  let r := num % den
  if 2 * r < den then q
  else if den < 2 * r then q + 1
  else if q % 2 = 0 then q else q + 1

/-- The exponent at which `num / den` has 53 significant bits, or the least one. -/
def exponentFor (num den : Nat) : Int :=
  let guess : Int := (Nat.log2 num : Int) - (Nat.log2 den : Int) - 52
  let (n, d) := scaled num den (-guess)
  max minExponent (if n < d * twoTo 52 then guess - 1 else guess)

def nearest? (negative : Bool) (num den : Nat) : Option Binary64 :=
  if num = 0 then some ⟨negative, 0, 0⟩
  else
    let e := exponentFor num den
    let (n, d) := scaled num den (-e)
    let m := roundDiv n d
    let (m, e) := if m = twoTo 53 then (twoTo 52, e + 1) else (m, e)
    if maxExponent < e then none else some ⟨negative, m, e⟩

def ratio (x : Binary64) : Nat × Nat := scaled x.significand 1 x.exponent

def mul? (x y : Binary64) : Option Binary64 :=
  nearest? (x.negative != y.negative) (x.ratio.1 * y.ratio.1) (x.ratio.2 * y.ratio.2)

def div? (x y : Binary64) : Option Binary64 :=
  nearest? (x.negative != y.negative) (x.ratio.1 * y.ratio.2) (x.ratio.2 * y.ratio.1)

/-- The power of ten `p` with `10 ^ p ≤ num / den < 10 ^ (p + 1)`. -/
def decimalOrder (num den : Nat) : Int :=
  if den ≤ num then ((decimal (num / den)).length : Int) - 1
  else
    let l := (decimal (den / num)).length
    if den ≤ num * tenTo (l - 1) then -((l : Int) - 1) else -(l : Int)

def decimalRatio (c : Nat) (k : Int) : Nat × Nat :=
  match k with
  | .ofNat j => (c * tenTo j, 1)
  | .negSucc j => (c, tenTo (j + 1))

/-- Whether `c · 10 ^ k` reads back as `x`: it lies between the midpoints to the neighbours of `x`,
which themselves belong to an even significand. -/
def readsBack (x : Binary64) (c : Nat) (k : Int) : Bool :=
  let m := x.significand
  let (cn, cd) := decimalRatio c k
  let below := if m = twoTo 52 ∧ minExponent < x.exponent then 4 * m - 1 else 4 * m - 2
  let (ln, ld) := scaled below 4 x.exponent
  let (hn, hd) := scaled (4 * m + 2) 4 x.exponent
  if m % 2 = 0 then ln * cd ≤ cn * ld && cn * hd ≤ hn * cd
  else ln * cd < cn * ld && cn * hd < hn * cd

def candidates (x : Binary64) (digits : Nat) : List (Nat × Int) :=
  let (n, d) := x.ratio
  let k : Int := decimalOrder n d - ((digits : Int) - 1)
  let (sn, sd) := match k with
    | .ofNat j => (n, d * tenTo j)
    | .negSucc j => (n * tenTo (j + 1), d)
  let low := sn / sd
  let lowFirst := 2 * (sn % sd) < sd ∨ (2 * (sn % sd) = sd ∧ low % 2 = 0)
  let around := if lowFirst then [low, low + 1] else [low + 1, low]
  (around.filter fun c => 0 < c ∧ x.readsBack c k).map fun c => (c, k)

/-- The shortest decimal that reads back, as digits and a power of ten: the first of those with one
digit, two digits, and so on up to the seventeen that always suffice. -/
def shortest (x : Binary64) : Nat × Int :=
  if x.significand = 0 then (0, 0)
  else ((List.range 17).findSome? fun i => (x.candidates (i + 1)).head?).getD (0, 0)

def trimZeros (c : Nat) (k : Int) : List Char × Int :=
  let digits := (decimal c).reverse
  let zeros := (digits.takeWhile (· == '0')).length
  ((digits.drop zeros).reverse, k + zeros)

/-- The text of a number: positional from 10⁻⁵ up to 10¹⁶, with a fraction in any case, and else
with an exponent. -/
def text (x : Binary64) : String :=
  let sign := if x.negative then "-" else ""
  if x.significand = 0 then sign ++ "0.0"
  else
    let (c, k) := x.shortest
    let (digits, k) := trimZeros c k
    let point : Int := digits.length + k
    let body : List Char :=
      if 0 ≤ k ∧ point ≤ 16 then digits ++ List.replicate k.toNat '0' ++ ['.', '0']
      else if 0 < point ∧ point ≤ 16 then
        digits.take point.toNat ++ ['.'] ++ digits.drop point.toNat
      else if -5 < point ∧ point ≤ 0 then
        ['0', '.'] ++ List.replicate (-point).toNat '0' ++ digits
      else
        let mantissa := match digits with
          | [] => []
          | [d] => [d]
          | d :: r => d :: '.' :: r
        mantissa ++ 'e' :: signedDecimal (point - 1)
    sign ++ String.ofList body

end Binary64

end BearerAccess
