set_option autoImplicit false

namespace BearerAccess

def decimal (n : Nat) : List Char := Nat.toDigits 10 n

def signedDecimal : Int → List Char
  | .ofNat n => decimal n
  | .negSucc n => '-' :: decimal (n + 1)

inductive IntegerFault where
  | empty
  | notADigit
  | tooLarge
  | tooSmall
  deriving DecidableEq, Repr

def IntegerFault.message : IntegerFault → String
  | .empty => "cannot parse integer from empty string"
  | .notADigit => "invalid digit found in string"
  | .tooLarge => "number too large to fit in target type"
  | .tooSmall => "number too small to fit in target type"

def digitsUpTo (limit : Nat) (excess : IntegerFault) : Nat → List Char → Except IntegerFault Nat
  | n, [] => .ok n
  | n, c :: r =>
    if c.isDigit then
      let n' := 10 * n + (c.toNat - '0'.toNat)
      if n' ≤ limit then digitsUpTo limit excess n' r else .error excess
    else .error .notADigit

def someDigitsUpTo (limit : Nat) (excess : IntegerFault) : List Char → Except IntegerFault Nat
  | [] => .error .notADigit
  | c :: r => digitsUpTo limit excess 0 (c :: r)

def maxUnsigned : Nat := 18446744073709551615

def maxSigned : Nat := 9223372036854775807

def readUnsigned : List Char → Except IntegerFault Nat
  | [] => .error .empty
  | '+' :: r => someDigitsUpTo maxUnsigned .tooLarge r
  | s => someDigitsUpTo maxUnsigned .tooLarge s

def readSigned : List Char → Except IntegerFault Int
  | [] => .error .empty
  | '+' :: r => (someDigitsUpTo maxSigned .tooLarge r).map Int.ofNat
  | '-' :: r => (someDigitsUpTo (maxSigned + 1) .tooSmall r).map fun n => -(Int.ofNat n)
  | s => (someDigitsUpTo maxSigned .tooLarge s).map Int.ofNat

end BearerAccess
