import BearerAccess.Number.IntegerText
set_option autoImplicit false

namespace BearerAccess

namespace Duration

def perSecond : Nat := 1000000000

def perMilli : Nat := 1000000

def seconds (n : Nat) : Nat := n * perSecond

def millis (n : Nat) : Nat := n * perMilli

def wholeSeconds (d : Nat) : Nat := d / perSecond

def ceilMillis (d : Nat) : Nat := (d + perMilli - 1) / perMilli * perMilli

theorem le_ceilMillis (d : Nat) : d ≤ ceilMillis d := by
  simp only [ceilMillis, perMilli]; omega

theorem ceilMillis_mono {a b : Nat} (h : a ≤ b) : ceilMillis a ≤ ceilMillis b := by
  simp only [ceilMillis, perMilli]; omega

/-- The text of `d` parts in units of `size` parts each; a fraction has up to `width` digits. -/
def inUnits (d size width : Nat) (unit : String) : String :=
  let whole := String.ofList (decimal (d / size))
  let digits := decimal (d % size)
  let fraction := List.replicate (width - digits.length) '0' ++ digits
  let shown := (fraction.reverse.dropWhile (· == '0')).reverse
  if shown.isEmpty then whole ++ unit else whole ++ "." ++ String.ofList shown ++ unit

def text (d : Nat) : String :=
  if perSecond ≤ d then inUnits d perSecond 9 "s"
  else if perMilli ≤ d then inUnits d perMilli 6 "ms"
  else if 1000 ≤ d then inUnits d 1000 3 "µs"
  else String.ofList (decimal d) ++ "ns"

end Duration

end BearerAccess
