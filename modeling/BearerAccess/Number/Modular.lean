import BearerAccess.Number.Positional
set_option autoImplicit false

namespace BearerAccess

/-- The element `x` combined with itself `k` times, by doubling for each bit of `k`; `one` is
neutral. -/
def combineTimes {α : Type} (op : α → α → α) (one x : α) (k : Nat) : α :=
  (bitsOf k).foldl (fun acc bit => if bit then op (op acc acc) x else op acc acc) one

namespace Modular

def pow (m b e : Nat) : Nat := combineTimes (fun x y => x * y % m) (1 % m) (b % m) e

def inverse (p a : Nat) : Nat := pow p a (p - 2)

def sub (m a b : Nat) : Nat := (a + (m - b % m)) % m

end Modular

end BearerAccess
