set_option autoImplicit false

namespace BearerAccess

/-- Ranges of the characters with the property White_Space. -/
def blankRanges : List (Nat × Nat) :=
  [(0x09, 0x0D), (0x20, 0x20), (0x85, 0x85), (0xA0, 0xA0), (0x1680, 0x1680), (0x2000, 0x200A),
   (0x2028, 0x2029), (0x202F, 0x202F), (0x205F, 0x205F), (0x3000, 0x3000)]

def isBlank (c : Char) : Bool :=
  blankRanges.any fun r => decide (r.1 ≤ c.toNat ∧ c.toNat ≤ r.2)

def words (text : List Char) : List (List Char) :=
  (text.splitOnP isBlank).filter fun w => !w.isEmpty

def isAllBlank (text : List Char) : Bool := text.all isBlank

@[simp] theorem words_nil : words [] = [] := by simp [words]

example : (blankRanges.map fun r => r.2 + 1 - r.1).sum = 25 := by decide

end BearerAccess
