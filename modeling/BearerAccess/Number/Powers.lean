set_option autoImplicit false

namespace BearerAccess

def twoTo (k : Nat) : Nat := Nat.pow 2 k

def tenTo (k : Nat) : Nat := Nat.pow 10 k

end BearerAccess
