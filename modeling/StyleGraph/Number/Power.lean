/-!
# Powers of two and ten

The two powers that numbers are written and rounded with.
-/

set_option autoImplicit false

namespace StyleGraph.Number

/-- The power of two with the given exponent. -/
def twoTo (exponent : Nat) : Nat := Nat.pow 2 exponent

/-- The power of ten with the given exponent. -/
def tenTo (exponent : Nat) : Nat := Nat.pow 10 exponent

end StyleGraph.Number
