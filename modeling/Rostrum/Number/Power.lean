/-!
# Powers

The powers that number formats are made of.
-/

namespace Rostrum

/-- The power of two. -/
def pow2 (n : Nat) : Nat := Nat.pow 2 n

/-- The power of ten. -/
def pow10 (n : Nat) : Nat := Nat.pow 10 n

end Rostrum
