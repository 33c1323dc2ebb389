/-!
# Powers of two and ten

* `pow2`, `pow10` — powers of the two bases of numerals.
-/

namespace ShapeTypes.Numeric

def pow2 (n : Nat) : Nat := Nat.pow 2 n

def pow10 (n : Nat) : Nat := Nat.pow 10 n

end ShapeTypes.Numeric
