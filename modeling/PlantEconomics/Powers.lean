/-!
# Powers of two and of ten

Machine numbers and words are scaled by powers of two, written numbers by powers of ten.
-/

namespace PlantEconomics

/-- A power of two. -/
def twoTo (k : Nat) : Nat := Nat.pow 2 k

/-- A power of ten. -/
def tenTo (k : Nat) : Nat := Nat.pow 10 k

end PlantEconomics
