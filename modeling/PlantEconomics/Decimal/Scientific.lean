import PlantEconomics.Decimal.Shortest

/-!
# A fixed number of significant digits

A number is written with one digit before the point, the other significant digits after it, and the
power of ten. The digits are those of the exact value rounded once, a tie going to the even digit.
-/

namespace PlantEconomics

namespace Decimal

/-- The `n` significant digits of the positive number `m * 2 ^ e`, as a whole number, and the power
of ten of the first of them. -/
def significand (n m : Nat) (e : Int) : Nat × Int :=
  let (num, den) := if e < 0 then (m, twoTo (-e).toNat) else (m * twoTo e.toNat, 1)
  let decade := Shortest.decadeOf num den
  let (a, b) := Shortest.scaleDown num den (decade - (n - 1 : Nat))
  let q := Binary64.roundedQuotient a b
  if q = tenTo n then (tenTo (n - 1), decade + 1) else (q, decade)

/-- A number with `n` significant digits; zero is written as a single digit without a sign. -/
def scientific (n : Nat) (x : Float) : String :=
  match Binary64.ofFloat x with
  | .nan => "NaN"
  | .infinite negative => signed negative "inf".toList
  | .finite _ 0 _ => "0"
  | .finite negative m e =>
    let (q, decade) := significand n m e
    match digitChars q with
    | [] => ""
    | d :: rest => signed negative (d :: '.' :: rest ++ 'e' :: (toString decade).toList)

end Decimal

end PlantEconomics
