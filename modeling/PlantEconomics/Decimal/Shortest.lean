import PlantEconomics.Decimal.Binary64

/-!
# The shortest decimal text of a machine number

A machine number stands for every real that rounds to it. Its shortest decimal is the one with the
fewest digits in that interval and, among those, the one nearest to the number itself; where two
are equally near, the writer's `Tie` rule decides. The search is over the decimal grids of 1, 2,
…, 17 digits and compares whole numbers only.

  * `Shortest.digits` finds the digits and the place of the first one;
  * `Decimal.plain` writes them without an exponent (`200`, `0.1`, `-0.0000001`);
  * `Decimal.json` writes them as a number of a JSON text (`200.0`, `1e16`).
-/

namespace PlantEconomics

/-- The significant digits of a positive number and the power of ten of the first of them. -/
structure Significand where
  /-- The digits, read as one whole number. -/
  digits : Nat
  /-- The power of ten of the leading digit. -/
  decade : Int
deriving Repr, DecidableEq

/-- Which of two equally near decimals is written. -/
inductive Tie where
  /-- The larger one. -/
  | up
  /-- The one with an even last digit. -/
  | even
deriving Repr, DecidableEq

/-- Whether a number between `lower` and `lower + 1`, `below` above the one and `above` under the
other, is written as `lower`. -/
def Tie.takesLower (tie : Tie) (lower below above : Nat) : Bool :=
  if below < above then true
  else if above < below then false
  else match tie with
    | .up => false
    | .even => lower % 2 == 0

namespace Shortest

/-! ## §1. Powers of ten around a ratio -/

/-- The pair `(a, b)` scaled so that `a / b` is the old ratio divided by `10 ^ k`. -/
def scaleDown (num den : Nat) (k : Int) : Nat × Nat :=
  if k < 0 then (num * tenTo (-k).toNat, den) else (num, den * tenTo k.toNat)

/-- Whether `10 ^ k ≤ num / den`. -/
def reaches (num den : Nat) (k : Int) : Bool :=
  let (a, b) := scaleDown num den k
  b ≤ a

/-- The power of ten of the leading digit of a positive ratio. The logarithm to base two gives it
up to one. -/
def decadeOf (num den : Nat) : Int :=
  let guess := ((num.log2 : Int) - den.log2) * 30103 / 100000
  if reaches num den (guess + 1) then guess + 1
  else if reaches num den guess then guess
  else guess - 1

/-! ## §2. The interval of a machine number -/

/-- The reals that round to a machine number, over the common denominator `den`: from `low` to
`high` around `value`, ends included when `closed`. -/
structure Interval where
  low : Nat
  value : Nat
  high : Nat
  den : Nat
  closed : Bool

/-- The interval of `mantissa * 2 ^ exponent`. Below a power of two the neighbour is half as
far away, unless the exponent is already the least. -/
def Interval.ofParts (mantissa : Nat) (exponent : Int) : Interval :=
  let below := if mantissa == twoTo 52 && exponent != Binary64.leastExponent then 1 else 2
  let quarter := exponent - 2
  let up := if quarter < 0 then 1 else twoTo quarter.toNat
  let down := if quarter < 0 then twoTo (-quarter).toNat else 1
  { low := (4 * mantissa - below) * up
    value := 4 * mantissa * up
    high := (4 * mantissa + 2) * up
    den := down
    closed := mantissa % 2 == 0 }

/-- Whether the ratio `num / den` lies in the interval. -/
def Interval.holds (i : Interval) (num den : Nat) : Bool :=
  let lo := i.low * den
  let hi := i.high * den
  let x := num * i.den
  if i.closed then lo ≤ x && x ≤ hi else lo < x && x < hi

/-! ## §3. The search -/

/-- The grid point of `n` digits nearest to the value among those in the interval. -/
def onGrid? (tie : Tie) (i : Interval) (decade : Int) (n : Nat) : Option Significand :=
  let place := decade - (n - 1 : Nat)
  let (num, den) := scaleDown i.value i.den place
  let lower := num / den
  let inside (q : Nat) : Bool :=
    if place < 0 then i.holds q (tenTo (-place).toNat) else i.holds (q * tenTo place.toNat) 1
  let point (q : Nat) : Significand :=
    if q == tenTo n then ⟨tenTo (n - 1), decade + 1⟩ else ⟨q, decade⟩
  match inside lower, inside (lower + 1) with
  | true, true =>
    some (point (if tie.takesLower lower (num - lower * den) ((lower + 1) * den - num) then lower
      else lower + 1))
  | true, false => some (point lower)
  | false, true => some (point (lower + 1))
  | false, false => none

/-- The first of the grids from `n` digits on that meets the interval; seventeen digits always
suffice. -/
def searchFrom (tie : Tie) (i : Interval) (decade : Int) (n : Nat) : Nat → Significand
  | 0 =>
    let (num, den) := scaleDown i.value i.den (decade - 16)
    ⟨num / den, decade⟩
  | fuel + 1 => (onGrid? tie i decade n).getD (searchFrom tie i decade (n + 1) fuel)

/-- The shortest digits of the positive number `mantissa * 2 ^ exponent`. -/
def digits (tie : Tie) (mantissa : Nat) (exponent : Int) : Significand :=
  let i := Interval.ofParts mantissa exponent
  searchFrom tie i (decadeOf i.value i.den) 1 17

end Shortest

/-! ## §4. Writing the digits -/

namespace Decimal

/-- The digits of a whole number as characters. -/
def digitChars (n : Nat) : List Char := Nat.toDigits 10 n

/-- `n` zeros. -/
def zeros (n : Nat) : List Char := List.replicate n '0'

/-- Digits in positional notation: the whole part, and the fraction after a point if there is
one. -/
def positional (s : Significand) : List Char :=
  let ds := digitChars s.digits
  if s.decade < 0 then '0' :: '.' :: zeros (-s.decade - 1).toNat ++ ds
  else
    let wholeWidth := s.decade.toNat + 1
    if ds.length ≤ wholeWidth then ds ++ zeros (wholeWidth - ds.length)
    else ds.take wholeWidth ++ '.' :: ds.drop wholeWidth

/-- Digits with an exponent: one digit, the others after a point, then the power of ten. -/
def withExponent (s : Significand) : List Char :=
  let power := (toString s.decade).toList
  match digitChars s.digits with
  | [] => []
  | [d] => d :: 'e' :: power
  | d :: rest => d :: '.' :: rest ++ 'e' :: power

/-- The sign in front of a text. -/
def signed (negative : Bool) (text : List Char) : String :=
  String.ofList (if negative then '-' :: text else text)

/-- Shortest decimal text without an exponent, as messages show numbers. -/
def plain (x : Float) : String :=
  match Binary64.ofFloat x with
  | .nan => "NaN"
  | .infinite negative => signed negative "inf".toList
  | .finite negative 0 _ => signed negative ['0']
  | .finite negative m e => signed negative (positional (Shortest.digits .up m e))

/-- Shortest decimal text as a number of a JSON document: a whole number keeps `.0`, and below
`10 ^ -5` or from `10 ^ 16` on an exponent is written. JSON has no other numbers than finite
ones. -/
def json (x : Float) : String :=
  match Binary64.ofFloat x with
  | .nan => "null"
  | .infinite _ => "null"
  | .finite negative 0 _ => signed negative "0.0".toList
  | .finite negative m e =>
    let s := Shortest.digits .even m e
    if s.decade < -5 || 16 ≤ s.decade then signed negative (withExponent s)
    else
      let text := positional s
      signed negative (if text.contains '.' then text else text ++ ['.', '0'])

end Decimal

end PlantEconomics
