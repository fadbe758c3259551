import PlantEconomics.Decimal.Binary64
import PlantEconomics.Text.Digits

/-!
# Reading a decimal number

The text of a number is an optional sign followed by digits with at most one point among or around
them and an optional exponent, or by one of the words for infinity and for no number. There is
nothing else: no blanks, no separators between digits, no empty mantissa or exponent.

`Decimal.read?` gives the machine number nearest to the value written.
-/

namespace PlantEconomics

namespace Decimal

/-! ## §1. Pieces of the text -/

/-- The mantissa: its digits, how many of them stand after the point, and the rest of the text.
There is at least one digit. -/
def splitMantissa? (cs : List Char) : Option (List Char × Nat × List Char) :=
  let (whole, rest) := Digits.split cs
  let (fraction, rest) :=
    match rest with
    | '.' :: more => Digits.split more
    | _ => ([], rest)
  if whole.isEmpty && fraction.isEmpty then none
  else some (whole ++ fraction, fraction.length, rest)

/-- The exponent that ends the text; without one it is zero. -/
def exponent? : List Char → Option Int
  | [] => some 0
  | c :: rest =>
    if c == 'e' || c == 'E' then
      let (negative, ds) := Digits.splitSign rest
      if ds.isEmpty || !ds.all Char.isDigit then none
      else
        let n : Int := Digits.value ds
        some (if negative then -n else n)
    else none

/-! ## §2. The number -/

/-- The words that stand for values without digits, in lower case. -/
def word? (negative : Bool) (cs : List Char) : Option Float :=
  let text := cs.map Char.toLower
  if text == "inf".toList || text == "infinity".toList then
    some (Binary64.pack negative (twoTo 52) (Binary64.greatestExponent + 1))
  else if text == "nan".toList then some (0.0 / 0.0)
  else none

/-- The number that an unsigned text writes. -/
def unsigned? (negative : Bool) (cs : List Char) : Option Float :=
  match word? negative cs with
  | some x => some x
  | none => do
    let (ds, places, rest) ← splitMantissa? cs
    let e ← exponent? rest
    some (Binary64.ofDecimal negative (Digits.value ds) (e - places))

/-- The machine number nearest to the value a text writes. -/
def read? (text : String) : Option Float :=
  let (negative, cs) := Digits.splitSign text.toList
  unsigned? negative cs

end Decimal

end PlantEconomics
