import PlantEconomics.Powers

/-!
# Machine numbers taken apart and put together

A finite machine number is a sign, a whole mantissa `m` and an exponent `e`; its size is
`m * 2 ^ e`. Printing starts from that exact value, and reading ends in the machine number
nearest to an exact ratio, so no rounding hides between the text and the bits.

  * `Binary64.ofFloat` splits a machine number by its bit pattern;
  * `Binary64.nearest` rounds a ratio of whole numbers, a tie going to the even mantissa;
  * `Binary64.ofDecimal` is the number nearest to `digits * 10 ^ exponent`.
-/

namespace PlantEconomics

/-- A machine number by its parts. -/
inductive Binary64 where
  /-- No number. -/
  | nan
  /-- An infinity with its sign. -/
  | infinite (negative : Bool)
  /-- The number `± mantissa * 2 ^ exponent`. -/
  | finite (negative : Bool) (mantissa : Nat) (exponent : Int)
deriving Repr, DecidableEq

namespace Binary64

/-! ## §1. From the bit pattern -/

/-- Width of a full mantissa in bits. -/
def mantissaBits : Nat := 53

/-- The exponent of the smallest numbers. -/
def leastExponent : Int := -1074

/-- The largest exponent of a finite number. -/
def greatestExponent : Int := 971

/-- Sign, mantissa and exponent of a machine number. -/
def ofFloat (x : Float) : Binary64 :=
  let bits := x.toBits.toNat
  let negative := bits / twoTo 63 == 1
  let biased := bits / twoTo 52 % 2048
  let fraction := bits % twoTo 52
  if biased == 2047 then
    if fraction == 0 then .infinite negative else .nan
  else if biased == 0 then
    .finite negative fraction leastExponent
  else
    .finite negative (twoTo 52 + fraction) (leastExponent + (biased - 1 : Nat))

/-! ## §2. Back to the bit pattern -/

/-- The machine number with a mantissa below `2 ^ 53`; a mantissa below `2 ^ 52` needs the least
exponent. -/
def pack (negative : Bool) (mantissa : Nat) (exponent : Int) : Float :=
  let sign := if negative then twoTo 63 else 0
  let body :=
    if mantissa < twoTo 52 then mantissa
    else if greatestExponent < exponent then 2047 * twoTo 52
    else (exponent - leastExponent + 1).toNat * twoTo 52 + (mantissa - twoTo 52)
  Float.ofBits (UInt64.ofNat (sign + body))

/-- Whole part of a quotient, rounded to the nearest whole number, a tie to the even one. -/
def roundedQuotient (num den : Nat) : Nat :=
  let q := num / den
  let r := num % den
  if 2 * r < den then q
  else if den < 2 * r then q + 1
  else q + q % 2

/-- The ratio `num / den` scaled by `2 ^ (-exponent)` and rounded to a whole number. -/
def scaledQuotient (num den : Nat) (exponent : Int) : Nat :=
  if exponent < 0 then roundedQuotient (num * twoTo (-exponent).toNat) den
  else roundedQuotient num (den * twoTo exponent.toNat)

/-- The machine number nearest to `± num / den`; a tie goes to the even mantissa, and a ratio
beyond the largest number is infinite. -/
def nearest (negative : Bool) (num den : Nat) : Float :=
  if num == 0 then pack negative 0 leastExponent
  else
    let guess : Int := (num.log2 : Int) - den.log2 - 53
    -- the ratio has 53 or 54 bits above `2 ^ guess`; one more step leaves exactly 53
    let wide := scaledQuotient num den (max guess leastExponent)
    let exponent := max (if wide < twoTo 53 then guess else guess + 1) leastExponent
    let mantissa := scaledQuotient num den exponent
    if mantissa == twoTo 53 then pack negative (twoTo 52) (exponent + 1)
    else pack negative mantissa exponent

/-! ## §3. Decimal values -/

/-- Largest power of ten that a finite number reaches, with room to spare. -/
def decimalReach : Int := 400

/-- The machine number nearest to `± digits * 10 ^ exponent`. A value far beyond the range is
settled before any power of ten is computed. -/
def ofDecimal (negative : Bool) (digits : Nat) (exponent : Int) : Float :=
  let size : Int := exponent + (Nat.toDigits 10 digits).length
  if digits == 0 then pack negative 0 leastExponent
  else if decimalReach < size then pack negative (twoTo 52) (greatestExponent + 1)
  else if size < -decimalReach then pack negative 0 leastExponent
  else if exponent < 0 then nearest negative digits (tenTo (-exponent).toNat)
  else nearest negative (digits * tenTo exponent.toNat) 1

end Binary64

end PlantEconomics
