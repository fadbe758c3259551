/-!
# Blank characters

A character is blank when Unicode gives it the property White_Space. Fields of a table and labels
of columns are trimmed of blanks at both ends; the plain space, the tabulator and the line ends
are only some of them.

`trim` leaves a text without blanks at its ends and touches nothing between them.
-/

namespace PlantEconomics

namespace Text

/-! ## §1. The property -/

/-- The blanks of Unicode. -/
def isBlank (c : Char) : Bool :=
  let n := c.toNat
  (0x09 ≤ n && n ≤ 0x0D) || n == 0x20 || n == 0x85 || n == 0xA0 || n == 0x1680 ||
    (0x2000 ≤ n && n ≤ 0x200A) || n == 0x2028 || n == 0x2029 || n == 0x202F || n == 0x205F ||
    n == 0x3000

/-- The blanks among the bytes of ASCII; the vertical tabulator is not one of them. -/
def isBlankByte (b : UInt8) : Bool :=
  b == 0x20 || b == 0x09 || b == 0x0A || b == 0x0C || b == 0x0D

/-! ## §2. Trimming -/

/-- A list without the leading and trailing elements that `p` holds of. -/
def trimBy {β : Type} (p : β → Bool) (xs : List β) : List β :=
  ((xs.dropWhile p).reverse.dropWhile p).reverse

/-- A text without the blanks at its ends. -/
def trim (text : String) : String :=
  String.ofList (trimBy isBlank text.toList)

end Text

end PlantEconomics
