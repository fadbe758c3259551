/-!
# Text between double quotes

Between double quotes a backslash and the character behind it stand for one character: a letter for
a control character, the quote or the backslash itself, or the code of a character with four or
eight hexadecimal digits. Control characters other than the tabulator have to be written this way.

`Escaped.split?` finds the closing quote, and `Escaped.decode?` says what the text between the
quotes stands for.
-/

namespace PlantEconomics

namespace Escaped

/-! ## §1. Characters -/

/-- Whether a character may stand for itself. -/
def isPlain (c : Char) : Bool := c == '\t' || (0x20 ≤ c.toNat && c.toNat != 0x7F)

/-- The character that an escaped letter stands for. -/
def letter? : Char → Option Char
  | '"' => some '"'
  | '\\' => some '\\'
  | 'b' => some '\x08'
  | 'f' => some '\x0c'
  | 'n' => some '\n'
  | 'r' => some '\r'
  | 't' => some '\t'
  | _ => none

/-- The value of a hexadecimal digit. -/
def hexValue? (c : Char) : Option Nat :=
  if c.isDigit then some (c.toNat - '0'.toNat)
  else if 'a' ≤ c ∧ c ≤ 'f' then some (c.toNat - 'a'.toNat + 10)
  else if 'A' ≤ c ∧ c ≤ 'F' then some (c.toNat - 'A'.toNat + 10)
  else none

/-- The value of a run of hexadecimal digits. -/
def hexNumber? (ds : List Char) : Option Nat :=
  ds.foldlM (fun n d => (hexValue? d).map (16 * n + ·)) 0

/-- The character of a code. The codes of half pairs have none. -/
def ofCode? (ds : List Char) : Option Char := do
  let n ← hexNumber? ds
  if n.isValidChar then some (Char.ofNat n) else none

/-! ## §2. Texts -/

/-- What the text between two quotes stands for. -/
def decode? : List Char → Option (List Char)
  | [] => some []
  | '\\' :: 'u' :: a :: b :: c :: d :: rest => do
    some ((← ofCode? [a, b, c, d]) :: (← decode? rest))
  | '\\' :: 'U' :: a :: b :: c :: d :: e :: f :: g :: h :: rest => do
    some ((← ofCode? [a, b, c, d, e, f, g, h]) :: (← decode? rest))
  | '\\' :: c :: rest => do some ((← letter? c) :: (← decode? rest))
  | c :: rest => if isPlain c && c != '\\' then (decode? rest).map (c :: ·) else none

/-- The text up to the closing quote, and what follows the quote. A character behind a backslash
closes nothing. -/
def split? : List Char → Option (List Char × List Char)
  | [] => none
  | '"' :: rest => some ([], rest)
  | '\\' :: c :: rest => (split? rest).map fun (inner, rest) => ('\\' :: c :: inner, rest)
  | c :: rest => (split? rest).map fun (inner, rest) => (c :: inner, rest)

end Escaped

end PlantEconomics
