import PlantEconomics.Decimal.Reading
import PlantEconomics.Decimal.Shortest
import PlantEconomics.Powers
import PlantEconomics.Settings.Escaped
import PlantEconomics.Settings.Tree

/-!
# Literals

A literal is the notation of a setting, that of JSON: `null`, `true`, `false`, numbers, quoted
text, lists in brackets and tables in braces. A number is whole if it is written without point and
exponent and has at most 64 bits.

`Literal.split?` reads a literal at the beginning of a text and gives the rest. `Literal.quote`
writes text between quotes, and `Literal.write` a whole tree; a letter is written as the text that
it is.
-/

namespace PlantEconomics

namespace Literal

/-! ## §1. Pieces -/

/-- Blanks between the parts of a literal. -/
def isSpace (c : Char) : Bool := c == ' ' || c == '\n' || c == '\t' || c == '\r'

/-- The text without blanks in front. -/
def skip (cs : List Char) : List Char := cs.dropWhile isSpace

/-- The value of four hexadecimal digits, and the rest. -/
def hex4? : List Char → Option (Nat × List Char)
  | a :: b :: c :: d :: rest => do
    some (← Escaped.hexNumber? [a, b, c, d], rest)
  | _ => none

/-- The character of a code, of which a pair of halves may be needed, and the rest. -/
def coded? (cs : List Char) : Option (Char × List Char) := do
  let (n, rest) ← hex4? cs
  if 0xD800 ≤ n ∧ n < 0xDC00 then
    match rest with
    | '\\' :: 'u' :: more =>
      let (low, rest) ← hex4? more
      if 0xDC00 ≤ low ∧ low < 0xE000 then
        some (Char.ofNat (0x10000 + (n - 0xD800) * 0x400 + (low - 0xDC00)), rest)
      else none
    | _ => none
  else if 0xDC00 ≤ n ∧ n < 0xE000 then none
  else some (Char.ofNat n, rest)

/-- The character that an escaped letter stands for. -/
def escaped? (c : Char) : Option Char := if c == '/' then some '/' else Escaped.letter? c

/-- Text up to the closing quote, and the rest. The fuel is the length of the text. -/
def splitText? (acc : List Char) : Nat → List Char → Option (String × List Char)
  | _, '"' :: rest => some (String.ofList acc.reverse, rest)
  | fuel + 1, '\\' :: 'u' :: rest => do
    let (c, rest) ← coded? rest
    splitText? (c :: acc) fuel rest
  | fuel + 1, '\\' :: c :: rest => do
    let c ← escaped? c
    splitText? (c :: acc) fuel rest
  | fuel + 1, c :: rest => splitText? (c :: acc) fuel rest
  | _, _ => none

/-- Whether a character can be part of a number. -/
def isNumberChar (c : Char) : Bool :=
  c.isDigit || c == '-' || c == '+' || c == '.' || c == 'e' || c == 'E'

/-- Whether a whole number has 64 bits, with a sign only if it is negative. -/
def isWord (n : Int) : Bool := -(twoTo 63 : Int) ≤ n && n < twoTo 64

/-- The number that a text writes. The negative zero and whole numbers beyond 64 bits are held as
machine numbers. -/
def number? (cs : List Char) : Option Setting :=
  let number := (Decimal.read? (String.ofList cs)).map .number
  match Digits.readInt? (String.ofList cs) with
  | some n => if isWord n && cs != ['-', '0'] then some (.whole n) else number
  | none => number

/-! ## §2. Trees -/

mutual

/-- The literal that a text begins with, and the rest. -/
def splitWithin? : Nat → List Char → Option (Setting × List Char)
  | 0, _ => none
  | fuel + 1, cs =>
    match skip cs with
    | 'n' :: 'u' :: 'l' :: 'l' :: rest => some (.null, rest)
    | 't' :: 'r' :: 'u' :: 'e' :: rest => some (.flag true, rest)
    | 'f' :: 'a' :: 'l' :: 's' :: 'e' :: rest => some (.flag false, rest)
    | '"' :: rest => (splitText? [] rest.length rest).map fun (s, rest) => (.text s, rest)
    | '[' :: rest =>
      match skip rest with
      | ']' :: rest => some (.list [], rest)
      | rest => splitList? [] fuel rest
    | '\x7b' :: rest =>
      match skip rest with
      | '\x7d' :: rest => some (.table [], rest)
      | rest => splitTable? [] fuel rest
    | cs => (number? (cs.takeWhile isNumberChar)).map fun v => (v, cs.dropWhile isNumberChar)

/-- The rest of a list, its first members being known in reverse. -/
def splitList? (acc : List Setting) : Nat → List Char → Option (Setting × List Char)
  | 0, _ => none
  | fuel + 1, cs => do
    let (v, rest) ← splitWithin? fuel cs
    match skip rest with
    | ',' :: rest => splitList? (v :: acc) fuel rest
    | ']' :: rest => some (.list (v :: acc).reverse, rest)
    | _ => none

/-- The rest of a table, its first entries being known in reverse. -/
def splitTable? (acc : List (String × Setting)) : Nat → List Char → Option (Setting × List Char)
  | 0, _ => none
  | fuel + 1, cs =>
    match skip cs with
    | '"' :: rest => do
      let (k, rest) ← splitText? [] rest.length rest
      match skip rest with
      | ':' :: rest =>
        let (v, rest) ← splitWithin? fuel rest
        match skip rest with
        | ',' :: rest => splitTable? ((k, v) :: acc) fuel rest
        | '\x7d' :: rest => some (.table ((k, v) :: acc).reverse, rest)
        | _ => none
      | _ => none
    | _ => none

end

/-- The literal that a text begins with, and the rest. Every step into a literal takes a character
of it, so twice the length is fuel enough. -/
def split? (cs : List Char) : Option (Setting × List Char) := splitWithin? (2 * cs.length + 2) cs

/-- The literal that a text consists of. -/
def read? (text : String) : Option Setting := do
  let (v, rest) ← split? text.toList
  if (skip rest).isEmpty then some v else none

/-! ## §3. Writing -/

/-- How a character is written between quotes. -/
def quotedChar (c : Char) : List Char :=
  match c with
  | '"' => ['\\', '"']
  | '\\' => ['\\', '\\']
  | '\n' => ['\\', 'n']
  | '\r' => ['\\', 'r']
  | '\t' => ['\\', 't']
  | '\x08' => ['\\', 'b']
  | '\x0c' => ['\\', 'f']
  | c =>
    if c.toNat < 0x20 then
      '\\' :: 'u' :: '0' :: '0' :: Nat.toDigits 16 (c.toNat / 16) ++
        Nat.toDigits 16 (c.toNat % 16)
    else [c]

/-- Text between quotes. -/
def quote (text : String) : String :=
  String.ofList ('"' :: text.toList.flatMap quotedChar ++ ['"'])

/-- Parts between an opening and a closing mark, with commas between them. -/
def enclosed (opening closing : String) (parts : List String) : String :=
  opening ++ String.intercalate "," parts ++ closing

mutual

/-- The literal of a setting. -/
def write : Setting → String
  | .null => "null"
  | .flag b => if b then "true" else "false"
  | .whole n => toString n
  | .number x => Decimal.json x
  | .text s => quote s
  | .letter c => quote (String.singleton c)
  | .list xs => enclosed "[" "]" (writeAll xs)
  | .table es => enclosed "\x7b" "\x7d" (writeEntries es)

/-- The literals of settings. -/
def writeAll : List Setting → List String
  | [] => []
  | x :: rest => write x :: writeAll rest

/-- The entries of a table, each with a colon behind its name. -/
def writeEntries : List (String × Setting) → List String
  | [] => []
  | (k, x) :: rest => (quote k ++ ":" ++ write x) :: writeEntries rest

end

end Literal

end PlantEconomics
