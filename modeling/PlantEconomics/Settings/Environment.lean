import PlantEconomics.Decimal.Reading
import PlantEconomics.Powers
import PlantEconomics.Settings.Escaped
import PlantEconomics.Settings.Tree
import PlantEconomics.Text.Blank

/-!
# Settings from the environment

A variable whose name has the right beginning gives a setting. The rest of the name is the path of
the setting, its parts standing between dots or pairs of underscores, without regard to case; a
name with an empty part gives nothing.

The text of a variable is read as a flag, a number, text between double quotes, a character between
single quotes, a list or a table where it is written as one, and is taken as it stands otherwise.

`Environment.tree` gives the settings of all variables, of which a later one is laid over the
earlier ones.
-/

namespace PlantEconomics

namespace Environment

/-! ## §1. Names -/

/-- The beginning of the names that give settings. -/
def beginning : String := "PTM__"

/-- Split a name at its dots and at pairs of underscores. -/
def parts (acc : List Char) : List Char → List String
  | [] => [String.ofList acc.reverse]
  | '_' :: '_' :: rest => String.ofList acc.reverse :: parts [] rest
  | '.' :: rest => String.ofList acc.reverse :: parts [] rest
  | c :: rest => parts (c :: acc) rest

/-- The path of the setting that a variable gives. Blanks at the ends of the name and of its rest
do not count. -/
def path? (name : String) : Option (List String) :=
  let cs := (Text.trim name).toList.map Char.toLower
  let start := beginning.toList.map Char.toLower
  let path := parts [] (Text.trimBy Text.isBlank (cs.drop start.length))
  if cs.take start.length == start && !path.any String.isEmpty then some path else none

/-! ## §2. Words and texts -/

/-- A whole number of 64 bits, with a sign only if it is negative. -/
def whole? (text : String) : Option Setting := do
  let n ← Digits.readInt? text
  if -(twoTo 63 : Int) ≤ n ∧ n < twoTo 64 then some (.whole n) else none

/-- What a word stands for: with a point any number, without one a whole number, or text. -/
def word (text : String) : Setting :=
  let number := if text.toList.contains '.' then (Decimal.read? text).map .number else none
  (number <|> whole? text).getD (.text text)

/-- Whether a character belongs to a word. -/
def isWordChar (c : Char) : Bool :=
  !(c == ',' || c == '[' || c == ']' || c == '\x7b' || c == '\x7d')

/-- Blanks around a value. -/
def isSpace (c : Char) : Bool :=
  c == ' ' || c == '\t' || c == '\n' || c == '\x0c' || c == '\r'

/-- The text without blanks in front. -/
def skip (cs : List Char) : List Char := cs.dropWhile isSpace

/-- The leading characters that take so many bytes together. -/
def leadingBytes? : Nat → List Char → Option (List Char)
  | 0, _ => some []
  | _ + 1, [] => none
  | n + 1, c :: rest =>
    if c.utf8Size ≤ n + 1 then (leadingBytes? (n + 1 - c.utf8Size) rest).map (c :: ·) else none

/-- What the text between two double quotes stands for. Of what stands before the first backslash
as many bytes are kept as it has characters. -/
def decode? (inner : List Char) : Option (List Char) := do
  let front := inner.takeWhile (· != '\\')
  let plain ← Escaped.decode? front
  match inner.dropWhile (· != '\\') with
  | [] => some plain
  | rest => some ((← leadingBytes? front.length front) ++ (← Escaped.decode? rest))

/-- Text behind an opening double quote, and the rest. -/
def splitText? (cs : List Char) : Option (String × List Char) := do
  let (inner, rest) ← Escaped.split? cs
  some (String.ofList (← decode? inner), rest)

/-- The key of an entry, and the rest without blanks in front. -/
def splitKey? (cs : List Char) : Option (String × List Char) := do
  let (key, rest) ←
    match skip cs with
    | '"' :: rest => splitText? rest
    | cs =>
      let key := cs.takeWhile Setting.isNameChar
      if key.isEmpty then none else some (String.ofList key, cs.dropWhile Setting.isNameChar)
  some (key, skip rest)

/-! ## §3. Values -/

mutual

/-- The value that a text begins with, and the rest without blanks in front. -/
def splitWithin? : Nat → List Char → Option (Setting × List Char)
  | 0, _ => none
  | fuel + 1, cs => do
    let (v, rest) ←
      match skip cs with
      | 't' :: 'r' :: 'u' :: 'e' :: rest => some (.flag true, rest)
      | 'f' :: 'a' :: 'l' :: 's' :: 'e' :: rest => some (.flag false, rest)
      | '"' :: rest => (splitText? rest).map fun (s, rest) => (.text s, rest)
      | '\'' :: rest =>
        match rest with
        | c :: '\'' :: rest => some (.letter c, rest)
        | _ => none
      | '[' :: rest =>
        match rest with
        | ']' :: rest => some (.list [], rest)
        | rest => splitList? [] fuel rest
      | '\x7b' :: rest =>
        match rest with
        | '\x7d' :: rest => some (.table [], rest)
        | rest => splitTable? [] fuel rest
      | cs =>
        let text := Text.trim (String.ofList (cs.takeWhile isWordChar))
        some (word text, cs.dropWhile isWordChar)
    some (v, skip rest)

/-- The rest of a list, its first members being known in reverse. A comma may end it. -/
def splitList? (acc : List Setting) : Nat → List Char → Option (Setting × List Char)
  | 0, _ => none
  | fuel + 1, cs => do
    match ← splitWithin? fuel cs with
    | (v, ',' :: ']' :: rest) | (v, ']' :: rest) => some (.list (v :: acc).reverse, rest)
    | (v, ',' :: rest) => splitList? (v :: acc) fuel rest
    | _ => none

/-- The rest of a table, its first entries being known. A comma may end it, and of several entries
with one name the last counts. -/
def splitTable? (es : List (String × Setting)) : Nat → List Char → Option (Setting × List Char)
  | 0, _ => none
  | fuel + 1, cs => do
    match ← splitKey? cs with
    | (key, '=' :: rest) =>
      let (v, rest) ← splitWithin? fuel rest
      let es := Setting.put key v es
      match rest with
      | ',' :: '\x7d' :: rest | '\x7d' :: rest => some (.table es, rest)
      | ',' :: rest => splitTable? es fuel rest
      | _ => none
    | _ => none

end

/-- The setting that the text of a variable stands for. Every step into a value takes a character
of it, so twice the length is fuel enough. -/
def value (text : String) : Setting :=
  match splitWithin? (2 * text.length + 2) text.toList with
  | some (v, []) => v
  | _ => .text text

/-! ## §4. Variables -/

/-- The settings that variables give, each by its name and its text. -/
def tree (named : List (String × String)) : Setting :=
  named.foldl
    (fun tree (name, text) =>
      match path? name with
      | some path => tree.overlay (.under (value text) path)
      | none => tree)
    (.table [])

end Environment

end PlantEconomics
