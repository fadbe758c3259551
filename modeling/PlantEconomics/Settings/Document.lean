import PlantEconomics.Decimal.Reading
import PlantEconomics.Powers
import PlantEconomics.Settings.Escaped
import PlantEconomics.Settings.Tree
import PlantEconomics.Text.Utf8

/-!
# Documents of settings

A document has lines `[table]` and `key = value`, blank lines, and comments from a hash sign on.
A header names the table that the entries below it belong to; entries before the first header
belong to the whole. Keys and headers are paths whose parts stand between dots, a part being a bare
word or quoted. A value is text between quotes, a number, a flag, a list in brackets or a table in
braces.

Nothing is said twice: a name is given one value, and a table is opened by one header. A table that
dots in a key have made belongs to the section where the key stands and is not opened again.

`SettingsDocument.read?` gives the tree of a document.
-/

namespace PlantEconomics

namespace SettingsDocument

/-! ## §1. Tables under construction -/

/-- How a table came to be. -/
inductive Origin where
  /-- By the header of a table inside it. -/
  | implied
  /-- By a header of its own. -/
  | headed
  /-- By a dot in a key. -/
  | dotted
deriving Repr, DecidableEq

/-- What stands under a name. -/
inductive Node where
  | leaf (v : Setting)
  | branch (origin : Origin) (entries : List (String × Node))

/-- The entries of a table under construction. -/
abbrev Entries : Type := List (String × Node)

mutual

/-- The setting that stands under a name. -/
def Node.setting : Node → Setting
  | .leaf v => v
  | .branch _ es => .table (settings es)

/-- The settings of entries. -/
def settings : Entries → List (String × Setting)
  | [] => []
  | (k, n) :: rest => (k, n.setting) :: settings rest

end

/-- Entries changed under a name, where `f` is told what stood there and may refuse. -/
def alter (key : String) (f : Option Node → Option Node) : Entries → Option Entries
  | [] => (f none).map fun n => [(key, n)]
  | (k, n) :: rest =>
    if k == key then (f (some n)).map fun n => (k, n) :: rest
    else (alter key f rest).map fun rest => (k, n) :: rest

/-- Entries with a value under a path of names that has none. -/
def assign (v : Setting) : List String → Entries → Option Entries
  | [], _ => none
  | [k], es => es |> alter k fun
    | none => some (.leaf v)
    | some _ => none
  | k :: ks, es => es |> alter k fun
    | none => (assign v ks []).map (.branch .dotted)
    | some (.branch .dotted es) => (assign v ks es).map (.branch .dotted)
    | some _ => none

/-- Entries with a table opened by its header. -/
def head : List String → Entries → Option Entries
  | [], _ => none
  | [k], es => es |> alter k fun
    | none => some (.branch .headed [])
    | some (.branch .implied es) => some (.branch .headed es)
    | some _ => none
  | k :: ks, es => es |> alter k fun
    | none => (head ks []).map (.branch .implied)
    | some (.branch origin es) => (head ks es).map (.branch origin)
    | some (.leaf _) => none

/-- Entries with the table under a path changed. -/
def within (f : Entries → Option Entries) : List String → Entries → Option Entries
  | [], es => f es
  | k :: ks, es => es |> alter k fun
    | some (.branch origin es) => (within f ks es).map (.branch origin)
    | _ => none

/-! ## §2. Keys -/

/-- Blanks within a line. -/
def isSpace (c : Char) : Bool := c == ' ' || c == '\t'

/-- The text without blanks in front. -/
def skip (cs : List Char) : List Char := cs.dropWhile isSpace

/-- Whether only blanks and a comment are left of a line. -/
def isOver (cs : List Char) : Bool :=
  match skip cs with
  | [] => true
  | c :: rest => c == '#' && rest.all Escaped.isPlain

/-- Text behind an opening quote, and the rest. Between single quotes all stands for itself. -/
def splitText? (quote : Char) (cs : List Char) : Option (String × List Char) :=
  if quote == '"' then do
    let (inner, rest) ← Escaped.split? cs
    some (String.ofList (← Escaped.decode? inner), rest)
  else
    let inner := cs.takeWhile (· != quote)
    match cs.dropWhile (· != quote) with
    | _ :: rest => if inner.all Escaped.isPlain then some (String.ofList inner, rest) else none
    | [] => none

/-- The part of a key that a text begins with, and the rest. -/
def splitPart? : List Char → Option (String × List Char)
  | '"' :: rest => splitText? '"' rest
  | '\'' :: rest => splitText? '\'' rest
  | cs =>
    let part := cs.takeWhile Setting.isNameChar
    if part.isEmpty then none else some (String.ofList part, cs.dropWhile Setting.isNameChar)

/-- The key that a text begins with, and the rest without blanks in front. The fuel is the length
of the text. -/
def splitKey? : Nat → List Char → Option (List String × List Char)
  | 0, _ => none
  | fuel + 1, cs => do
    let (part, rest) ← splitPart? (skip cs)
    match skip rest with
    | '.' :: rest => (splitKey? fuel rest).map fun (parts, rest) => (part :: parts, rest)
    | rest => some ([part], rest)

/-! ## §3. Values -/

/-- A number without its underscores, which stand between digits. -/
def withoutUnderscores? (afterDigit : Bool) : List Char → Option (List Char)
  | [] => some []
  | '_' :: d :: rest =>
    if afterDigit && d.isDigit then (withoutUnderscores? true rest).map (d :: ·) else none
  | c :: rest => (withoutUnderscores? c.isDigit rest).map (c :: ·)

/-- A whole number that has 64 bits with a sign. -/
def whole? (n : Int) : Option Setting :=
  if -(twoTo 63 : Int) ≤ n ∧ n < twoTo 63 then some (.whole n) else none

/-- The number that a text writes. It starts with a digit, and with a zero only where no digit
follows; behind a point stands a digit. -/
def number? (cs : List Char) : Option Setting := do
  let cs ← withoutUnderscores? false cs
  let (negative, body) := Digits.splitSign cs
  let (ds, rest) := Digits.split body
  if ds.isEmpty || (ds.length != 1 && ds.head? == some '0') then none
  let number := (Decimal.read? (String.ofList cs)).map .number
  match rest with
  | [] => whole? (if negative then -(Digits.value ds : Int) else Digits.value ds)
  | '.' :: d :: _ => if d.isDigit then number else none
  | c :: _ => if c == '.' then none else number

/-- What a word stands for: a flag or a number. -/
def word? (cs : List Char) : Option Setting :=
  if cs == "true".toList then some (.flag true)
  else if cs == "false".toList then some (.flag false)
  else
    let (negative, body) := Digits.splitSign cs
    if body == "inf".toList || body == "nan".toList then
      (Decimal.word? negative body).map .number
    else number? cs

/-- Whether a character belongs to a word. -/
def isWordChar (c : Char) : Bool := Setting.isNameChar c || c == '+' || c == '.'

mutual

/-- The value that a text begins with, and the rest. -/
def splitWithin? : Nat → List Char → Option (Setting × List Char)
  | 0, _ => none
  | fuel + 1, cs =>
    match skip cs with
    | '"' :: rest => (splitText? '"' rest).map fun (s, rest) => (.text s, rest)
    | '\'' :: rest => (splitText? '\'' rest).map fun (s, rest) => (.text s, rest)
    | '[' :: rest => splitList? [] fuel rest
    | '\x7b' :: rest =>
      match skip rest with
      | '\x7d' :: rest => some (.table [], rest)
      | rest => splitTable? [] fuel rest
    | cs => (word? (cs.takeWhile isWordChar)).map fun v => (v, cs.dropWhile isWordChar)

/-- The rest of a list, its first members being known in reverse. A comma may end it. -/
def splitList? (acc : List Setting) : Nat → List Char → Option (Setting × List Char)
  | 0, _ => none
  | fuel + 1, cs =>
    match skip cs with
    | ']' :: rest => some (.list acc.reverse, rest)
    | cs => do
      let (v, rest) ← splitWithin? fuel cs
      match skip rest with
      | ',' :: rest => splitList? (v :: acc) fuel rest
      | ']' :: rest => some (.list (v :: acc).reverse, rest)
      | _ => none

/-- The rest of a table, its first entries being known. -/
def splitTable? (es : Entries) : Nat → List Char → Option (Setting × List Char)
  | 0, _ => none
  | fuel + 1, cs => do
    match ← splitKey? cs.length cs with
    | (path, '=' :: rest) =>
      let (v, rest) ← splitWithin? fuel rest
      let es ← assign v path es
      match skip rest with
      | ',' :: rest => splitTable? es fuel rest
      | '\x7d' :: rest => some (.table (settings es), rest)
      | _ => none
    | _ => none

end

/-- The value that a text begins with, and the rest. Every step into a value takes a character of
it, so twice the length is fuel enough. -/
def split? (cs : List Char) : Option (Setting × List Char) := splitWithin? (2 * cs.length + 2) cs

/-! ## §4. Lines -/

/-- What a line says. -/
inductive Line where
  | nothing
  | header (path : List String)
  | entry (path : List String) (value : Setting)

/-- What a line says; `none` if it says nothing that is understood. -/
def line? (cs : List Char) : Option Line :=
  if isOver cs then some .nothing
  else
    match skip cs with
    | '[' :: rest => do
      match ← splitKey? rest.length rest with
      | (path, ']' :: rest) => if isOver rest then some (.header path) else none
      | _ => none
    | cs => do
      match ← splitKey? cs.length cs with
      | (path, '=' :: rest) =>
        let (v, rest) ← split? rest
        if isOver rest then some (.entry path v) else none
      | _ => none

/-- The lines of a text. A line ends with a line feed, before which a carriage return may stand. -/
def lines (text : String) : List (List Char) :=
  let parts := (text.splitOn "\n").map (·.toList)
  parts.dropLast.map (fun cs => if cs.getLast? == some '\r' then cs.dropLast else cs) ++
    parts.drop (parts.length - 1)

/-- The entries that lines add, with the path of the table that the first of them belongs to. -/
def ofLines? (path : List String) (es : Entries) : List (List Char) → Option Entries
  | [] => some es
  | cs :: rest => do
    match ← line? cs with
    | .nothing => ofLines? path es rest
    | .header path => ofLines? path (← head path es) rest
    | .entry key v => ofLines? path (← within (assign v key) path es) rest

/-- The tree of a document. -/
def read? (document : List UInt8) : Option Setting := do
  let text ← (Utf8.decode document).toOption
  some (.table (settings (← ofLines? [] [] (lines text))))

end SettingsDocument

end PlantEconomics
