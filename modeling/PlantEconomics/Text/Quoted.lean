import PlantEconomics.Text.Graphic

/-!
# Quoted text

Where a message or a summary shows a name inside a list, the name stands in double quotes. The
quote itself and the backslash are escaped, line ends, tabulators and the null character have
their letters, and every other character that shows no mark of its own is written by its code.

`quote` writes one text, `quoteList` several between brackets.
-/

namespace PlantEconomics

namespace Text

/-- A code point in lower-case hexadecimal between braces. -/
def escapedCode (c : Char) : List Char :=
  "\\u\x7b".toList ++ Nat.toDigits 16 c.toNat ++ "\x7d".toList

/-- How one character is written between quotes. -/
def quotedChar (c : Char) : List Char :=
  match c with
  | '"' => ['\\', '"']
  | '\\' => ['\\', '\\']
  | '\n' => ['\\', 'n']
  | '\r' => ['\\', 'r']
  | '\t' => ['\\', 't']
  | '\x00' => ['\\', '0']
  | c => if isGraphic c then [c] else escapedCode c

/-- A text in quotes. -/
def quote (text : String) : String :=
  String.ofList ('"' :: text.toList.flatMap quotedChar ++ ['"'])

/-- Texts in quotes, separated by commas, between the two brackets. -/
def quoteList (opening closing : String) (texts : List String) : String :=
  opening ++ String.intercalate ", " (texts.map quote) ++ closing

end Text

end PlantEconomics
