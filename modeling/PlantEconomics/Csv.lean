/-!
# Comma-separated records

A document of comma-separated values is a sequence of bytes. A comma ends a field, and a line feed
or a carriage return ends a record; a line with nothing on it holds no record. A field that starts
with a double quote runs to the closing one: commas and line ends inside it are part of the field,
and a doubled quote stands for one. What follows the closing quote, up to the next comma or line
end, is added to the field as it is. A byte order mark in front of the document is not part of it.

`records` cuts a document into records, each with the place where reading it began. Fields stay
bytes here; what they mean is for the reader of the table to say.
-/

namespace PlantEconomics

namespace Csv

/-! ## §1. Places and records -/

/-- A place in a document: bytes before it and line feeds before it. -/
structure Place where
  byte : Nat
  lineFeeds : Nat
deriving Repr, DecidableEq

/-- The start of a document. -/
def Place.start : Place := ⟨0, 0⟩

/-- The place after one more byte. -/
def Place.after (p : Place) (b : UInt8) : Place :=
  ⟨p.byte + 1, if b == 0x0A then p.lineFeeds + 1 else p.lineFeeds⟩

/-- Lines are counted from one. -/
def Place.line (p : Place) : Nat := p.lineFeeds + 1

/-- A record: its fields and the place just after the byte that ended the record before it. -/
structure Record where
  place : Place
  fields : List (List UInt8)
deriving Repr, DecidableEq

/-! ## §2. The scanner -/

/-- What the scanner is in the middle of. -/
inductive Mode where
  /-- Between two records. -/
  | between
  /-- At the first byte of a field that follows a comma. -/
  | opening
  /-- Inside a field without quotes, or after the closing quote of one. -/
  | plain
  /-- Inside quotes. -/
  | quoted
  /-- Just after a quote inside quotes: it closes the field unless another follows. -/
  | closing
deriving Repr, DecidableEq

/-- The double quote. -/
def quoteByte : UInt8 := 0x22

/-- The comma. -/
def commaByte : UInt8 := 0x2C

/-- The bytes that end a record. -/
def isBreak (b : UInt8) : Bool := b == 0x0A || b == 0x0D

/-- The scanner: where it stands, where the record began, what it is in, and the bytes of the
open field and the closed fields of the record, the latest first. -/
structure Scanner where
  here : Place
  began : Place
  mode : Mode
  field : List UInt8
  fields : List (List UInt8)

/-- A scanner in front of a record that begins at a place. -/
def Scanner.between (p : Place) : Scanner := ⟨p, p, .between, [], []⟩

/-- The record that the scanner holds when its last field ends here. -/
def Scanner.record (s : Scanner) : Record :=
  ⟨s.began, (s.field.reverse :: s.fields).reverse⟩

/-- Take a byte that is not quoted: it ends the field, ends the record, or belongs to the field. -/
def Scanner.takePlain (s : Scanner) (b : UInt8) : Scanner × Option Record :=
  let here := s.here.after b
  if b == commaByte then
    ({ s with here, mode := .opening, field := [], fields := s.field.reverse :: s.fields }, none)
  else if isBreak b then (Scanner.between here, some s.record)
  else ({ s with here, mode := .plain, field := b :: s.field }, none)

/-- Take the first byte of a field. -/
def Scanner.takeFirst (s : Scanner) (b : UInt8) : Scanner × Option Record :=
  if b == quoteByte then ({ s with here := s.here.after b, mode := .quoted }, none)
  else s.takePlain b

/-- Take one byte; the record that it ends comes with the scanner after it. -/
def Scanner.take (s : Scanner) (b : UInt8) : Scanner × Option Record :=
  let here := s.here.after b
  match s.mode with
  | .between => if isBreak b then ({ s with here }, none) else s.takeFirst b
  | .opening => s.takeFirst b
  | .plain => s.takePlain b
  | .quoted =>
    if b == quoteByte then ({ s with here, mode := .closing }, none)
    else ({ s with here, field := b :: s.field }, none)
  | .closing =>
    if b == quoteByte then ({ s with here, mode := .quoted, field := b :: s.field }, none)
    else s.takePlain b

/-- The record that the end of the document ends. -/
def Scanner.last (s : Scanner) : List Record :=
  match s.mode with
  | .between => []
  | _ => [s.record]

/-- The records from a scanner on. -/
def scan (s : Scanner) : List UInt8 → List Record
  | [] => s.last
  | b :: rest =>
    match s.take b with
    | (s', none) => scan s' rest
    | (s', some r) => r :: scan s' rest

/-- The records of a document. A byte order mark counts as three bytes of the first record. -/
def records (document : List UInt8) : List Record :=
  match document with
  | 0xEF :: 0xBB :: 0xBF :: rest =>
    scan { Scanner.between Place.start with here := ⟨3, 0⟩ } rest
  | _ => scan (Scanner.between Place.start) document

/-! ## §3. Quoted writing -/

/-- A field between quotes, its own quotes doubled. -/
def quotedField (field : List UInt8) : List UInt8 :=
  quoteByte :: field.flatMap (fun b => if b == quoteByte then [b, b] else [b]) ++ [quoteByte]

/-- The fields of a record, each in quotes, with commas between them. -/
def quotedRecord : List (List UInt8) → List UInt8
  | [] => []
  | [f] => quotedField f
  | f :: rest => quotedField f ++ commaByte :: quotedRecord rest

/-! ## §4. What can be wrong with a document -/

/-- The reason why a file cannot be read. -/
inductive FileFault where
  | notFound
  | isDirectory
  | notDirectory
  /-- A path or a part of it is longer than the system takes. -/
  | nameTooLong
  /-- A path has a null byte in it. -/
  | nullInName
  /-- Any other reason, in the words of the system. -/
  | other (text : String)
deriving Repr, DecidableEq

/-- The system's words for a reason. -/
def FileFault.message : FileFault → String
  | .notFound => "No such file or directory (os error 2)"
  | .isDirectory => "Is a directory (os error 21)"
  | .notDirectory => "Not a directory (os error 20)"
  | .nameTooLong => "File name too long (os error 36)"
  | .nullInName => "file name contained an unexpected NUL byte"
  | .other text => text

/-- A fault of a document. Records are counted from zero, the header being the first. -/
inductive Fault where
  /-- A record with another number of fields than the first one. -/
  | unequalFields (record : Nat) (place : Place) (found expected : Nat)
  /-- A field that is no text: it spells characters only in its first `valid` bytes. -/
  | notText (record : Nat) (place : Place) (field valid : Nat)
  /-- The document stopped being readable. -/
  | unreadable (cause : FileFault)
deriving Repr, DecidableEq

/-- What a fault of the encoding says by itself. -/
def notTextMessage (field valid : Nat) : String :=
  s!"invalid utf-8: invalid UTF-8 in field {field} near byte index {valid}"

/-- The text of a fault. -/
def Fault.message : Fault → String
  | .unequalFields r p n m =>
    s!"CSV error: record {r} (line: {p.line}, byte: {p.byte}): found record with {n} fields, " ++
      s!"but the previous record has {m} fields"
  | .notText r p f v =>
    s!"CSV parse error: record {r} (line {p.line}, field: {f}, byte: {p.byte}): " ++
      notTextMessage f v
  | .unreadable cause => cause.message

end Csv

end PlantEconomics
