import PlantEconomics.Calendar.DateTime
import PlantEconomics.Text.Blank
import PlantEconomics.Text.Digits

/-!
# Written moments

A layout says how a moment is written: which fields, in which order, and what stands between them.
Four layouts are known to the library, three with the year first and one with the month first.

Reading a field skips blanks in front of it and takes as many digits as the field may have; a year
may carry a sign and then has no limit. A gap takes any number of blanks, also none. Other
separators stand for themselves, and nothing may follow the last part.

  * `DateTime.read?` tries the layouts in their order;
  * `Layout.write` writes a moment with all its fields padded by zeros.
-/

namespace PlantEconomics

/-! ## §1. Layouts -/

/-- One part of a written moment. -/
inductive Part where
  | year
  | month
  | day
  | hour
  | minute
  | second
  /-- Blanks between date and time. -/
  | gap
  /-- A separator that stands for itself. -/
  | mark (c : Char)
deriving Repr, DecidableEq

/-- A way to write a moment. -/
abbrev Layout := List Part

namespace Layout

/-- Year, month and day between hyphens, then hours, minutes and seconds. -/
def full : Layout :=
  [.year, .mark '-', .month, .mark '-', .day, .gap, .hour, .mark ':', .minute, .mark ':', .second]

/-- Year, month and day between hyphens, then hours and minutes. -/
def short : Layout :=
  [.year, .mark '-', .month, .mark '-', .day, .gap, .hour, .mark ':', .minute]

/-- As `full`, with the letter `T` between date and time. -/
def joined : Layout :=
  [.year, .mark '-', .month, .mark '-', .day, .mark 'T', .hour, .mark ':', .minute, .mark ':',
    .second]

/-- Month, day and year between slashes, then hours and minutes. -/
def monthFirst : Layout :=
  [.month, .mark '/', .day, .mark '/', .year, .gap, .hour, .mark ':', .minute]

/-- The known layouts, in the order in which they are tried. -/
def known : List Layout := [full, short, joined, monthFirst]

/-! ## §2. Reading -/

/-- At least one and at most `width` digits, and the text after them. -/
def takeDigits? (width : Nat) (cs : List Char) : Option (Nat × List Char) :=
  let ds := (cs.take width).takeWhile Char.isDigit
  if ds.isEmpty then none else some (Digits.value ds, cs.drop ds.length)

/-- A field of one or two digits after any blanks. -/
def takeField? (cs : List Char) : Option (Nat × List Char) :=
  takeDigits? 2 (cs.dropWhile Text.isBlank)

/-- A year after any blanks: up to four digits, or a sign and any number of digits. -/
def takeYear? (cs : List Char) : Option (Int × List Char) :=
  match cs.dropWhile Text.isBlank with
  | '-' :: rest => (takeDigits? rest.length rest).map fun (n, r) => (-(n : Int), r)
  | '+' :: rest => (takeDigits? rest.length rest).map fun (n, r) => ((n : Int), r)
  | rest => (takeDigits? 4 rest).map fun (n, r) => ((n : Int), r)

/-- Read the parts of a layout into the fields of `t`; nothing may be left over. -/
def readInto? (t : DateTime) : Layout → List Char → Option DateTime
  | [], [] => some t
  | [], _ :: _ => none
  | .year :: parts, cs => do
    let (n, rest) ← takeYear? cs
    readInto? { t with year := n } parts rest
  | .month :: parts, cs => do
    let (n, rest) ← takeField? cs
    readInto? { t with month := n } parts rest
  | .day :: parts, cs => do
    let (n, rest) ← takeField? cs
    readInto? { t with day := n } parts rest
  | .hour :: parts, cs => do
    let (n, rest) ← takeField? cs
    readInto? { t with hour := n } parts rest
  | .minute :: parts, cs => do
    let (n, rest) ← takeField? cs
    readInto? { t with minute := n } parts rest
  | .second :: parts, cs => do
    let (n, rest) ← takeField? cs
    readInto? { t with second := n } parts rest
  | .gap :: parts, cs => readInto? t parts (cs.dropWhile Text.isBlank)
  | .mark _ :: _, [] => none
  | .mark m :: parts, c :: cs => if c = m then readInto? t parts cs else none

/-- The moment that a text writes in a layout; fields that the layout lacks are zero. -/
def read? (layout : Layout) (text : List Char) : Option DateTime :=
  match readInto? ⟨0, 0, 0, 0, 0, 0⟩ layout text with
  | some t => if t.exists? then some t else none
  | none => none

/-! ## §3. Writing -/

/-- A number padded with zeros to a width. -/
def padded (width n : Nat) : List Char :=
  let ds := Nat.toDigits 10 n
  List.replicate (width - ds.length) '0' ++ ds

/-- How a part of a moment is written. -/
def writePart (t : DateTime) : Part → List Char
  | .year => padded 4 t.year.toNat
  | .month => padded 2 t.month
  | .day => padded 2 t.day
  | .hour => padded 2 t.hour
  | .minute => padded 2 t.minute
  | .second => padded 2 t.second
  | .gap => [' ']
  | .mark c => [c]

/-- A moment of the years 0 to 9999 written in a layout. -/
def write (layout : Layout) (t : DateTime) : List Char :=
  layout.flatMap (writePart t)

end Layout

/-- The moment that a text writes in the first known layout that it follows. -/
def DateTime.read? (text : String) : Option DateTime :=
  Layout.known.findSome? fun layout => layout.read? text.toList

end PlantEconomics
