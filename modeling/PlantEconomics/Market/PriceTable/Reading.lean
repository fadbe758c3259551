import PlantEconomics.Market.PriceTable
import PlantEconomics.Calendar.Layout
import PlantEconomics.Decimal.Reading
import PlantEconomics.Text.Utf8

/-!
# Reading a price table

The first record of the document is the header: a column of labels, a column of scenarios and at
least one price column. Every other record is a row of as many fields. Fields and headers are
trimmed of blanks, and the price fields hold decimal numbers.

The records are looked at one by one, so the fault reported is that of the first faulty record;
within a record a wrong number of fields comes first, then a field that is no text, then a price
that is no number.
-/

namespace PlantEconomics

namespace PriceTable

/-! ## §1. Fields as texts -/

/-- The texts that the fields of a record spell, counted from field `i`. -/
def textsFrom (record : Nat) (place : Csv.Place) (i : Nat) :
    List (List UInt8) → Except Csv.Fault (List String)
  | [] => .ok []
  | f :: rest =>
    match Utf8.decode f with
    | .error valid => .error (.notText record place i valid)
    | .ok text => (textsFrom record place (i + 1) rest).map (text :: ·)

/-- The trimmed texts of the header. -/
def headerTexts (r : Csv.Record) : Except Csv.Fault (List String) :=
  (textsFrom 0 r.place 0 r.fields).map (·.map Text.trim)

/-- The trimmed texts of the record with a number, which has to have `width` fields. -/
def rowTexts (number width : Nat) (r : Csv.Record) : Except Csv.Fault (List String) :=
  if r.fields.length ≠ width then .error (.unequalFields number r.place r.fields.length width)
  else
    (textsFrom number r.place 0 (r.fields.map (Text.trimBy Text.isBlankByte))).map
      (·.map Text.trim)

/-! ## §2. Rows -/

/-- The price that a field of a row writes. -/
def readPrice (row : Nat) (column text : String) : Except (Fault Float) Float :=
  match Decimal.read? text with
  | some x => .ok x
  | none => .error (.dataShape (.notANumber row column text))

/-- The row that a record holds. -/
def readRow (columns : List String) (number : Nat) (r : Csv.Record) :
    Except (Fault Float) (PriceRow Float columns.length) := do
  let texts ← (rowTexts number (columns.length + 2) r).mapError .csv
  let label := texts.getD 0 ""
  let prices ← Vector.ofFnM fun i : Fin columns.length =>
    readPrice number columns[i] (texts.getD (i + 2) "")
  return { label, timestamp := DateTime.read? label, scenario := texts.getD 1 "", prices }

/-- The rows that records hold, the first of them being record `number`. -/
def readRows (columns : List String) (number : Nat) :
    List Csv.Record → Except (Fault Float) (List (PriceRow Float columns.length))
  | [] => .ok []
  | r :: rest => do
    let row ← readRow columns number r
    let rows ← readRows columns (number + 1) rest
    return row :: rows

/-! ## §3. The table -/

/-- The table that records hold. -/
def ofRecords : List Csv.Record → Except (Fault Float) (PriceTable Float)
  | [] => .error (.dataShape (.fewColumns 0))
  | header :: rest => do
    let texts ← (headerTexts header).mapError .csv
    if texts.length < 3 then .error (.dataShape (.fewColumns texts.length))
    else
      let columns := texts.drop 2
      let rows ← readRows columns 1 rest
      return { columns, rows }

/-- The table that a document of comma-separated values holds. -/
def ofDocument (document : List UInt8) : Except (Fault Float) (PriceTable Float) :=
  ofRecords (Csv.records document)

end PriceTable

end PlantEconomics
