import PlantEconomics.Market.Series

/-!
# Price tables

A price table has rows of one label, one scenario and one price per column; a column is a price
signal, or the price signal of one year. The label of a row is its moment where it can be read as
one.

  * `PriceTable.ofScenario` keeps the rows of one scenario;
  * `PriceTable.series` is a column as a series in the order of time.
-/

namespace PlantEconomics

/-- A row of a table with `n` price columns. -/
structure PriceRow (α : Type) (n : Nat) where
  label : String
  timestamp : Option DateTime
  scenario : String
  prices : Vector α n

/-- Named price columns and rows with a price for each of them. -/
structure PriceTable (α : Type) where
  columns : List String
  rows : List (PriceRow α columns.length)

namespace PriceTable

variable {α : Type}

/-- Number of rows. -/
def size (t : PriceTable α) : Nat := t.rows.length

/-- The moments of the rows. -/
def timestamps (t : PriceTable α) : List (Option DateTime) := t.rows.map (·.timestamp)

/-- The prices of a column. -/
def column (t : PriceTable α) (i : Fin t.columns.length) : List α :=
  t.rows.map fun row => row.prices[i]

/-- The rows of one scenario. There has to be one. -/
def ofScenario (t : PriceTable α) (scenario : String) : Except (Fault α) (PriceTable α) :=
  let kept := t.rows.filter fun row => row.scenario == scenario
  if kept.isEmpty then .error (.unknownOption "scenario" scenario)
  else .ok { t with rows := kept }

/-- The first column of a name as a series. -/
def series (t : PriceTable α) (name : String) : Except (Fault α) (PriceSeries α) :=
  match t.columns.finIdxOf? name with
  | none => .error (.unknownOption "price column" name)
  | some i => PriceSeries.ofRows name t.timestamps (t.column i)

end PriceTable

end PlantEconomics
