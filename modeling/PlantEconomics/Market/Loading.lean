import PlantEconomics.Powers
import PlantEconomics.Market.PriceSet
import PlantEconomics.Market.PriceTable
import PlantEconomics.Market.RepresentativeDays
import PlantEconomics.Text.Blank
import PlantEconomics.Text.Digits

/-!
# From a price table to the prices of a model

One column, or one column per year, is turned into index sets, prices and weights. Without a
cluster count every row is an hour of one long horizon. With a cluster count the days of each
column are grouped, and the model has the hours of the representative days.

| columns      | cluster count | a price has         | a weight has |
|--------------|---------------|---------------------|--------------|
| one          | no            | hour                | —            |
| one          | yes           | hour, day           | day          |
| one per year | no            | hour, year          | —            |
| one per year | yes           | hour, day, year     | day, year    |

All columns are clustered before anything is put together.
-/

namespace PlantEconomics

/-! ## §1. Choosing columns -/

/-- The columns to load. -/
inductive ColumnChoice where
  /-- One price signal; the empty name stands for the first column. -/
  | single (name : String)
  /-- One column per year, each named by its year. -/
  | years (labels : List String)
deriving Repr, DecidableEq

namespace ColumnChoice

variable {α : Type}

/-- The year that a label names, with the label. Years have 32 bits. -/
def readYear (label : String) : Except (Fault α) (Int × String) :=
  match Digits.readInt? (Text.trim label) with
  | some y =>
    if -(twoTo 31 : Int) ≤ y ∧ y < twoTo 31 then .ok (y, label)
    else .error (.configuration (.notAYear label))
  | none => .error (.configuration (.notAYear label))

/-- The values that occur again, each once, in the order in which they do. -/
def repeated (seen found : List Int) : List Int → List Int
  | [] => found.reverse
  | y :: rest =>
    if seen.contains y then
      repeated seen (if found.contains y then found else y :: found) rest
    else repeated (y :: seen) found rest

/-- The years of labels: there is one, all are years, and none comes twice. -/
def readYears (labels : List String) : Except (Fault α) (List (Int × String)) := do
  if labels.isEmpty then throw (.configuration .noYearColumns)
  let years ← labels.mapM readYear
  match repeated [] [] (years.map (·.1)) with
  | [] => return years
  | ys => throw (.configuration (.repeatedYears ys))

/-- The column that a name stands for. -/
def resolve (columns : List String) (name : String) : Except (Fault α) String :=
  if name.isEmpty then
    match columns with
    | first :: _ => .ok first
    | [] => .error (.dataShape .noPriceColumns)
  else .ok name

end ColumnChoice

/-! ## §2. Putting prices together -/

namespace PriceSet

variable {α : Type}

/-- The hours 1 to `n`. -/
def upTo (n : Nat) : List Nat := List.range' 1 n

/-- Values under keys, a later value taking the place of an earlier one under the same key. -/
def insertAll {κ β : Type} [Ord κ] (m : Std.TreeMap κ β) (kvs : List (κ × β)) :
    Std.TreeMap κ β :=
  kvs.foldl (fun m kv => m.insert kv.1 kv.2) m

/-- The prices of a whole column, hour after hour. -/
def hourly (year : Option Int) (values : List α) : List (PeriodKey × α) :=
  values.mapIdx fun i v => (⟨year, none, i + 1⟩, v)

/-- Prices without days: one column for each year, or one column. -/
def ofColumns (years : Option (List Int)) (hours : Nat)
    (columns : List (Option Int × List α)) : PriceSet α :=
  { sets := { hours := upTo hours, days := none, years }
    prices := insertAll ∅ (columns.flatMap fun c => hourly c.1 c.2)
    weights := ∅ }

/-- The price of an hour of a representative day. -/
def dayPrice (r : RepresentativeDays α) (year : Option Int) (day hour : Nat) :
    Except (Fault α) (PeriodKey × α) :=
  match r.price? day hour with
  | some v => .ok (⟨year, some day, hour⟩, v)
  | none => .error (.clustering (.noHour day hour))

/-- The weight and the prices of a representative day. -/
def dayEntries (r : RepresentativeDays α) (year : Option Int) (hours : List Nat) (day : Nat) :
    Except (Fault α) ((DayKey × Nat) × List (PeriodKey × α)) :=
  match r.weight? day with
  | none => .error (.clustering (.noWeight day))
  | some w => do
    let prices ← hours.mapM (dayPrice r year day)
    return ((⟨year, day⟩, w), prices)

/-- Prices of representative days: those of one column for each year, or of one column. -/
def ofDays (years : Option (List Int)) (horizon k : Nat)
    (columns : List (Option Int × RepresentativeDays α)) : Except (Fault α) (PriceSet α) := do
  let entries ← columns.mapM fun (year, r) => (upTo k).mapM (dayEntries r year (upTo horizon))
  let entries := entries.flatten
  return {
    sets := { hours := upTo horizon, days := some (upTo k), years }
    prices := insertAll ∅ (entries.flatMap (·.2))
    weights := insertAll ∅ (entries.map (·.1)) }

end PriceSet

/-! ## §3. Loading -/

/-- How prices are loaded: the hours of a day and the seed of each clustering. -/
structure Loader where
  horizon : Nat
  seed : UInt64
deriving DecidableEq

namespace Loader

variable {α σ : Type} [Scalar α]

/-- Why a table cannot be loaded at all. -/
def fault? (table : PriceTable α) (k : Option Nat) (horizon : Nat) : Option (Fault α) :=
  if horizon = 0 then some (.configuration .zeroHorizon)
  else if k = some 0 then some (.configuration .zeroClusters)
  else if table.rows.isEmpty then some (.dataShape .noRows)
  else none

/-- The representative days of a column. -/
def grouped (table : PriceTable α) (column : String) (horizon k : Nat) (seed : UInt64)
    (fit : Clusterer α σ) : ExceptT (Fault α) (StateM σ) (RepresentativeDays α) := do
  let s ← table.series column
  RepresentativeDays.ofSeries s horizon k seed fit

/-- Load years column by column, each in full. -/
def wholeYears (table : PriceTable α) (years : List (Int × String)) :
    Except (Fault α) (PriceSet α) := do
  let columns ← years.mapM fun (y, label) => do
    let s ← table.series label
    return (some y, s.values)
  return PriceSet.ofColumns (some (years.map (·.1))) table.size columns

/-- Load years column by column, each by its representative days. -/
def groupedYears (table : PriceTable α) (years : List (Int × String)) (horizon k : Nat)
    (seed : UInt64) (fit : Clusterer α σ) : ExceptT (Fault α) (StateM σ) (PriceSet α) := do
  let columns : List (Option Int × RepresentativeDays α) ← years.mapM fun (y, label) => do
    let r ← grouped table label horizon k seed fit
    return (some y, r)
  PriceSet.ofDays (some (years.map (·.1))) horizon k columns

/-- Load one column in full. -/
def wholeColumn (table : PriceTable α) (name : String) : Except (Fault α) (PriceSet α) := do
  let s ← table.series (← ColumnChoice.resolve table.columns name)
  return PriceSet.ofColumns none s.size [(none, s.values)]

/-- Load one column by its representative days. -/
def groupedColumn (table : PriceTable α) (name : String) (horizon k : Nat) (seed : UInt64)
    (fit : Clusterer α σ) : ExceptT (Fault α) (StateM σ) (PriceSet α) := do
  let column ← (ColumnChoice.resolve table.columns name : Except (Fault α) String)
  let r ← grouped table column horizon k seed fit
  PriceSet.ofDays none horizon k [(none, r)]

/-- Load columns of a table, by `k` representative days each if a count is given. An override
takes the place of the loader's horizon. -/
def load (l : Loader) (table : PriceTable α) (choice : ColumnChoice) (k horizon? : Option Nat)
    (fit : Clusterer α σ) : ExceptT (Fault α) (StateM σ) (PriceSet α) := do
  let horizon := horizon?.getD l.horizon
  if let some fault := fault? table k horizon then throw fault
  match choice, k with
  | .years labels, some k => do
    let years ← (ColumnChoice.readYears labels : Except (Fault α) _)
    groupedYears table years horizon k l.seed fit
  | .years labels, none => do
    let years ← (ColumnChoice.readYears labels : Except (Fault α) _)
    wholeYears table years
  | .single name, some k => groupedColumn table name horizon k l.seed fit
  | .single name, none => wholeColumn table name

end Loader

end PlantEconomics
