import PlantEconomics.Calendar.DateTime
import PlantEconomics.Fault

/-!
# Price series and their days

A price series is a name and one price per row, each row with its moment where one is known. The
known moments never run backwards; rows without one may stand anywhere between them.

The days of a series are its consecutive windows of one horizon each. A window that the series
does not fill is no day.

  * `PriceSeries.ofRows` accepts rows in the order of time;
  * `DayProfiles.ofValues` cuts values into days.
-/

namespace PlantEconomics

/-! ## §1. Series -/

/-- A named list of prices, with the moment of each row where it is known. -/
structure PriceSeries (α : Type) where
  name : String
  timestamps : List (Option DateTime)
  values : List α
deriving Repr, DecidableEq

namespace PriceSeries

variable {α : Type}

/-- A series whose rows have no moments. -/
def ofValues (name : String) (values : List α) : PriceSeries α :=
  { name, timestamps := values.map fun _ => none, values }

/-- The first row, counted from `row`, whose moment is earlier than the latest one known before
it. -/
def firstBackwards? (latest : Option DateTime) (row : Nat) :
    List (Option DateTime) → Option Nat
  | [] => none
  | none :: rest => firstBackwards? latest (row + 1) rest
  | some t :: rest =>
    match latest with
    | some u => if t.isBefore u then some row else firstBackwards? (some t) (row + 1) rest
    | none => firstBackwards? (some t) (row + 1) rest

/-- The series of rows with moments: there is one moment, known or not, for each value, and the
known ones do not run backwards. -/
def ofRows (name : String) (timestamps : List (Option DateTime)) (values : List α) :
    Except (Fault α) (PriceSeries α) :=
  if timestamps.length ≠ values.length then
    .error (.dataShape (.timestampCount name timestamps.length values.length))
  else match firstBackwards? none 1 timestamps with
    | some row => .error (.dataShape (.notChronological name row))
    | none => .ok { name, timestamps, values }

/-- Number of prices. -/
def size (s : PriceSeries α) : Nat := s.values.length

end PriceSeries

/-! ## §2. Days -/

/-- The prices of whole days, in the order of time. -/
structure DayProfiles (α : Type) where
  /-- Prices of one day. -/
  horizon : Nat
  /-- One list of prices per day. -/
  days : List (List α)
deriving Repr, DecidableEq

namespace DayProfiles

variable {α : Type}

/-- The consecutive windows of `h` values that the list fills. -/
def windows (h : Nat) (positive : 0 < h) (xs : List α) : List (List α) :=
  if xs.length < h then [] else xs.take h :: windows h positive (xs.drop h)
termination_by xs.length
decreasing_by simp only [List.length_drop]; omega

/-- The days of a list of prices. -/
def ofValues (values : List α) (horizon : Nat) : Except (Fault α) (DayProfiles α) :=
  if h : 0 < horizon then .ok { horizon, days := windows horizon h values }
  else .error (.configuration .zeroHorizon)

/-- The days of a series. -/
def ofSeries (s : PriceSeries α) (horizon : Nat) : Except (Fault α) (DayProfiles α) :=
  ofValues s.values horizon

/-- Number of days. -/
def size (p : DayProfiles α) : Nat := p.days.length

/-- The numbers of the days, the first day being day 1. -/
def numbers (p : DayProfiles α) : List Nat := List.range' 1 p.size

/-- The prices of day `d`, counted from one. -/
def day? (p : DayProfiles α) : Nat → Option (List α)
  | 0 => none
  | d + 1 => p.days[d]?

@[simp] theorem day?_zero (p : DayProfiles α) : p.day? 0 = none := rfl

@[simp] theorem day?_succ (p : DayProfiles α) (d : Nat) : p.day? (d + 1) = p.days[d]? := rfl

@[simp] theorem mem_numbers {p : DayProfiles α} {d : Nat} :
    d ∈ p.numbers ↔ 1 ≤ d ∧ d ≤ p.size := by
  unfold numbers
  rw [List.mem_range'_1]
  omega

end DayProfiles

end PlantEconomics
