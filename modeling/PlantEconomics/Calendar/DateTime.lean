/-!
# Moments of the calendar

A moment is a date of the Gregorian calendar, carried back before its introduction, and a time of
day to the second. A minute may have a second 60, the leap second, which comes after second 59 and
before the next minute.

Moments are compared by their `rank`, which gives every field more weight than all later fields
together.
-/

namespace PlantEconomics

/-- A date and a time of day. -/
structure DateTime where
  year : Int
  month : Nat
  day : Nat
  hour : Nat
  minute : Nat
  second : Nat
deriving Repr, DecidableEq

namespace DateTime

/-! ## §1. Which moments exist -/

/-- Every fourth year is a leap year, but of the full centuries only every fourth. -/
def isLeapYear (year : Int) : Bool :=
  year % 4 == 0 && (year % 100 != 0 || year % 400 == 0)

/-- Length of a month; there is no month 0 and no month 13. -/
def daysInMonth (year : Int) (month : Nat) : Nat :=
  match month with
  | 1 | 3 | 5 | 7 | 8 | 10 | 12 => 31
  | 4 | 6 | 9 | 11 => 30
  | 2 => if isLeapYear year then 29 else 28
  | _ => 0

/-- First year that dates reach back to. -/
def firstYear : Int := -262143

/-- Last year that dates reach. -/
def lastYear : Int := 262142

/-- Whether a moment exists. -/
def exists? (t : DateTime) : Bool :=
  firstYear ≤ t.year && t.year ≤ lastYear && 1 ≤ t.day && t.day ≤ daysInMonth t.year t.month &&
    t.hour < 24 && t.minute < 60 && t.second ≤ 60

/-! ## §2. Order -/

/-- The place of a moment in the order of time. -/
def rank (t : DateTime) : Int :=
  ((((t.year * 13 + t.month) * 32 + t.day) * 24 + t.hour) * 60 + t.minute) * 61 + t.second

/-- Whether one moment is earlier than another. -/
def isBefore (a b : DateTime) : Bool := a.rank < b.rank

theorem isBefore_iff {a b : DateTime} : a.isBefore b = true ↔ a.rank < b.rank := by
  simp [isBefore]

end DateTime

end PlantEconomics
