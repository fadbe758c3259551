/-!
# Periods

A period is an hour of a day of a year. A model that knows no years, or no separate days, leaves
that part out. Periods are ordered by year, then day, then hour, a missing part coming before any
present one; the index sets of a model list the parts, and `IndexSets.periods` lists the periods
year by year, day by day and hour by hour.
-/

namespace PlantEconomics

/-! ## §1. Keys -/

/-- An hour, with its day and its year where the model knows them. -/
structure PeriodKey where
  year : Option Int
  day : Option Nat
  hour : Nat
deriving Repr, DecidableEq

/-- A day, with its year where the model knows it. -/
structure DayKey where
  year : Option Int
  day : Nat
deriving Repr, DecidableEq

/-- Order by year, then day, then hour. -/
instance : Ord PeriodKey :=
  ⟨compareLex (compareOn (·.year)) (compareLex (compareOn (·.day)) (compareOn (·.hour)))⟩

/-- Order by year, then day. -/
instance : Ord DayKey := ⟨compareLex (compareOn (·.year)) (compareOn (·.day))⟩

namespace PeriodKey

/-- The day that a period belongs to. -/
def dayKey? (k : PeriodKey) : Option DayKey := k.day.map fun day => ⟨k.year, day⟩

/-- How a period is written behind a name: the hour, then the day and the year it has. -/
def text (k : PeriodKey) : String :=
  let day := match k.day with
    | some d => s!",{d}"
    | none => ""
  let year := match k.year with
    | some y => s!",{y}"
    | none => ""
  s!"[{k.hour}{day}{year}]"

end PeriodKey

/-! ## §2. Index sets -/

/-- The hours, days and years of a model. A model without separate days or years has none. -/
structure IndexSets where
  hours : List Nat
  days : Option (List Nat)
  years : Option (List Int)
deriving Repr, DecidableEq

namespace IndexSets

/-- The choices for a part of a key: its values, or nothing when the model lacks the part. -/
def choices {β : Type} : Option (List β) → List (Option β)
  | some xs => xs.map some
  | none => [none]

/-- All periods: years outermost, hours innermost, each in the order of its set. -/
def periods (s : IndexSets) : List PeriodKey :=
  (choices s.years).flatMap fun year =>
    (choices s.days).flatMap fun day =>
      s.hours.map fun hour => ⟨year, day, hour⟩

@[simp] theorem choices_none {β : Type} : choices (none : Option (List β)) = [none] := rfl

@[simp] theorem choices_some {β : Type} (xs : List β) : choices (some xs) = xs.map some := rfl

end IndexSets

end PlantEconomics
