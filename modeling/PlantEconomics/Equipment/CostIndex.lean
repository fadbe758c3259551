import PlantEconomics.Fault
import PlantEconomics.Scalar

/-!
# Plant cost index

Purchase-cost correlations are fitted to the prices of one year. The plant cost index of another
year, divided by the index the correlation was fitted at, carries a cost over to that year.
-/

namespace PlantEconomics

/-- A year and its plant cost index. -/
structure CostIndex (α : Type) where
  year : Nat
  value : α
deriving Repr, DecidableEq

namespace CostIndex

variable {α : Type} [Scalar α]

/-- The year used when none is given. -/
def standardYear : Nat := 2018

/-- The published index of a year. -/
def published? : Nat → Option α
  | 2019 => some 680.0
  | 2018 => some 671.1
  | 2017 => some 567.5
  | 2016 => some 541.7
  | 2015 => some 556.8
  | 2014 => some 576.1
  | 2013 => some 567.3
  | 2012 => some 584.6
  | 2011 => some 585.7
  | 2010 => some 550.8
  | _ => none

/-- The index of the standard year. -/
def standard : CostIndex α := ⟨standardYear, 671.1⟩

/-- The index of a year, or of the standard year. -/
def ofYear (year? : Option Nat) : Except (Fault α) (CostIndex α) :=
  let year := year?.getD standardYear
  match published? year with
  | some value => .ok ⟨year, value⟩
  | none => .error (.unknownOption "ce_index year" (toString year))

end CostIndex

end PlantEconomics
