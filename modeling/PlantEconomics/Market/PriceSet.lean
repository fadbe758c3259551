import PlantEconomics.Market.Period
import PlantEconomics.Scalar
import Std.Data.TreeMap

/-!
# Prices and weights of a model

A price set gives a price to periods and a weight to days. The weight of a day is how many days of
the data it stands for; a period of a day without a weight, and a period without a day, counts
once.
-/

namespace PlantEconomics

/-- Index sets, prices by period and weights by day. -/
structure PriceSet (α : Type) where
  sets : IndexSets
  prices : Std.TreeMap PeriodKey α
  weights : Std.TreeMap DayKey Nat

namespace PriceSet

variable {α : Type}

/-- The price of a period. -/
def price? (p : PriceSet α) (k : PeriodKey) : Option α := p.prices[k]?

/-- The weight of a day. -/
def weight? (p : PriceSet α) (d : DayKey) : Option Nat := p.weights[d]?

/-- How often a period counts. -/
def periodWeight [Scalar α] (p : PriceSet α) (k : PeriodKey) : α :=
  match k.dayKey?.bind p.weight? with
  | some w => Scalar.ofNat w
  | none => 1

end PriceSet

end PlantEconomics
