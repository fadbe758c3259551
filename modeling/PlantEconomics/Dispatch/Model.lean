import PlantEconomics.Bisection
import PlantEconomics.Dispatch.Generator
import PlantEconomics.Market.PriceSet

/-!
# Dispatch models

A dispatch model has one period for each key of a price set, in the order of the keys, and in each
period one operation block for each operating unit. The blocks are numbered through, so block `u`
of period `t` has its first variable at `3 * (t * units + u)`.

Later stages (ramping, up and down times, cash flows) extend the program of a model and leave its
periods alone.
-/

namespace PlantEconomics

/-! ## §1. Periods -/

/-- A period: its key, how often it counts, its price and what the units contribute. -/
structure Period (α : Type) where
  key : PeriodKey
  weight : α
  price : α
  operations : List (Operation α)

namespace Period

variable {α : Type} [Scalar α]

/-- Sum of a part of the contributions. -/
def sumOf (p : Period α) (part : Operation α → Affine α) : Affine α :=
  Affine.sum (p.operations.map part)

/-- How many units are on. -/
def online (p : Period α) : Affine α := p.sumOf (·.online)

/-- How many units are starting up. -/
def starting (p : Period α) : Affine α := p.sumOf (·.starting)

/-- Power of all units. -/
def power (p : Period α) : Affine α := p.sumOf (·.power)

/-- Running cost of all units. -/
def runningCost (p : Period α) : Affine α := p.sumOf (·.runningCost)

/-- Fuel cost of all units. -/
def fuelCost (p : Period α) : Affine α := p.sumOf (·.fuelCost)

/-- Revenue of all units. -/
def revenue (p : Period α) : Affine α := p.sumOf (·.revenue)

/-- Carbon cost of all units. -/
def carbonCost (p : Period α) : Affine α := p.sumOf (·.carbonCost)

/-- Revenue less all costs. -/
def netInflow (p : Period α) : Affine α :=
  p.revenue - p.runningCost - p.fuelCost - p.carbonCost

end Period

/-! ## §2. Models -/

/-- A program, the periods and designs it is made of, and whether periods are weighted. -/
structure DispatchModel (α : Type) where
  program : Program α
  sets : IndexSets
  periods : List (Period α)
  designs : List (Design α)
  /-- Whether a period counts as often as its day occurs, rather than once. -/
  weighted : Bool

namespace DispatchModel

variable {α : Type}

/-- The price of each key, which has to have one. -/
def priced (prices : PriceSet α) (keys : List PeriodKey) :
    Except (Fault α) (List (PeriodKey × α)) :=
  keys.mapM fun k =>
    match prices.price? k with
    | some price => .ok (k, price)
    | none => .error (.dataShape (.unpriced k.text))

section Build

variable [Scalar α]

/-- The operation blocks of all units for the period in position `t`. -/
def blocksAt (units : List (ThermalGenerator α)) (t : Nat) (k : PeriodKey) (price : α) :
    List (OperationBlock α) :=
  units.mapIdx fun u g => g.block k price (OperationBlock.width * (t * units.length + u))

/-- The operation blocks of all units for all periods. -/
def blocks (units : List (ThermalGenerator α)) (keys : List (PeriodKey × α)) :
    List (List (OperationBlock α)) :=
  keys.mapIdx fun t (k, price) => blocksAt units t k price

/-- How often a period counts. -/
def weightOf (prices : PriceSet α) (weighted : Bool) (k : PeriodKey) : α :=
  if weighted then prices.periodWeight k else 1

/-- The model of priced keys. -/
def ofPriced (prices : PriceSet α) (fleet : Fleet α) (weighted : Bool)
    (keys : List (PeriodKey × α)) : Except (Fault α) (DispatchModel α) := do
  let blocks := blocks fleet.operating keys
  let specs := blocks.flatten.flatMap (·.specs)
  let draft : Draft α := ⟨blocks.flatten.flatMap (·.members)⟩
  let program ← draft.commit (Program.empty.addVariables specs)
  let periods := List.zipWith
    (fun (k, price) bs => ⟨k, weightOf prices weighted k, price, bs.map (·.operation)⟩) keys blocks
  return { program, sets := prices.sets, periods, designs := fleet.built.map (·.design), weighted }

/-- The model of a price set and a fleet: the units have to be valid, and there has to be a period
and a price for each. -/
def build (prices : PriceSet α) (fleet : Fleet α) (weighted : Bool) :
    Except (Fault α) (DispatchModel α) := do
  fleet.validate
  let keys := prices.sets.periods
  if keys.isEmpty then throw (.dataShape .noPeriods)
  ofPriced prices fleet weighted (← priced prices keys)

end Build

/-- Number of periods. -/
def size (m : DispatchModel α) : Nat := m.periods.length

/-- The place of the period of a key. It is sought by halves, so the periods have to be in the order
of their keys. -/
def place? (m : DispatchModel α) (k : PeriodKey) : Option Nat :=
  Bisection.place? (fun p => compare p.key k) m.periods

/-- The period of a key. -/
def period? (m : DispatchModel α) (k : PeriodKey) : Option (Period α) :=
  (m.place? k).bind fun place => m.periods[place]?

/-- The model with its program extended by new families. -/
def withFamilies (m : DispatchModel α) (families : List (String × List (Index × Relation α))) :
    Except (Fault α) (DispatchModel α) := do
  m.program.ensureNew (families.map (·.1))
  let program ← families.foldlM (fun p f => p.addFamily f.1 f.2) m.program
  return { m with program }

end DispatchModel

end PlantEconomics
