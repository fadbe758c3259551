import PlantEconomics.Fault
import PlantEconomics.Program.Draft

/-!
# Thermal generators

A thermal generator burns fuel for power. In every period it is on or off, may be starting up, and
delivers power between its least power and its capacity while it is on, none while it is off. Its
costs are proportional to the power, its starts cost a fixed amount, and building it costs a fixed
amount per unit of capacity.

The part of a program that a generator makes for one period is its *operation block*: three
variables, two constraints and the expressions that periods add up. It is a function of the first
variable's number. The *design* of a generator has no variables, only constant costs.
-/

namespace PlantEconomics

/-! ## §1. Generators -/

/-- A generator. Power is in megawatts, costs and prices are per megawatt hour. -/
structure ThermalGenerator (α : Type) where
  name : String
  capacity : α
  /-- Least power while on. -/
  leastPower : α
  /-- Fuel burnt for a megawatt hour. -/
  heatRate : α
  fuelPrice : α
  /-- Running cost beside fuel. -/
  runningCost : α
  /-- Carbon emitted for a megawatt hour. -/
  emission : α
  carbonPrice : α
  startCost : α
  /-- Cost of building a megawatt. -/
  buildingCost : α
  /-- Yearly cost of a megawatt, whether used or not. -/
  yearlyCost : α
deriving Repr, DecidableEq

namespace ThermalGenerator

variable {α : Type} [Scalar α]

/-- A generator of two hundred megawatts. -/
def standard : ThermalGenerator α :=
  { name := "thermal"
    capacity := 200.0
    leastPower := 60.0
    heatRate := 9.0
    fuelPrice := 3.0
    runningCost := 2.3
    emission := 0.4
    carbonPrice := 0
    startCost := 0
    buildingCost := 1000000.0
    yearlyCost := 15000.0 }

/-- Fuel cost of a megawatt hour. -/
def fuelCost (g : ThermalGenerator α) : α := g.heatRate * g.fuelPrice

/-- Carbon cost of a megawatt hour. -/
def carbonCost (g : ThermalGenerator α) : α := g.emission * g.carbonPrice

/-- Cost of a further megawatt hour. -/
def marginalCost (g : ThermalGenerator α) : α := g.fuelCost + g.runningCost + g.carbonCost

/-- The numbers of a generator under the names of their settings. -/
def quantities (g : ThermalGenerator α) : List (String × α) :=
  [("max_power", g.capacity), ("min_power", g.leastPower), ("heat_rate", g.heatRate),
    ("fuel_price", g.fuelPrice), ("non_fuel_vom", g.runningCost),
    ("emission_intensity", g.emission), ("carbon_price", g.carbonPrice),
    ("startup_cost", g.startCost), ("capex_per_mw", g.buildingCost),
    ("fom_per_mw_year", g.yearlyCost)]

/-- Whether a number is finite and not negative. -/
def isQuantity (x : α) : Bool := Scalar.isFinite x && !(x < 0 : Bool)

/-- Fail unless all numbers are finite and not negative, and the least power lies below a capacity
that is positive. -/
def validate (g : ThermalGenerator α) : Except (Fault α) Unit :=
  match g.quantities.find? fun q => !isQuantity q.2 with
  | some (field, got) => .error (.configuration (.badField g.name field got))
  | none =>
    if g.capacity ≤ 0 then .error (.configuration (.noCapacity g.name))
    else if g.capacity < g.leastPower then
      .error (.configuration (.leastAboveCapacity g.name g.leastPower g.capacity))
    else .ok ()

end ThermalGenerator

/-! ## §2. Operation -/

/-- What a unit contributes to a period. -/
structure Operation (α : Type) where
  unit : String
  /-- Whether the unit is on. -/
  online : Affine α
  /-- Whether the unit is starting up. -/
  starting : Affine α
  power : Affine α
  runningCost : Affine α
  fuelCost : Affine α
  revenue : Affine α
  carbonCost : Affine α

/-- The part of a program that a unit makes for a period. -/
structure OperationBlock (α : Type) where
  specs : List (VariableSpec α)
  members : List (Member α)
  operation : Operation α

/-- Number of variables of an operation block. -/
def OperationBlock.width : Nat := 3

namespace ThermalGenerator

variable {α : Type} [Scalar α]

/-- The variables of a block: on or off, starting or not, and the power. -/
def blockVariables (g : ThermalGenerator α) (k : PeriodKey) : List (VariableSpec α) :=
  [⟨g.name ++ ".op_mode" ++ k.text, .binary, none, none⟩,
    ⟨g.name ++ ".startup" ++ k.text, .binary, none, none⟩,
    ⟨g.name ++ ".power" ++ k.text, .nonNegative, none, some g.capacity⟩]

/-- The constraints of a block: the power is at most the capacity and at least the least power
while the unit is on, and zero while it is off. -/
def blockMembers (g : ThermalGenerator α) (k : PeriodKey) (first : Var) : List (Member α) :=
  [⟨g.name ++ ".power_max", .period k,
      Relation.le (Affine.var (first + 2)) (Affine.term first g.capacity)⟩,
    ⟨g.name ++ ".power_min", .period k,
      Relation.ge (Affine.var (first + 2)) (Affine.term first g.leastPower)⟩]

/-- What the unit contributes to a period with a price. -/
def operation (g : ThermalGenerator α) (price : α) (first : Var) : Operation α :=
  let power := first + 2
  { unit := g.name
    online := Affine.var first
    starting := Affine.var (first + 1)
    power := Affine.var power
    runningCost := Affine.term power g.runningCost + Affine.term (first + 1) g.startCost
    fuelCost := Affine.term power g.fuelCost
    revenue := Affine.term power price
    carbonCost := Affine.term power g.carbonCost }

/-- The operation block of a period with a price; its variables are numbered from `first` on. -/
def block (g : ThermalGenerator α) (k : PeriodKey) (price : α) (first : Var) :
    OperationBlock α :=
  { specs := g.blockVariables k
    members := g.blockMembers k first
    operation := g.operation price first }

omit [Scalar α] in
theorem length_blockVariables (g : ThermalGenerator α) (k : PeriodKey) :
    (g.blockVariables k).length = OperationBlock.width := rfl

end ThermalGenerator

/-! ## §3. Design -/

/-- What building a unit and keeping it costs. -/
structure Design (α : Type) where
  unit : String
  building : Affine α
  yearly : Affine α

/-- The design of a generator. -/
def ThermalGenerator.design {α : Type} [Scalar α] (g : ThermalGenerator α) : Design α :=
  { unit := g.name
    building := Affine.const (g.buildingCost * g.capacity)
    yearly := Affine.const (g.yearlyCost * g.capacity) }

/-! ## §4. Fleets -/

/-- The units that operate and the units that are built, each in the order of their attachment. -/
structure Fleet (α : Type) where
  operating : List (ThermalGenerator α)
  built : List (ThermalGenerator α)
deriving Repr, DecidableEq

namespace Fleet

variable {α : Type}

/-- No units. -/
def empty : Fleet α := ⟨[], []⟩

/-- Attach a unit that operates. -/
def withOperation (f : Fleet α) (g : ThermalGenerator α) : Fleet α :=
  { f with operating := f.operating ++ [g] }

/-- Attach a unit that is built. -/
def withDesign (f : Fleet α) (g : ThermalGenerator α) : Fleet α :=
  { f with built := f.built ++ [g] }

/-- Attach a unit that is built and operates. -/
def withUnit (f : Fleet α) (g : ThermalGenerator α) : Fleet α :=
  (f.withDesign g).withOperation g

/-- Fail unless all units are valid, those that operate being looked at first. -/
def validate [Scalar α] (f : Fleet α) : Except (Fault α) Unit := do
  f.operating.forM ThermalGenerator.validate
  f.built.forM ThermalGenerator.validate

end Fleet

end PlantEconomics
