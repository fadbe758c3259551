import PlantEconomics.Dispatch.Assembly
import PlantEconomics.Settings.Section
import PlantEconomics.Study.Planner

/-!
# The settings of a study

A study is described by eight sections: the model, the data, and, with standard values throughout,
clustering, unit, ramping, startup and shutdown, cash flow and solver. The goal stays a word until
the stages are asked for, so that an unknown word is a fault of the study and not of its settings.
-/

namespace PlantEconomics

open Setting (asSection asText asNat asNumber asFlag asWord orNull)

/-! ## §1. Sections -/

/-- The settings of a generator. -/
def ThermalGenerator.ofSetting (v : Setting) : Setting.Read (ThermalGenerator Float) := do
  let s ← v.asSection
  let d : ThermalGenerator Float := ThermalGenerator.standard
  return {
    name := ← s.orElse "name" 0 d.name asText
    capacity := ← s.orElse "max_power" 1 d.capacity asNumber
    leastPower := ← s.orElse "min_power" 2 d.leastPower asNumber
    heatRate := ← s.orElse "heat_rate" 3 d.heatRate asNumber
    fuelPrice := ← s.orElse "fuel_price" 4 d.fuelPrice asNumber
    runningCost := ← s.orElse "non_fuel_vom" 5 d.runningCost asNumber
    emission := ← s.orElse "emission_intensity" 6 d.emission asNumber
    carbonPrice := ← s.orElse "carbon_price" 7 d.carbonPrice asNumber
    startCost := ← s.orElse "startup_cost" 8 d.startCost asNumber
    buildingCost := ← s.orElse "capex_per_mw" 9 d.buildingCost asNumber
    yearlyCost := ← s.orElse "fom_per_mw_year" 10 d.yearlyCost asNumber }

/-- The settings of ramping. -/
def RampingLimits.ofSetting (v : Setting) : Setting.Read (RampingLimits Float) := do
  let s ← v.asSection
  let d : RampingLimits Float := RampingLimits.standard
  return {
    startup := ← s.orElse "startup_limit" 0 d.startup asNumber
    shutdown := ← s.orElse "shutdown_limit" 1 d.shutdown asNumber
    up := ← s.orElse "ramp_up_limit" 2 d.up asNumber
    down := ← s.orElse "ramp_down_limit" 3 d.down asNumber
    least := ← s.orElse "minimum_opt_limit" 4 d.least asNumber }

/-- The settings of up and down times. -/
def UpDownTimes.ofSetting (v : Setting) : Setting.Read UpDownTimes := do
  let s ← v.asSection
  let d := UpDownTimes.standard
  return {
    up := ← s.orElse "up_time" 0 d.up asNat
    down := ← s.orElse "down_time" 1 d.down asNat }

/-- The settings of cash flows, the goal being read in a way of its own. -/
def CashFlowParams.readWith {β : Type} (v : Setting) (standard : β)
    (readGoal : Setting → Setting.Read β) : Setting.Read (CashFlowParams Float × β) := do
  let s ← v.asSection
  let d : CashFlowParams Float := CashFlowParams.standard
  let lifetime ← s.orElse "lifetime" 0 d.lifetime (Setting.asNatBelow (twoTo 32))
  let discountRate ← s.orElse "discount_rate" 1 d.discountRate asNumber
  let taxRate ← s.orElse "corp_tax" 2 d.taxRate asNumber
  let otherCosts ← s.orElse "other_costs" 3 d.otherCosts asNumber
  let otherRevenue ← s.orElse "other_revenue" 4 d.otherRevenue asNumber
  let goal ← s.orElse "objective" 5 standard readGoal
  let weighting ← s.orElse "weighting" 6 d.weighting asWord
  return ({ d with lifetime, discountRate, taxRate, otherCosts, otherRevenue, weighting }, goal)

/-- The settings of cash flows whose goal is one of the known words. -/
def CashFlowParams.ofSetting (v : Setting) : Setting.Read (CashFlowParams Float) := do
  let (c, goal) ← readWith v CashFlowGoal.presentValue asWord
  return { c with goal }

/-- The settings of clustering. -/
def ClusteringSettings.ofSetting (v : Setting) : Setting.Read ClusteringSettings := do
  let s ← v.asSection
  let d := ClusteringSettings.standard
  return {
    leastCount := ← s.orElse "kmin" 0 d.leastCount (orNull asNat)
    upperCount := ← s.orElse "kmax" 1 d.upperCount (orNull asNat)
    restarts := ← s.orElse "n_init" 2 d.restarts asNat
    rounds := ← s.orElse "max_iter" 3 d.rounds asNat }

/-- One column by its name, or a list of years. -/
def ColumnChoice.ofSetting : Setting → Setting.Read ColumnChoice
  | .text s => .ok (.single s)
  | v => .years <$> v.asTexts

/-- The column used when none is chosen. -/
def ColumnChoice.standard : ColumnChoice := .single "price"

/-! ## §2. Studies -/

/-- Where the prices of a study come from. -/
structure PriceSource where
  path : String
  /-- Scenario to keep; without one all rows are kept. -/
  scenario : Option String
  columns : ColumnChoice
  /-- Number of representative days; without one the horizon is used in full. -/
  clusters : Option Nat
  /-- Whether the number of representative days is chosen from the inertia curve. -/
  chooseClusters : Bool
  horizonOverride : Option Nat
deriving Repr, DecidableEq

/-- The settings of price data. -/
def PriceSource.ofSetting (v : Setting) : Setting.Read PriceSource := do
  let s ← v.asSection
  return {
    path := ← s.required "path" 0 asText
    scenario := ← s.optional "scenario" 1 asText
    columns := ← s.orElse "columns" 2 ColumnChoice.standard ColumnChoice.ofSetting
    clusters := ← s.optional "n_clusters" 3 asNat
    chooseClusters := ← s.orElse "auto_clusters" 4 false asFlag
    horizonOverride := ← s.optional "horizon_override" 5 asNat }

/-- The settings of a study. -/
structure StudyConfig where
  seed : Nat
  horizon : Nat
  source : PriceSource
  clustering : ClusteringSettings
  unit : ThermalGenerator Float
  ramping : RampingLimits Float
  times : UpDownTimes
  /-- Cash flows with the standard goal. -/
  cashFlow : CashFlowParams Float
  /-- The word for the goal. -/
  goal : String
  /-- Whether the relaxation is solved. -/
  solve : Bool

namespace StudyConfig

/-- Seed and horizon. -/
def readModel (v : Setting) : Setting.Read (Nat × Nat) := do
  let s ← v.asSection
  return (← s.required "seed" 0 asNat, ← s.required "horizon_length" 1 asNat)

/-- Whether the relaxation is solved. -/
def readSolver (v : Setting) : Setting.Read Bool := do
  (← v.asSection).orElse "enabled" 0 true asFlag

/-- The settings of a study. Model and data have to be there. -/
def ofSetting (v : Setting) : Setting.Read StudyConfig := do
  let s ← match v with
    | .table es => .ok (Setting.Section.named (.table es))
    | _ => .error (.unexpected "sections")
  let empty := Setting.table []
  let (seed, horizon) ← s.required "model" 0 readModel
  let source ← s.required "data" 1 PriceSource.ofSetting
  let clustering ← s.orElse "clustering" 2 ClusteringSettings.standard ClusteringSettings.ofSetting
  let unit ← s.orElse "unit" 3 ThermalGenerator.standard ThermalGenerator.ofSetting
  let ramping ← s.orElse "ramping" 4 RampingLimits.standard RampingLimits.ofSetting
  let times ← s.orElse "startup_shutdown" 5 UpDownTimes.standard UpDownTimes.ofSetting
  let cashFlow := (s.find? "cashflow" 6).getD empty
  let (cashFlow, goal) ←
    CashFlowParams.readWith cashFlow (Vocabulary.word CashFlowGoal.presentValue) asText
  let solve ← s.orElse "solver" 7 true readSolver
  return { seed, horizon, source, clustering, unit, ramping, times, cashFlow, goal, solve }

/-- The planner of a study. -/
def planner {α : Type} (c : StudyConfig) : Except (Fault α) Planner :=
  Planner.ofSettings (UInt64.ofNat c.seed) c.horizon c.clustering

/-- The stages of a study. -/
def stages (c : StudyConfig) : Except (Fault Float) (Stages Float) := do
  let goal ← CashFlowGoal.parse c.goal
  return { ramping := c.ramping, times := c.times, cashFlow := { c.cashFlow with goal } }

end StudyConfig

end PlantEconomics
