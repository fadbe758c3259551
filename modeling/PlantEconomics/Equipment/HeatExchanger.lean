import PlantEconomics.Equipment.CostIndex
import PlantEconomics.Settings.Section

/-!
# Cost of a shell-and-tube heat exchanger

The base cost is a quadratic in the logarithm of the exchange area, inside an exponential. Factors
for the pressure in the tubes, the material, the tube length and the year's cost index multiply
it. Areas come in square metres and pressures in pascals; the correlation works in square feet and
pounds per square inch.
-/

namespace PlantEconomics

/-! ## §1. Options -/

/-- Construction of the exchanger. -/
inductive ExchangerType where
  | floatingHead
  | fixedHead
  | uTube
  | kettleVaporizer
deriving Repr, DecidableEq

instance : Vocabulary ExchangerType where
  all := [.floatingHead, .fixedHead, .uTube, .kettleVaporizer]
  word
    | .floatingHead => "floating_head"
    | .fixedHead => "fixed_head"
    | .uTube => "U-tube"
    | .kettleVaporizer => "Kettle_vap"

/-- Material of shell and tubes. -/
inductive ExchangerMaterial where
  | stainlessSteel
  | carbonSteel
deriving Repr, DecidableEq

instance : Vocabulary ExchangerMaterial where
  all := [.stainlessSteel, .carbonSteel]
  word
    | .stainlessSteel => "stain_steel"
    | .carbonSteel => "carbon_steel"

/-- Length of the tubes in feet. -/
inductive TubeLength where
  | feet8
  | feet12
  | feet16
  | feet20
deriving Repr, DecidableEq

instance : Vocabulary TubeLength where
  all := [.feet8, .feet12, .feet16, .feet20]
  word
    | .feet8 => "8ft"
    | .feet12 => "12ft"
    | .feet16 => "16ft"
    | .feet20 => "20ft"

section Factors

variable {α : Type} [Scalar α]

/-- The coefficients of the base cost: a constant, and those of the logarithm of the area and of
its square. -/
def ExchangerType.coefficients : ExchangerType → α × α × α
  | .floatingHead => (11.9052, 0.8709, 0.09005)
  | .fixedHead => (11.2927, 0.8228, 0.09861)
  | .uTube => (11.3852, 0.9186, 0.09790)
  | .kettleVaporizer => (12.2052, 0.8709, 0.09005)

/-- Cost factor of a material. -/
def ExchangerMaterial.factor : ExchangerMaterial → α
  | .stainlessSteel => 3.0
  | .carbonSteel => 2.0

/-- Cost factor of a tube length. -/
def TubeLength.factor : TubeLength → α
  | .feet8 => 1.25
  | .feet12 => 1.12
  | .feet16 => 1.05
  | .feet20 => 1.0

end Factors

/-! ## §2. Cost -/

/-- A heat exchanger to be bought. -/
structure HeatExchanger (α : Type) where
  type : ExchangerType
  material : ExchangerMaterial
  tubeLength : TubeLength
  /-- Factor by which the area is made larger than needed. -/
  oversize : α
deriving Repr, DecidableEq

/-- What a heat exchanger costs, and the factors of it. -/
structure HeatExchangerCost (α : Type) where
  base : α
  pressureFactor : α
  materialFactor : α
  lengthFactor : α
  purchase : α
deriving Repr, DecidableEq

namespace HeatExchanger

section Arithmetic

variable {α : Type} [Scalar α]

/-- A U-tube exchanger of stainless steel with tubes of twelve feet, a tenth oversized. -/
def standard : HeatExchanger α := ⟨.uTube, .stainlessSteel, .feet12, 1.1⟩

/-- The standard exchanger with the options that words name. -/
def ofWords (type material tubeLength : String) : Except (Fault α) (HeatExchanger α) := do
  let type ← Vocabulary.parse "hx_type" type
  let material ← Vocabulary.parse "hx material" material
  let tubeLength ← Vocabulary.parse "tube length" tubeLength
  return { (standard : HeatExchanger α) with type, material, tubeLength }

/-- The settings of an exchanger, standard where they say nothing. -/
def ofSetting (v : Setting) : Setting.Read (HeatExchanger Float) := do
  let s ← v.asSection
  let d : HeatExchanger Float := standard
  return {
    type := ← s.orElse "hx_type" 0 d.type Setting.asWord
    material := ← s.orElse "material" 1 d.material Setting.asWord
    tubeLength := ← s.orElse "tube_length" 2 d.tubeLength Setting.asWord
    oversize := ← s.orElse "oversize" 3 d.oversize Setting.asNumber }

/-- Square feet in a square metre. -/
def squareFeet : α := 10.7639

/-- Pounds per square inch in a pascal. -/
def poundsPerSquareInch : α := 14.69 / 101325.0

/-- The cost index that the correlation was fitted at. -/
def fittedIndex : α := 500.0

/-- The area in square feet that the base cost is computed for. -/
def sizedArea (x : HeatExchanger α) (area : α) : α := area * squareFeet * x.oversize

/-- Cost factor of the pressure in the tubes. -/
def pressureFactor (pressure : α) : α :=
  let p := pressure * poundsPerSquareInch / 100.0
  0.9803 + 0.018 * p + 0.0017 * p * p

end Arithmetic

variable {α : Type} [Analytic α]

/-- Base cost of an exchanger with a given logarithm of its area. -/
def baseCost (type : ExchangerType) (l : α) : α :=
  let (a, b, c) : α × α × α := type.coefficients
  Analytic.exp (a - b * l + c * l * l)

/-- The cost of an exchanger of some area whose tubes are under some pressure. -/
def cost (x : HeatExchanger α) (index : CostIndex α) (area pressure : α) :
    Except (Fault α) (HeatExchangerCost α) :=
  if ¬(Scalar.isFinite area = true ∧ 0 < area) then .error (.configuration (.badArea area))
  else if Scalar.isFinite pressure = false ∨ pressure < 0 then
    .error (.configuration (.badTubePressure pressure))
  else
    let base : α := baseCost x.type (Analytic.ln (x.sizedArea area))
    let pressureFactor : α := pressureFactor pressure
    let materialFactor : α := x.material.factor
    let lengthFactor : α := x.tubeLength.factor
    let purchase : α :=
      pressureFactor * materialFactor * lengthFactor * (index.value / fittedIndex) * base
    .ok { base, pressureFactor, materialFactor, lengthFactor, purchase }

end HeatExchanger

end PlantEconomics
