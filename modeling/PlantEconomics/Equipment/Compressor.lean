import PlantEconomics.Equipment.CostIndex
import PlantEconomics.Settings.Section

/-!
# Cost of a compressor and of a gas turbine

The base cost of a compressor grows with a power of the horsepower it absorbs; factors for the
drive and the material and the year's cost index multiply it. A turbine's cost is a power of the
horsepower it delivers. Work absorbed is positive, work delivered negative, both in watts.
-/

namespace PlantEconomics

/-! ## §1. Options -/

/-- The machine that moves the gas. Only compressors have a cost correlation. -/
inductive MoverType where
  | compressor
  | fan
  | blower
deriving Repr, DecidableEq

instance : Vocabulary MoverType where
  all := [.compressor, .fan, .blower]
  word
    | .compressor => "compressor"
    | .fan => "fan"
    | .blower => "blower"

/-- Construction of the compressor. -/
inductive CompressorType where
  | centrifugal
  | reciprocating
  | screw
deriving Repr, DecidableEq

instance : Vocabulary CompressorType where
  all := [.centrifugal, .reciprocating, .screw]
  word
    | .centrifugal => "centrifugal"
    | .reciprocating => "reciprocating"
    | .screw => "screw"

/-- The drive of the compressor. -/
inductive DriveType where
  | electricalMotor
  | steamTurbine
  | gasTurbine
deriving Repr, DecidableEq

instance : Vocabulary DriveType where
  all := [.electricalMotor, .steamTurbine, .gasTurbine]
  word
    | .electricalMotor => "electrical_motor"
    | .steamTurbine => "steam_turbine"
    | .gasTurbine => "gas_turbine"

/-- Material of the compressor. -/
inductive CompressorMaterial where
  | carbonSteel
  | stainlessSteel
  | nickelAlloy
deriving Repr, DecidableEq

instance : Vocabulary CompressorMaterial where
  all := [.carbonSteel, .stainlessSteel, .nickelAlloy]
  word
    | .carbonSteel => "carbon_steel"
    | .stainlessSteel => "stain_steel"
    | .nickelAlloy => "nickel_alloy"

section Factors

variable {α : Type} [Scalar α]

/-- Constant and slope of the logarithm of the base cost over the logarithm of the power. -/
def CompressorType.coefficients : CompressorType → α × α
  | .centrifugal => (7.58, 0.8)
  | .reciprocating => (7.9661, 0.8)
  | .screw => (8.1238, 0.7243)

/-- Cost factor of a drive. -/
def DriveType.factor : DriveType → α
  | .electricalMotor => 1.0
  | .steamTurbine => 1.15
  | .gasTurbine => 1.25

/-- Cost factor of a material. -/
def CompressorMaterial.factor : CompressorMaterial → α
  | .carbonSteel => 1.0
  | .stainlessSteel => 2.5
  | .nickelAlloy => 5.0

end Factors

/-! ## §2. Compressors -/

/-- A compressor to be bought. -/
structure Compressor where
  mover : MoverType
  type : CompressorType
  drive : DriveType
  material : CompressorMaterial
deriving Repr, DecidableEq

/-- Base and purchase cost of one machine. -/
structure MachineCost (α : Type) where
  base : α
  purchase : α
deriving Repr, DecidableEq

namespace Compressor

/-- A centrifugal compressor of stainless steel with an electrical motor. -/
def standard : Compressor := ⟨.compressor, .centrifugal, .electricalMotor, .stainlessSteel⟩

/-- The compressor with the options that words name. -/
def ofWords {α : Type} (mover type drive material : String) :
    Except (Fault α) Compressor := do
  let mover ← Vocabulary.parse "mover_type" mover
  let type ← Vocabulary.parse "compressor_type" type
  let drive ← Vocabulary.parse "driver_mover_type" drive
  let material ← Vocabulary.parse "compressor material" material
  return { mover, type, drive, material }

/-- The settings of a compressor, standard where they say nothing. -/
def ofSetting (v : Setting) : Setting.Read Compressor := do
  let s ← v.asSection
  return {
    mover := ← s.orElse "mover" 0 standard.mover Setting.asWord
    type := ← s.orElse "compressor_type" 1 standard.type Setting.asWord
    drive := ← s.orElse "driver" 2 standard.drive Setting.asWord
    material := ← s.orElse "material" 3 standard.material Setting.asWord }

variable {α : Type} [Analytic α]

/-- The cost of a compressor that absorbs some work. -/
def cost (c : Compressor) (index : CostIndex α) (work : α) :
    Except (Fault α) (MachineCost α) :=
  if c.mover ≠ .compressor then
    .error (.configuration (.unsupportedMover (Vocabulary.word c.mover)))
  else if ¬(Scalar.isFinite work = true ∧ 0 < work) then
    .error (.configuration (.badCompressorWork work))
  else
    let (a, b) : α × α := c.type.coefficients
    let base := Analytic.exp (a + b * Analytic.ln (work / 746.0))
    let purchase := c.drive.factor * c.material.factor * (index.value / 500.0) * base
    .ok { base, purchase }

end Compressor

/-! ## §3. Turbines -/

/-- The purchase cost of a gas turbine that delivers some work. -/
def turbineCost {α : Type} [Analytic α] (work : α) : Except (Fault α) α :=
  if ¬(Scalar.isFinite work = true ∧ work < 0) then
    .error (.configuration (.badTurbineWork work))
  else .ok (530.0 * Analytic.power (-work / 746.0) 0.81)

end PlantEconomics
