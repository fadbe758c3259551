import PlantEconomics.Equipment.CostIndex
import PlantEconomics.Settings.Section

/-!
# Cost of a pump and its motor

A centrifugal pump is sized by its flow and the square root of its head, an external gear pump by
its flow, a reciprocating pump by its brake power. The motor is sized by the power it draws, which
two efficiency correlations give. Flows come in cubic metres per second, pressures in pascals,
densities in kilograms per cubic metre and powers in watts; the correlations work in gallons per
minute, feet, pounds and horsepower.
-/

namespace PlantEconomics

/-! ## §1. Options -/

/-- Construction of the pump. -/
inductive PumpType where
  | centrifugal
  | externalGear
  | reciprocating
deriving Repr, DecidableEq

instance : Vocabulary PumpType where
  all := [.centrifugal, .externalGear, .reciprocating]
  word
    | .centrifugal => "centrifugal"
    | .externalGear => "external_gear"
    | .reciprocating => "reciprocating"

/-- Material of the pump. -/
inductive PumpMaterial where
  | castIron
  | ductileIron
  | castSteel
  | bronze
  | stainlessSteel
  | hastelloyC
  | monel
  | nickel
  | titanium
  | nickelAluminiumBronze
  | carbonSteel
deriving Repr, DecidableEq

instance : Vocabulary PumpMaterial where
  all := [.castIron, .ductileIron, .castSteel, .bronze, .stainlessSteel, .hastelloyC, .monel,
    .nickel, .titanium, .nickelAluminiumBronze, .carbonSteel]
  word
    | .castIron => "cast_iron"
    | .ductileIron => "ductile_iron"
    | .castSteel => "cast_steel"
    | .bronze => "bronze"
    | .stainlessSteel => "stain_steel"
    | .hastelloyC => "hastelloy_c"
    | .monel => "monel"
    | .nickel => "nickel"
    | .titanium => "titanium"
    | .nickelAluminiumBronze => "Ni_Al_Bronze"
    | .carbonSteel => "carbon_steel"

/-- Case split, stages and speed of a centrifugal pump, by their customary number. -/
inductive PumpClass where
  | class11
  | class12
  | class13
  | class14
  | class21
  | class22
deriving Repr, DecidableEq

instance : Vocabulary PumpClass where
  all := [.class11, .class12, .class13, .class14, .class21, .class22]
  word
    | .class11 => "1.1"
    | .class12 => "1.2"
    | .class13 => "1.3"
    | .class14 => "1.4"
    | .class21 => "2.1"
    | .class22 => "2.2"

/-- Enclosure of the motor. -/
inductive MotorType where
  | opened
  | enclosed
  | explosionProof
deriving Repr, DecidableEq

instance : Vocabulary MotorType where
  all := [.opened, .enclosed, .explosionProof]
  word
    | .opened => "open"
    | .enclosed => "enclosed"
    | .explosionProof => "explosion_proof"

section Factors

variable {α : Type} [Scalar α]

/-- Cost factor of a material, where pumps of the type are made of it. Reciprocating pumps have
factors of their own. -/
def PumpMaterial.factor? (m : PumpMaterial) : PumpType → Option α
  | .reciprocating =>
    match m with
    | .ductileIron => some 1.0
    | .nickelAluminiumBronze => some 1.15
    | .carbonSteel => some 1.5
    | .stainlessSteel => some 2.2
    | _ => none
  | _ =>
    match m with
    | .castIron => some 1.0
    | .ductileIron => some 1.15
    | .castSteel => some 1.35
    | .bronze => some 1.9
    | .stainlessSteel => some 2.0
    | .hastelloyC => some 2.95
    | .monel => some 3.3
    | .nickel => some 3.5
    | .titanium => some 9.7
    | .nickelAluminiumBronze => none
    | .carbonSteel => none

/-- Cost factor of a material for pumps of a type. -/
def PumpMaterial.factor (m : PumpMaterial) (type : PumpType) : Except (Fault α) α :=
  match m.factor? type with
  | some f => .ok f
  | none =>
    .error (.unknownOption "pump material"
      (Vocabulary.word m ++ " for " ++ Vocabulary.word type ++ " pump"))

/-- Cost factor of a class of centrifugal pumps. -/
def PumpClass.factor : PumpClass → α
  | .class11 => 1.0
  | .class12 => 1.5
  | .class13 => 1.7
  | .class14 => 2.0
  | .class21 => 2.7
  | .class22 => 8.9

/-- Cost factor of a motor enclosure. -/
def MotorType.factor : MotorType → α
  | .opened => 1.0
  | .enclosed => 1.4
  | .explosionProof => 1.8

end Factors

/-! ## §2. Sizes -/

/-- A pump to be bought. -/
structure Pump where
  type : PumpType
  material : PumpMaterial
  class_ : PumpClass
  motor : MotorType
deriving Repr, DecidableEq

/-- What a pump is to do: volume flow, pressure rise, density of the liquid and power given to
it. -/
structure PumpDuty (α : Type) where
  flow : α
  pressureRise : α
  density : α
  work : α
deriving Repr, DecidableEq

/-- What a pump and its motor cost, and the sizes behind it. -/
structure PumpCost (α : Type) where
  /-- Head in feet of the liquid. -/
  head : α
  /-- Flow times the square root of the head. -/
  size : α
  base : α
  pumpPurchase : α
  /-- Power of the motor in horsepower. -/
  motorPower : α
  motorBase : α
  motorPurchase : α
  /-- Pump and motor. -/
  purchase : α
deriving Repr, DecidableEq

namespace Pump

/-- A centrifugal pump of stainless steel with an open motor. -/
def standard : Pump := ⟨.centrifugal, .stainlessSteel, .class14, .opened⟩

/-- The pump with the options that words name. -/
def ofWords {α : Type} (type material class_ motor : String) : Except (Fault α) Pump := do
  let type ← Vocabulary.parse "pump_type" type
  let material ← Vocabulary.parse "pump material" material
  let class_ ← Vocabulary.parse "pump_type_factor" class_
  let motor ← Vocabulary.parse "pump_motor_type" motor
  return { type, material, class_, motor }

/-- The settings of a pump, standard where they say nothing. -/
def ofSetting (v : Setting) : Setting.Read Pump := do
  let s ← v.asSection
  return {
    type := ← s.orElse "pump_type" 0 standard.type Setting.asWord
    material := ← s.orElse "material" 1 standard.material Setting.asWord
    class_ := ← s.orElse "type_factor" 2 standard.class_ Setting.asWord
    motor := ← s.orElse "motor" 3 standard.motor Setting.asWord }

section Arithmetic

variable {α : Type} [Scalar α]

/-- Gallons per minute in a cubic metre per second. -/
def gallonsPerMinute : α := 15850.32314

/-- Pounds of force per square foot in a pascal. -/
def poundsPerSquareFoot : α := 0.00014503773 * 144.0

/-- Pounds per cubic foot in a kilogram per cubic metre. -/
def poundsPerCubicFoot : α := 2.2 / 35.3147

/-- Gallons in a cubic foot. -/
def gallonsPerCubicFoot : α := 7.48052

/-- Foot-pounds per minute in a horsepower. -/
def footPoundsPerMinute : α := 33000.0

/-- Watts in a horsepower. -/
def wattsPerHorsepower : α := 746.0

/-- The cost index that the correlations were fitted at. -/
def fittedIndex : α := 394.0

/-- Brake efficiency assumed for reciprocating pumps. -/
def reciprocatingEfficiency : α := 0.9

/-- Whether an input of a duty can be costed. -/
def isPositive (x : α) : Bool := Scalar.isFinite x && 0 < x

/-- The first input of a duty that is not finite and positive, by the name it goes by. -/
def badInput? (d : PumpDuty α) : Option (String × α) :=
  [("flow_vol", d.flow), ("deltaP", d.pressureRise), ("dens_mass", d.density),
    ("work_fluid", d.work)].find? fun p => !isPositive p.2

/-- Flow in gallons per minute. -/
def flowGallons (d : PumpDuty α) : α := d.flow * gallonsPerMinute

/-- Density in pounds per cubic foot. -/
def densityPounds (d : PumpDuty α) : α := d.density * poundsPerCubicFoot

/-- Head in feet. -/
def headFeet (d : PumpDuty α) : α := d.pressureRise * poundsPerSquareFoot / densityPounds d

/-- Power given to the liquid, in foot-pounds per minute. -/
def hydraulicPower (d : PumpDuty α) : α :=
  flowGallons d * headFeet d * densityPounds d / gallonsPerCubicFoot

/-- Efficiency of a pump with a given logarithm of its flow. -/
def pumpEfficiency (l : α) : α := -0.316 + 0.24015 * l - 0.01199 * l * l

/-- Efficiency of a motor with a given logarithm of the power of its pump. -/
def motorEfficiency (l : α) : α := 0.80 + 0.0319 * l - 0.00182 * l * l

end Arithmetic

/-! ## §3. Cost -/

variable {α : Type} [Analytic α]

/-- Flow times the square root of the head. -/
def sizeFactor (d : PumpDuty α) : α := flowGallons d * Analytic.sqrt (headFeet d)

/-- Base cost of a pump of a type. -/
def baseCost (type : PumpType) (d : PumpDuty α) : α :=
  match type with
  | .centrifugal =>
    let l := Analytic.ln (sizeFactor d)
    Analytic.exp (9.7171 - 0.6019 * l + 0.0519 * l * l)
  | .externalGear =>
    let l := Analytic.ln (flowGallons d)
    Analytic.exp (7.6964 + 0.1986 * l + 0.0291 * l * l)
  | .reciprocating =>
    let l := Analytic.ln (hydraulicPower d / (footPoundsPerMinute * reciprocatingEfficiency))
    Analytic.exp (7.8103 + 0.26986 * l + 0.06718 * l * l)

/-- Base cost of a motor with a given logarithm of its power. -/
def motorBaseCost (l : α) : α :=
  Analytic.exp (5.8259 + 0.13141 * l + 0.053255 * (l * l) + 0.028628 * (l * l * l) +
    0.0035549 * (l * l * (l * l)))

/-- The class matters for centrifugal pumps only. -/
def classFactor (p : Pump) : α :=
  match p.type with
  | .centrifugal => p.class_.factor
  | _ => 1

/-- The cost of a pump and its motor for a duty. -/
def cost (p : Pump) (index : CostIndex α) (d : PumpDuty α) : Except (Fault α) (PumpCost α) := do
  if let some (input, got) := badInput? d then throw (.configuration (.badPumpInput input got))
  let materialFactor : α ← p.material.factor p.type
  let base := baseCost p.type d
  let scale := index.value / fittedIndex
  let pumpPurchase := classFactor p * materialFactor * scale * base
  let ofPump := pumpEfficiency (Analytic.ln (flowGallons d))
  let ofMotor := motorEfficiency (Analytic.ln (d.work / wattsPerHorsepower))
  if ofPump ≤ 0 ∨ ofMotor ≤ 0 then
    throw (.configuration (.pumpOutsideCorrelation (flowGallons d)))
  let motorPower := hydraulicPower d / (footPoundsPerMinute * ofPump * ofMotor)
  let motorBase := motorBaseCost (Analytic.ln motorPower)
  let motorPurchase := p.motor.factor * scale * motorBase
  return { head := headFeet d, size := sizeFactor d, base, pumpPurchase, motorPower, motorBase,
           motorPurchase, purchase := pumpPurchase + motorPurchase }

end Pump

end PlantEconomics
