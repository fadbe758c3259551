import PlantEconomics.Equipment.Pump
import PlantEconomics.Proofs.Outcome
import PlantEconomics.Proofs.PartialReal

/-!
# When a pump and its motor have a cost

Head and flow are products and quotients of inputs that have been found positive, so the logarithms of
the pump are those of positive numbers whatever the inputs are. The two efficiencies are quadratics
in logarithms and fall below zero at both ends; only where both are positive is there a motor power,
and a logarithm of it. What passes the checks is therefore defined in every step, and positive.

  * `Pump.cost_eq_ok_iff`: when there is a cost, over any scalars, and what it is;
  * `Pump.positive_costWith`: all that a cost is made of is positive;
  * `Pump.partial_cost`: no operation in it is undefined;
  * `Pump.cost_defined_and_positive` puts them together.
-/

namespace PlantEconomics

/-! ## §1. Duties, costs and materials -/

section Map

variable {α β : Type}

/-- A duty in other numbers. -/
def PumpDuty.map (f : α → β) (d : PumpDuty α) : PumpDuty β :=
  ⟨f d.flow, f d.pressureRise, f d.density, f d.work⟩

/-- A cost in other numbers. -/
def PumpCost.map (f : α → β) (c : PumpCost α) : PumpCost β :=
  ⟨f c.head, f c.size, f c.base, f c.pumpPurchase, f c.motorPower, f c.motorBase,
    f c.motorPurchase, f c.purchase⟩

end Map

/-- All inputs of a duty are positive. -/
structure PumpDuty.IsPositive (d : PumpDuty ℝ) : Prop where
  flow : 0 < d.flow
  pressureRise : 0 < d.pressureRise
  density : 0 < d.density
  work : 0 < d.work

/-- All parts of a cost and all sizes behind it are positive. -/
structure PumpCost.IsPositive (c : PumpCost ℝ) : Prop where
  head : 0 < c.head
  size : 0 < c.size
  base : 0 < c.base
  pumpPurchase : 0 < c.pumpPurchase
  motorPower : 0 < c.motorPower
  motorBase : 0 < c.motorBase
  motorPurchase : 0 < c.motorPurchase
  purchase : 0 < c.purchase

/-- The materials that pumps of a type are made of. -/
def PumpType.materials : PumpType → List PumpMaterial
  | .reciprocating => [.ductileIron, .nickelAluminiumBronze, .carbonSteel, .stainlessSteel]
  | _ => [.castIron, .ductileIron, .castSteel, .bronze, .stainlessSteel, .hastelloyC, .monel,
      .nickel, .titanium]

/-- A material has a factor exactly for the types that are made of it. -/
theorem PumpMaterial.exists_factor?_iff {α : Type} [Scalar α] {m : PumpMaterial} {type : PumpType} :
    (∃ f : α, m.factor? type = some f) ↔ m ∈ type.materials := by
  cases type <;> cases m <;> simp [factor?, PumpType.materials]

theorem PumpMaterial.factor?_pos {m : PumpMaterial} {type : PumpType} {f : ℝ}
    (h : m.factor? type = some f) : 0 < f := by
  cases type <;> cases m <;> simp only [factor?, Option.some.injEq, reduceCtorEq] at h <;>
    norm_num [← h]

theorem PumpMaterial.factor?_of (m : PumpMaterial) (type : PumpType) :
    (m.factor? type : Option PartialReal) = (m.factor? type).map .of := by
  cases type <;> cases m <;> rfl

theorem PumpClass.factor_pos (c : PumpClass) : 0 < (c.factor : ℝ) := by
  cases c <;> norm_num [factor]

theorem PumpClass.factor_of (c : PumpClass) : (c.factor : PartialReal) = .of c.factor := by
  cases c <;> rfl

theorem MotorType.factor_pos (m : MotorType) : 0 < (m.factor : ℝ) := by
  cases m <;> norm_num [factor]

theorem MotorType.factor_of (m : MotorType) : (m.factor : PartialReal) = .of m.factor := by
  cases m <;> rfl

namespace Pump

open PartialReal (of)

/-! ## §2. Cost over any scalars -/

section Any

variable {α : Type} [Analytic α]

/-- Efficiency of the pump for a duty. -/
def efficiency (d : PumpDuty α) : α := pumpEfficiency (Analytic.ln (flowGallons d))

/-- Efficiency of the motor for a duty. -/
def driveEfficiency (d : PumpDuty α) : α :=
  motorEfficiency (Analytic.ln (d.work / wattsPerHorsepower))

/-- Power of the motor for a duty. -/
def motorPower (d : PumpDuty α) : α :=
  hydraulicPower d / (footPoundsPerMinute * efficiency d * driveEfficiency d)

/-- The cost of a pump for a duty, with the factor of its material. -/
def costWith (p : Pump) (index : CostIndex α) (d : PumpDuty α) (material : α) : PumpCost α :=
  let scale := index.value / fittedIndex
  let pumpPurchase := classFactor p * material * scale * baseCost p.type d
  let motorBase := motorBaseCost (Analytic.ln (motorPower d))
  let motorPurchase := p.motor.factor * scale * motorBase
  { head := headFeet d
    size := sizeFactor d
    base := baseCost p.type d
    pumpPurchase
    motorPower := motorPower d
    motorBase
    motorPurchase
    purchase := pumpPurchase + motorPurchase }

theorem badInput?_eq_none_iff {d : PumpDuty α} :
    badInput? d = none ↔
      isPositive d.flow = true ∧ isPositive d.pressureRise = true ∧ isPositive d.density = true ∧
        isPositive d.work = true := by
  simp [badInput?]

/-- **There is a cost** for inputs that pass, a material that has a factor, and efficiencies that are
not at most zero. -/
theorem cost_eq_ok_iff {p : Pump} {index : CostIndex α} {d : PumpDuty α} {c : PumpCost α} :
    p.cost index d = .ok c ↔
      badInput? d = none ∧ ¬(efficiency d ≤ 0 ∨ driveEfficiency d ≤ 0) ∧
        ∃ m, p.material.factor? p.type = some m ∧ c = p.costWith index d m := by
  unfold cost PumpMaterial.factor
  cases badInput? d with
  | some bad =>
    simp only [reduceCtorEq, false_and, iff_false]
    intro run
    cases run
  | none =>
    cases hm : (p.material.factor? p.type : Option α) with
    | none =>
      -- the efficiencies are not looked at
      simp only [reduceCtorEq, false_and, exists_false, and_false, iff_false]
      intro run
      cases run
    | some m =>
      show (if efficiency d ≤ 0 ∨ driveEfficiency d ≤ 0 then
          .error (.configuration (.pumpOutsideCorrelation (flowGallons d)))
        else .ok (p.costWith index d m) : Except (Fault α) (PumpCost α)) = _ ↔ _
      split
      · next low => simp [low]
      · next high => simp [high, eq_comm]

end Any

/-! ## §3. Positive numbers -/

section Positive

variable {d : PumpDuty ℝ}

theorem isPositive_iff {x : ℝ} : isPositive x = true ↔ 0 < x := by simp [isPositive]

theorem badInput?_eq_none_iff_isPositive : badInput? d = none ↔ d.IsPositive := by
  simp only [badInput?_eq_none_iff, isPositive_iff]
  exact ⟨fun ⟨flow, rise, density, work⟩ => ⟨flow, rise, density, work⟩,
    fun h => ⟨h.flow, h.pressureRise, h.density, h.work⟩⟩

theorem flowGallons_pos (h : d.IsPositive) : 0 < flowGallons d :=
  mul_pos h.flow (by norm_num [gallonsPerMinute])

theorem densityPounds_pos (h : d.IsPositive) : 0 < densityPounds d :=
  mul_pos h.density (by norm_num [poundsPerCubicFoot])

theorem headFeet_pos (h : d.IsPositive) : 0 < headFeet d :=
  div_pos (mul_pos h.pressureRise (by norm_num [poundsPerSquareFoot])) (densityPounds_pos h)

theorem hydraulicPower_pos (h : d.IsPositive) : 0 < hydraulicPower d :=
  div_pos (mul_pos (mul_pos (flowGallons_pos h) (headFeet_pos h)) (densityPounds_pos h))
    (by norm_num [gallonsPerCubicFoot])

theorem sizeFactor_pos (h : d.IsPositive) : 0 < sizeFactor d :=
  mul_pos (flowGallons_pos h) (Real.sqrt_pos.2 (headFeet_pos h))

/-- Power of a reciprocating pump at its brake. -/
theorem brakePower_pos (h : d.IsPositive) :
    0 < hydraulicPower d / (footPoundsPerMinute * reciprocatingEfficiency) :=
  div_pos (hydraulicPower_pos h) (by norm_num [footPoundsPerMinute, reciprocatingEfficiency])

theorem horsepower_pos (h : d.IsPositive) : 0 < d.work / wattsPerHorsepower :=
  div_pos h.work (by norm_num [wattsPerHorsepower])

theorem drivePower_pos (pump : 0 < efficiency d) (drive : 0 < driveEfficiency d) :
    0 < footPoundsPerMinute * efficiency d * driveEfficiency d :=
  mul_pos (mul_pos (by norm_num [footPoundsPerMinute]) pump) drive

theorem motorPower_pos (h : d.IsPositive) (pump : 0 < efficiency d)
    (drive : 0 < driveEfficiency d) : 0 < motorPower d :=
  div_pos (hydraulicPower_pos h) (drivePower_pos pump drive)

theorem fittedIndex_pos : 0 < (fittedIndex : ℝ) := by norm_num [fittedIndex]

theorem baseCost_pos (type : PumpType) (d : PumpDuty ℝ) : 0 < baseCost type d := by
  cases type <;> exact Real.exp_pos _

theorem motorBaseCost_pos (l : ℝ) : 0 < motorBaseCost l := Real.exp_pos _

theorem classFactor_pos (p : Pump) : 0 < (classFactor p : ℝ) := by
  unfold classFactor
  split
  · exact p.class_.factor_pos
  · exact one_pos

/-- **All that a cost is made of is positive.** -/
theorem positive_costWith (p : Pump) {index : CostIndex ℝ} {m : ℝ} (positive : 0 < index.value)
    (h : d.IsPositive) (pump : 0 < efficiency d) (drive : 0 < driveEfficiency d) (hm : 0 < m) :
    (p.costWith index d m).IsPositive := by
  have scale : 0 < index.value / (fittedIndex : ℝ) := div_pos positive fittedIndex_pos
  have base := baseCost_pos p.type d
  have motorBase := motorBaseCost_pos (Analytic.ln (motorPower d))
  have ofPump : 0 < classFactor p * m * (index.value / fittedIndex) * baseCost p.type d :=
    mul_pos (mul_pos (mul_pos p.classFactor_pos hm) scale) base
  have ofMotor : 0 < p.motor.factor * (index.value / fittedIndex) *
      motorBaseCost (Analytic.ln (motorPower d)) :=
    mul_pos (mul_pos p.motor.factor_pos scale) motorBase
  exact ⟨headFeet_pos h, sizeFactor_pos h, base, ofPump, motorPower_pos h pump drive, motorBase,
    ofMotor, add_pos ofPump ofMotor⟩

/-! ## §4. Partial numbers -/

theorem flowGallons_of (d : PumpDuty ℝ) : flowGallons (d.map of) = of (flowGallons d) := rfl

theorem densityPounds_of (d : PumpDuty ℝ) : densityPounds (d.map of) = of (densityPounds d) := by
  have unit : (poundsPerCubicFoot : PartialReal) = of poundsPerCubicFoot :=
    PartialReal.of_div (by norm_num)
  unfold densityPounds
  rw [unit]
  rfl

theorem headFeet_of (h : d.IsPositive) : headFeet (d.map of) = of (headFeet d) := by
  unfold headFeet
  rw [densityPounds_of]
  exact PartialReal.of_div (densityPounds_pos h).ne'

theorem hydraulicPower_of (h : d.IsPositive) :
    hydraulicPower (d.map of) = of (hydraulicPower d) := by
  unfold hydraulicPower
  rw [flowGallons_of, headFeet_of h, densityPounds_of]
  exact PartialReal.of_div (by norm_num [gallonsPerCubicFoot])

theorem sizeFactor_of (h : d.IsPositive) : sizeFactor (d.map of) = of (sizeFactor d) := by
  unfold sizeFactor
  rw [flowGallons_of, headFeet_of h, PartialReal.sqrt_of (headFeet_pos h)]
  rfl

theorem efficiency_of (h : d.IsPositive) : efficiency (d.map of) = of (efficiency d) := by
  unfold efficiency
  rw [flowGallons_of, PartialReal.ln_of (flowGallons_pos h)]
  rfl

theorem driveEfficiency_of (h : d.IsPositive) :
    driveEfficiency (d.map of) = of (driveEfficiency d) := by
  have power : (d.map of).work / wattsPerHorsepower = of (d.work / wattsPerHorsepower) :=
    PartialReal.of_div (by norm_num [wattsPerHorsepower])
  unfold driveEfficiency
  rw [power, PartialReal.ln_of (horsepower_pos h)]
  rfl

theorem motorPower_of (h : d.IsPositive) (pump : 0 < efficiency d)
    (drive : 0 < driveEfficiency d) : motorPower (d.map of) = of (motorPower d) := by
  unfold motorPower
  rw [hydraulicPower_of h, efficiency_of h, driveEfficiency_of h]
  exact PartialReal.of_div (drivePower_pos pump drive).ne'

/-- Each type of pump takes the logarithm of another size, all of which are positive. -/
theorem baseCost_of (type : PumpType) (h : d.IsPositive) :
    baseCost type (d.map of) = of (baseCost type d) := by
  unfold baseCost
  cases type with
  | centrifugal =>
    rw [sizeFactor_of h, PartialReal.ln_of (sizeFactor_pos h)]
    rfl
  | externalGear =>
    rw [flowGallons_of, PartialReal.ln_of (flowGallons_pos h)]
    rfl
  | reciprocating =>
    have power : hydraulicPower (d.map of) / (footPoundsPerMinute * reciprocatingEfficiency) =
        of (hydraulicPower d / (footPoundsPerMinute * reciprocatingEfficiency)) := by
      rw [hydraulicPower_of h]
      exact PartialReal.of_div (by norm_num [footPoundsPerMinute, reciprocatingEfficiency])
    rw [power, PartialReal.ln_of (brakePower_pos h)]
    rfl

theorem motorBaseCost_of (l : ℝ) : motorBaseCost (of l) = of (motorBaseCost l) := rfl

theorem classFactor_of (p : Pump) : (classFactor p : PartialReal) = of (classFactor p) := by
  unfold classFactor
  split
  · exact p.class_.factor_of
  · rfl

/-- No operation of a cost is undefined. -/
theorem costWith_of (p : Pump) (index : CostIndex ℝ) (m : ℝ) (h : d.IsPositive)
    (pump : 0 < efficiency d) (drive : 0 < driveEfficiency d) :
    p.costWith ⟨index.year, of index.value⟩ (d.map of) (of m) = (p.costWith index d m).map of := by
  have scale : of index.value / fittedIndex = of (index.value / fittedIndex) :=
    PartialReal.of_div fittedIndex_pos.ne'
  have motor := motorPower_of h pump drive
  have argument := motorPower_pos h pump drive
  simp only [costWith, headFeet_of h, sizeFactor_of h, baseCost_of p.type h, classFactor_of,
    MotorType.factor_of, scale, motor, PartialReal.ln_of argument, motorBaseCost_of,
    PartialReal.of_mul, PartialReal.of_add]
  rfl

/-- **What is costed is costed without an undefined operation.** -/
theorem partial_cost (p : Pump) {index : CostIndex ℝ} {c : PumpCost ℝ}
    (run : p.cost index d = .ok c) :
    p.cost ⟨index.year, of index.value⟩ (d.map of) = .ok (c.map of) := by
  obtain ⟨inputs, high, m, hm, rfl⟩ := cost_eq_ok_iff.1 run
  have h := badInput?_eq_none_iff_isPositive.1 inputs
  obtain ⟨pump, drive⟩ := not_or.1 high
  refine cost_eq_ok_iff.2 ⟨?_, ?_, of m, ?_, ?_⟩
  · have passes {x : ℝ} (hx : 0 < x) : isPositive (of x) = true := by simp [isPositive, hx]
    exact badInput?_eq_none_iff.2
      ⟨passes h.flow, passes h.pressureRise, passes h.density, passes h.work⟩
  · rw [efficiency_of h, driveEfficiency_of h]
    exact high
  · rw [PumpMaterial.factor?_of, hm]
    rfl
  · exact (p.costWith_of index m h (not_le.1 pump) (not_le.1 drive)).symm

/-! ## §5. Cost -/

/-- **A pump has a cost exactly when it can be costed, and the cost is positive.** There is one if and
only if all inputs are positive, pumps of the type are made of the material, and the pump and its
motor have positive efficiencies. Then no logarithm, root or quotient is undefined, sizes and costs
are positive, and the whole is bought for the price of the pump and that of its motor. -/
theorem cost_defined_and_positive (p : Pump) (index : CostIndex ℝ) (positive : 0 < index.value)
    (d : PumpDuty ℝ) :
    ((∃ c, p.cost index d = .ok c) ↔
      d.IsPositive ∧ p.material ∈ p.type.materials ∧ 0 < efficiency d ∧ 0 < driveEfficiency d) ∧
    ∀ c, p.cost index d = .ok c →
      p.cost ⟨index.year, of index.value⟩ (d.map of) = .ok (c.map of) ∧ c.IsPositive ∧
        c.purchase = c.pumpPurchase + c.motorPurchase := by
  refine ⟨?_, fun c run => ⟨p.partial_cost run, ?_⟩⟩
  · have listed : (∃ m : ℝ, p.material.factor? p.type = some m) ↔ p.material ∈ p.type.materials :=
      PumpMaterial.exists_factor?_iff
    simp only [cost_eq_ok_iff, badInput?_eq_none_iff_isPositive, not_or, not_le, ← listed]
    constructor
    · rintro ⟨c, h, ⟨pump, drive⟩, m, hm, -⟩
      exact ⟨h, ⟨m, hm⟩, pump, drive⟩
    · rintro ⟨h, ⟨m, hm⟩, pump, drive⟩
      exact ⟨_, h, ⟨pump, drive⟩, m, hm, rfl⟩
  · obtain ⟨inputs, high, m, hm, rfl⟩ := cost_eq_ok_iff.1 run
    obtain ⟨pump, drive⟩ := not_or.1 high
    exact ⟨p.positive_costWith positive (badInput?_eq_none_iff_isPositive.1 inputs)
      (not_le.1 pump) (not_le.1 drive) (PumpMaterial.factor?_pos hm), rfl⟩

/-- A duty with a given flow in gallons per minute, a rise of five bar in water and eight
horsepower. -/
noncomputable def waterDuty (gallons : ℝ) : PumpDuty ℝ :=
  ⟨gallons / gallonsPerMinute, 500000, 1000, 8 * wattsPerHorsepower⟩

theorem isPositive_waterDuty {gallons : ℝ} (h : 0 < gallons) : (waterDuty gallons).IsPositive :=
  ⟨div_pos h (by norm_num [gallonsPerMinute]), by norm_num [waterDuty], by norm_num [waterDuty],
    mul_pos (by norm_num) (by norm_num [wattsPerHorsepower])⟩

theorem efficiency_waterDuty (gallons : ℝ) :
    efficiency (waterDuty gallons) = pumpEfficiency (Real.log gallons) := by
  have unit : (gallonsPerMinute : ℝ) ≠ 0 := by norm_num [gallonsPerMinute]
  show pumpEfficiency (Real.log (gallons / gallonsPerMinute * gallonsPerMinute)) = _
  rw [div_mul_cancel₀ _ unit]

/-- A logarithm of eight is three times that of two. -/
theorem driveEfficiency_waterDuty_pos (gallons : ℝ) : 0 < driveEfficiency (waterDuty gallons) := by
  have unit : (wattsPerHorsepower : ℝ) ≠ 0 := by norm_num [wattsPerHorsepower]
  have eight : Real.log 8 = 3 * Real.log 2 := by
    rw [show (8 : ℝ) = 2 ^ 3 by norm_num, Real.log_pow]
    norm_num
  have low := Real.log_two_gt_d9
  have high := Real.log_two_lt_d9
  show 0 < motorEfficiency (Real.log (8 * wattsPerHorsepower / wattsPerHorsepower))
  rw [mul_div_cancel_right₀ _ unit, eight]
  unfold motorEfficiency
  nlinarith

/-- A hundred and twenty-eight gallons per minute have a positive cost. One gallon per minute has
none, as the pump would have no efficiency, and neither has a reciprocating pump of titanium. -/
theorem cost_defined_and_positive_water :
    (∃ c, standard.cost CostIndex.standard (waterDuty 128) = .ok c ∧
      standard.cost ⟨2018, of 671.1⟩ ((waterDuty 128).map of) = .ok (c.map of) ∧ c.IsPositive) ∧
    (¬∃ c, standard.cost CostIndex.standard (waterDuty 1) = .ok c) ∧
    ¬∃ c, Pump.cost ⟨.reciprocating, .titanium, .class14, .opened⟩ CostIndex.standard
      (waterDuty 128) = .ok c := by
  have positive : 0 < (CostIndex.standard : CostIndex ℝ).value := by norm_num [CostIndex.standard]
  have power : Real.log 128 = 7 * Real.log 2 := by
    rw [show (128 : ℝ) = 2 ^ 7 by norm_num, Real.log_pow]
    norm_num
  have efficient : 0 < efficiency (waterDuty 128) := by
    have low := Real.log_two_gt_d9
    have high := Real.log_two_lt_d9
    rw [efficiency_waterDuty, power]
    unfold pumpEfficiency
    nlinarith
  refine ⟨?_, ?_, ?_⟩
  · obtain ⟨exact, costs⟩ :=
      cost_defined_and_positive standard CostIndex.standard positive (waterDuty 128)
    obtain ⟨c, run⟩ := exact.2 ⟨isPositive_waterDuty (by norm_num), by decide, efficient,
      driveEfficiency_waterDuty_pos 128⟩
    obtain ⟨partly, parts, -⟩ := costs c run
    exact ⟨c, run, partly, parts⟩
  · rw [(cost_defined_and_positive standard CostIndex.standard positive (waterDuty 1)).1]
    rintro ⟨-, -, none, -⟩
    rw [efficiency_waterDuty, Real.log_one] at none
    norm_num [pumpEfficiency] at none
  · rw [(cost_defined_and_positive _ CostIndex.standard positive (waterDuty 128)).1]
    rintro ⟨-, unlisted, -⟩
    exact absurd unlisted (by decide)

end Positive

end Pump

end PlantEconomics
