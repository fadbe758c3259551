import PlantEconomics.Equipment.HeatExchanger
import PlantEconomics.Proofs.PartialReal

/-!
# When the cost of a heat exchanger is a positive number

The base cost takes the logarithm of the area times the factor by which it is oversized. The area is
looked at, and so is the pressure in the tubes, but not the factor. So an exchanger of an area and a
pressure that nothing is wrong with always has a cost, and it is a number exactly when the factor is
positive. All else that the cost is made of is positive.

  * `HeatExchanger.cost_eq_ok_iff`: when there is a cost, over any scalars, and what it is;
  * `HeatExchanger.cost_eq_error_iff`: what is refused, and why;
  * `HeatExchanger.positive_cost_iff_oversize` is about the logarithm and the costs.
-/

namespace PlantEconomics

/-! ## §1. Other numbers -/

section Map

variable {α β : Type}

/-- An exchanger in other numbers. -/
def HeatExchanger.map (f : α → β) (x : HeatExchanger α) : HeatExchanger β :=
  ⟨x.type, x.material, x.tubeLength, f x.oversize⟩

/-- A cost in other numbers. -/
def HeatExchangerCost.map (f : α → β) (c : HeatExchangerCost α) : HeatExchangerCost β :=
  ⟨f c.base, f c.pressureFactor, f c.materialFactor, f c.lengthFactor, f c.purchase⟩

end Map

/-! ## §2. Factors -/

theorem ExchangerMaterial.factor_pos (m : ExchangerMaterial) : 0 < (m.factor : ℝ) := by
  cases m <;> norm_num [factor]

theorem TubeLength.factor_pos (l : TubeLength) : 0 < (l.factor : ℝ) := by
  cases l <;> norm_num [factor]

theorem ExchangerMaterial.factor_of (m : ExchangerMaterial) :
    (m.factor : PartialReal) = .of m.factor := by
  cases m <;> rfl

theorem TubeLength.factor_of (l : TubeLength) : (l.factor : PartialReal) = .of l.factor := by
  cases l <;> rfl

namespace HeatExchanger

open PartialReal (of undefined)

theorem squareFeet_pos : 0 < (squareFeet : ℝ) := by norm_num [squareFeet]

theorem fittedIndex_pos : 0 < (fittedIndex : ℝ) := by norm_num [fittedIndex]

theorem poundsPerSquareInch_pos : 0 < (poundsPerSquareInch : ℝ) := by
  norm_num [poundsPerSquareInch]

theorem poundsPerSquareInch_of : (poundsPerSquareInch : PartialReal) = of poundsPerSquareInch :=
  PartialReal.of_div (by norm_num)

/-- The correlation of the pressure has no negative coefficient. -/
theorem pressureFactor_pos {pressure : ℝ} (h : 0 ≤ pressure) : 0 < pressureFactor pressure := by
  have unit := poundsPerSquareInch_pos
  unfold pressureFactor
  positivity

theorem pressureFactor_of (pressure : ℝ) :
    pressureFactor (of pressure) = of (pressureFactor pressure) := by
  unfold pressureFactor
  simp only [poundsPerSquareInch_of, PartialReal.of_mul, PartialReal.ofScientific_eq]
  rw [PartialReal.of_div (by norm_num)]
  rfl

variable (x : HeatExchanger ℝ) {index : CostIndex ℝ} {area pressure : ℝ}

/-- The area is made positive by a positive factor only. -/
theorem sizedArea_pos_iff (h : 0 < area) : 0 < x.sizedArea area ↔ 0 < x.oversize := by
  unfold sizedArea
  exact mul_pos_iff_of_pos_left (mul_pos h squareFeet_pos)

/-! ## §3. Base cost -/

theorem baseCost_of (type : ExchangerType) (l : ℝ) :
    baseCost type (of l) = of (baseCost type l) := by
  cases type <;> rfl

theorem baseCost_undefined (type : ExchangerType) :
    baseCost type (undefined : PartialReal) = undefined := by
  cases type <;> simp [baseCost, ExchangerType.coefficients]

theorem baseCost_pos (type : ExchangerType) (l : ℝ) : 0 < baseCost type l := by
  cases type <;> exact Real.exp_pos _

/-! ## §4. Cost -/

section Any

variable {α : Type} [Analytic α]

/-- **There is a cost** for a finite positive area and a finite pressure that is not negative. -/
theorem cost_eq_ok_iff {x : HeatExchanger α} {index : CostIndex α} {area pressure : α}
    {c : HeatExchangerCost α} :
    x.cost index area pressure = .ok c ↔
      (Scalar.isFinite area = true ∧ 0 < area) ∧
      (Scalar.isFinite pressure = true ∧ ¬pressure < 0) ∧
      c = { base := baseCost x.type (Analytic.ln (x.sizedArea area))
            pressureFactor := pressureFactor pressure
            materialFactor := x.material.factor
            lengthFactor := x.tubeLength.factor
            purchase := pressureFactor pressure * x.material.factor * x.tubeLength.factor *
              (index.value / fittedIndex) * baseCost x.type (Analytic.ln (x.sizedArea area)) } := by
  unfold cost
  split
  · next bad => simp [bad]
  · next good =>
    rw [not_not] at good
    split
    · next bad =>
      have refused : ¬(Scalar.isFinite pressure = true ∧ ¬pressure < 0) := by
        rintro ⟨finite, notBelow⟩
        rcases bad with infinite | below
        · rw [finite] at infinite
          cases infinite
        · exact notBelow below
      simp [refused]
    · next fine =>
      obtain ⟨finite, notBelow⟩ := not_or.1 fine
      rw [Bool.not_eq_false] at finite
      simp [good, finite, notBelow, eq_comm]

end Any

theorem exists_cost_iff :
    (∃ c, x.cost index area pressure = .ok c) ↔ 0 < area ∧ 0 ≤ pressure := by
  simp [cost_eq_ok_iff]

/-- **What is refused**: an area that is not positive, and with a positive area a negative
pressure. -/
theorem cost_eq_error_iff {f : Fault ℝ} :
    x.cost index area pressure = .error f ↔
      (area ≤ 0 ∧ f = .configuration (.badArea area)) ∨
      (0 < area ∧ pressure < 0 ∧ f = .configuration (.badTubePressure pressure)) := by
  unfold cost
  by_cases hArea : 0 < area
  · by_cases hPressure : pressure < 0
    · simp [hArea, hPressure, eq_comm]
    · simp [hArea, hPressure]
  · simp [hArea, not_lt.1 hArea, eq_comm]

/-- Over partial numbers there is a cost as well, and all but the base cost is certain to have a
value. -/
theorem exists_partial_cost {c : HeatExchangerCost ℝ} (run : x.cost index area pressure = .ok c) :
    ∃ c', (x.map of).cost ⟨index.year, of index.value⟩ (of area) (of pressure) = .ok c' ∧
      c'.base = baseCost x.type (Analytic.ln (of (x.sizedArea area))) ∧
      c' = { base := c'.base
             pressureFactor := of c.pressureFactor
             materialFactor := of c.materialFactor
             lengthFactor := of c.lengthFactor
             purchase := of (c.pressureFactor * c.materialFactor * c.lengthFactor *
               (index.value / fittedIndex)) * c'.base } := by
  obtain ⟨⟨-, hArea⟩, ⟨-, hPressure⟩, rfl⟩ := cost_eq_ok_iff.1 run
  have scale : of index.value / fittedIndex = of (index.value / fittedIndex) :=
    PartialReal.of_div fittedIndex_pos.ne'
  refine ⟨_, cost_eq_ok_iff.2 ⟨⟨by simp, hArea⟩, ⟨by simp, hPressure⟩, rfl⟩, rfl, ?_⟩
  simp only [HeatExchanger.map, pressureFactor_of, ExchangerMaterial.factor_of,
    TubeLength.factor_of, scale, PartialReal.of_mul]

/-- **The cost of an exchanger is a positive number exactly when its oversize is positive.** Areas
that are not positive and negative pressures are refused as bad settings, and nothing else is. In a
cost that is given the factor of the pressure is positive; the argument of the logarithm is positive,
every operation is defined, and base cost and purchase cost are positive if and only if the factor of
the oversize is positive. If it is not, base cost and purchase cost have no value. -/
theorem positive_cost_iff_oversize (positive : 0 < index.value) :
    (∀ f, x.cost index area pressure = .error f ↔
      (area ≤ 0 ∧ f = .configuration (.badArea area)) ∨
      (0 < area ∧ pressure < 0 ∧ f = .configuration (.badTubePressure pressure))) ∧
    ∀ c, x.cost index area pressure = .ok c →
      0 < c.pressureFactor ∧
      ((0 < x.sizedArea area ∧
        (x.map of).cost ⟨index.year, of index.value⟩ (of area) (of pressure) = .ok (c.map of) ∧
        0 < c.base ∧ 0 < c.purchase) ↔ 0 < x.oversize) ∧
      (x.oversize ≤ 0 → ∃ c',
        (x.map of).cost ⟨index.year, of index.value⟩ (of area) (of pressure) = .ok c' ∧
        c'.base = undefined ∧ c'.purchase = undefined) := by
  refine ⟨fun f => x.cost_eq_error_iff, fun c run => ?_⟩
  obtain ⟨c', partly, base, value⟩ := x.exists_partial_cost run
  obtain ⟨⟨-, hArea⟩, ⟨-, hPressure⟩, rfl⟩ := cost_eq_ok_iff.1 run
  have pressureFactor := pressureFactor_pos (not_lt.1 hPressure)
  have sized := x.sizedArea_pos_iff hArea
  refine ⟨pressureFactor, ⟨fun h => sized.1 h.1, fun oversize => ?_⟩, fun oversize => ?_⟩
  · have argument := sized.2 oversize
    have basePos := baseCost_pos x.type (Analytic.ln (x.sizedArea area))
    have material := x.material.factor_pos
    have length := x.tubeLength.factor_pos
    have scale : 0 < index.value / (fittedIndex : ℝ) := div_pos positive fittedIndex_pos
    refine ⟨argument, ?_, basePos, by positivity⟩
    rw [PartialReal.ln_of argument, baseCost_of] at base
    rw [partly, value, base]
    rfl
  · -- no logarithm, so no base cost, and nothing comes of a product with it
    have argument : x.sizedArea area ≤ 0 := not_lt.1 (mt sized.1 (not_lt.2 oversize))
    rw [PartialReal.ln_of_nonpos argument, baseCost_undefined] at base
    refine ⟨c', partly, base, ?_⟩
    rw [value, base]
    exact PartialReal.mul_undefined _

/-- The standard exchanger with a quarter more area than needed has a positive cost for a hundred
square metres at ten bar, and none below the pressure zero. -/
theorem positive_cost_iff_oversize_quarter :
    let x : HeatExchanger ℝ := { (standard : HeatExchanger ℝ) with oversize := 1.25 }
    ∃ c, x.cost CostIndex.standard 100 1000000 = .ok c ∧
      (0 < x.sizedArea 100 ∧
        (x.map of).cost ⟨2018, of 671.1⟩ (of 100) (of 1000000) = .ok (c.map of) ∧
        0 < c.base ∧ 0 < c.purchase) ∧
      x.cost CostIndex.standard 100 (-1) = .error (.configuration (.badTubePressure (-1))) := by
  intro x
  have positive : 0 < (CostIndex.standard : CostIndex ℝ).value := by norm_num [CostIndex.standard]
  obtain ⟨c, run⟩ : ∃ c, x.cost CostIndex.standard 100 1000000 = .ok c :=
    x.exists_cost_iff.2 ⟨by norm_num, by norm_num⟩
  refine ⟨c, run, ?_, ?_⟩
  · exact ((x.positive_cost_iff_oversize positive).2 c run).2.1.2 (by norm_num [x])
  · refine ((x.positive_cost_iff_oversize positive).1 _).2 (.inr ?_)
    norm_num

/-- An exchanger without any area is not refused, although no logarithm can be taken of it. -/
theorem no_cost_without_oversize :
    ¬∀ (x : HeatExchanger ℝ) (index : CostIndex ℝ) (area pressure : ℝ), 0 < index.value →
      ∀ c, x.cost index area pressure = .ok c →
        0 < x.sizedArea area ∧
        (x.map of).cost ⟨index.year, of index.value⟩ (of area) (of pressure) = .ok (c.map of) ∧
        0 < c.base ∧ 0 < c.purchase := by
  intro all
  let x : HeatExchanger ℝ := { (standard : HeatExchanger ℝ) with oversize := 0 }
  obtain ⟨c, run⟩ : ∃ c, x.cost CostIndex.standard 50 500000 = .ok c :=
    x.exists_cost_iff.2 ⟨by norm_num, by norm_num⟩
  have argument : 0 < x.sizedArea 50 := (all x _ _ _ (by norm_num [CostIndex.standard]) c run).1
  rw [x.sizedArea_pos_iff (by norm_num)] at argument
  exact lt_irrefl 0 argument

end HeatExchanger

end PlantEconomics
