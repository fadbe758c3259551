import PlantEconomics.Proofs.Dispatch.StageOrder

/-!
# What a yearly amount is worth today

The annuity factor is the worth of a unit per year over the lifetime: the sum of a unit discounted
by one year, by two years and so on. It is positive at every discount rate above minus one, also
where later units are worth more than earlier ones.

So the net present value is a positive multiple of its yearly amount, under every assignment, and
of any assignments the same ones are the best for both.

  * `CashFlowParams.annuityFactor_eq`: the factor as a sum over the years;
  * `CashFlowParams.annuityFactor_pos`: its sign;
  * `DispatchModel.annuity_links_present_values`: the two values of a model with cash flows.
-/

namespace PlantEconomics

/-! ## §1. The annuity factor -/

/-- Interest on the worth of a unit in each of some years is what discounting takes off a unit that
is due in the last of them. -/
theorem mul_sum_discounted {rate : ℝ} (positive : 0 < 1 + rate) (years : ℕ) :
    rate * ∑ i ∈ Finset.Icc 1 years, (1 + rate) ^ (-(i : ℤ)) = 1 - (1 + rate) ^ (-(years : ℤ)) := by
  induction years with
  | zero => simp
  | succ years ih =>
    -- a unit that is due a year earlier is discounted once less
    have earlier : (1 + rate) ^ (-(years : ℤ)) =
        (1 + rate) ^ (-((years + 1 : ℕ) : ℤ)) * (1 + rate) := by
      rw [← zpow_add_one₀ positive.ne']
      congr 1
      push_cast
      ring
    rw [Finset.sum_Icc_succ_top (by omega), mul_add, ih, earlier]
    ring

namespace CashFlowParams

variable {c : CashFlowParams ℝ}

/-- The factor is the number of years next to no discount, and the sum of the discounted units
otherwise. -/
theorem annuityFactor_eq (above : -1 < c.discountRate) :
    c.annuityFactor =
      if |c.discountRate| < 1e-12 then (c.lifetime : ℝ)
      else ∑ i ∈ Finset.Icc 1 c.lifetime, (1 + c.discountRate) ^ (-(i : ℤ)) := by
  have positive : 0 < 1 + c.discountRate := by linarith
  rw [← Scalar.abs_eq]
  show (if Scalar.abs c.discountRate < 1e-12 then (c.lifetime : ℝ)
    else (1 - (1 + c.discountRate) ^ (-(c.lifetime : ℝ))) / c.discountRate) = _
  split
  · rfl
  · next large =>
    have discounted : c.discountRate ≠ 0 := by
      rintro zero
      rw [Scalar.abs_eq, zero, abs_zero] at large
      exact large (by norm_num)
    have last : (1 + c.discountRate) ^ (-(c.lifetime : ℝ)) =
        (1 + c.discountRate) ^ (-(c.lifetime : ℤ)) := by
      rw [← Real.rpow_intCast]
      push_cast
      rfl
    rw [last, ← mul_sum_discounted positive, mul_div_cancel_left₀ _ discounted]

/-- Over at least one year and at a discount rate above minus one, a unit per year is worth
something today. -/
theorem annuityFactor_pos (valid : c.validate = .ok ()) : 0 < c.annuityFactor := by
  obtain ⟨lifetime, above, -, -⟩ := validate_eq_ok_iff.1 valid
  have some_year : 1 ≤ c.lifetime := Nat.one_le_iff_ne_zero.2 lifetime
  rw [annuityFactor_eq above]
  split
  · exact Nat.cast_pos.2 some_year
  · refine Finset.sum_pos (fun i _ => zpow_pos ?_ _) (Finset.nonempty_Icc.2 some_year)
    linarith

end CashFlowParams

/-! ## §2. Present values -/

/-- A positive multiple is largest where what is multiplied is. -/
theorem isMaxOn_iff_of_eq_mul {ι : Type} {f g : ι → ℝ} {k : ℝ} (positive : 0 < k)
    (multiple : ∀ i, f i = k * g i) (S : Set ι) (i : ι) : IsMaxOn f S i ↔ IsMaxOn g S i := by
  simp only [isMaxOn_iff, multiple, mul_le_mul_iff_right₀ positive]

namespace DispatchModel

/-- The present value is the yearly amount times the factor. -/
theorem evaluate_presentValue {annuity : ℝ} (worth : annuity ≠ 0) (v : CashFlowVars)
    (value : Var → ℝ) :
    (presentValue v annuity).evaluate value =
      annuity * (yearlyPresentValue v annuity).evaluate value := by
  simp only [presentValue, yearlyPresentValue, Affine.evaluate_sub, Affine.evaluate_term,
    Affine.evaluate_var]
  field_simp

/-- The two expressions of a model with cash flows. -/
theorem expressions_settled {m : DispatchModel ℝ} (c : CashFlowParams ℝ)
    (npv : m.program.expression? "NPV" = none)
    (yearly : m.program.expression? "Annualized_NPV" = none) :
    (m.settled c).program.expression? "NPV" =
        some (presentValue m.cashFlowStart c.annuityFactor) ∧
      (m.settled c).program.expression? "Annualized_NPV" =
        some (yearlyPresentValue m.cashFlowStart c.annuityFactor) := by
  unfold Program.expression? at npv yearly ⊢
  show (m.program.expressions ++ _).lookup "NPV" = _ ∧
    (m.program.expressions ++ _).lookup "Annualized_NPV" = _
  rw [List.lookup_append, List.lookup_append, npv, yearly]
  exact ⟨rfl, rfl⟩

/-- **The net present value and its yearly amount have the same best assignments.** The annuity
factor is the sum of the discounted units, or the number of years next to no discount, and positive.
In every model with cash flows the net present value is the factor times the yearly amount, under
every assignment; so the same assignments of any set make them as large as possible. That is what
the objectives of a model ask for, with the one goal or with the other: each is the expression that
is named after its goal. -/
theorem annuity_links_present_values {c : CashFlowParams ℝ} (valid : c.validate = .ok ()) :
    (c.annuityFactor = if |c.discountRate| < 1e-12 then (c.lifetime : ℝ)
      else ∑ i ∈ Finset.Icc 1 c.lifetime, (1 + c.discountRate) ^ (-(i : ℤ))) ∧
    0 < c.annuityFactor ∧
    (∀ m m' : DispatchModel ℝ, m.withCashFlows c = .ok m' →
      ∃ npv yearly, m'.program.expression? "NPV" = some npv ∧
        m'.program.expression? "Annualized_NPV" = some yearly ∧
        (∀ value, npv.evaluate value = c.annuityFactor * yearly.evaluate value) ∧
        ∀ (S : Set (Var → ℝ)) (value : Var → ℝ),
          IsMaxOn npv.evaluate S value ↔ IsMaxOn yearly.evaluate S value) ∧
    ∀ m m₁ m₂ : DispatchModel ℝ,
      m.withCashFlows { c with goal := .presentValue } = .ok m₁ →
      m.withCashFlows { c with goal := .yearlyPresentValue } = .ok m₂ →
      ∃ o₁ o₂, m₁.program.objective = some o₁ ∧ m₂.program.objective = some o₂ ∧
        o₁.goal = .maximize ∧ o₂.goal = .maximize ∧
        m₁.program.expression? "NPV" = some o₁.expression ∧
        m₂.program.expression? "Annualized_NPV" = some o₂.expression ∧
        ∀ (S : Set (Var → ℝ)) (value : Var → ℝ),
          IsMaxOn o₁.expression.evaluate S value ↔ IsMaxOn o₂.expression.evaluate S value := by
  obtain ⟨-, above, -, -⟩ := CashFlowParams.validate_eq_ok_iff.1 valid
  have positive := CashFlowParams.annuityFactor_pos valid
  have multiple (v : CashFlowVars) := evaluate_presentValue positive.ne' v
  have best (v : CashFlowVars) := isMaxOn_iff_of_eq_mul positive (multiple v)
  refine ⟨CashFlowParams.annuityFactor_eq above, positive, ?_, ?_⟩
  · intro m m' settled
    obtain ⟨-, -, npv, yearly, -, rfl⟩ := withCashFlows_eq_ok_iff.1 settled
    obtain ⟨npv, yearly⟩ := expressions_settled c npv yearly
    exact ⟨_, _, npv, yearly, multiple _, best _⟩
  · intro m m₁ m₂ first second
    obtain ⟨-, -, npv, yearly, -, rfl⟩ := withCashFlows_eq_ok_iff.1 first
    obtain ⟨-, -, -, -, -, rfl⟩ := withCashFlows_eq_ok_iff.1 second
    exact ⟨_, _, rfl, rfl, rfl, rfl, (expressions_settled _ npv yearly).1,
      (expressions_settled _ npv yearly).2, best _⟩

/-- Two years at a discount rate of minus one half. -/
noncomputable def growing : CashFlowParams ℝ :=
  { CashFlowParams.standard with lifetime := 2, discountRate := -1 / 2 }

/-- A unit that is due in a year is worth two today, and one that is due in two years four; so the
present value of a model of two hours is six times its yearly amount. -/
theorem annuity_links_present_values_growing :
    growing.annuityFactor = 6 ∧
      ∃ m m' npv yearly, build (PriceSet.ofColumns none 2 [(none, [30, 50])])
          (Fleet.empty.withUnit (.standard : ThermalGenerator ℝ)) false = .ok m ∧
        m.withCashFlows growing = .ok m' ∧ m'.program.expression? "NPV" = some npv ∧
        m'.program.expression? "Annualized_NPV" = some yearly ∧
        ∀ value, npv.evaluate value = 6 * yearly.evaluate value := by
  have valid : growing.validate = .ok () := by
    rw [CashFlowParams.validate_eq_ok_iff]
    simp [growing, CashFlowParams.standard]
    norm_num
  obtain ⟨factor, -, linked, -⟩ := annuity_links_present_values valid
  have six : growing.annuityFactor = 6 := by
    rw [factor]
    norm_num [growing, Finset.sum_Icc_succ_top, abs_div, zpow_neg]
  let prices : PriceSet ℝ := PriceSet.ofColumns none 2 [(none, [30, 50])]
  let m := built prices (Fleet.empty.withUnit .standard) false (PriceSet.hourly none [30, 50])
  have made : build prices (Fleet.empty.withUnit .standard) false = .ok m :=
    build_hourly (List.cons_ne_nil (30 : ℝ) [50]) Stages.validate_one_standard false
  have settled : m.withCashFlows growing = .ok (m.settled growing) :=
    (Stage.apply_eq_ok_iff (s := .cashFlow growing)).2 ⟨Stage.fits_built valid, rfl⟩
  obtain ⟨npv, yearly, npvFound, yearlyFound, multiple, -⟩ := linked _ _ settled
  refine ⟨six, m, _, npv, yearly, made, settled, npvFound, yearlyFound, fun value => ?_⟩
  rw [multiple, six]

end DispatchModel

end PlantEconomics
