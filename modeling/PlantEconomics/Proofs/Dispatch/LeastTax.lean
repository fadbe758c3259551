import PlantEconomics.Proofs.Dispatch.OwnVariables
import PlantEconomics.Proofs.Dispatch.PresentValue

/-!
# The least tax

The tax of a model with cash flows is bounded from below only, by zero and by its rate of the
profit. Nothing keeps it from being higher, except that it would be a loss: the tax occurs in its
own row and in that of the net profit and nowhere else, and every goal grows with the net profit. So
a feasible assignment stays feasible with any tax that is not too low, and is at its best with the
least.

  * `goalExpression_lt`: every goal grows with the net profit;
  * `feasible_settled_iff`: what cash flows add to a model;
  * `feasible_withTax`: other taxes are feasible too;
  * `least_tax_best` puts it together.
-/

namespace PlantEconomics

/-! ## §1. Goals -/

/-- Every goal grows with the net profit. -/
theorem DispatchModel.goalExpression_lt {annuity : ℝ} (positive : 0 < annuity) (goal : CashFlowGoal)
    {v : CashFlowVars} {value value' : Var → ℝ} (building : value v.building = value' v.building)
    (profit : value v.netProfit < value' v.netProfit) :
    (goalExpression goal v annuity).2.evaluate value <
      (goalExpression goal v annuity).2.evaluate value' := by
  cases goal with
  | presentValue =>
    have grown := mul_lt_mul_of_pos_left profit positive
    simpa [goalExpression, presentValue, building] using grown
  | yearlyPresentValue => simpa [goalExpression, yearlyPresentValue, building] using profit
  | netProfit => simpa [goalExpression] using profit

/-! ## §2. Assignments with another tax -/

namespace CashFlowParams

variable {c : CashFlowParams ℝ}

/-- What is left of the inflow before the tax is paid. -/
def beforeTax (c : CashFlowParams ℝ) (v : CashFlowVars) (value : Var → ℝ) : ℝ :=
  value v.netInflow + c.otherRevenue - c.otherCosts - value v.fixed

/-- The least tax: the rate of what is left when the depreciation is taken off too, cut off at
zero. -/
noncomputable def leastTax (c : CashFlowParams ℝ) (v : CashFlowVars) (value : Var → ℝ) : ℝ :=
  max 0 (c.taxRate * (c.beforeTax v value - value v.depreciation))

/-- The assignment with another tax and the net profit that is left after it. -/
def withTax (c : CashFlowParams ℝ) (v : CashFlowVars) (tax : ℝ) (value : Var → ℝ) : Var → ℝ :=
  Function.update (Function.update value v.tax tax) v.netProfit (c.beforeTax v value - tax)

theorem withTax_of_lt {first w : Var} (h : w < first) (tax : ℝ) (value : Var → ℝ) :
    c.withTax (.startingAt first) tax value w = value w := by
  have notProfit : w ≠ first + 5 := Nat.ne_of_lt (Nat.lt_add_right 5 h)
  have notTax : w ≠ first + 4 := Nat.ne_of_lt (Nat.lt_add_right 4 h)
  exact (Function.update_of_ne notProfit _ _).trans (Function.update_of_ne notTax _ _)

/-- Of the six cash flows, the tax and the net profit change. -/
theorem read_withTax (c : CashFlowParams ℝ) (first : Var) (tax : ℝ) (value : Var → ℝ) :
    (CashFlowVars.startingAt first).read (c.withTax (.startingAt first) tax value) =
      { (CashFlowVars.startingAt first).read value with
        tax
        netProfit := c.beforeTax (.startingAt first) value - tax } := by
  simp [CashFlowVars.read, withTax, CashFlowVars.startingAt]

/-- A tax that is not too low balances as well. -/
theorem balances_withTax {fleet : Fleet ℝ} {inflow : ℝ} {first : Var} {value : Var → ℝ}
    (balances : c.Balances fleet inflow ((CashFlowVars.startingAt first).read value)) {tax : ℝ}
    (enough : c.leastTax (.startingAt first) value ≤ tax) :
    c.Balances fleet inflow
      ((CashFlowVars.startingAt first).read (c.withTax (.startingAt first) tax value)) := by
  obtain ⟨building, fixed, depreciation, netInflow, -, -⟩ := balances
  have share := (le_max_right _ _).trans enough
  rw [read_withTax]
  refine ⟨building, fixed, depreciation, netInflow, ?_, ?_⟩
  · rw [beforeTax, add_sub_assoc _ c.otherRevenue] at share
    exact share
  · show c.beforeTax (.startingAt first) value - tax = _
    rw [beforeTax, add_sub_assoc _ c.otherRevenue]
    rfl

theorem inBounds_withTax {first : Var} {value : Var → ℝ}
    (inBounds : ((CashFlowVars.startingAt first).read value).InBounds) {tax : ℝ}
    (nonneg : 0 ≤ tax) :
    ((CashFlowVars.startingAt first).read (c.withTax (.startingAt first) tax value)).InBounds := by
  rw [read_withTax]
  exact ⟨inBounds.building, inBounds.fixed, inBounds.depreciation, nonneg⟩

/-- The tax of cash flows that balance within their bounds is no less than the least. -/
theorem leastTax_le {fleet : Fleet ℝ} {inflow : ℝ} {v : CashFlowVars} {value : Var → ℝ}
    (balances : c.Balances fleet inflow (v.read value)) (inBounds : (v.read value).InBounds) :
    c.leastTax v value ≤ value v.tax := by
  refine max_le inBounds.tax ?_
  rw [beforeTax, add_sub_assoc _ c.otherRevenue]
  exact balances.tax

/-- The net profit of cash flows that balance is what is left after their tax. -/
theorem netProfit_of_balances {fleet : Fleet ℝ} {inflow : ℝ} {v : CashFlowVars} {value : Var → ℝ}
    (balances : c.Balances fleet inflow (v.read value)) :
    value v.netProfit = c.beforeTax v value - value v.tax := by
  rw [beforeTax, add_sub_assoc _ c.otherRevenue]
  exact balances.netProfit

/-- With the tax that it has, an assignment stays as it is. -/
theorem withTax_self {fleet : Fleet ℝ} {inflow : ℝ} {v : CashFlowVars} {value : Var → ℝ}
    (balances : c.Balances fleet inflow (v.read value)) :
    c.withTax v (value v.tax) value = value := by
  rw [withTax, Function.update_eq_self, ← netProfit_of_balances balances, Function.update_eq_self]

/-- With a lower tax every goal is better. -/
theorem goalExpression_withTax_lt (valid : c.validate = .ok ()) {fleet : Fleet ℝ} {inflow : ℝ}
    {first : Var} {value : Var → ℝ}
    (balances : c.Balances fleet inflow ((CashFlowVars.startingAt first).read value)) {tax : ℝ}
    (lower : tax < value (CashFlowVars.startingAt first).tax) :
    (DispatchModel.goalExpression c.goal (.startingAt first) c.annuityFactor).2.evaluate value <
      (DispatchModel.goalExpression c.goal (.startingAt first) c.annuityFactor).2.evaluate
        (c.withTax (.startingAt first) tax value) := by
  have changed := c.read_withTax first tax value
  have building := congrArg CashFlowValues.building changed
  have profit := congrArg CashFlowValues.netProfit changed
  refine DispatchModel.goalExpression_lt (annuityFactor_pos valid) c.goal building.symm ?_
  refine lt_of_lt_of_eq ?_ profit.symm
  rw [netProfit_of_balances balances]
  exact sub_lt_sub_left lower _

end CashFlowParams

/-! ## §3. Models with cash flows -/

namespace DispatchModel

/-- A model that speaks of its own variables does not see the others. -/
theorem Closed.feasible_congr {m : DispatchModel ℝ} (closed : m.Closed) {value value' : Var → ℝ}
    (same : ∀ v < m.program.size, value v = value' v) (feasible : m.program.Feasible value) :
    m.program.Feasible value' where
  satisfied c hc := by
    have body : c.relation.body.evaluate value = c.relation.body.evaluate value' :=
      Affine.evaluate_congr fun t ht => same t.1 (closed.constraints c hc t ht)
    have holds := feasible.satisfied c hc
    unfold Constraint.holds Relation.holds at holds ⊢
    rwa [← body]
  bounded v spec known := by
    rw [← same v (Array.getElem?_eq_some_iff.1 known).1]
    exact feasible.bounded v spec known

/-- The variables of a model with cash flows are within bounds when those of the model before are
and the cash flows are within theirs. -/
theorem bounded_settled_iff (m : DispatchModel ℝ) (c : CashFlowParams ℝ) (value : Var → ℝ) :
    (∀ (v : Var) (spec : VariableSpec ℝ), (m.settled c).program.spec? v = some spec →
      spec.bounds.contains (value v) = true) ↔
      (∀ (v : Var) (spec : VariableSpec ℝ), m.program.spec? v = some spec →
        spec.bounds.contains (value v) = true) ∧ (m.cashFlowStart.read value).InBounds := by
  have before (v : Var) : m.program.spec? v = m.program.specs.toList[v]? := by
    rw [Program.spec?, Array.getElem?_toList]
  have behind (v : Var) :
      (m.settled c).program.spec? v = (m.program.specs.toList ++ CashFlowVars.specs)[v]? := by
    show (m.program.specs ++ CashFlowVars.specs.toArray)[v]? = _
    rw [← Array.getElem?_toList, Array.toList_append]
  simp only [before, behind]
  rw [forall_getElem?_append_iff, Array.length_toList, CashFlowVars.specs_contain_iff]
  rfl

/-- Cash flows add six relations and six variables to a model. -/
theorem feasible_settled_iff (m : DispatchModel ℝ) (c : CashFlowParams ℝ) (value : Var → ℝ) :
    (m.settled c).program.Feasible value ↔
      m.program.Feasible value ∧
        (∀ r ∈ m.cashFlowRelations c m.cashFlowStart, r.holds value 0 = true) ∧
        (m.cashFlowStart.read value).InBounds := by
  have satisfied : (∀ x ∈ (m.settled c).program.constraints, x.holds value 0 = true) ↔
      (∀ x ∈ m.program.constraints, x.holds value 0 = true) ∧
        ∀ r ∈ m.cashFlowRelations c m.cashFlowStart, r.holds value 0 = true := by
    refine (Stage.satisfied_applied_iff (s := .cashFlow c)).trans (and_congr_right fun _ => ?_)
    -- each family has its one relation
    simp [Stage.families, cashFlowFamilies, cashFlowRelations, CashFlowVars.families]
  constructor
  · intro h
    obtain ⟨before, relations⟩ := satisfied.1 h.satisfied
    obtain ⟨bounded, flows⟩ := (bounded_settled_iff m c value).1 h.bounded
    exact ⟨⟨before, bounded⟩, relations, flows⟩
  · intro h
    obtain ⟨⟨before, bounded⟩, relations, flows⟩ := h
    exact ⟨satisfied.2 ⟨before, relations⟩, (bounded_settled_iff m c value).2 ⟨bounded, flows⟩⟩

section Runs

variable {prices : PriceSet ℝ} {fleet : Fleet ℝ} {weighted : Bool} {keys : List (PeriodKey × ℝ)}
  {m₁ : DispatchModel ℝ} {stages : List (Stage ℝ)} {value value' : Var → ℝ}

/-- Behind a run the cash flows have to balance within their bounds, with the inflow of the periods.
-/
theorem feasible_behind_iff (run : Stage.run (built prices fleet weighted keys) stages = .ok m₁)
    (plain : ∀ t ∈ stages, t.kind ≠ .cashFlow) (c : CashFlowParams ℝ) :
    (m₁.settled c).program.Feasible value ↔
      m₁.program.Feasible value ∧
        c.Balances fleet (((built prices fleet weighted keys).netInflow c).evaluate value)
          ((CashFlowVars.behind fleet.operating.length keys.length).read value) ∧
        ((CashFlowVars.behind fleet.operating.length keys.length).read value).InBounds := by
  rw [feasible_settled_iff, Stage.cashFlowRelations_of_run run,
    Stage.cashFlowStart_of_run plain run, cashFlowRelations_hold_iff]

/-- Neither the earlier constraints nor the inflow ask for the tax, so any tax that is not too low
is feasible. -/
theorem feasible_withTax (run : Stage.run (built prices fleet weighted keys) stages = .ok m₁)
    (plain : ∀ t ∈ stages, t.kind ≠ .cashFlow) {c : CashFlowParams ℝ}
    (feasible : (m₁.settled c).program.Feasible value) {tax : ℝ}
    (enough : c.leastTax (.behind fleet.operating.length keys.length) value ≤ tax) :
    (m₁.settled c).program.Feasible
      (c.withTax (.behind fleet.operating.length keys.length) tax value) := by
  have built_size := size_built prices fleet weighted keys
  have size : m₁.program.size = blockStart fleet.operating.length keys.length 0 := by
    rw [Program.size, (Stage.sameButConstraints_of_run plain run).specs]
    exact built_size
  have closed := Stage.closed_of_run plain run closed_built
  -- the tax and the net profit are behind all variables that the earlier constraints speak of
  have same : ∀ w < blockStart fleet.operating.length keys.length 0,
      value w = c.withTax (.behind fleet.operating.length keys.length) tax value w :=
    fun w hw => (CashFlowParams.withTax_of_lt hw tax value).symm
  have inflow : ((built prices fleet weighted keys).netInflow c).evaluate value =
      ((built prices fleet weighted keys).netInflow c).evaluate
        (c.withTax (.behind fleet.operating.length keys.length) tax value) := by
    refine Affine.evaluate_congr fun t ht => same t.1 ?_
    rw [← built_size]
    exact over_netInflow flowsOver_built c t ht
  rw [feasible_behind_iff run plain] at feasible ⊢
  obtain ⟨before, balances, inBounds⟩ := feasible
  refine ⟨closed.feasible_congr (by rwa [size]) before, ?_, ?_⟩
  · rw [← inflow]
    exact CashFlowParams.balances_withTax balances enough
  · exact CashFlowParams.inBounds_withTax inBounds ((le_max_left _ _).trans enough)

end Runs

/-! ## §4. The least tax -/

/-- **The least tax is the best.** Take a built model behind any stages and add cash flows, with any
goal. The objective is to be made as large as possible. From every feasible assignment, giving the
tax its least value and the net profit what is left after it leads to a feasible assignment whose
objective is no smaller, and larger if the tax was not the least. So at an optimum it is. -/
theorem least_tax_best {prices : PriceSet ℝ} {fleet : Fleet ℝ} {weighted : Bool}
    {m m₁ m' : DispatchModel ℝ} {stages : List (Stage ℝ)} {c : CashFlowParams ℝ}
    (made : build prices fleet weighted = .ok m) (run : Stage.run m stages = .ok m₁)
    (settled : m₁.withCashFlows c = .ok m') :
    ∃ v o, m'.cashFlowVars? = some v ∧ m'.program.objective = some o ∧ o.goal = .maximize ∧
      ∀ value : Var → ℝ, m'.program.Feasible value →
        let beforeTax := value v.netInflow + c.otherRevenue - c.otherCosts - value v.fixed
        let tax := max 0 (c.taxRate * (beforeTax - value v.depreciation))
        let lowered := Function.update (Function.update value v.tax tax) v.netProfit
          (beforeTax - tax)
        m'.program.Feasible lowered ∧
          o.expression.evaluate value ≤ o.expression.evaluate lowered ∧
          (value v.tax ≠ tax → o.expression.evaluate value < o.expression.evaluate lowered) ∧
          ((∀ other, m'.program.Feasible other →
            o.expression.evaluate other ≤ o.expression.evaluate value) → value v.tax = tax) := by
  obtain ⟨-, -, keys, -, rfl⟩ := build_eq_ok_iff.1 made
  obtain ⟨fits, rfl⟩ := (Stage.apply_eq_ok_iff (s := .cashFlow c)).1 settled
  have plain := Stage.kind_ne_of_fits run fits
  have start := Stage.cashFlowStart_of_run plain run
  set v := CashFlowVars.behind fleet.operating.length keys.length with hv
  have objective : (m₁.settled c).program.objective =
      some ⟨(goalExpression c.goal v c.annuityFactor).1,
        (goalExpression c.goal v c.annuityFactor).2, .maximize⟩ := by
    rw [← start]
    rfl
  refine ⟨v, _, Stage.cashFlowVars?_of_run plain run c, objective, rfl, ?_⟩
  intro value feasible beforeTax tax lowered
  have lower : (m₁.settled c).program.Feasible lowered :=
    feasible_withTax run plain feasible (le_refl tax)
  obtain ⟨-, balances, inBounds⟩ := (feasible_behind_iff run plain c).1 feasible
  have least : tax ≤ value v.tax := CashFlowParams.leastTax_le balances inBounds
  -- a tax that is not the least is higher, and lowering it raises the net profit
  have better : value v.tax ≠ tax → (goalExpression c.goal v c.annuityFactor).2.evaluate value <
      (goalExpression c.goal v c.annuityFactor).2.evaluate lowered := by
    intro higher
    exact CashFlowParams.goalExpression_withTax_lt fits.valid balances
      (lt_of_le_of_ne least higher.symm)
  refine ⟨lower, ?_, better, ?_⟩
  · by_cases same : value v.tax = tax
    · have unchanged : lowered = value := by
        have kept := CashFlowParams.withTax_self balances
        rw [same] at kept
        exact kept
      rw [unchanged]
    · exact (better same).le
  · intro best
    by_contra higher
    exact absurd (best lowered lower) (not_le.2 (better higher))

/-- The inflow, the fixed cost and the depreciation stay, and with them the least tax. -/
theorem leastTax_withTax (c : CashFlowParams ℝ) (first : Var) (tax : ℝ) (value : Var → ℝ) :
    c.leastTax (.startingAt first) (c.withTax (.startingAt first) tax value) =
      c.leastTax (.startingAt first) value := by
  simp [CashFlowParams.leastTax, CashFlowParams.beforeTax, CashFlowParams.withTax,
    CashFlowVars.startingAt]

/-- Behind a run with a feasible assignment there is one whose tax is one too high. -/
theorem exists_high_tax {prices : PriceSet ℝ} {fleet : Fleet ℝ} {weighted : Bool}
    {keys : List (PeriodKey × ℝ)} {m₁ : DispatchModel ℝ} {stages : List (Stage ℝ)}
    (run : Stage.run (built prices fleet weighted keys) stages = .ok m₁)
    (plain : ∀ t ∈ stages, t.kind ≠ .cashFlow) {c : CashFlowParams ℝ} {value : Var → ℝ}
    (feasible : (m₁.settled c).program.Feasible value) :
    ∃ v high, (m₁.settled c).cashFlowVars? = some v ∧ (m₁.settled c).program.Feasible high ∧
      high v.tax = c.leastTax v high + 1 := by
  refine ⟨_, _, Stage.cashFlowVars?_of_run plain run c,
    feasible_withTax run plain feasible (le_of_lt (lt_add_one _)), ?_⟩
  have changed := c.read_withTax (blockStart fleet.operating.length keys.length 0)
  rw [CashFlowVars.behind, leastTax_withTax]
  exact congrArg CashFlowValues.tax (changed _ value)

/-- A standard unit that is off for two hours, behind ramping and up and down times: a tax that is
one too high is feasible, and there is something better. -/
theorem least_tax_best_two_hours :
    ∃ m m₁ m' v o high, build (PriceSet.ofColumns none 2 [(none, [30, 50])])
        (Fleet.empty.withUnit (.standard : ThermalGenerator ℝ)) true = .ok m ∧
      Stage.run m [.ramping .standard, .times .standard] = .ok m₁ ∧
      m₁.withCashFlows .standard = .ok m' ∧ m'.cashFlowVars? = some v ∧
      m'.program.objective = some o ∧ m'.program.Feasible high ∧
      high v.tax = CashFlowParams.standard.leastTax v high + 1 ∧
      ∃ lowered, m'.program.Feasible lowered ∧
        o.expression.evaluate high < o.expression.evaluate lowered := by
  let fleet : Fleet ℝ := Fleet.empty.withUnit .standard
  let prices : PriceSet ℝ := PriceSet.ofColumns none 2 [(none, [30, 50])]
  let keys : List (PeriodKey × ℝ) := PriceSet.hourly none [30, 50]
  let m := built prices fleet true keys
  let m₁ := Stage.applied (Stage.applied m (.ramping .standard)) (.times .standard)
  have made : build prices fleet true = .ok m :=
    build_hourly (List.cons_ne_nil (30 : ℝ) [50]) Stages.validate_one_standard true
  have run : Stage.run m [.ramping .standard, .times .standard] = .ok m₁ := by
    refine Stage.run_cons_eq_ok_iff.2 ⟨Stage.fits_built RampingLimits.validate_standard, ?_⟩
    refine Stage.run_cons_eq_ok_iff.2 ⟨(Stage.fits_applied_iff (by simp [Stage.kind])).2 ?_, rfl⟩
    exact Stage.fits_built UpDownTimes.validate_standard
  have plain : ∀ t ∈ [(.ramping .standard : Stage ℝ), .times .standard], t.kind ≠ .cashFlow := by
    simp [Stage.kind]
  have settled : m₁.withCashFlows .standard = .ok (m₁.settled .standard) := by
    refine (Stage.apply_eq_ok_iff (s := .cashFlow .standard)).2 ⟨?_, rfl⟩
    exact Stage.fits_of_run plain run (Stage.fits_built CashFlowParams.validate_standard)
  -- a unit that is off has a feasible plan once its cash flows are settled
  have off : ∀ t < keys.length, ∀ (u : Nat) (g : ThermalGenerator ℝ),
      fleet.operating[u]? = some g → g.InBounds ⟨0, 0, 0⟩ := by
    intro _ _ u g hg
    obtain rfl := List.mem_singleton.1 (List.mem_of_getElem? hg)
    refine ⟨by simp, by simp, le_refl 0, ?_⟩
    simp only [ThermalGenerator.standard]
    norm_num
  have feasible : (m₁.settled .standard).program.Feasible _ :=
    @Stages.feasible_settledAssignment .standard prices fleet .presentValue keys
      Stages.validate_one_standard _ (Stages.dispatches_off _ _ _) off
  obtain ⟨v, high, vars, allowed, above⟩ := exists_high_tax run plain feasible
  obtain ⟨v', o, vars', objective, -, best⟩ := least_tax_best made run settled
  obtain rfl := Option.some.inj (vars.symm.trans vars')
  obtain ⟨lower, -, better, -⟩ := best high allowed
  refine ⟨m, m₁, _, v, o, high, made, run, settled, vars, objective, allowed, above, _, lower,
    better ?_⟩
  rw [above]
  exact (lt_add_one _).ne'

end DispatchModel

end PlantEconomics
