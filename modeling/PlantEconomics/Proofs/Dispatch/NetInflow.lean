import PlantEconomics.Proofs.Dispatch.OwnVariables

/-!
# The row of the net inflow

The net inflow of a model is put together from four expressions of every unit in every period:
revenue, running cost, fuel cost and carbon cost. What comes out has one coefficient for the power
of a unit, the price less the marginal cost, and one for its start. Both are taken as often as the
period counts. Whether a unit is on does not enter, so there is no term with such a variable, not
even one whose coefficient has become zero.

  * `ThermalGenerator.inflow_eq`: one unit in one period;
  * `inflowOf_eq_sum_periods`: all of them, read off the periods of the model;
  * `net_inflow_row`: the constraint.
-/

namespace PlantEconomics

/-- How often a period counts: as often as the weight of its day says where periods are counted by
occurrence and the model is weighted, and once where they are not or the day has no weight. -/
def PriceSet.timesCounted {α : Type} [NatCast α] [One α] (prices : PriceSet α) (weighted : Bool)
    (weighting : Weighting) (k : PeriodKey) : α :=
  match weighting, weighted, k.dayKey?.bind prices.weight? with
  | .occurrence, true, some w => w
  | _, _, _ => 1

section Sums

open DispatchModel

variable {α : Type} [Field α] [LinearOrder α]

/-! ## §1. Units and periods -/

/-- A unit brings in the price less its marginal cost for its power, and pays for its start. -/
theorem ThermalGenerator.inflow_eq (g : ThermalGenerator α) (price : α) (x : Signals α) :
    g.inflow price x = (price - g.marginalCost) * x.power - g.startCost * x.starting := by
  unfold inflow marginalCost
  ring

theorem DispatchModel.weightOfKey_eq_timesCounted (prices : PriceSet α) (weighted : Bool)
    (c : CashFlowParams α) (k : PeriodKey) :
    weightOfKey prices weighted c k = prices.timesCounted weighted c.weighting k := by
  unfold weightOfKey weightOf PriceSet.periodWeight PriceSet.timesCounted
  cases c.weighting with
  | once => rfl
  | occurrence =>
    cases weighted with
    | false => rfl
    | true => cases k.dayKey?.bind prices.weight? <;> simp

/-- The inflow of all units over all keys, read off the periods of the built model. -/
theorem DispatchModel.inflowOf_eq_sum_periods (prices : PriceSet α) (fleet : Fleet α)
    (weighted : Bool) (keys : List (PeriodKey × α)) (c : CashFlowParams α) (plan : Plan α) :
    inflowOf fleet.operating keys (weightOfKey prices weighted c) plan =
      ((built prices fleet weighted keys).periods.mapIdx fun t p =>
        prices.timesCounted weighted c.weighting p.key * (fleet.operating.mapIdx fun u g =>
          (p.price - g.marginalCost) * (plan t u).power -
            g.startCost * (plan t u).starting).sum).sum := by
  unfold inflowOf
  congr 1
  refine List.ext_getElem? fun t => ?_
  rw [List.getElem?_mapIdx, List.getElem?_mapIdx, built_periods_getElem?, Option.map_map]
  congr 1
  funext k
  simp only [Function.comp_apply, weightOfKey_eq_timesCounted, ThermalGenerator.inflow_eq]

end Sums

/-! ## §2. Variables that are on or off -/

namespace DispatchModel

section Online

variable {α : Type} [Scalar α] {prices : PriceSet α} {fleet : Fleet α} {weighted : Bool}
  {keys : List (PeriodKey × α)}

/-- Every third variable says whether a unit is on, and the others do not. -/
theorem blockStart_add_ne {i : Nat} (other : i = 1 ∨ i = 2) (n t u t' u' : Nat) :
    blockStart n t u + i ≠ blockStart n t' u' := by
  show (3 * (t * n + u) + i : Nat) ≠ 3 * (t' * n + u')
  omega

/-- The cash flows of a period do not ask whether a unit is on. -/
theorem flowsOver_built_of_ne : ∀ p ∈ (built prices fleet weighted keys).periods,
    p.FlowsOver fun v => ∀ t u, v ≠ blockStart fleet.operating.length t u := by
  refine forall_operations_built fun t _ k u g _ => ?_
  exact g.flowsOver_operation k.2 (fun t' u' => blockStart_add_ne (.inl rfl) _ t u t' u')
    fun t' u' => blockStart_add_ne (.inr rfl) _ t u t' u'

/-- Nor does the row of the net inflow, whose own variable is none of a unit. -/
theorem over_inflowRow (c : CashFlowParams α) :
    (Relation.equals (Affine.var (CashFlowVars.behind fleet.operating.length keys.length).netInflow)
      ((built prices fleet weighted keys).netInflow c)).body.Over fun v =>
        ∀ t < keys.length, ∀ u < fleet.operating.length,
          v ≠ blockStart fleet.operating.length t u := by
  refine Relation.over_between (Affine.over_var.2 fun t ht u hu => ?_) ?_ .eq
  · have inside := blockStart_add_lt ht hu (show 0 < OperationBlock.width by decide)
    exact Nat.ne_of_gt (Nat.lt_of_lt_of_le inside (Nat.le_add_right _ 3))
  · refine over_netInflow (fun p hp => (flowsOver_built_of_ne p hp).mono fun v h => ?_) c
    exact fun t _ u _ => h t u

end Online

/-! ## §3. The row -/

/-- The family of the net inflow is one of the six, with one relation. -/
theorem filter_cashFlowFamilies {α : Type} [Analytic α] (m : DispatchModel α)
    (c : CashFlowParams α) :
    (m.cashFlowFamilies c).filter (·.1 == "net_cash_inflow_calculation") =
      [("net_cash_inflow_calculation",
        [(.scalar, .equals (Affine.var m.cashFlowStart.netInflow) (m.netInflow c))])] :=
  filter_cashFlowFamilies_of_mem (f := (_, .equals (Affine.var m.cashFlowStart.netInflow) _))
    (by simp [cashFlowRelations, CashFlowVars.families])

/-- **The row of the net inflow.** Take a built model behind any stages and add cash flows. The
family of the net inflow has one member. It holds exactly when the net inflow is the sum over all
periods, each as often as it counts, of what its units bring in: the price less the marginal cost
for their power, less the cost of their starts. Prices and keys of the periods are those of the
price set, and powers and starts are the third and second variable of the unit's block. No variable
of whether a unit is on has a term in the row. -/
theorem net_inflow_row {prices : PriceSet ℝ} {fleet : Fleet ℝ} {weighted : Bool}
    {m m₁ m' : DispatchModel ℝ} {stages : List (Stage ℝ)} {c : CashFlowParams ℝ}
    (made : build prices fleet weighted = .ok m) (run : Stage.run m stages = .ok m₁)
    (settled : m₁.withCashFlows c = .ok m') :
    let n := fleet.operating.length
    (m'.periods.map (·.key) = prices.sets.periods ∧
      ∀ p ∈ m'.periods, prices.price? p.key = some p.price) ∧
    (∀ t u p g, m'.periods[t]? = some p → fleet.operating[u]? = some g →
      ∀ i < OperationBlock.width, m'.program.spec? (blockStart n t u + i) =
        (g.blockVariables p.key)[i]?) ∧
    ∃ v row, m'.cashFlowVars? = some v ∧
      m'.program.familyMembers "net_cash_inflow_calculation" =
        [⟨"net_cash_inflow_calculation", .scalar, row⟩] ∧
      (∀ value : Var → ℝ, row.holds value 0 = true ↔
        value v.netInflow = (m'.periods.mapIdx fun t p =>
          prices.timesCounted weighted c.weighting p.key * (fleet.operating.mapIdx fun u g =>
            (p.price - g.marginalCost) * value (blockStart n t u + 2) -
              g.startCost * value (blockStart n t u + 1)).sum).sum) ∧
      ∀ t < m'.size, ∀ u < n, ∀ x ∈ row.body.terms, x.1 ≠ blockStart n t u := by
  intro n
  have whole := Stage.run_concat (s := .cashFlow c) run settled
  have block (t u : Nat) (p : Period ℝ) (g : ThermalGenerator ℝ) (hp : m'.periods[t]? = some p)
      (hg : fleet.operating[u]? = some g) (i : Nat) (hi : i < OperationBlock.width) :=
    Stage.spec?_of_run made whole hp hg hi
  have periods := Stage.periods_of_run whole
  obtain ⟨-, -, keys, priced, rfl⟩ := build_eq_ok_iff.1 made
  obtain ⟨fits, rfl⟩ := (Stage.apply_eq_ok_iff (s := .cashFlow c)).1 settled
  obtain ⟨listed, found⟩ := priced_eq_ok_iff.1 priced
  have plain := Stage.kind_ne_of_fits run fits
  have own : "net_cash_inflow_calculation" ∈ CashFlowVars.families := by decide
  refine ⟨⟨?_, ?_⟩, block, .behind n keys.length,
    .equals (Affine.var (CashFlowVars.behind n keys.length).netInflow)
      ((built prices fleet weighted keys).netInflow c),
    Stage.cashFlowVars?_of_run plain run c, ?_, fun value => ?_, ?_⟩
  · rw [periods, built_periods_map_key, listed]
  · intro p hp
    rw [periods] at hp
    obtain ⟨t, ht⟩ := List.mem_iff_getElem?.1 hp
    rw [built_periods_getElem?] at ht
    obtain ⟨k, hk, rfl⟩ := Option.map_eq_some_iff.1 ht
    exact found k (List.mem_of_getElem? hk)
  · rw [Stage.familyMembers_last run fits own]
    show List.flatMap _ (((built prices fleet weighted keys).cashFlowFamilies c).filter _) = _
    rw [filter_cashFlowFamilies, cashFlowStart, size_built]
    rfl
  · rw [Relation.equals_holds_iff, Affine.evaluate_var, evaluate_netInflow_built,
      inflowOf_eq_sum_periods, periods]
    rfl
  · intro t ht u hu x hx
    rw [size, periods, length_built_periods] at ht
    exact over_inflowRow c x hx t ht u hu

/-- A price for an hour each of two days. -/
def twoDayPrices (first second : ℝ) : List (PeriodKey × ℝ) :=
  [(⟨none, some 1, 1⟩, first), (⟨none, some 2, 1⟩, second)]

/-- Two days of which the first stands for three days and the second has no weight. -/
noncomputable def twoDays (first second : ℝ) : PriceSet ℝ :=
  { sets := ⟨[1], some [1, 2], none⟩
    prices := PriceSet.insertAll ∅ (twoDayPrices first second)
    weights := PriceSet.insertAll ∅ [(⟨none, 1⟩, 3)] }

theorem priced_twoDays (a b : ℝ) :
    priced (twoDays a b) (twoDays a b).sets.periods = .ok (twoDayPrices a b) := by
  refine priced_eq_ok_iff.2 ⟨rfl, fun k hk => ?_⟩
  show (PriceSet.insertAll (∅ : Std.TreeMap PeriodKey ℝ) _)[k.1]? = some k.2
  exact (getElem?_insertAll_iff (by simp [twoDayPrices])).2 hk

theorem timesCounted_twoDays (a b : ℝ) :
    (twoDays a b).timesCounted true .occurrence ⟨none, some 1, 1⟩ = (3 : ℝ) ∧
      (twoDays a b).timesCounted true .occurrence ⟨none, some 2, 1⟩ = (1 : ℝ) := by
  have weight (d : DayKey) (w : Nat) :
      (twoDays a b).weight? d = some w ↔ (d, w) ∈ [(⟨none, 1⟩, 3)] := by
    show (PriceSet.insertAll (∅ : Std.TreeMap DayKey Nat) _)[d]? = some w ↔ _
    exact getElem?_insertAll_iff (by decide)
  have first : (twoDays a b).weight? ⟨none, 1⟩ = some 3 := (weight _ _).2 (by simp)
  have second : (twoDays a b).weight? ⟨none, 2⟩ = none := by
    rw [Option.eq_none_iff_forall_ne_some]
    intro w
    rw [ne_eq, weight]
    simp
  simp [PriceSet.timesCounted, PeriodKey.dayKey?, first, second]

/-- A unit whose start costs a hundred, two days counted by occurrence: what the first day brings in
counts three times. -/
theorem net_inflow_row_two_days :
    let g : ThermalGenerator ℝ := { ThermalGenerator.standard with startCost := 100 }
    let c : CashFlowParams ℝ := { CashFlowParams.standard with weighting := .occurrence }
    ∃ m m' v row, build (twoDays 30 50) (Fleet.empty.withUnit g) true = .ok m ∧
      m.withCashFlows c = .ok m' ∧ m'.cashFlowVars? = some v ∧
      m'.program.familyMembers "net_cash_inflow_calculation" =
        [⟨"net_cash_inflow_calculation", .scalar, row⟩] ∧
      ∀ value : Var → ℝ, row.holds value 0 = true ↔
        value v.netInflow = 3 * ((30 - 29.3) * value 2 - 100 * value 1) +
          ((50 - 29.3) * value 5 - 100 * value 4) := by
  intro g c
  have validUnit : g.validate = .ok () := by
    rw [ThermalGenerator.validate_eq_ok_iff]
    simp [g, ThermalGenerator.standard, ThermalGenerator.quantities]
    norm_num
  have validFleet : (Fleet.empty.withUnit g).validate = .ok () := by
    rw [Fleet.validate_eq_ok_iff]
    simp [Fleet.empty, Fleet.withUnit, Fleet.withDesign, Fleet.withOperation, validUnit]
  have validFlows : (Stage.cashFlow c).validate = .ok () := CashFlowParams.validate_standard
  have made : build (twoDays 30 50) (Fleet.empty.withUnit g) true = .ok _ :=
    build_eq_ok_iff.2 ⟨validFleet, by decide, _, priced_twoDays _ _, rfl⟩
  let base := built (twoDays 30 50) (Fleet.empty.withUnit g) true (twoDayPrices 30 50)
  have settled : base.withCashFlows c = .ok _ :=
    (Stage.apply_eq_ok_iff (s := .cashFlow c)).2 ⟨Stage.fits_built validFlows, rfl⟩
  have none : Stage.run base [] = .ok _ := rfl
  obtain ⟨-, -, v, row, vars, member, holds, -⟩ := net_inflow_row made none settled
  refine ⟨_, _, v, row, made, settled, vars, member, fun value => ?_⟩
  obtain ⟨first, second⟩ := timesCounted_twoDays 30 50
  have marginal : g.marginalCost = 29.3 := by
    simp [g, ThermalGenerator.marginalCost, ThermalGenerator.fuelCost,
      ThermalGenerator.carbonCost, ThermalGenerator.standard]
    norm_num
  have startCost : g.startCost = 100 := rfl
  rw [holds value]
  -- two periods with the block of one unit in each
  simp [base, Stage.applied, built, blocks, twoDayPrices, Fleet.empty, Fleet.withUnit,
    Fleet.withDesign, Fleet.withOperation, blockStart, OperationBlock.width, c, first, second,
    marginal, startCost]

end DispatchModel

end PlantEconomics
