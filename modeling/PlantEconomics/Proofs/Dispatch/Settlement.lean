import PlantEconomics.Proofs.Dispatch.Signals
import PlantEconomics.Proofs.Dispatch.Validity

/-!
# Settling the cash flows

Of the six cash flows, building cost, fixed cost and depreciation depend on the fleet alone, and
the rest follows from the net inflow of the periods. So whatever the units do, there are values of
the six that keep all relations between them, with a tax that is as low as it may be. They are also
within their bounds: the costs of a valid fleet are not negative, and the tax is cut off at zero.
-/

namespace PlantEconomics

/-! ## §1. Values of the cash flows -/

/-- The six cash flows in numbers. -/
structure CashFlowValues (α : Type) where
  building : α
  fixed : α
  depreciation : α
  netInflow : α
  tax : α
  netProfit : α
deriving Repr, DecidableEq

namespace CashFlowVars

variable {α : Type}

/-- The cash flows under an assignment. -/
def read (v : CashFlowVars) (value : Var → α) : CashFlowValues α :=
  ⟨value v.building, value v.fixed, value v.depreciation, value v.netInflow, value v.tax,
    value v.netProfit⟩

/-- The assignment that gives the cash flows their values and leaves the rest. -/
def assign (v : CashFlowVars) (x : CashFlowValues α) (rest : Var → α) : Var → α := fun w =>
  if w = v.building then x.building
  else if w = v.fixed then x.fixed
  else if w = v.depreciation then x.depreciation
  else if w = v.netInflow then x.netInflow
  else if w = v.tax then x.tax
  else if w = v.netProfit then x.netProfit
  else rest w

@[simp] theorem read_assign (first : Var) (x : CashFlowValues α) (rest : Var → α) :
    (startingAt first).read ((startingAt first).assign x rest) = x := by
  simp [read, assign, startingAt]

theorem assign_of_lt {first w : Var} (h : w < first) (x : CashFlowValues α) (rest : Var → α) :
    (startingAt first).assign x rest w = rest w := by
  have different (i : Nat) : w ≠ first + i := Nat.ne_of_lt (Nat.lt_add_right i h)
  have start : w ≠ first := Nat.ne_of_lt h
  simp [assign, startingAt, start, different]

end CashFlowVars

section Settlement

variable {α : Type} [Field α] [LinearOrder α]

/-- What building the units of a fleet costs. -/
def Fleet.buildingCost (f : Fleet α) : α := (f.built.map fun g => g.buildingCost * g.capacity).sum

/-- What the units of a fleet cost in a year, whether used or not. -/
def Fleet.yearlyCost (f : Fleet α) : α := (f.built.map fun g => g.yearlyCost * g.capacity).sum

namespace CashFlowParams

/-- Whether cash flows keep the relations between them, with a net inflow from the periods. -/
structure Balances (c : CashFlowParams α) (fleet : Fleet α) (inflow : α) (x : CashFlowValues α) :
    Prop where
  building : x.building = fleet.buildingCost
  fixed : x.fixed = fleet.yearlyCost
  depreciation : x.depreciation = x.building / c.lifetime
  netInflow : x.netInflow = inflow
  tax : c.taxRate * (x.netInflow + c.other - x.fixed - x.depreciation) ≤ x.tax
  netProfit : x.netProfit = x.netInflow + c.other - x.fixed - x.tax

/-- The cash flows of a fleet with a net inflow from the periods and the least tax. -/
def settle (c : CashFlowParams α) (fleet : Fleet α) (inflow : α) : CashFlowValues α :=
  let building := fleet.buildingCost
  let fixed := fleet.yearlyCost
  let depreciation := building / c.lifetime
  let tax := max 0 (c.taxRate * (inflow + c.other - fixed - depreciation))
  { building, fixed, depreciation, netInflow := inflow, tax
    netProfit := inflow + c.other - fixed - tax }

theorem balances_settle (c : CashFlowParams α) (fleet : Fleet α) (inflow : α) :
    c.Balances fleet inflow (c.settle fleet inflow) where
  building := rfl
  fixed := rfl
  depreciation := rfl
  netInflow := rfl
  tax := le_max_right ..
  netProfit := rfl

end CashFlowParams

/-! ## §2. Bounds -/

/-- Whether the cash flows that may not be negative are not. -/
structure CashFlowValues.InBounds (x : CashFlowValues α) : Prop where
  building : 0 ≤ x.building
  fixed : 0 ≤ x.fixed
  depreciation : 0 ≤ x.depreciation
  tax : 0 ≤ x.tax

variable [IsStrictOrderedRing α]

/-- The yearly and the building cost of a valid fleet are sums of products of quantities. -/
theorem Fleet.costs_nonneg {f : Fleet α} (valid : f.validate = .ok ()) :
    0 ≤ f.buildingCost ∧ 0 ≤ f.yearlyCost := by
  have quantity : ∀ g ∈ f.built, 0 ≤ g.buildingCost ∧ 0 ≤ g.yearlyCost ∧ 0 ≤ g.capacity := by
    intro g hg
    obtain ⟨nonneg, capacity, -⟩ :=
      ThermalGenerator.validate_eq_ok_iff.1 ((Fleet.validate_eq_ok_iff.1 valid).2 g hg)
    refine ⟨nonneg ("capex_per_mw", _) ?_, nonneg ("fom_per_mw_year", _) ?_, capacity.le⟩
    · simp [ThermalGenerator.quantities]
    · simp [ThermalGenerator.quantities]
  constructor
  · refine List.sum_nonneg (List.forall_mem_map.2 fun g hg => ?_)
    obtain ⟨building, -, capacity⟩ := quantity g hg
    exact mul_nonneg building capacity
  · refine List.sum_nonneg (List.forall_mem_map.2 fun g hg => ?_)
    obtain ⟨-, yearly, capacity⟩ := quantity g hg
    exact mul_nonneg yearly capacity

theorem CashFlowParams.inBounds_settle (c : CashFlowParams α) {fleet : Fleet α}
    (valid : fleet.validate = .ok ()) (inflow : α) : (c.settle fleet inflow).InBounds := by
  -- a lifetime of zero would make the depreciation zero, so it needs no check here
  obtain ⟨building, fixed⟩ := Fleet.costs_nonneg valid
  exact ⟨building, fixed, div_nonneg building (Nat.cast_nonneg _), le_max_left ..⟩

end Settlement

/-! ## §3. The inflow of the periods -/

theorem mapIdx_congr {β γ : Type} {l : List β} {f g : Nat → β → γ}
    (h : ∀ i b, l[i]? = some b → f i b = g i b) : l.mapIdx f = l.mapIdx g := by
  refine List.ext_getElem? fun i => ?_
  rw [List.getElem?_mapIdx, List.getElem?_mapIdx]
  cases hi : l[i]? with
  | none => rfl
  | some b => rw [Option.map_some, Option.map_some, h i b hi]

section Inflow

variable {α : Type} [Field α] [LinearOrder α]

/-- What a unit brings in with its signals at a price. -/
def ThermalGenerator.inflow (g : ThermalGenerator α) (price : α) (x : Signals α) : α :=
  price * x.power - (g.runningCost * x.power + g.startCost * x.starting) - g.fuelCost * x.power -
    g.carbonCost * x.power

theorem ThermalGenerator.inflow_zero (g : ThermalGenerator α) (price : α) :
    g.inflow price ⟨0, 0, 0⟩ = 0 := by
  simp [inflow]

/-- The net inflow of a period is what its operations bring in. -/
theorem Period.evaluate_netInflow (p : Period α) (value : Var → α) :
    p.netInflow.evaluate value = (p.operations.map fun o =>
      o.revenue.evaluate value - o.runningCost.evaluate value - o.fuelCost.evaluate value -
        o.carbonCost.evaluate value).sum := by
  unfold netInflow revenue runningCost fuelCost carbonCost
  simp only [Affine.evaluate_sub, evaluate_sumOf, sum_map_sub]

namespace DispatchModel

/-- The net inflow of a built period is what its units bring in. -/
theorem evaluate_netInflow_blocksAt (units : List (ThermalGenerator α)) (t : Nat) (k : PeriodKey)
    (weight price : α) (value : Var → α) :
    (⟨k, weight, price, (blocksAt units t k price).map (·.operation)⟩ : Period α).netInflow.evaluate
        value =
      (units.mapIdx fun u g => g.inflow price (planOf value units.length t u)).sum := by
  rw [Period.evaluate_netInflow]
  congr 1
  -- unit by unit, both lists have what the unit brings in
  refine List.ext_getElem? fun u => ?_
  rw [List.getElem?_map, List.getElem?_map, getElem?_blocksAt, List.getElem?_mapIdx, Option.map_map,
    Option.map_map]
  congr 1
  funext g
  simp [ThermalGenerator.block, ThermalGenerator.operation, ThermalGenerator.inflow, planOf]

/-- What the units bring in over all keys when each of them counts as often as its weight says. -/
def inflowOf (units : List (ThermalGenerator α)) (keys : List (PeriodKey × α))
    (weight : PeriodKey → α) (plan : Plan α) : α :=
  (keys.mapIdx fun t k =>
    weight k.1 * (units.mapIdx fun u g => g.inflow k.2 (plan t u)).sum).sum

/-- The inflow depends on what the units do in the periods, and on nothing else. -/
theorem inflowOf_congr {units : List (ThermalGenerator α)} {keys : List (PeriodKey × α)}
    (weight : PeriodKey → α) {plan plan' : Plan α}
    (same : ∀ t < keys.length, ∀ u < units.length, plan t u = plan' t u) :
    inflowOf units keys weight plan = inflowOf units keys weight plan' := by
  unfold inflowOf
  congr 1
  refine mapIdx_congr fun t k ht => ?_
  have period : units.mapIdx (fun u g => g.inflow k.2 (plan t u)) =
      units.mapIdx fun u g => g.inflow k.2 (plan' t u) := by
    refine mapIdx_congr fun u g hu => ?_
    rw [same t (List.getElem?_eq_some_iff.1 ht).1 u (List.getElem?_eq_some_iff.1 hu).1]
  rw [period]

theorem inflowOf_zero (units : List (ThermalGenerator α)) (keys : List (PeriodKey × α))
    (weight : PeriodKey → α) : inflowOf units keys weight (fun _ _ => ⟨0, 0, 0⟩) = 0 := by
  refine List.sum_eq_zero fun x hx => ?_
  obtain ⟨t, ht, rfl⟩ := List.mem_mapIdx.1 hx
  have period : (units.mapIdx fun _ g => g.inflow keys[t].2 ⟨0, 0, 0⟩).sum = 0 := by
    refine List.sum_eq_zero fun y hy => ?_
    obtain ⟨u, hu, rfl⟩ := List.mem_mapIdx.1 hy
    exact ThermalGenerator.inflow_zero ..
  rw [period, mul_zero]

/-- How often a key counts in the net inflow. -/
def weightOfKey (prices : PriceSet α) (weighted : Bool) (c : CashFlowParams α) (k : PeriodKey) :
    α :=
  match c.weighting with
  | .once => 1
  | .occurrence => weightOf prices weighted k

theorem evaluate_netInflow (m : DispatchModel α) (c : CashFlowParams α) (value : Var → α) :
    (m.netInflow c).evaluate value =
      (m.periods.map fun p => c.weightOf p * p.netInflow.evaluate value).sum := by
  -- the loop over the periods, with what it has added up so far
  have begun : ∀ (ps : List (Period α)) (e : Affine α),
      (ps.foldl (fun e p => e.addMul (c.weightOf p) p.netInflow) e).evaluate value =
        e.evaluate value + (ps.map fun p => c.weightOf p * p.netInflow.evaluate value).sum := by
    intro ps
    induction ps with
    | nil => intro e; simp
    | cons p ps ih =>
      intro e
      rw [List.foldl_cons, ih, Affine.evaluate_addMul, List.map_cons, List.sum_cons]
      ring
  rw [netInflow, begun, Affine.evaluate_zero, zero_add]

/-- The net inflow of a built model is what the units bring in by the plan that is carried out. -/
theorem evaluate_netInflow_built (prices : PriceSet α) (fleet : Fleet α) (weighted : Bool)
    (keys : List (PeriodKey × α)) (c : CashFlowParams α) (value : Var → α) :
    ((built prices fleet weighted keys).netInflow c).evaluate value =
      inflowOf fleet.operating keys (weightOfKey prices weighted c)
        (planOf value fleet.operating.length) := by
  rw [evaluate_netInflow, inflowOf]
  congr 1
  refine List.ext_getElem? fun t => ?_
  rw [List.getElem?_map, built_periods_getElem?, List.getElem?_mapIdx, Option.map_map]
  congr 1
  funext k
  simp only [Function.comp_apply, evaluate_netInflow_blocksAt]
  rfl

end DispatchModel

end Inflow

/-! ## §4. The relations of the program -/

section Relations

variable {α : Type} [Field α] [LinearOrder α]

namespace DispatchModel

theorem built_buildingCost (prices : PriceSet α) (fleet : Fleet α) (weighted : Bool)
    (keys : List (PeriodKey × α)) (value : Var → α) :
    (built prices fleet weighted keys).buildingCost.evaluate value = fleet.buildingCost := by
  simp [buildingCost, built, Fleet.buildingCost, ThermalGenerator.design, Function.comp_def]

theorem built_fixedCost (prices : PriceSet α) (fleet : Fleet α) (weighted : Bool)
    (keys : List (PeriodKey × α)) (value : Var → α) :
    (built prices fleet weighted keys).fixedCost.evaluate value = fleet.yearlyCost := by
  simp [fixedCost, built, Fleet.yearlyCost, ThermalGenerator.design, Function.comp_def]

variable [IsStrictOrderedRing α]

/-- The relations hold when the cash flows balance, with the inflow of the periods. -/
theorem cashFlowRelations_hold_iff (prices : PriceSet α) (fleet : Fleet α) (weighted : Bool)
    (keys : List (PeriodKey × α)) (c : CashFlowParams α) (v : CashFlowVars) (value : Var → α) :
    (∀ r ∈ (built prices fleet weighted keys).cashFlowRelations c v, r.holds value 0 = true) ↔
      c.Balances fleet (((built prices fleet weighted keys).netInflow c).evaluate value)
        (v.read value) := by
  have depreciation (x : α) : 1 / (c.lifetime : α) * x = x / c.lifetime := by
    rw [one_div, inv_mul_eq_div]
  simp only [cashFlowRelations, inflowLess, List.forall_mem_cons, List.not_mem_nil,
    Relation.equals_holds_iff, Relation.ge_holds_iff, Affine.evaluate_var, Affine.evaluate_term,
    Affine.evaluate_sub, Affine.evaluate_add, Affine.evaluate_scale, Affine.evaluate_const,
    built_buildingCost, built_fixedCost, Scalar.ofNat_eq_cast, depreciation]
  -- the relations come in the order of the fields; only the product of the tax is turned around
  constructor
  · rintro ⟨building, fixed, depreciation, netInflow, tax, netProfit, -⟩
    exact ⟨building, fixed, depreciation, netInflow, by rwa [mul_comm], netProfit⟩
  · rintro ⟨building, fixed, depreciation, netInflow, tax, netProfit⟩
    exact ⟨building, fixed, depreciation, netInflow, by rwa [mul_comm], netProfit, by simp⟩

end DispatchModel

end Relations

end PlantEconomics
