import PlantEconomics.Dispatch.Model
import PlantEconomics.Vocabulary

/-!
# Cash flows and the objective

The cash flows of a project are six quantities, each with a variable and a constraint of its own:
building cost, yearly fixed cost, depreciation, net inflow from the periods, corporate tax and net
profit. The tax is bounded from below only, because the objective presses it down.

The objective is the net present value, that value as a yearly amount, or the net profit of a
year. A yearly amount is carried to the present by the annuity factor: what a unit per year over
the lifetime is worth today.
-/

namespace PlantEconomics

/-! ## §1. Settings -/

/-- What is to be made as large as possible. -/
inductive CashFlowGoal where
  | presentValue
  | yearlyPresentValue
  | netProfit
deriving Repr, DecidableEq

instance : Vocabulary CashFlowGoal where
  all := [.presentValue, .yearlyPresentValue, .netProfit]
  word
    | .presentValue => "NPV"
    | .yearlyPresentValue => "Annualized NPV"
    | .netProfit => "Net Profit"

/-- The goal that a word names. -/
def CashFlowGoal.parse {α : Type} (text : String) : Except (Fault α) CashFlowGoal :=
  match Vocabulary.read? text with
  | some g => .ok g
  | none =>
    .error (.configuration (.unknownObjective text
      ((Vocabulary.all : List CashFlowGoal).map Vocabulary.word)))

/-- How periods are added up. -/
inductive Weighting where
  /-- Every period counts once. -/
  | once
  /-- A period counts as often as its weight says. -/
  | occurrence
deriving Repr, DecidableEq

instance : Vocabulary Weighting where
  all := [.once, .occurrence]
  word
    | .once => "unweighted"
    | .occurrence => "occurrence"

/-- How cash flows are reckoned. -/
structure CashFlowParams (α : Type) where
  /-- Years. -/
  lifetime : Nat
  discountRate : α
  taxRate : α
  /-- Further costs in a year. -/
  otherCosts : α
  /-- Further revenue in a year. -/
  otherRevenue : α
  goal : CashFlowGoal
  weighting : Weighting
deriving Repr, DecidableEq

namespace CashFlowParams

section Arithmetic

variable {α : Type} [Scalar α]

/-- Thirty years at eight percent, a fifth of the profit being tax. -/
def standard : CashFlowParams α :=
  { lifetime := 30
    discountRate := 0.08
    taxRate := 0.2
    otherCosts := 0
    otherRevenue := 0
    goal := .presentValue
    weighting := .once }

/-- Fail unless there is a year, the discount rate is finite and above minus one, the tax rate is a
part of one, and the further amounts are finite. -/
def validate (c : CashFlowParams α) : Except (Fault α) Unit :=
  if c.lifetime = 0 then .error (.configuration .zeroLifetime)
  else if Scalar.isFinite c.discountRate = false ∨ c.discountRate ≤ -1 then
    .error (.configuration (.badDiscountRate c.discountRate))
  else if ¬(0 ≤ c.taxRate ∧ c.taxRate ≤ 1) then
    .error (.configuration (.badTaxRate c.taxRate))
  else if Scalar.isFinite c.otherCosts = false ∨ Scalar.isFinite c.otherRevenue = false then
    .error (.configuration .otherNotFinite)
  else .ok ()

/-- How often the net inflow of a period counts. -/
def weightOf (c : CashFlowParams α) (p : Period α) : α :=
  match c.weighting with
  | .once => 1
  | .occurrence => p.weight

/-- Further revenue less further costs. -/
def other (c : CashFlowParams α) : α := c.otherRevenue - c.otherCosts

end Arithmetic

/-- What a unit per year over the lifetime is worth today; next to no discount it is the number of
years. -/
def annuityFactor {α : Type} [Analytic α] (c : CashFlowParams α) : α :=
  let r := c.discountRate
  let n := Scalar.ofNat c.lifetime
  if Scalar.abs r < 1e-12 then n else (1 - Analytic.power (1 + r) (-n)) / r

end CashFlowParams

/-! ## §2. Quantities -/

/-- The variables of the six cash flows. -/
structure CashFlowVars where
  building : Var
  fixed : Var
  depreciation : Var
  netInflow : Var
  tax : Var
  netProfit : Var
deriving Repr, DecidableEq

namespace CashFlowVars

/-- The variables numbered from `first` on. -/
def startingAt (first : Var) : CashFlowVars :=
  ⟨first, first + 1, first + 2, first + 3, first + 4, first + 5⟩

/-- Names and domains of the variables. Inflow and profit may be negative. -/
def specs {α : Type} : List (VariableSpec α) :=
  [⟨"CAPEX", .nonNegative, none, none⟩, ⟨"FOM", .nonNegative, none, none⟩,
    ⟨"DEPRECIATION", .nonNegative, none, none⟩, ⟨"NET_CASH_INFLOW", .reals, none, none⟩,
    ⟨"CORP_TAX", .nonNegative, none, none⟩, ⟨"NET_PROFIT", .reals, none, none⟩]

/-- The families of the constraints. -/
def families : List String :=
  ["capex_calculation", "fom_calculation", "dep_calculation", "net_cash_inflow_calculation",
    "corp_tax_calculation", "net_profit_calculation"]

end CashFlowVars

namespace DispatchModel

section Arithmetic

variable {α : Type} [Scalar α]

/-- Building cost of all designs. -/
def buildingCost (m : DispatchModel α) : Affine α := Affine.sum (m.designs.map (·.building))

/-- Yearly fixed cost of all designs. -/
def fixedCost (m : DispatchModel α) : Affine α := Affine.sum (m.designs.map (·.yearly))

/-- Net inflow of all periods, each as often as it counts. -/
def netInflow (m : DispatchModel α) (c : CashFlowParams α) : Affine α :=
  m.periods.foldl (fun e p => e.addMul (c.weightOf p) p.netInflow) Affine.zero

/-- Net inflow and further amounts less the fixed cost and one more cost. -/
def inflowLess (c : CashFlowParams α) (v : CashFlowVars) (cost : Var) : Affine α :=
  Affine.var v.netInflow + Affine.const c.other - Affine.var v.fixed - Affine.var cost

/-- What each cash flow is, in the order of the families. -/
def cashFlowRelations (m : DispatchModel α) (c : CashFlowParams α) (v : CashFlowVars) :
    List (Relation α) :=
  [Relation.equals (Affine.var v.building) m.buildingCost,
    Relation.equals (Affine.var v.fixed) m.fixedCost,
    Relation.equals (Affine.var v.depreciation)
      (Affine.term v.building (1 / Scalar.ofNat c.lifetime)),
    Relation.equals (Affine.var v.netInflow) (m.netInflow c),
    Relation.ge (Affine.var v.tax) ((inflowLess c v v.depreciation).scale c.taxRate),
    Relation.equals (Affine.var v.netProfit) (inflowLess c v v.tax)]

/-- The cash-flow variables of a model that has them. -/
def cashFlowVars? (m : DispatchModel α) : Option CashFlowVars := do
  return {
    building := ← m.program.find? "CAPEX"
    fixed := ← m.program.find? "FOM"
    depreciation := ← m.program.find? "DEPRECIATION"
    netInflow := ← m.program.find? "NET_CASH_INFLOW"
    tax := ← m.program.find? "CORP_TAX"
    netProfit := ← m.program.find? "NET_PROFIT" }

/-! ## §3. The objective -/

/-- The net present value: the profit of all years less the building cost. -/
def presentValue (v : CashFlowVars) (annuity : α) : Affine α :=
  Affine.term v.netProfit annuity - Affine.var v.building

/-- The net present value as a yearly amount. -/
def yearlyPresentValue (v : CashFlowVars) (annuity : α) : Affine α :=
  Affine.var v.netProfit - Affine.term v.building (1 / annuity)

/-- The expression that a goal makes as large as possible, with its name. -/
def goalExpression (goal : CashFlowGoal) (v : CashFlowVars) (annuity : α) : String × Affine α :=
  match goal with
  | .presentValue => ("NPV", presentValue v annuity)
  | .yearlyPresentValue => ("Annualized_NPV", yearlyPresentValue v annuity)
  | .netProfit => ("NET_PROFIT", Affine.var v.netProfit)

end Arithmetic

variable {α : Type} [Analytic α]

/-- The program with cash flows and an objective. -/
def cashFlowProgram (m : DispatchModel α) (c : CashFlowParams α) :
    Except (Fault α) (Program α) := do
  let v := CashFlowVars.startingAt m.program.size
  let annuity := c.annuityFactor
  let p := m.program.addVariables CashFlowVars.specs
  let p ← (CashFlowVars.families.zip (m.cashFlowRelations c v)).foldlM
    (fun p (f, r) => p.addConstraint f r) p
  let p ← p.addExpression "NPV" (presentValue v annuity)
  let p ← p.addExpression "Annualized_NPV" (yearlyPresentValue v annuity)
  let (name, expression) := goalExpression c.goal v annuity
  p.setObjective { name, expression, goal := .maximize }

/-- The model with cash flows and an objective, neither of which it may have yet. -/
def withCashFlows (m : DispatchModel α) (c : CashFlowParams α) :
    Except (Fault α) (DispatchModel α) := do
  c.validate
  m.program.ensureNew CashFlowVars.families
  m.program.ensureNoObjective
  return { m with program := ← m.cashFlowProgram c }

end DispatchModel

end PlantEconomics
