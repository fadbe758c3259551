import PlantEconomics.Dispatch.CashFlow
import PlantEconomics.Dispatch.Ramping

/-!
# Assembling a model

All stages in their order: the weighted model of prices and fleet, ramping, up and down times, cash
flows. What can be checked without building is checked first, the goal before everything else.
-/

namespace PlantEconomics

/-- The settings of the stages that follow the building of the periods. -/
structure Stages (α : Type) where
  ramping : RampingLimits α
  times : UpDownTimes
  cashFlow : CashFlowParams α
deriving Repr, DecidableEq

namespace Stages

variable {α : Type}

/-- Standard settings throughout. -/
def standard [Scalar α] : Stages α :=
  ⟨RampingLimits.standard, UpDownTimes.standard, CashFlowParams.standard⟩

/-- The model of all stages, with the goal that a word names. -/
def assemble [Analytic α] (s : Stages α) (prices : PriceSet α) (fleet : Fleet α)
    (goal : String) : Except (Fault α) (DispatchModel α) := do
  let cashFlow := { s.cashFlow with goal := ← CashFlowGoal.parse goal }
  s.ramping.validate
  s.times.validate
  cashFlow.validate
  let m ← DispatchModel.build prices fleet true
  let m ← m.withRamping s.ramping
  let m ← m.withUpDownTimes s.times
  m.withCashFlows cashFlow

end Stages

end PlantEconomics
