import PlantEconomics.Proofs.Dispatch.Feasibility

/-!
# Units that are on

The limits of the stages are written for the totals of all units, and the limit of starts within
the down time compares with one unit: what was on is subtracted from one. A fleet of one unit can
stay on at any power it allows. A fleet of several cannot, once the horizon is longer than the down
time, because the right side is negative whenever two of them are on.
-/

namespace PlantEconomics

namespace Stages

open DispatchModel

/-! ## §1. Plans of assembled models -/

section Plans

variable {s : Stages ℝ} {prices : PriceSet ℝ} {fleet : Fleet ℝ} {goal : CashFlowGoal}
  {keys : List (PeriodKey × ℝ)}

/-- The plan of an assembled model is that of its blocks. -/
theorem plan_assembled {t u : Nat} (ht : t < keys.length) (hu : u < fleet.operating.length)
    (value : Var → ℝ) :
    (s.assembled prices fleet goal keys).plan value t u =
      planOf value fleet.operating.length t u :=
  plan_built ht hu value

/-- An assembled model follows a plan under the assignment that carries it out. -/
theorem follows_assign (plan : Plan ℝ) :
    ∀ t < (s.assembled prices fleet goal keys).size, ∀ u < fleet.operating.length,
      (s.assembled prices fleet goal keys).plan (plan.assign fleet.operating.length) t u =
        plan t u := by
  intro t ht u hu
  rw [size_assembled] at ht
  rw [plan_assembled ht hu, plan.planOf_assign hu]

/-- Limits, also those of other stages, may be checked on any plan that the units follow within the
horizon. -/
theorem dispatches_plan_iff {value : Var → ℝ} {plan : Plan ℝ} (s' : Stages ℝ)
    (follows : ∀ t < (s.assembled prices fleet goal keys).size, ∀ u < fleet.operating.length,
      (s.assembled prices fleet goal keys).plan value t u = plan t u) :
    s'.Dispatches fleet.operating keys.length (planOf value fleet.operating.length) ↔
      s'.Dispatches fleet.operating keys.length plan := by
  rw [size_assembled] at follows
  have same : ∀ t < keys.length, ∀ u < fleet.operating.length,
      planOf value fleet.operating.length t u = plan t u := by
    intro t ht u hu
    rw [← follows t ht u hu, plan_assembled ht hu]
  constructor
  · exact fun h => h.congr same
  · exact fun h => h.congr fun t ht u hu => (same t ht u hu).symm

end Plans

/-! ## §2. Steady operation -/

section Steady

variable {s : Stages ℝ}

/-- Every unit is on throughout and keeps its power. -/
def steady (power : Nat → ℝ) : Plan ℝ := fun _ u => ⟨1, 0, power u⟩

theorem total_steady (power : Nat → ℝ) (n t : Nat) :
    (steady power).total n t = ⟨n, 0, ∑ u ∈ Finset.range n, power u⟩ := by
  simp [Plan.total, steady]

theorem allows_steady {g : ThermalGenerator ℝ} {power : Nat → ℝ} {t u : Nat}
    (within : g.leastPower ≤ power u ∧ power u ≤ g.capacity) : g.Allows (steady power t u) := by
  unfold ThermalGenerator.Allows steady
  rw [mul_one, mul_one]
  exact within

theorem allowsRise_steady (valid : s.ramping.validate = .ok ()) (power : Nat → ℝ) (n t t' : Nat) :
    s.ramping.AllowsRise ((steady power).total n t) ((steady power).total n t') := by
  obtain ⟨-, -, up, -, -⟩ := RampingLimits.nonneg_of_validate valid
  have room : 0 ≤ s.ramping.up * (n : ℝ) := mul_nonneg up n.cast_nonneg
  unfold RampingLimits.AllowsRise
  rw [total_steady, total_steady]
  linarith

theorem allowsFall_steady (valid : s.ramping.validate = .ok ()) (power : Nat → ℝ) (n t t' : Nat) :
    s.ramping.AllowsFall ((steady power).total n t) ((steady power).total n t') := by
  obtain ⟨-, -, -, down, -⟩ := RampingLimits.nonneg_of_validate valid
  have room : 0 ≤ s.ramping.down * (n : ℝ) := mul_nonneg down n.cast_nonneg
  unfold RampingLimits.AllowsFall
  rw [total_steady, total_steady]
  linarith

theorem keepsOn_steady (times : UpDownTimes) (power : Nat → ℝ) (n t : Nat) :
    times.KeepsOn ((steady power).total n) t := by
  unfold UpDownTimes.KeepsOn
  simp only [total_steady, Finset.sum_const_zero]
  exact n.cast_nonneg

/-- The limit of starts within the down time allows no more than one unit to be on. -/
theorem keepsOff_steady_iff (times : UpDownTimes) (power : Nat → ℝ) (n t : Nat) :
    times.KeepsOff ((steady power).total n) t ↔ n ≤ 1 := by
  unfold UpDownTimes.KeepsOff
  simp only [total_steady, Finset.sum_const_zero, sub_nonneg, Nat.cast_le_one]

/-- Steady operation is a matter of the down time alone: the horizon has to end before it is over,
or there is at most one unit. -/
theorem dispatches_steady_iff (valid : s.ramping.validate = .ok ())
    {units : List (ThermalGenerator ℝ)} {size : Nat} {power : Nat → ℝ}
    (within : ∀ (u : Nat) (g : ThermalGenerator ℝ), units[u]? = some g →
      g.leastPower ≤ power u ∧ power u ≤ g.capacity) :
    s.Dispatches units size (steady power) ↔ units.length ≤ 1 ∨ size ≤ s.times.down := by
  constructor
  · intro h
    by_cases hsize : size ≤ s.times.down
    · exact .inr hsize
    · -- the first window already asks that no more than one unit is on
      have kept := h.down s.times.down (Nat.le_refl _) (by omega)
      exact .inl ((keepsOff_steady_iff ..).1 kept)
  · intro h
    constructor
    case power => exact fun t _ u g hg => allows_steady (within u g hg)
    case rise => exact fun t _ _ => allowsRise_steady valid ..
    case fall => exact fun t _ _ => allowsFall_steady valid ..
    case up => exact fun t _ _ => keepsOn_steady ..
    case down =>
      intro t hdown ht
      have few : units.length ≤ 1 := h.resolve_right (by omega)
      exact (keepsOff_steady_iff ..).2 few

end Steady

/-! ## §3. Steady operation of assembled models -/

section Assembled

variable {s : Stages ℝ} {prices : PriceSet ℝ} {fleet : Fleet ℝ} {m : DispatchModel ℝ}
  {word : String}

theorem steady_holds_iff {goal : CashFlowGoal} {keys : List (PeriodKey × ℝ)}
    (valid : s.ramping.validate = .ok ()) {power : Nat → ℝ}
    (within : ∀ (u : Nat) (g : ThermalGenerator ℝ), fleet.operating[u]? = some g →
      g.leastPower ≤ power u ∧ power u ≤ g.capacity) {value : Var → ℝ}
    (on : ∀ t < (s.assembled prices fleet goal keys).size, ∀ u < fleet.operating.length,
      (s.assembled prices fleet goal keys).plan value t u = steady power t u) :
    (∀ c ∈ (s.assembled prices fleet goal keys).program.constraints,
      c.family ∉ CashFlowVars.families → c.holds value 0 = true) ↔
    fleet.operating.length ≤ 1 ∨ (s.assembled prices fleet goal keys).size ≤ s.times.down := by
  rw [dispatches_iff, dispatches_plan_iff _ on, size_assembled]
  exact dispatches_steady_iff valid within

/-- **When steady operation is admitted.** Let every unit be on in all periods, start in none, and
keep a power that it allows. All limits but that of starts within the down time hold. That one holds
as well when there is one unit, or the horizon is no longer than the down time; otherwise it is
broken, however the powers are chosen. -/
theorem steady_admitted_iff (h : s.assemble prices fleet word = .ok m)
    (some_unit : fleet.operating ≠ []) {power : Nat → ℝ}
    (within : ∀ (u : Nat) (g : ThermalGenerator ℝ), fleet.operating[u]? = some g →
      g.leastPower ≤ power u ∧ power u ≤ g.capacity) {value : Var → ℝ}
    (on : ∀ t < m.size, ∀ u < fleet.operating.length, m.plan value t u = ⟨1, 0, power u⟩) :
    (∀ c ∈ m.program.constraints, c.family ∉ "shutdown_con" :: CashFlowVars.families →
      c.holds value 0 = true) ∧
    ((∀ c ∈ m.program.constraints, c.family ∉ CashFlowVars.families → c.holds value 0 = true) ↔
      fleet.operating.length = 1 ∨ m.size ≤ s.times.down) := by
  obtain ⟨goal, keys, -, valid, -, -, -, -, -, rfl⟩ := assemble_eq_ok_iff.1 h
  have one : fleet.operating.length ≤ 1 ↔ fleet.operating.length = 1 := by
    have := List.length_pos_iff.2 some_unit
    omega
  rw [← one]
  constructor
  · -- without the down time: the same stages with one that is never over
    refine (dispatches_but_down_iff ..).2 ((dispatches_plan_iff _ on).2 ?_)
    have long : keys.length ≤ (s.withDown keys.length).times.down := Nat.le_refl _
    exact (@dispatches_steady_iff (s.withDown keys.length) valid _ _ _ within).2 (.inr long)
  · exact steady_holds_iff valid within on

/-- One standard unit stays on at its least power. -/
theorem steady_admitted_one_unit :
    ∃ m value, (standard : Stages ℝ).assemble
        (PriceSet.ofColumns none 5 [(none, [30, 30, 30, 30, 30])])
        (Fleet.empty.withUnit .standard) "NPV" = .ok m ∧
      (∀ t < m.size, ∀ u < 1, m.plan value t u = ⟨1, 0, 60⟩) ∧
      ∀ c ∈ m.program.constraints, c.family ∉ CashFlowVars.families → c.holds value 0 = true := by
  have assembled := standard_assemble validate_one_standard .presentValue
    (List.cons_ne_nil (30 : ℝ) [30, 30, 30, 30])
  have within : ∀ (u : Nat) (g : ThermalGenerator ℝ),
      (Fleet.empty.withUnit .standard).operating[u]? = some g →
        g.leastPower ≤ 60 ∧ 60 ≤ g.capacity := by
    intro u g hg
    obtain rfl := List.mem_singleton.1 (List.mem_of_getElem? hg)
    simp only [ThermalGenerator.standard]
    norm_num
  refine ⟨_, (steady fun _ => 60).assign 1, assembled, follows_assign _, ?_⟩
  exact (steady_admitted_iff assembled (List.cons_ne_nil _ _) within (follows_assign _)).2.2
    (.inl rfl)

/-- Two standard units under names of their own. -/
noncomputable def coalAndGas : Fleet ℝ :=
  (Fleet.empty.withUnit { ThermalGenerator.standard with name := "coal" }).withUnit
    { ThermalGenerator.standard with name := "gas" }

/-- Two standard units cannot both stay on at their least power for five hours. -/
theorem two_units_not_steady :
    ∃ m value, (standard : Stages ℝ).assemble
        (PriceSet.ofColumns none 5 [(none, [30, 30, 30, 30, 30])]) coalAndGas "NPV" = .ok m ∧
      (∀ g ∈ coalAndGas.operating, g.leastPower ≤ 60 ∧ 60 ≤ g.capacity) ∧
      (∀ t < m.size, ∀ u < 2, m.plan value t u = ⟨1, 0, 60⟩) ∧
      ∃ c ∈ m.program.constraints, c.family ∉ CashFlowVars.families ∧ c.holds value 0 = false := by
  have valid : coalAndGas.validate = .ok () := by
    rw [Fleet.validate_eq_ok_iff]
    simp [coalAndGas, Fleet.empty, Fleet.withUnit, Fleet.withDesign, Fleet.withOperation,
      ThermalGenerator.validate_standard]
  have assembled := standard_assemble valid .presentValue
    (List.cons_ne_nil (30 : ℝ) [30, 30, 30, 30])
  have within : ∀ g ∈ coalAndGas.operating, g.leastPower ≤ 60 ∧ 60 ≤ g.capacity := by
    simp only [coalAndGas, Fleet.withUnit, Fleet.withDesign, Fleet.withOperation, Fleet.empty,
      ThermalGenerator.standard, List.nil_append, List.cons_append, List.forall_mem_cons]
    norm_num
  refine ⟨_, (steady fun _ => 60).assign 2, assembled, within, follows_assign _, ?_⟩
  -- otherwise all families would hold, and there are two units and five hours
  by_contra sound
  simp only [not_exists, not_and, Bool.not_eq_false] at sound
  have few := (steady_holds_iff RampingLimits.validate_standard
    (fun u g hg => within g (List.mem_of_getElem? hg)) (follows_assign _)).1 sound
  rw [size_assembled] at few
  exact absurd few (by decide)

end Assembled

end Stages

end PlantEconomics
