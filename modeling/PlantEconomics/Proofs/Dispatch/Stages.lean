import PlantEconomics.Dispatch.Assembly
import PlantEconomics.Proofs.Market.Loading

/-!
# The model that all stages give

A stage checks its own settings, sees to it that nothing of what it adds is defined already, and
then extends the program. So each stage has one equation that says when it succeeds and with which
model, and the assembled model is the built one under three extensions.

No stage meets a name of another: the families of units have a point in their names, whatever the
units are called, and the names of the stages have none and differ.
-/

namespace PlantEconomics

namespace DispatchModel

/-! ## §1. Stages that add families -/

section Families

variable {α : Type}

/-- The model with its program extended. -/
def extend (m : DispatchModel α) (fs : List (Family α)) : DispatchModel α :=
  { m with program := m.program.extend fs }

@[simp] theorem extend_periods (m : DispatchModel α) (fs : List (Family α)) :
    (m.extend fs).periods = m.periods := rfl

@[simp] theorem extend_program (m : DispatchModel α) (fs : List (Family α)) :
    (m.extend fs).program = m.program.extend fs := rfl

@[simp] theorem extend_designs (m : DispatchModel α) (fs : List (Family α)) :
    (m.extend fs).designs = m.designs := rfl

theorem withFamilies_eq_ok_iff {m m' : DispatchModel α} {fs : List (Family α)} :
    m.withFamilies fs = .ok m' ↔
      (fs.map (·.1)).Nodup ∧ (∀ f ∈ fs, f.1 ∉ m.program.families) ∧ m.extend fs = m' := by
  unfold withFamilies
  rw [bind_eq_ok_iff]
  simp only [Program.ensureNew_eq_ok_iff, bind_eq_ok_iff, Program.foldlM_addFamily_eq_ok_iff,
    pure_eq_ok_iff]
  constructor
  · rintro ⟨_, -, _, ⟨distinct, new, rfl⟩, rfl⟩
    exact ⟨distinct, new, rfl⟩
  · rintro ⟨distinct, new, rfl⟩
    refine ⟨(), fun f hf => ?_, _, ⟨distinct, new, rfl⟩, rfl⟩
    obtain ⟨g, hg, rfl⟩ := List.mem_map.1 hf
    exact new g hg

/-- A stage that checks its settings and then adds families of different names. -/
theorem checked_withFamilies_eq_ok_iff {m m' : DispatchModel α} {check : Except (Fault α) Unit}
    {fs : List (Family α)} (distinct : (fs.map (·.1)).Nodup) :
    (check >>= fun _ => m.withFamilies fs) = .ok m' ↔
      check = .ok () ∧ (∀ f ∈ fs, f.1 ∉ m.program.families) ∧ m.extend fs = m' := by
  rw [bind_eq_ok_iff]
  constructor
  · rintro ⟨_, valid, h⟩
    obtain ⟨-, new, rfl⟩ := withFamilies_eq_ok_iff.1 h
    exact ⟨valid, new, rfl⟩
  · rintro ⟨valid, new, rfl⟩
    exact ⟨(), valid, withFamilies_eq_ok_iff.2 ⟨distinct, new, rfl⟩⟩

variable [Scalar α]

/-- The families that limit rises and falls. -/
def rampFamilies (l : RampingLimits α) (periods : List (Period α)) : List (Family α) :=
  [("ramp_up_con", neighbours (rise l) periods), ("ramp_down_con", neighbours (fall l) periods)]

/-- The families of up and down times. -/
def windowFamilies (t : UpDownTimes) (periods : List (Period α)) : List (Family α) :=
  [("startup_con", startupWindows t.up periods), ("shutdown_con", shutdownWindows t.down periods)]

theorem withRamping_eq_ok_iff {m m' : DispatchModel α} {l : RampingLimits α} :
    m.withRamping l = .ok m' ↔
      l.validate = .ok () ∧ (∀ f ∈ rampFamilies l m.periods, f.1 ∉ m.program.families) ∧
        m.extend (rampFamilies l m.periods) = m' := by
  have distinct : ((rampFamilies l m.periods).map (·.1)).Nodup := by simp [rampFamilies]
  exact checked_withFamilies_eq_ok_iff distinct

theorem withUpDownTimes_eq_ok_iff {m m' : DispatchModel α} {t : UpDownTimes} :
    m.withUpDownTimes t = .ok m' ↔
      (t.validate : Except (Fault α) Unit) = .ok () ∧
        (∀ f ∈ windowFamilies t m.periods, f.1 ∉ m.program.families) ∧
        m.extend (windowFamilies t m.periods) = m' := by
  have distinct : ((windowFamilies t m.periods).map (·.1)).Nodup := by simp [windowFamilies]
  exact checked_withFamilies_eq_ok_iff distinct

end Families

/-! ## §2. Cash flows -/

section CashFlows

variable {α : Type} [Analytic α]

/-- The variables that cash flows add to a model. -/
def cashFlowStart (m : DispatchModel α) : CashFlowVars := .startingAt m.program.size

/-- The families of the cash flows, each with its one relation. -/
def cashFlowFamilies (m : DispatchModel α) (c : CashFlowParams α) : List (Family α) :=
  (CashFlowVars.families.zip (m.cashFlowRelations c m.cashFlowStart)).map fun f =>
    (f.1, [(.scalar, f.2)])

/-- The program with cash flows, whether or not it has some of their names. -/
def settledProgram (m : DispatchModel α) (c : CashFlowParams α) : Program α :=
  let v := m.cashFlowStart
  let goal := goalExpression c.goal v c.annuityFactor
  { (m.program.addVariables CashFlowVars.specs).extend (m.cashFlowFamilies c) with
    expressions := m.program.expressions ++
      [("NPV", presentValue v c.annuityFactor),
        ("Annualized_NPV", yearlyPresentValue v c.annuityFactor)]
    objective := some ⟨goal.1, goal.2, .maximize⟩ }

/-- The model with cash flows. -/
def settled (m : DispatchModel α) (c : CashFlowParams α) : DispatchModel α :=
  { m with program := m.settledProgram c }

@[simp] theorem settled_periods (m : DispatchModel α) (c : CashFlowParams α) :
    (m.settled c).periods = m.periods := rfl

theorem map_fst_cashFlowFamilies (m : DispatchModel α) (c : CashFlowParams α) :
    (m.cashFlowFamilies c).map (·.1) = CashFlowVars.families := rfl

/-- Each of the six families has one relation. -/
theorem filter_cashFlowFamilies_of_mem {m : DispatchModel α} {c : CashFlowParams α}
    {f : String × Relation α}
    (hf : f ∈ CashFlowVars.families.zip (m.cashFlowRelations c m.cashFlowStart)) :
    (m.cashFlowFamilies c).filter (·.1 == f.1) = [(f.1, [(.scalar, f.2)])] := by
  simp only [CashFlowVars.families, cashFlowRelations, List.zip_cons_cons, List.zip_nil_right,
    List.mem_cons, List.not_mem_nil, or_false] at hf
  rcases hf with rfl | rfl | rfl | rfl | rfl | rfl <;>
    simp [cashFlowFamilies, cashFlowRelations, CashFlowVars.families]

theorem cashFlowProgram_eq_ok_iff {m : DispatchModel α} {c : CashFlowParams α} {p : Program α} :
    m.cashFlowProgram c = .ok p ↔
      (∀ f ∈ CashFlowVars.families, f ∉ m.program.families) ∧
        m.program.expression? "NPV" = none ∧ m.program.expression? "Annualized_NPV" = none ∧
        m.program.objective = none ∧ m.settledProgram c = p := by
  have folded : ∀ q : Program α,
      (CashFlowVars.families.zip (m.cashFlowRelations c m.cashFlowStart)).foldlM
        (fun p f => p.addConstraint f.1 f.2) q =
      (m.cashFlowFamilies c).foldlM (fun p f => p.addFamily f.1 f.2) q := by
    intro q
    rw [cashFlowFamilies, List.foldlM_map]
    simp only [Program.addConstraint_eq]
  have names : (∀ f ∈ m.cashFlowFamilies c, f.1 ∉ m.program.families) ↔
      ∀ f ∈ CashFlowVars.families, f ∉ m.program.families := by
    rw [← map_fst_cashFlowFamilies m c, List.forall_mem_map]
  -- the second expression is looked up behind the first one, which has another name
  have second : ∀ e : Affine α, (m.program.expressions ++ [("NPV", e)]).lookup "Annualized_NPV" =
      m.program.expression? "Annualized_NPV" := by
    intro e
    have other : [("NPV", e)].lookup "Annualized_NPV" = none := by simp
    rw [List.lookup_append, other, Option.or_none]
    rfl
  have step := folded (m.program.addVariables CashFlowVars.specs)
  simp only [cashFlowStart] at step
  unfold cashFlowProgram
  simp only [step, bind_eq_ok_iff, Program.foldlM_addFamily_eq_ok_iff,
    Program.addExpression_eq_ok_iff, Program.setObjective_eq_ok_iff]
  constructor
  · rintro ⟨_, ⟨-, new, rfl⟩, _, ⟨npv, rfl⟩, _, ⟨yearly, rfl⟩, free, rfl⟩
    refine ⟨names.1 new, npv, (second _).symm.trans yearly, free, ?_⟩
    simp [settledProgram, cashFlowStart, Program.addVariables]
  · rintro ⟨new, npv, yearly, free, rfl⟩
    refine ⟨_, ⟨?_, names.2 new, rfl⟩, _, ⟨npv, rfl⟩, _, ⟨(second _).trans yearly, rfl⟩,
      free, ?_⟩
    · rw [map_fst_cashFlowFamilies]
      decide
    · simp [settledProgram, cashFlowStart, Program.addVariables]

/-- Cash flows are added when their settings are valid and nothing of them is there yet. -/
theorem withCashFlows_eq_ok_iff {m m' : DispatchModel α} {c : CashFlowParams α} :
    m.withCashFlows c = .ok m' ↔
      c.validate = .ok () ∧ (∀ f ∈ CashFlowVars.families, f ∉ m.program.families) ∧
        m.program.expression? "NPV" = none ∧ m.program.expression? "Annualized_NPV" = none ∧
        m.program.objective = none ∧ m.settled c = m' := by
  unfold withCashFlows
  simp only [bind_eq_ok_iff, pure_eq_ok_iff, Program.ensureNew_eq_ok_iff,
    Program.ensureNoObjective_eq_ok_iff, cashFlowProgram_eq_ok_iff]
  constructor
  · rintro ⟨_, valid, _, -, _, -, _, ⟨new, npv, yearly, free, rfl⟩, rfl⟩
    exact ⟨valid, new, npv, yearly, free, rfl⟩
  · rintro ⟨valid, new, npv, yearly, free, rfl⟩
    exact ⟨(), valid, (), new, (), free, _, ⟨new, npv, yearly, free, rfl⟩, rfl⟩

end CashFlows

/-! ## §3. Names -/

section Names

variable {α : Type} [Scalar α] {prices : PriceSet α} {fleet : Fleet α} {weighted : Bool}
  {keys : List (PeriodKey × α)}

/-- A name without a point is not that of a family of a unit. -/
theorem not_mem_families_built {name : String} (h : '.' ∉ name.toList) :
    name ∉ (built prices fleet weighted keys).program.families := by
  intro hname
  exact h (point_mem_of_mem_families_built hname)

/-- Nor is it taken after a stage whose names are different. -/
theorem not_mem_families_extend {name : String} (h : '.' ∉ name.toList) {fs : List (Family α)}
    (hfs : name ∉ fs.map (·.1)) :
    name ∉ ((built prices fleet weighted keys).program.extend fs).families := by
  rw [Program.mem_families_extend, not_or]
  refine ⟨not_mem_families_built h, ?_⟩
  rintro ⟨f, hf, rfl⟩
  exact hfs (List.mem_map_of_mem hf)

theorem point_mem_unitSpecs {spec : VariableSpec α}
    (hspec : spec ∈ unitSpecs fleet.operating keys) : '.' ∈ spec.name.toList := by
  obtain ⟨v, hv⟩ := List.mem_iff_getElem?.1 hspec
  obtain ⟨t, k, u, g, i, -, -, hi, -⟩ := unitSpecs_cases hv
  have hmem := List.mem_of_getElem? hi
  simp only [ThermalGenerator.blockVariables, List.mem_cons, List.not_mem_nil, or_false] at hmem
  rcases hmem with rfl | rfl | rfl
  · simp
  · simp
  · simp

end Names

section CashFlowNames

variable {α : Type} [Analytic α] {m : DispatchModel α}

/-- Where all variables have a point in their names, a name of a cash flow is that of a variable
that the cash flows add. -/
theorem find?_settled (c : CashFlowParams α)
    (pointed : ∀ spec ∈ m.program.specs.toList, '.' ∈ spec.name.toList) {name : String} {i : Nat}
    (h : '.' ∉ name.toList)
    (hi : (CashFlowVars.specs (α := α)).findIdx? (fun spec => spec.name == name) = some i) :
    (m.settled c).program.find? name = some (m.program.size + i) := by
  have none_before : m.program.specs.toList.findIdx? (fun spec => spec.name == name) = none := by
    rw [List.findIdx?_eq_none_iff]
    intro spec hspec
    rw [beq_eq_false_iff_ne]
    rintro rfl
    exact h (pointed spec hspec)
  have specs : (m.settled c).program.specs =
      (m.program.specs.toList ++ CashFlowVars.specs).toArray := by
    show m.program.specs ++ CashFlowVars.specs.toArray = _
    rw [← List.append_toArray, Array.toArray_toList]
  rw [Program.find?, specs, List.findIdx?_toArray, List.findIdx?_append, none_before, hi,
    Array.length_toList]
  simp [Program.size, Nat.add_comm]

theorem cashFlowVars?_settled (c : CashFlowParams α)
    (pointed : ∀ spec ∈ m.program.specs.toList, '.' ∈ spec.name.toList) :
    (m.settled c).cashFlowVars? = some m.cashFlowStart := by
  have found (name : String) (i : Nat) := @find?_settled α _ m c pointed name i
  unfold cashFlowVars?
  rw [found "CAPEX" 0 (by decide) rfl, found "FOM" 1 (by decide) rfl,
    found "DEPRECIATION" 2 (by decide) rfl, found "NET_CASH_INFLOW" 3 (by decide) rfl,
    found "CORP_TAX" 4 (by decide) rfl, found "NET_PROFIT" 5 (by decide) rfl]
  rfl

end CashFlowNames

end DispatchModel

/-! ## §4. All stages -/

/-- The variables of the cash flows behind those of some units in some positions. -/
def CashFlowVars.behind (units positions : Nat) : CashFlowVars :=
  .startingAt (blockStart units positions 0)

theorem CashFlowGoal.parse_word {α : Type} (goal : CashFlowGoal) :
    (CashFlowGoal.parse (Vocabulary.word goal) : Except (Fault α) CashFlowGoal) = .ok goal := by
  cases goal <;> rfl

namespace Stages

open DispatchModel

variable {α : Type} [Analytic α]

/-- The settings of the cash flows with a goal in the place of their own. -/
def cashFlowFor (s : Stages α) (goal : CashFlowGoal) : CashFlowParams α :=
  { s.cashFlow with goal }

/-- The families of all stages in the order of their addition, for a model as it was built. -/
def families (s : Stages α) (goal : CashFlowGoal) (m : DispatchModel α) : List (Family α) :=
  rampFamilies s.ramping m.periods ++ windowFamilies s.times m.periods ++
    m.cashFlowFamilies (s.cashFlowFor goal)

/-- The model of all stages for priced keys. -/
def assembled (s : Stages α) (prices : PriceSet α) (fleet : Fleet α) (goal : CashFlowGoal)
    (keys : List (PeriodKey × α)) : DispatchModel α :=
  let m := built prices fleet true keys
  ((m.extend (rampFamilies s.ramping m.periods)).extend
    (windowFamilies s.times m.periods)).settled (s.cashFlowFor goal)

/-- The names of the families that limit ramping. -/
def rampNames : List String := ["ramp_up_con", "ramp_down_con"]

/-- The names of the families of up and down times. -/
def windowNames : List String := ["startup_con", "shutdown_con"]

theorem plain_names :
    ∀ name ∈ rampNames ++ windowNames ++ CashFlowVars.families, '.' ∉ name.toList := by
  decide

theorem distinct_names :
    (∀ name ∈ windowNames, name ∉ rampNames) ∧
      ∀ name ∈ CashFlowVars.families, name ∉ rampNames ++ windowNames := by
  decide

/-- Assembling succeeds when the word names a goal and all that goes in is valid. -/
theorem assemble_eq_ok_iff {s : Stages α} {prices : PriceSet α} {fleet : Fleet α} {word : String}
    {m : DispatchModel α} :
    s.assemble prices fleet word = .ok m ↔
      ∃ goal keys, (CashFlowGoal.parse word : Except (Fault α) CashFlowGoal) = .ok goal ∧
        s.ramping.validate = .ok () ∧ (s.times.validate : Except (Fault α) Unit) = .ok () ∧
        (s.cashFlowFor goal).validate = .ok () ∧ fleet.validate = .ok () ∧
        prices.sets.periods ≠ [] ∧ priced prices prices.sets.periods = .ok keys ∧
        s.assembled prices fleet goal keys = m := by
  unfold assemble
  simp only [bind_eq_ok_iff, build_eq_ok_iff, withRamping_eq_ok_iff, withUpDownTimes_eq_ok_iff,
    withCashFlows_eq_ok_iff]
  constructor
  · rintro ⟨goal, hgoal, _, -, _, -, _, -, _, ⟨hfleet, hne, keys, hkeys, rfl⟩, _,
      ⟨hramp, -, rfl⟩, _, ⟨htimes, -, rfl⟩, hcash, -, -, -, -, rfl⟩
    exact ⟨goal, keys, hgoal, hramp, htimes, hcash, hfleet, hne, hkeys, rfl⟩
  · rintro ⟨goal, keys, hgoal, hramp, htimes, hcash, hfleet, hne, hkeys, rfl⟩
    refine ⟨goal, hgoal, _, hramp, _, htimes, _, hcash, _, ⟨hfleet, hne, keys, hkeys, rfl⟩, _,
      ⟨hramp, ?_, rfl⟩, _, ⟨htimes, ?_, rfl⟩, hcash, ?_, rfl, rfl, rfl, rfl⟩
    -- no name of a stage is taken: not by the units, and not by the stages before
    · intro f hf
      have hname : f.1 ∈ rampNames := List.mem_map_of_mem hf
      exact not_mem_families_built (plain_names _ (by simp [hname]))
    · intro f hf
      have hname : f.1 ∈ windowNames := List.mem_map_of_mem hf
      refine not_mem_families_extend (plain_names _ (by simp [hname])) ?_
      exact distinct_names.1 _ hname
    · intro f hname
      rw [extend_program, extend_program, Program.extend_extend]
      refine not_mem_families_extend (plain_names _ (by simp [hname])) ?_
      rw [List.map_append]
      exact distinct_names.2 _ hname

/-- Valid settings and units have an assembled model for the prices of any hours. -/
theorem assemble_hourly {s : Stages α} {fleet : Fleet α} {goal : CashFlowGoal} {values : List α}
    (some_value : values ≠ []) (ramping : s.ramping.validate = .ok ())
    (times : (s.times.validate : Except (Fault α) Unit) = .ok ())
    (cashFlow : (s.cashFlowFor goal).validate = .ok ()) (valid : fleet.validate = .ok ()) :
    s.assemble (PriceSet.ofColumns none values.length [(none, values)]) fleet
        (Vocabulary.word goal) =
      .ok (s.assembled (PriceSet.ofColumns none values.length [(none, values)]) fleet goal
        (PriceSet.hourly none values)) :=
  assemble_eq_ok_iff.2 ⟨goal, _, CashFlowGoal.parse_word goal, ramping, times, cashFlow, valid,
    PriceSet.periods_hourly_ne_nil some_value, DispatchModel.priced_hourly values, rfl⟩

/-! ## §5. Reading the assembled model -/

section Reading

variable (s : Stages α) (prices : PriceSet α) (fleet : Fleet α) (goal : CashFlowGoal)
  (keys : List (PeriodKey × α))

@[simp] theorem assembled_periods :
    (s.assembled prices fleet goal keys).periods = (built prices fleet true keys).periods := rfl

@[simp] theorem size_assembled : (s.assembled prices fleet goal keys).size = keys.length := by
  rw [DispatchModel.size, assembled_periods, length_built_periods]

theorem assembled_specs :
    (s.assembled prices fleet goal keys).program.specs =
      (unitSpecs fleet.operating keys ++ CashFlowVars.specs).toArray := by
  show (built prices fleet true keys).program.specs ++ CashFlowVars.specs.toArray = _
  rw [built_specs, List.append_toArray]

/-- Three extensions one after the other are one, as far as constraints go. -/
theorem assembled_constraints :
    (s.assembled prices fleet goal keys).program.constraints =
      ((built prices fleet true keys).program.extend
        (s.families goal (built prices fleet true keys))).constraints := by
  rw [families, ← Program.extend_extend, ← Program.extend_extend]
  rfl

/-- The constraints are those of the blocks and the members of the families of the stages. -/
theorem mem_constraints_assembled {c : Constraint α} :
    c ∈ (s.assembled prices fleet goal keys).program.constraints ↔
      c ∈ (built prices fleet true keys).program.constraints ∨
        ∃ f ∈ s.families goal (built prices fleet true keys), ∃ x ∈ f.2, c = ⟨f.1, x.1, x.2⟩ := by
  rw [assembled_constraints, Program.mem_constraints_extend]

theorem cashFlowVars?_assembled :
    (s.assembled prices fleet goal keys).cashFlowVars? =
      some (.behind fleet.operating.length keys.length) := by
  -- the stages before the cash flows add no variables
  refine (cashFlowVars?_settled (s.cashFlowFor goal) ?_).trans ?_
  · show ∀ spec ∈ (built prices fleet true keys).program.specs.toList, '.' ∈ spec.name.toList
    rw [built_specs]
    exact fun spec => point_mem_unitSpecs
  · show some (CashFlowVars.startingAt (built prices fleet true keys).program.size) = _
    rw [size_built, CashFlowVars.behind]

end Reading

end Stages

end PlantEconomics
