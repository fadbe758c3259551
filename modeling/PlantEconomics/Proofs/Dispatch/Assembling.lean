import PlantEconomics.Proofs.Dispatch.Feasibility
import PlantEconomics.Proofs.Dispatch.Ramping

/-!
# When assembling succeeds, and how large the result is

Assembling checks what goes in and then cannot fail any more: `Stages.assemble_eq_checks` writes it
as a chain of checks with the assembled model behind the last one. So the conditions of success are
those of the checks, `Stages.Accepts`, and a fault that comes out is the fault of a check. None of
them is about something that is defined twice.

The size of the assembled model follows from its parts. A unit has three variables and two
constraints in every period, and the stages add a constraint for each position that they look at;
their windows lie within the horizon however long the up and down times are.

  * `assemble_exact` puts all of it together.
-/

namespace PlantEconomics

/-- Whether a fault is that something is defined already. -/
def Fault.isRedefinition {α : Type} : Fault α → Bool
  | .configuration (.familyDefined _) => true
  | .configuration (.expressionDefined _) => true
  | .configuration (.objectiveDefined _) => true
  | _ => false

/-! ## §1. Goals by name -/

theorem CashFlowGoal.parse_eq_ok_iff {α : Type} {word : String} {goal : CashFlowGoal} :
    (CashFlowGoal.parse word : Except (Fault α) CashFlowGoal) = .ok goal ↔
      Vocabulary.word goal = word := by
  constructor
  · intro h
    unfold parse at h
    cases hread : (Vocabulary.read? word : Option CashFlowGoal) with
    | none => simp [hread] at h
    | some g =>
      simp only [hread, Except.ok.injEq] at h
      subst h
      exact Vocabulary.word_of_read? hread
  · rintro rfl
    exact parse_word goal

/-- The names of the goals. -/
def CashFlowGoal.names : List String := (Vocabulary.all : List CashFlowGoal).map Vocabulary.word

theorem CashFlowGoal.exists_parse_iff {α : Type} {word : String} :
    (∃ goal, (CashFlowGoal.parse word : Except (Fault α) CashFlowGoal) = .ok goal) ↔
      word ∈ names := by
  simp only [parse_eq_ok_iff, names, List.mem_map]
  constructor
  · rintro ⟨goal, rfl⟩
    refine ⟨goal, ?_, rfl⟩
    cases goal <;> decide
  · rintro ⟨goal, -, rfl⟩
    exact ⟨goal, rfl⟩

/-! ## §2. Assembling as a chain of checks -/

namespace Stages

open DispatchModel

variable {α : Type} [Analytic α]

/-- What goes in is accepted: the word is one of three names, all settings and units are valid, and
there is a period and a price for each. -/
structure Accepts (s : Stages α) (prices : PriceSet α) (fleet : Fleet α) (word : String) :
    Prop where
  goal : word ∈ ["NPV", "Annualized NPV", "Net Profit"]
  ramping : s.ramping.validate = .ok ()
  times : 1 ≤ s.times.up ∧ 1 ≤ s.times.down
  cashFlow : s.cashFlow.validate = .ok ()
  operating : ∀ g ∈ fleet.operating, g.validate = .ok ()
  built : ∀ g ∈ fleet.built, g.validate = .ok ()
  some_period : prices.sets.periods ≠ []
  priced : ∀ k ∈ prices.sets.periods, ∃ v, prices.price? k = some v

/-- The checks of assembling in their order; what comes behind them cannot fail. -/
theorem assemble_eq_checks (s : Stages α) (prices : PriceSet α) (fleet : Fleet α)
    (word : String) :
    s.assemble prices fleet word = (do
      let goal ← CashFlowGoal.parse word
      s.ramping.validate
      s.times.validate
      s.cashFlow.validate
      fleet.validate
      if prices.sets.periods.isEmpty then throw (.dataShape .noPeriods)
      let keys ← DispatchModel.priced prices prices.sets.periods
      return s.assembled prices fleet goal keys) := by
  unfold assemble
  refine bind_congr_of_ok fun goal hgoal => ?_
  refine bind_congr_of_ok fun _ hramping => ?_
  refine bind_congr_of_ok fun _ htimes => ?_
  refine bind_congr_of_ok fun _ hcashFlow => ?_
  show build prices fleet true >>= _ = _
  unfold build
  rw [bind_assoc]
  refine bind_congr_of_ok fun _ hfleet => ?_
  cases hperiods : prices.sets.periods with
  | nil => rfl
  | cons k ks =>
    simp only [List.isEmpty_cons, Bool.false_eq_true, if_false]
    rw [bind_assoc]
    refine bind_congr_of_ok fun keys hkeys => ?_
    -- all checks have passed, so assembling gives the assembled model, and its last steps do
    have all := assemble_eq_ok_iff.2 ⟨goal, keys, hgoal, hramping, htimes, hcashFlow, hfleet,
      hperiods ▸ List.cons_ne_nil k ks, hperiods ▸ hkeys, rfl⟩
    simp only [assemble, build, hgoal, hramping, htimes, hcashFlow, hfleet, hperiods, hkeys, bind,
      Except.bind, List.isEmpty_cons, Bool.false_eq_true, if_false] at all
    exact all

end Stages

/-! ## §3. The faults of the checks -/

section Faults

variable {α : Type}

theorem CashFlowGoal.isRedefinition_of_parse_eq_error {word : String} {f : Fault α}
    (h : CashFlowGoal.parse word = .error f) : f.isRedefinition = false := by
  unfold parse at h
  split at h
  · exact absurd h (by simp)
  · cases h
    rfl

theorem UpDownTimes.isRedefinition_of_validate_eq_error {t : UpDownTimes} {f : Fault α}
    (h : t.validate = .error f) : f.isRedefinition = false := by
  unfold validate at h
  split at h
  · cases h
    rfl
  · exact absurd h (by simp)

theorem DispatchModel.isRedefinition_of_priced_eq_error {prices : PriceSet α}
    {ks : List PeriodKey} {f : Fault α} (h : priced prices ks = .error f) :
    f.isRedefinition = false := by
  obtain ⟨k, -, hk⟩ := exists_mem_of_mapM_eq_error h
  split at hk
  · exact absurd hk (by simp)
  · cases hk
    rfl

variable [Scalar α]

theorem RampingLimits.isRedefinition_of_validate_eq_error {l : RampingLimits α} {f : Fault α}
    (h : l.validate = .error f) : f.isRedefinition = false := by
  unfold validate at h
  split at h
  · cases h
    rfl
  · exact absurd h (by simp)

theorem CashFlowParams.isRedefinition_of_validate_eq_error {c : CashFlowParams α} {f : Fault α}
    (h : c.validate = .error f) : f.isRedefinition = false := by
  unfold validate at h
  repeat' split at h
  all_goals cases h
  all_goals rfl

theorem ThermalGenerator.isRedefinition_of_validate_eq_error {g : ThermalGenerator α}
    {f : Fault α} (h : g.validate = .error f) : f.isRedefinition = false := by
  unfold validate at h
  repeat' split at h
  all_goals cases h
  all_goals rfl

theorem Fleet.isRedefinition_of_validate_eq_error {fleet : Fleet α} {f : Fault α}
    (h : fleet.validate = .error f) : f.isRedefinition = false := by
  rcases bind_eq_error_iff.1 h with operating | ⟨_, -, built⟩
  · obtain ⟨g, -, hg⟩ := exists_mem_of_forM_eq_error operating
    exact ThermalGenerator.isRedefinition_of_validate_eq_error hg
  · obtain ⟨g, -, hg⟩ := exists_mem_of_forM_eq_error built
    exact ThermalGenerator.isRedefinition_of_validate_eq_error hg

end Faults

/-! ## §4. Sizes -/

namespace DispatchModel

variable {α : Type}

/-- The periods that a sum of starts goes over. -/
def window (periods : List (Period α)) (first last : Nat) : List (Period α) :=
  (periods.drop first).take (last - first)

/-- A window within the horizon lacks no period. -/
theorem length_window {periods : List (Period α)} {first last : Nat} (h : last ≤ periods.length) :
    (window periods first last).length = last - first := by
  rw [window, List.length_take, List.length_drop]
  omega

variable [Scalar α]

/-- Starts are summed over a window, so a window that lacks nothing is a sum without a gap. -/
theorem startsIn_eq_sum_window (periods : List (Period α)) (first last : Nat) :
    startsIn periods first last = Affine.sum ((window periods first last).map (·.starting)) := rfl

theorem length_startupWindows (up : Nat) (periods : List (Period α)) :
    (startupWindows up periods).length = periods.length - up := by
  simp [startupWindows, positionsFrom]

theorem length_shutdownWindows (down : Nat) (periods : List (Period α)) :
    (shutdownWindows down periods).length = periods.length - down := by
  simp [shutdownWindows, positionsFrom]

end DispatchModel

namespace Stages

open DispatchModel

variable {α : Type} [Analytic α]

/-- The families of the stages have a member for each position that the stage looks at, and each
cash flow has one. -/
theorem sum_length_families (s : Stages α) (goal : CashFlowGoal) (m : DispatchModel α) :
    ((s.families goal m).map fun f => f.2.length).sum =
      2 * (m.size - 2) + (m.size - s.times.up) + (m.size - s.times.down) + 6 := by
  have flows : ((m.cashFlowFamilies (s.cashFlowFor goal)).map fun f => f.2.length).sum = 6 := rfl
  rw [families, List.map_append, List.map_append, List.sum_append, List.sum_append, flows]
  simp only [rampFamilies, windowFamilies, List.map_cons, List.map_nil, List.sum_cons,
    List.sum_nil, length_neighbours, length_startupWindows, length_shutdownWindows]
  show _ = 2 * (m.periods.length - 2) + (m.periods.length - s.times.up) +
    (m.periods.length - s.times.down) + 6
  omega

/-- The members of a family of the stages are those that it is added with. -/
theorem familyMembers_assembled (s : Stages α) (prices : PriceSet α) (fleet : Fleet α)
    (goal : CashFlowGoal) (keys : List (PeriodKey × α)) {name : String}
    (plain : '.' ∉ name.toList) :
    (s.assembled prices fleet goal keys).program.familyMembers name =
      ((s.families goal (built prices fleet true keys)).filter (·.1 == name)).flatMap fun f =>
        f.2.map fun m => ⟨name, m.1, m.2⟩ := by
  unfold Program.familyMembers
  rw [assembled_constraints]
  exact familyMembers_extend_built plain _

/-- How large a model is that stages give for some units and periods, and what its windows of starts
are: every member of up and down times sums the starts of a window, and no window reaches out of the
horizon. -/
structure SizedFor (s : Stages α) (units periods : Nat) (m : DispatchModel α) : Prop where
  size : m.size = periods
  width : m.program.size = 3 * units * periods + 6
  constraints : m.program.constraints.length =
    2 * units * periods + 2 * (periods - 2) + (periods - s.times.up) + (periods - s.times.down) + 6
  upMembers : m.program.familyMembers "startup_con" =
    (positionsFrom s.times.up m.periods).map fun t =>
      ⟨"startup_con", .position t, .le
        (Affine.sum ((window m.periods (t + 1 - s.times.up) t).map (·.starting)))
        (onlineAt m.periods t)⟩
  downMembers : m.program.familyMembers "shutdown_con" =
    (positionsFrom s.times.down m.periods).map fun t =>
      ⟨"shutdown_con", .position t, .le
        (Affine.sum ((window m.periods (t - s.times.down) (t + 1)).map (·.starting)))
        (Affine.const 1 - onlineAt m.periods (t - s.times.down))⟩
  upWindow : ∀ t ∈ positionsFrom s.times.up m.periods, t < m.periods.length ∧
    (window m.periods (t + 1 - s.times.up) t).length = s.times.up - 1
  downWindow : ∀ t ∈ positionsFrom s.times.down m.periods, t - s.times.down < m.periods.length ∧
    (window m.periods (t - s.times.down) (t + 1)).length = s.times.down + 1

theorem sizedFor_assembled (s : Stages α) (prices : PriceSet α) (fleet : Fleet α)
    (goal : CashFlowGoal) (keys : List (PeriodKey × α)) (up : 1 ≤ s.times.up) :
    s.SizedFor fleet.operating.length keys.length (s.assembled prices fleet goal keys) where
  size := size_assembled ..
  width := by
    rw [Program.size, assembled_specs, List.size_toArray, List.length_append, length_unitSpecs]
    show 3 * (keys.length * fleet.operating.length + 0) + 6 = _
    ring
  constraints := by
    rw [assembled_constraints, Program.length_constraints_extend, length_constraints_built,
      sum_length_families, DispatchModel.size, length_built_periods]
    ring
  upMembers := by
    have own : (s.families goal (built prices fleet true keys)).filter (·.1 == "startup_con") =
        [("startup_con", startupWindows s.times.up (built prices fleet true keys).periods)] := rfl
    rw [familyMembers_assembled s prices fleet goal keys (by decide), own, List.flatMap_singleton,
      startupWindows, List.map_map]
    simp only [startsIn_eq_sum_window]
    rfl
  downMembers := by
    have own : (s.families goal (built prices fleet true keys)).filter (·.1 == "shutdown_con") =
        [("shutdown_con", shutdownWindows s.times.down (built prices fleet true keys).periods)] :=
      rfl
    rw [familyMembers_assembled s prices fleet goal keys (by decide), own, List.flatMap_singleton,
      shutdownWindows, List.map_map]
    simp only [startsIn_eq_sum_window]
    rfl
  upWindow := by
    intro t ht
    obtain ⟨low, high⟩ := mem_positionsFrom.1 ht
    refine ⟨high, ?_⟩
    rw [length_window (Nat.le_of_lt high)]
    omega
  downWindow := by
    intro t ht
    obtain ⟨low, high⟩ := mem_positionsFrom.1 ht
    refine ⟨by omega, ?_⟩
    rw [length_window high]
    omega

/-! ## §5. Assembling -/

theorem exists_assemble_iff {s : Stages α} {prices : PriceSet α} {fleet : Fleet α}
    {word : String} :
    (∃ m, s.assemble prices fleet word = .ok m) ↔ s.Accepts prices fleet word := by
  simp only [assemble_eq_ok_iff]
  constructor
  · rintro ⟨_, goal, keys, hgoal, ramping, times, cashFlow, valid, some_period, priced, -⟩
    obtain ⟨operating, built⟩ := Fleet.validate_eq_ok_iff.1 valid
    refine ⟨CashFlowGoal.exists_parse_iff.1 ⟨goal, hgoal⟩, ramping,
      UpDownTimes.validate_eq_ok_iff.1 times, cashFlow, operating, built, some_period, ?_⟩
    intro k hk
    obtain ⟨listed, found⟩ := priced_eq_ok_iff.1 priced
    rw [← listed] at hk
    obtain ⟨e, he, rfl⟩ := List.mem_map.1 hk
    exact ⟨e.2, found e he⟩
  · intro h
    obtain ⟨goal, hgoal⟩ := CashFlowGoal.exists_parse_iff (α := α).2 h.goal
    obtain ⟨keys, hkeys⟩ : ∃ keys, DispatchModel.priced prices prices.sets.periods = .ok keys := by
      refine exists_mapM_eq_ok fun k hk => ?_
      obtain ⟨v, hv⟩ := h.priced k hk
      exact ⟨(k, v), by simp [hv]⟩
    exact ⟨_, goal, keys, hgoal, h.ramping, UpDownTimes.validate_eq_ok_iff.2 h.times, h.cashFlow,
      Fleet.validate_eq_ok_iff.2 ⟨h.operating, h.built⟩, h.some_period, hkeys, rfl⟩

theorem isRedefinition_of_assemble_eq_error {s : Stages α} {prices : PriceSet α}
    {fleet : Fleet α} {word : String} {f : Fault α}
    (h : s.assemble prices fleet word = .error f) : f.isRedefinition = false := by
  -- the fault is that of the first check that fails
  rw [assemble_eq_checks] at h
  rcases bind_eq_error_iff.1 h with h | ⟨_, -, h⟩
  · exact CashFlowGoal.isRedefinition_of_parse_eq_error h
  rcases bind_eq_error_iff.1 h with h | ⟨_, -, h⟩
  · exact RampingLimits.isRedefinition_of_validate_eq_error h
  rcases bind_eq_error_iff.1 h with h | ⟨_, -, h⟩
  · exact UpDownTimes.isRedefinition_of_validate_eq_error h
  rcases bind_eq_error_iff.1 h with h | ⟨_, -, h⟩
  · exact CashFlowParams.isRedefinition_of_validate_eq_error h
  rcases bind_eq_error_iff.1 h with h | ⟨_, -, h⟩
  · exact Fleet.isRedefinition_of_validate_eq_error h
  cases hperiods : prices.sets.periods with
  | nil =>
    rw [hperiods] at h
    cases h
    rfl
  | cons k ks =>
    rw [hperiods] at h
    rcases bind_eq_error_iff.1 h with h | ⟨_, -, h⟩
    · exact DispatchModel.isRedefinition_of_priced_eq_error h
    · cases h

/-- **Assembling succeeds exactly when what goes in is accepted.** The model then has the exact size
for its units and periods; and if it fails, then not because something would be defined twice,
whatever the units are called. -/
theorem assemble_exact (s : Stages α) (prices : PriceSet α) (fleet : Fleet α) (word : String) :
    ((∃ m, s.assemble prices fleet word = .ok m) ↔ s.Accepts prices fleet word) ∧
    (∀ m, s.assemble prices fleet word = .ok m →
      s.SizedFor fleet.operating.length prices.sets.periods.length m) ∧
    ∀ f, s.assemble prices fleet word = .error f → f.isRedefinition = false := by
  refine ⟨exists_assemble_iff, ?_, fun f => isRedefinition_of_assemble_eq_error⟩
  intro m hm
  obtain ⟨goal, keys, -, -, times, -, -, -, priced, rfl⟩ := assemble_eq_ok_iff.1 hm
  obtain ⟨up, -⟩ := UpDownTimes.validate_eq_ok_iff.1 times
  rw [← (priced_eq_ok_iff.1 priced).1, List.length_map]
  exact sizedFor_assembled s prices fleet goal keys up

/-- Two units of one name over three hours, which are fewer than the up and the down time. -/
theorem assemble_exact_same_name :
    ∃ m, (standard : Stages ℝ).assemble (PriceSet.ofColumns none 3 [(none, [30, 30, 30])])
        ((Fleet.empty.withUnit .standard).withOperation .standard) "NPV" = .ok m ∧
      m.program.size = 24 ∧ m.program.constraints.length = 20 := by
  have valid : ((Fleet.empty.withUnit .standard).withOperation
      (.standard : ThermalGenerator ℝ)).validate = .ok () := by
    have unit : (.standard : ThermalGenerator ℝ).validate = .ok () :=
      ThermalGenerator.validate_standard "thermal"
    rw [Fleet.validate_eq_ok_iff]
    simp [Fleet.empty, Fleet.withUnit, Fleet.withDesign, Fleet.withOperation, unit]
  have assembled := standard_assemble valid .presentValue (List.cons_ne_nil (30 : ℝ) [30, 30])
  have sized := (assemble_exact ..).2.1 _ assembled
  exact ⟨_, assembled, sized.width, sized.constraints⟩

end Stages

end PlantEconomics
