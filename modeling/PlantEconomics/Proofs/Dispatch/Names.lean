import PlantEconomics.Proofs.Dispatch.Runs
import PlantEconomics.Proofs.Market.KeyText
import PlantEconomics.Proofs.Market.TimeOrder
import PlantEconomics.Proofs.Program.Names

/-!
# Names in dispatch models

The name of a variable is made of the name of its unit, an ending and the key of its period. The name
of a family is made of the first two, and the key is the index of its constraints. Units may have any
names, also such as look like the name of a variable. Still the key is told from what stands in front
of it, and the ending from the name of the unit, so names and places are different exactly when the
names of the units are. What stages add has no point in its name, so it meets nothing of a unit.

  * `DispatchModel.nodup_names_built_iff`, `DispatchModel.nodup_places_built_iff`: built models;
  * `Stage.nodup_names_of_run_iff`, `Stage.nodup_places_of_run_iff`: stages change nothing about it;
  * `Stage.finds_of_run`, `Stage.cashFlowVars?_of_cashFlow`: what is found;
  * `Stage.names_distinct_iff` is about loaded prices, fleets and stages.
-/

namespace PlantEconomics

/-! ## §1. Built models -/

namespace DispatchModel

variable {α : Type}

/-- Where all names have a point, there are no variables of cash flows. -/
theorem cashFlowVars?_eq_none {m : DispatchModel α}
    (pointed : ∀ name ∈ m.program.names, '.' ∈ name.toList) : m.cashFlowVars? = none := by
  have building : m.program.find? "CAPEX" = none := by
    rw [Program.find?, Array.findIdx?_eq_none_iff]
    intro spec hspec
    rw [beq_eq_false_iff_ne]
    intro same
    have point := pointed spec.name (List.mem_map_of_mem (Array.mem_toList_iff.2 hspec))
    rw [same] at point
    exact absurd point (by decide)
  unfold cashFlowVars?
  rw [building]
  rfl

variable [Scalar α]

/-- What the names of the variables of a unit end with, in front of the key. -/
def variableEndings : List String := [".op_mode", ".startup", ".power"]

/-- What the names of the families of a unit end with. -/
def familyEndings : List String := [".power_max", ".power_min"]

/-- The names of the variables of a unit in a period. -/
def namesIn (unit : String) (k : PeriodKey) : List String :=
  variableEndings.map fun s => unit ++ s ++ k.text

/-- The places of the constraints of a unit in a period. -/
def placesIn (unit : String) (k : PeriodKey) : List (String × Index) :=
  familyEndings.map fun s => (unit ++ s, .period k)

/-- What blocks have by unit and period, all blocks have by period and unit. -/
theorem flatMap_blocks {γ : Type} (part : OperationBlock α → List γ)
    (cell : String → PeriodKey → List γ)
    (same : ∀ (g : ThermalGenerator α) k price first, part (g.block k price first) = cell g.name k)
    (units : List (ThermalGenerator α)) (keys : List (PeriodKey × α)) :
    (blocks units keys).flatten.flatMap part =
      (keys.map (·.1)).flatMap fun k => (units.map (·.name)).flatMap fun unit => cell unit k := by
  have row (t : Nat) (k : PeriodKey × α) : (blocksAt units t k.1 k.2).flatMap part =
      (units.map (·.name)).flatMap fun unit => cell unit k.1 := by
    rw [blocksAt, flatMap_mapIdx (h := fun g => cell g.name k.1) (fun u g => same g ..),
      List.flatMap_map]
  rw [List.flatten_eq_flatMap, List.flatMap_assoc, blocks, List.flatMap_map]
  exact flatMap_mapIdx row keys

theorem apart_variableEndings : ∀ s ∈ variableEndings, ∀ s' ∈ variableEndings,
    s.toList <:+ s'.toList → s = s' := by
  decide

theorem apart_familyEndings : ∀ s ∈ familyEndings, ∀ s' ∈ familyEndings,
    s.toList <:+ s'.toList → s = s' := by
  decide

section Built

variable {prices : PriceSet α} {fleet : Fleet α} {weighted : Bool} {keys : List (PeriodKey × α)}

theorem names_built : (built prices fleet weighted keys).program.names =
    (keys.map (·.1)).flatMap fun k =>
      (fleet.operating.map (·.name)).flatMap fun unit => namesIn unit k := by
  rw [Program.names, built_specs, List.toList_toArray, unitSpecs, List.map_flatMap]
  exact flatMap_blocks (fun b => b.specs.map (·.name)) namesIn (fun _ _ _ _ => rfl) _ keys

theorem perm_places_built : (built prices fleet weighted keys).program.places.Perm
    ((keys.map (·.1)).flatMap fun k =>
      (fleet.operating.map (·.name)).flatMap fun unit => placesIn unit k) := by
  have grid := flatMap_blocks (fun b => b.members.map fun m => (m.family, m.index)) placesIn
    (fun _ _ _ _ => rfl) fleet.operating keys
  have gathered := (unitDraft fleet.operating keys).perm_gathered.map fun c => (c.family, c.index)
  rw [List.map_map] at gathered
  rw [← grid, ← List.map_flatMap]
  exact gathered

variable (listed : keys.map (·.1) = prices.sets.periods) (distinct : prices.sets.periods.Nodup)
  (some_period : prices.sets.periods ≠ [])

include listed distinct some_period

theorem nodup_names_built_iff : (built prices fleet weighted keys).program.names.Nodup ↔
    (fleet.operating.map (·.name)).Nodup := by
  rw [names_built, listed]
  refine nodup_grid_iff distinct some_period (fun _ _ => by simp [namesIn, variableEndings]) ?_ ?_
  · intro unit k
    have different : variableEndings.Nodup := by decide
    refine different.map fun s s' same => ?_
    exact (String.append_right_inj unit).1 ((String.append_left_inj k.text).1 same)
  · intro k hk k' hk' unit unit' name hname hname'
    obtain ⟨s, hs, rfl⟩ := List.mem_map.1 hname
    obtain ⟨s', hs', same⟩ := List.mem_map.1 hname'
    obtain ⟨front, rfl⟩ := IndexSets.name_key_inj hk' hk same
    exact ⟨(append_ending_inj apart_variableEndings hs' hs front).1.symm, rfl⟩

theorem nodup_places_built_iff : (built prices fleet weighted keys).program.places.Nodup ↔
    (fleet.operating.map (·.name)).Nodup := by
  rw [perm_places_built.nodup_iff, listed]
  refine nodup_grid_iff distinct some_period (fun _ _ => by simp [placesIn, familyEndings]) ?_ ?_
  · intro unit k
    have different : familyEndings.Nodup := by decide
    refine different.map fun s s' same => ?_
    exact (String.append_right_inj unit).1 (Prod.mk.inj same).1
  · intro k hk k' hk' unit unit' place hplace hplace'
    obtain ⟨s, hs, rfl⟩ := List.mem_map.1 hplace
    obtain ⟨s', hs', same⟩ := List.mem_map.1 hplace'
    obtain ⟨front, index⟩ := Prod.mk.inj same
    obtain rfl := Index.period.inj index
    exact ⟨(append_ending_inj apart_familyEndings hs' hs front).1.symm, rfl⟩

omit listed distinct some_period in
theorem familiesCover_built : (built prices fleet weighted keys).program.FamiliesCover :=
  Program.FamiliesCover.extend (fun _ => List.not_mem_nil.elim) _

end Built

/-! ## §2. What names are to find -/

/-- Whether the names of a unit with the key of a period find the variables of an operation. -/
structure Finds (m : DispatchModel α) (k : PeriodKey) (o : Operation α) : Prop where
  online : (m.program.find? (o.unit ++ ".op_mode" ++ k.text)).map Affine.var = some o.online
  starting : (m.program.find? (o.unit ++ ".startup" ++ k.text)).map Affine.var = some o.starting
  power : (m.program.find? (o.unit ++ ".power" ++ k.text)).map Affine.var = some o.power

end DispatchModel

/-- Whether a family has one member, which is a given relation. -/
def Program.HasOnly {α : Type} (p : Program α) (family : String) (r : Relation α) : Prop :=
  p.familyMembers family = [⟨family, .scalar, r⟩]

/-- Whether the constraints and the objective of cash flows are about six variables. Each constraint
is about its own variable, and those of depreciation, tax and profit are about others besides. -/
structure DispatchModel.SettledOn {α : Type} [Analytic α] (m : DispatchModel α)
    (c : CashFlowParams α) (v : CashFlowVars) : Prop where
  different : [v.building, v.fixed, v.depreciation, v.netInflow, v.tax, v.netProfit].Nodup
  building : m.program.HasOnly "capex_calculation"
    (.equals (Affine.var v.building) m.buildingCost)
  fixed : m.program.HasOnly "fom_calculation" (.equals (Affine.var v.fixed) m.fixedCost)
  depreciation : m.program.HasOnly "dep_calculation"
    (.equals (Affine.var v.depreciation)
      (Affine.term v.building (1 / Scalar.ofNat c.lifetime)))
  netInflow : m.program.HasOnly "net_cash_inflow_calculation"
    (.equals (Affine.var v.netInflow) (m.netInflow c))
  tax : m.program.HasOnly "corp_tax_calculation"
    (.ge (Affine.var v.tax) ((Affine.var v.netInflow + Affine.const c.other -
      Affine.var v.fixed - Affine.var v.depreciation).scale c.taxRate))
  netProfit : m.program.HasOnly "net_profit_calculation"
    (.equals (Affine.var v.netProfit) (Affine.var v.netInflow + Affine.const c.other -
      Affine.var v.fixed - Affine.var v.tax))
  objective : m.program.objective = some (match c.goal with
    | .presentValue =>
      ⟨"NPV", Affine.term v.netProfit c.annuityFactor - Affine.var v.building, .maximize⟩
    | .yearlyPresentValue => ⟨"Annualized_NPV",
      Affine.var v.netProfit - Affine.term v.building (1 / c.annuityFactor), .maximize⟩
    | .netProfit => ⟨"NET_PROFIT", Affine.var v.netProfit, .maximize⟩)

/-! ## §3. Names and places behind stages -/

namespace Stage

open DispatchModel

variable {α : Type} [Analytic α] {m m' : DispatchModel α} {stages : List (Stage α)}

theorem nodup_kind_families (k : StageKind) : k.families.Nodup := by
  cases k <;> decide

/-- No family of a stage has an index twice. -/
theorem nodup_indices (m : DispatchModel α) (s : Stage α) :
    ∀ f ∈ s.families m, (f.2.map (·.1)).Nodup := by
  have positions {l : List Nat} (h : l.Nodup) : (l.map Index.position).Nodup :=
    h.map fun _ _ => Index.position.inj
  cases s with
  | ramping l =>
    simp only [families, rampFamilies, neighbours_eq_map, List.forall_mem_cons, List.map_map]
    exact ⟨positions List.nodup_range', positions List.nodup_range', List.forall_mem_nil _⟩
  | times t =>
    simp only [families, windowFamilies, startupWindows, shutdownWindows, positionsFrom,
      List.forall_mem_cons, List.map_map]
    exact ⟨positions List.nodup_range', positions List.nodup_range', List.forall_mem_nil _⟩
  | cashFlow c =>
    intro f hf
    obtain ⟨g, -, rfl⟩ := List.mem_map.1 hf
    exact List.nodup_singleton _

/-- As far as constraints go, a stage extends the program by its families. -/
theorem places_applied (m : DispatchModel α) (s : Stage α) :
    (s.applied m).program.places = (m.program.extend (s.families m)).places := by
  cases s <;> rfl

theorem familiesCover_applied (covers : m.program.FamiliesCover) (s : Stage α) :
    (s.applied m).program.FamiliesCover := by
  have families : (s.applied m).program.families =
      (m.program.extend (s.families m)).families := by
    cases s <;> rfl
  have extended := covers.extend (s.families m)
  unfold Program.FamiliesCover at extended ⊢
  rwa [places_applied, families]

/-- A stage that fits brings no place twice. -/
theorem nodup_places_applied_iff (covers : m.program.FamiliesCover) {s : Stage α}
    (fits : s.Fits m) : (s.applied m).program.places.Nodup ↔ m.program.places.Nodup := by
  have distinct : ((s.families m).map (·.1)).Nodup := by
    rw [map_fst_families]
    exact nodup_kind_families s.kind
  rw [places_applied]
  exact Program.nodup_places_extend_iff covers distinct (new_iff.2 fits.families)
    (nodup_indices m s)

/-- Nor do stages that fit one behind the other. -/
theorem nodup_places_of_run_iff (covers : m.program.FamiliesCover) (h : run m stages = .ok m') :
    m'.program.places.Nodup ↔ m.program.places.Nodup := by
  induction stages generalizing m with
  | nil =>
    obtain rfl := pure_eq_ok_iff.1 h
    rfl
  | cons s stages ih =>
    obtain ⟨fits, rest⟩ := run_cons_eq_ok_iff.1 h
    rw [ih (familiesCover_applied covers s) rest, nodup_places_applied_iff covers fits]

/-- Without cash flows a run adds no variables. -/
theorem names_of_run (plain : ∀ t ∈ stages, t.kind ≠ .cashFlow) (h : run m stages = .ok m') :
    m'.program.names = m.program.names := by
  rw [Program.names, (sameButConstraints_of_run plain h).specs, Program.names]

/-- Cash flows add theirs behind the others. -/
theorem names_of_cashFlow {c : CashFlowParams α} (hc : .cashFlow c ∈ stages)
    (h : run m stages = .ok m') :
    m'.program.names = m.program.names ++ (CashFlowVars.specs (α := α)).map (·.name) := by
  obtain ⟨first, later, n, before, fits, behind, -, plain, plain'⟩ := exists_split_of_run h hc
  rw [names_of_run plain' behind, ← names_of_run plain before]
  show (n.program.specs ++ CashFlowVars.specs.toArray).toList.map _ = _
  rw [Array.toList_append, List.map_append, Program.names]

/-- The names of cash flows are different, and none of them has a point. -/
theorem nodup_names_of_run_iff (pointed : ∀ name ∈ m.program.names, '.' ∈ name.toList)
    (h : run m stages = .ok m') : m'.program.names.Nodup ↔ m.program.names.Nodup := by
  by_cases settled : ∃ c, .cashFlow c ∈ stages
  · obtain ⟨c, hc⟩ := settled
    have different : ((CashFlowVars.specs (α := α)).map (·.name)).Nodup := by
      simp [CashFlowVars.specs]
    have plain : ∀ name ∈ (CashFlowVars.specs (α := α)).map (·.name), '.' ∉ name.toList := by
      simp [CashFlowVars.specs]
    rw [names_of_cashFlow hc h, List.nodup_append]
    refine ⟨fun h => h.1, fun h => ⟨h, different, ?_⟩⟩
    rintro name old _ added rfl
    exact plain name added (pointed name old)
  · rw [names_of_run ?_ h]
    intro t ht kind
    cases t with
    | cashFlow c => exact settled ⟨c, ht⟩
    | ramping l | times t => cases kind

/-! ## §4. What is found behind stages -/

section Behind

variable {prices : PriceSet α} {fleet : Fleet α} {weighted : Bool} {keys : List (PeriodKey × α)}

/-- A period has an operation for every unit, in their order. -/
theorem units_of_period {p : Period α} (hp : p ∈ (built prices fleet weighted keys).periods) :
    p.operations.map (·.unit) = fleet.operating.map (·.name) := by
  obtain ⟨t, ht⟩ := List.mem_iff_getElem?.1 hp
  rw [built_periods_getElem?] at ht
  obtain ⟨k, -, rfl⟩ := Option.map_eq_some_iff.1 ht
  rw [List.map_map, blocksAt]
  refine map_mapIdx ?_ fleet.operating
  exact fun _ _ => rfl

/-- Where no name comes twice, the variables of a unit in a period are found under their names. -/
theorem finds_of_run (made : build prices fleet weighted = .ok m) (h : run m stages = .ok m')
    (distinct : m'.program.names.Nodup) {p : Period α} (hp : p ∈ m'.periods) {o : Operation α}
    (ho : o ∈ p.operations) : m'.Finds p.key o := by
  obtain ⟨t, ht⟩ := List.mem_iff_getElem?.1 hp
  obtain ⟨-, -, keys, -, rfl⟩ := build_eq_ok_iff.1 made
  obtain ⟨u, g, hg, rfl⟩ := exists_unit_of_mem_operations (periods_of_run h ▸ ht) ho
  have found {i : Nat} {spec : VariableSpec α} (hi : (g.blockVariables p.key)[i]? = some spec) :
      (m'.program.find? spec.name).map Affine.var =
        some (Affine.var (α := α) (blockStart fleet.operating.length t u + i)) := by
    have width : i < OperationBlock.width := (List.getElem?_eq_some_iff.1 hi).1
    rw [Program.find?_of_nodup distinct ((spec?_of_run made h ht hg width).trans hi)]
    rfl
  have online := found (i := 0) rfl
  have starting := found (i := 1) rfl
  have power := found (i := 2) rfl
  exact ⟨online, starting, power⟩

/-- The variables of the cash flows are found, and they are the ones that the constraints and the
objective of the cash flows are about. -/
theorem cashFlowVars?_of_cashFlow (h : run (built prices fleet weighted keys) stages = .ok m')
    {c : CashFlowParams α} (hc : .cashFlow c ∈ stages) :
    ∃ v, m'.cashFlowVars? = some v ∧ m'.SettledOn c v := by
  obtain ⟨first, later, n, before, fits, behind, -, plain, plain'⟩ := exists_split_of_run h hc
  have same : m'.program.SameButConstraints (n.settled c).program :=
    sameButConstraints_of_run plain' behind
  have start := cashFlowStart_of_run plain before
  have found : m'.cashFlowVars? = some n.cashFlowStart := by
    have settled := cashFlowVars?_of_run plain before c
    rw [start, ← settled]
    unfold cashFlowVars? Program.find?
    rw [same.specs]
  have row (f : String × Relation α)
      (hf : f ∈ CashFlowVars.families.zip (m'.cashFlowRelations c n.cashFlowStart)) :
      m'.program.HasOnly f.1 f.2 := by
    have own : f.1 ∈ CashFlowVars.families := (List.of_mem_zip hf).1
    have other : ∀ t ∈ later, f.1 ∉ t.kind.families := fun t ht =>
      StageKind.not_mem_families (plain' t ht).symm f.1 own
    have relations : f ∈ CashFlowVars.families.zip ((built prices fleet weighted
        keys).cashFlowRelations c (built prices fleet weighted keys).cashFlowStart) := by
      rw [cashFlowRelations_of_run h, start] at hf
      rwa [cashFlowStart, size_built]
    rw [Program.HasOnly, familyMembers_of_run other behind, familyMembers_last before fits own]
    show List.flatMap _ (((built prices fleet weighted keys).cashFlowFamilies c).filter _) = _
    rw [filter_cashFlowFamilies_of_mem relations]
    rfl
  refine ⟨n.cashFlowStart, found, ?_⟩
  constructor
  · simp [cashFlowStart, CashFlowVars.startingAt]
  · exact row (_, _) (.head _)
  · exact row (_, _) (.tail _ (.head _))
  · exact row (_, _) (.tail _ (.tail _ (.head _)))
  · exact row (_, _) (.tail _ (.tail _ (.tail _ (.head _))))
  · exact row (_, _) (.tail _ (.tail _ (.tail _ (.tail _ (.head _)))))
  · exact row (_, _) (.tail _ (.tail _ (.tail _ (.tail _ (.tail _ (.head _))))))
  · rw [same.objective]
    show some _ = _
    cases c.goal <;> rfl

/-- All names of a built model have a point. -/
theorem point_mem_names_built :
    ∀ name ∈ (built prices fleet weighted keys).program.names, '.' ∈ name.toList := by
  rw [Program.names, built_specs, List.toList_toArray, List.forall_mem_map]
  exact fun spec => point_mem_unitSpecs

end Behind

/-- **Names are told apart when units are.** Load prices, build a model of any fleet and carry out
any stages. The variables have different names exactly when the operating units have, and so for
families and indices of the constraints. Then the names of a unit in a period find the variables of
what this unit contributes to this period. Whatever the units are called, no variables of cash flows
are found unless there is a stage of cash flows, and then they are the ones that its constraints and
its objective are about. -/
theorem names_distinct_iff {σ : Type} {l : Loader} {table : PriceTable α} {choice : ColumnChoice}
    {k horizon? : Option Nat} {fit : Clusterer α σ} {own own' : σ} {prices : PriceSet α}
    {fleet : Fleet α} {weighted : Bool}
    (loaded : Yields (l.load table choice k horizon? fit) own prices own')
    (made : build prices fleet weighted = .ok m) (success : run m stages = .ok m') :
    let different := (fleet.operating.map (·.name)).Nodup
    (m'.program.names.Nodup ↔ different) ∧ (m'.program.places.Nodup ↔ different) ∧
    (m'.periods.map (·.key) = prices.sets.periods ∧
      ∀ p ∈ m'.periods, p.operations.map (·.unit) = fleet.operating.map (·.name)) ∧
    (different → ∀ p ∈ m'.periods, ∀ o ∈ p.operations, m'.Finds p.key o) ∧
    ((∀ s ∈ stages, s.kind ≠ .cashFlow) → m'.cashFlowVars? = none) ∧
    ∀ c, .cashFlow c ∈ stages → ∃ v, m'.cashFlowVars? = some v ∧ m'.SettledOn c v := by
  obtain ⟨-, some_period, keys, priced, rfl⟩ := build_eq_ok_iff.1 made
  have listed := (priced_eq_ok_iff.1 priced).1
  have distinct := (Loader.sets_of_yields_load loaded).1.distinct
  have names : m'.program.names.Nodup ↔ (fleet.operating.map (·.name)).Nodup :=
    (nodup_names_of_run_iff point_mem_names_built success).trans
      (nodup_names_built_iff listed distinct some_period)
  have places : m'.program.places.Nodup ↔ (fleet.operating.map (·.name)).Nodup :=
    (nodup_places_of_run_iff familiesCover_built success).trans
      (nodup_places_built_iff listed distinct some_period)
  have periods := periods_of_run success
  refine ⟨names, places, ⟨?_, fun p hp => units_of_period (periods ▸ hp)⟩, ?_, fun plain => ?_,
    fun c hc => cashFlowVars?_of_cashFlow success hc⟩
  · rw [periods, built_periods_map_key, listed]
  · intro different p hp o ho
    exact finds_of_run made success (names.2 different) hp ho
  · refine cashFlowVars?_eq_none ?_
    rw [names_of_run plain success]
    exact point_mem_names_built

/-- Two units, the second of which is called as a variable of the first one might be. -/
theorem names_distinct_two_units :
    let table : PriceTable Float :=
      ⟨["price"], [⟨"", none, "base", #v[30]⟩, ⟨"", none, "base", #v[50]⟩]⟩
    let fit : Clusterer Float Unit := fun _ _ => return ⟨[], [], 0⟩
    let fleet : Fleet Float := (Fleet.empty.withUnit { ThermalGenerator.standard with
      name := "coal" }).withUnit { ThermalGenerator.standard with name := "coal.op_mode[1]" }
    let stages : List (Stage Float) := [.ramping .standard, .times .standard, .cashFlow .standard]
    ∃ prices m m', Yields ((⟨24, 20⟩ : Loader).load table (.single "") none none fit) () prices () ∧
      build prices fleet false = .ok m ∧ run m stages = .ok m' ∧ m'.program.names.Nodup ∧
      m'.program.places.Nodup ∧ m.cashFlowVars? = none ∧ ∃ v, m'.cashFlowVars? = some v := by
  intro table fit fleet stages
  obtain ⟨prices, loaded, some_period⟩ : ∃ prices, Yields ((⟨24, 20⟩ : Loader).load table
      (.single "") none none fit) () prices () ∧ prices.sets.periods ≠ [] :=
    ⟨_, by rfl, by decide⟩
  obtain ⟨complete, -⟩ := Loader.sets_of_yields_load loaded
  obtain ⟨m, made, -⟩ := build_of_complete complete some_period fleet false rfl
  obtain ⟨m', success⟩ : ∃ m', run m stages = .ok m' := by
    obtain ⟨-, -, keys, -, rfl⟩ := build_eq_ok_iff.1 made
    refine exists_run_built (by decide) ?_
    simp only [stages, List.forall_mem_cons]
    exact ⟨rfl, rfl, rfl, nofun⟩
  have different : (fleet.operating.map (·.name)).Nodup := by decide
  obtain ⟨names, places, -, -, -, settled⟩ := names_distinct_iff loaded made success
  obtain ⟨-, -, -, -, unsettled, -⟩ := names_distinct_iff loaded made (rfl : run m [] = .ok m)
  obtain ⟨v, found, -⟩ := settled .standard (by simp [stages])
  exact ⟨prices, m, m', loaded, made, success, names.2 different, places.2 different,
    unsettled nofun, v, found⟩

end Stage

end PlantEconomics
