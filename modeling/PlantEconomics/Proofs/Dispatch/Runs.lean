import PlantEconomics.Proofs.Dispatch.Ramping
import PlantEconomics.Proofs.Dispatch.StageOrder

/-!
# Models behind stages

A model may have come through any stages before the one that is looked at. What a property of the
last stage needs of the model before it holds of the model as it was built, and every stage keeps
it: the periods and designs, the variables as long as no cash flows came, the absence of families
that are not there yet. So each of these facts is one case of the same induction (`of_run`).
-/

namespace PlantEconomics

namespace Stage

open DispatchModel

variable {α : Type} [Analytic α] {m m' : DispatchModel α} {stages : List (Stage α)} {s : Stage α}

/-! ## §1. What a run keeps -/

/-- What each stage of a run keeps, the run keeps. -/
theorem of_run {P : DispatchModel α → Prop} (step : ∀ t ∈ stages, ∀ n, P n → P (t.applied n))
    (h : run m stages = .ok m') (start : P m) : P m' := by
  induction stages generalizing m with
  | nil =>
    obtain rfl := pure_eq_ok_iff.1 h
    exact start
  | cons t stages ih =>
    obtain ⟨-, rest⟩ := run_cons_eq_ok_iff.1 h
    obtain ⟨first, later⟩ := List.forall_mem_cons.1 step
    exact ih later rest (first m start)

theorem periods_of_run (h : run m stages = .ok m') : m'.periods = m.periods :=
  of_run (P := fun n => n.periods = m.periods) (fun t _ n kept => (periods_applied n t).trans kept)
    h rfl

theorem designs_of_run (h : run m stages = .ok m') : m'.designs = m.designs :=
  of_run (P := fun n => n.designs = m.designs) (fun t _ n kept => (designs_applied n t).trans kept)
    h rfl

/-- Without cash flows a run adds constraints only. -/
theorem sameButConstraints_of_run (plain : ∀ t ∈ stages, t.kind ≠ .cashFlow)
    (h : run m stages = .ok m') : m'.program.SameButConstraints m.program :=
  of_run (P := fun n => n.program.SameButConstraints m.program)
    (fun t ht _ kept => (sameButConstraints_applied (plain t ht)).trans kept) h ⟨rfl, rfl, rfl⟩

/-- A family has the members that it had, when it belongs to no stage of the run. -/
theorem familyMembers_of_run {name : String} (other : ∀ t ∈ stages, name ∉ t.kind.families)
    (h : run m stages = .ok m') : m'.program.familyMembers name = m.program.familyMembers name := by
  refine of_run (P := fun n => n.program.familyMembers name = m.program.familyMembers name)
    (fun t ht n kept => ?_) h rfl
  show (t.applied n).program.familyMembers name = m.program.familyMembers name
  rw [familyMembers_applied, filter_families_eq_nil (other t ht), List.flatMap_nil,
    List.append_nil, kept]

/-- A stage fits as it did before stages of other kinds. -/
theorem fits_of_run (different : ∀ t ∈ stages, t.kind ≠ s.kind) (h : run m stages = .ok m')
    (fits : s.Fits m) : s.Fits m' :=
  of_run (P := s.Fits) (fun t ht _ kept => (fits_applied_iff (different t ht)).2 kept) h fits

/-- It adds what it would have added before them. -/
theorem families_of_run (different : ∀ t ∈ stages, t.kind ≠ s.kind) (h : run m stages = .ok m') :
    s.families m' = s.families m :=
  of_run (P := fun n => s.families n = s.families m)
    (fun t ht _ kept => (families_of_applied (different t ht)).trans kept) h rfl

/-- A run goes on where a shorter one ends. -/
theorem run_append_eq_ok_iff {later : List (Stage α)} :
    run m (stages ++ later) = .ok m' ↔ ∃ n, run m stages = .ok n ∧ run n later = .ok m' := by
  unfold run
  rw [List.foldlM_append, bind_eq_ok_iff]

/-- A stage that succeeds behind a run makes the run longer. -/
theorem run_concat {m'' : DispatchModel α} (h : run m stages = .ok m')
    (last : s.apply m' = .ok m'') : run m (stages ++ [s]) = .ok m'' := by
  obtain ⟨fits, rfl⟩ := apply_eq_ok_iff.1 last
  exact run_append_eq_ok_iff.2 ⟨m', h, run_cons_eq_ok_iff.2 ⟨fits, rfl⟩⟩

/-- A stage that fits behind a run is of a kind that the run has not. -/
theorem kind_ne_of_fits (h : run m stages = .ok m') (fits : s.Fits m') :
    ∀ t ∈ stages, t.kind ≠ s.kind := by
  intro t ht same
  obtain ⟨name, own⟩ := StageKind.exists_mem_families s.kind
  refine fits.families name own (mem_families_of_run h (.inr ⟨t, ht, ?_⟩))
  rw [same]
  exact own

/-- A stage of a run has stages of other kinds before it and behind it. -/
theorem exists_split_of_run (h : run m stages = .ok m') (hs : s ∈ stages) :
    ∃ first later n, run m first = .ok n ∧ s.Fits n ∧ run (s.applied n) later = .ok m' ∧
      stages = first ++ s :: later ∧ (∀ t ∈ first, t.kind ≠ s.kind) ∧
      ∀ t ∈ later, t.kind ≠ s.kind := by
  obtain ⟨first, later, rfl⟩ := List.append_of_mem hs
  obtain ⟨n, before, rest⟩ := run_append_eq_ok_iff.1 h
  obtain ⟨fits, behind⟩ := run_cons_eq_ok_iff.1 rest
  refine ⟨first, later, n, before, fits, behind, rfl, kind_ne_of_fits before fits, ?_⟩
  intro t ht same
  -- another stage of the kind would find the names of this one
  obtain ⟨between, _, rfl⟩ := List.append_of_mem ht
  obtain ⟨n', until_then, rest⟩ := run_append_eq_ok_iff.1 behind
  obtain ⟨again, -⟩ := run_cons_eq_ok_iff.1 rest
  obtain ⟨name, own⟩ := StageKind.exists_mem_families s.kind
  refine again.families name (same ▸ own) (mem_families_of_run until_then (.inl ?_))
  rw [families_applied, List.mem_append]
  exact .inr own

/-- All constraints behind a stage hold when those before it do and what the stage adds does. -/
theorem satisfied_applied_iff {value : Var → α} {tolerance : α} :
    (∀ c ∈ (s.applied m).program.constraints, c.holds value tolerance = true) ↔
      (∀ c ∈ m.program.constraints, c.holds value tolerance = true) ∧
        ∀ f ∈ s.families m, ∀ x ∈ f.2, x.2.holds value tolerance = true := by
  rw [constraints_applied, List.forall_mem_append, List.forall_mem_flatMap]
  simp only [List.forall_mem_map]
  rfl

/-- Behind a built model and stages of other kinds, the families of a stage have the members that
it adds. -/
theorem familyMembers_last {prices : PriceSet α} {fleet : Fleet α} {weighted : Bool}
    {keys : List (PeriodKey × α)} (h : run (built prices fleet weighted keys) stages = .ok m')
    (fits : s.Fits m') {name : String} (own : name ∈ s.kind.families) :
    (s.applied m').program.familyMembers name =
      ((s.families (built prices fleet weighted keys)).filter (·.1 == name)).flatMap fun f =>
        f.2.map fun x => ⟨name, x.1, x.2⟩ := by
  have different := kind_ne_of_fits h fits
  have other : ∀ t ∈ stages, name ∉ t.kind.families := fun t ht =>
    StageKind.not_mem_families (different t ht).symm name own
  have plain : '.' ∉ name.toList := by
    refine Stages.plain_names name ?_
    cases s <;> simp_all [kind, StageKind.families]
  rw [familyMembers_applied, familyMembers_of_run other h, familyMembers_built_eq_nil plain,
    List.nil_append, families_of_run different h]

/-- So these members hold when what the stage adds under their name does. -/
theorem members_last_hold_iff {prices : PriceSet α} {fleet : Fleet α} {weighted : Bool}
    {keys : List (PeriodKey × α)} (h : run (built prices fleet weighted keys) stages = .ok m')
    (fits : s.Fits m') {name : String} (own : name ∈ s.kind.families) {value : Var → α}
    {tolerance : α} :
    (∀ c ∈ (s.applied m').program.familyMembers name, c.holds value tolerance = true) ↔
      ∀ f ∈ s.families (built prices fleet weighted keys), f.1 = name →
        ∀ x ∈ f.2, x.2.holds value tolerance = true := by
  rw [familyMembers_last h fits own, List.forall_mem_flatMap]
  simp only [List.mem_filter, beq_iff_eq, and_imp, List.forall_mem_map]
  rfl

/-! ## §2. Variables -/

/-- A stage adds its variables behind those that there are. -/
theorem spec?_applied {v : Var} {spec : VariableSpec α} (known : m.program.spec? v = some spec) :
    (s.applied m).program.spec? v = some spec := by
  cases s with
  | ramping l | times t => exact known
  | cashFlow c =>
    have inside : v < m.program.specs.size := (Array.getElem?_eq_some_iff.1 known).1
    show (m.program.specs ++ CashFlowVars.specs.toArray)[v]? = some spec
    rw [Array.getElem?_append_left inside]
    exact known

/-- Behind a run the variables of the blocks are where they were built. -/
theorem spec?_of_run {prices : PriceSet α} {fleet : Fleet α} {weighted : Bool}
    (made : build prices fleet weighted = .ok m) (h : run m stages = .ok m') {t u i : Nat}
    {p : Period α} {g : ThermalGenerator α} (hp : m'.periods[t]? = some p)
    (hg : fleet.operating[u]? = some g) (hi : i < OperationBlock.width) :
    m'.program.spec? (blockStart fleet.operating.length t u + i) =
      (g.blockVariables p.key)[i]? := by
  have inside : i < (g.blockVariables p.key).length := hi
  rw [periods_of_run h] at hp
  have built := spec?_of_build made hp hg hi
  rw [List.getElem?_eq_getElem inside] at built ⊢
  exact of_run (P := fun n => n.program.spec? (blockStart fleet.operating.length t u + i) = some _)
    (fun _ _ _ known => spec?_applied known) h built

/-! ## §3. Cash flows behind a run -/

section CashFlows

variable {prices : PriceSet α} {fleet : Fleet α} {weighted : Bool} {keys : List (PeriodKey × α)}

/-- The relations of cash flows are about the periods and designs, which a run leaves alone. -/
theorem cashFlowRelations_of_run (h : run m stages = .ok m') (c : CashFlowParams α)
    (v : CashFlowVars) : m'.cashFlowRelations c v = m.cashFlowRelations c v := by
  unfold cashFlowRelations buildingCost fixedCost netInflow
  rw [designs_of_run h, periods_of_run h]

/-- Their variables come behind those of the blocks. -/
theorem cashFlowStart_of_run (plain : ∀ t ∈ stages, t.kind ≠ .cashFlow)
    (h : run (built prices fleet weighted keys) stages = .ok m') :
    m'.cashFlowStart = .behind fleet.operating.length keys.length := by
  unfold cashFlowStart Program.size
  rw [(sameButConstraints_of_run plain h).specs]
  show CashFlowVars.startingAt (built prices fleet weighted keys).program.size = _
  rw [size_built, CashFlowVars.behind]

theorem cashFlowVars?_of_run (plain : ∀ t ∈ stages, t.kind ≠ .cashFlow)
    (h : run (built prices fleet weighted keys) stages = .ok m') (c : CashFlowParams α) :
    (m'.settled c).cashFlowVars? = some (.behind fleet.operating.length keys.length) := by
  rw [cashFlowVars?_settled c, cashFlowStart_of_run plain h]
  rw [(sameButConstraints_of_run plain h).specs, built_specs]
  exact fun spec => point_mem_unitSpecs

end CashFlows

/-! ## §4. Runs that succeed -/

/-- Valid stages of different kinds all succeed on the model of any hours. -/
theorem exists_run_hourly {fleet : Fleet α} {values : List α} (some_value : values ≠ [])
    (fleetValid : fleet.validate = .ok ()) (distinct : (stages.map kind).Nodup)
    (valid : ∀ s ∈ stages, s.validate = .ok ()) (weighted : Bool) :
    ∃ m m', build (PriceSet.ofColumns none values.length [(none, values)]) fleet weighted = .ok m ∧
      run m stages = .ok m' := by
  have made := build_hourly some_value fleetValid weighted
  obtain ⟨m', run⟩ := exists_run_built distinct valid
  exact ⟨_, m', made, run⟩

end Stage

end PlantEconomics
