import Mathlib.Data.List.Perm.Basic
import PlantEconomics.Proofs.Dispatch.Feasibility

/-!
# The order of the stages

Ramping, up and down times and cash flows are three kinds of stages, each to be carried out once.
Which comes first does not matter. A stage reads the periods, the designs and the number of
variables, and no stage of another kind changes what it reads; nor does it take a name that another
kind adds. So two stages of different kinds commute, up to the order in which their families stand
among the constraints, and all orders of a list of stages follow by exchanging neighbours.

A stage that follows one of its own kind finds the names of its families taken, so what commutes
are stages that both succeed.
-/

namespace PlantEconomics

/-! ## §1. Stages -/

/-- The kinds of stages. -/
inductive StageKind where
  | ramping
  | times
  | cashFlow
deriving Repr, DecidableEq

/-- The names of the families that a kind of stage adds. -/
def StageKind.families : StageKind → List String
  | .ramping => Stages.rampNames
  | .times => Stages.windowNames
  | .cashFlow => CashFlowVars.families

theorem StageKind.not_mem_families {k k' : StageKind} (different : k ≠ k') :
    ∀ name ∈ k.families, name ∉ k'.families := by
  cases k <;> cases k' <;> first | exact absurd rfl different | decide

theorem StageKind.exists_mem_families (k : StageKind) : ∃ name, name ∈ k.families := by
  cases k <;> exact ⟨_, List.mem_cons_self⟩

/-- A stage with its settings. -/
inductive Stage (α : Type) where
  | ramping (l : RampingLimits α)
  | times (t : UpDownTimes)
  | cashFlow (c : CashFlowParams α)

namespace Stage

open DispatchModel

variable {α : Type} [Analytic α]

/-- The kind of a stage. -/
def kind : Stage α → StageKind
  | .ramping _ => .ramping
  | .times _ => .times
  | .cashFlow _ => .cashFlow

/-- Carry out a stage. -/
def apply (m : DispatchModel α) : Stage α → Except (Fault α) (DispatchModel α)
  | .ramping l => m.withRamping l
  | .times t => m.withUpDownTimes t
  | .cashFlow c => m.withCashFlows c

/-- Carry out stages one after the other. -/
def run (m : DispatchModel α) (stages : List (Stage α)) :
    Except (Fault α) (DispatchModel α) :=
  stages.foldlM apply m

/-- Check the settings of a stage. -/
def validate : Stage α → Except (Fault α) Unit
  | .ramping l => l.validate
  | .times t => t.validate
  | .cashFlow c => c.validate

/-- The families that a stage adds. -/
def families (m : DispatchModel α) : Stage α → List (Family α)
  | .ramping l => rampFamilies l m.periods
  | .times t => windowFamilies t m.periods
  | .cashFlow c => m.cashFlowFamilies c

/-- The model behind a stage, whether or not it has some of its names. -/
def applied (m : DispatchModel α) : Stage α → DispatchModel α
  | .ramping l => m.extend (rampFamilies l m.periods)
  | .times t => m.extend (windowFamilies t m.periods)
  | .cashFlow c => m.settled c

theorem map_fst_families (m : DispatchModel α) (s : Stage α) :
    (s.families m).map (·.1) = s.kind.families := by
  cases s <;> rfl

/-- The names of a stage are new when those of its families are. -/
theorem new_iff {p : Program α} {m : DispatchModel α} {s : Stage α} :
    (∀ f ∈ s.families m, f.1 ∉ p.families) ↔ ∀ name ∈ s.kind.families, name ∉ p.families := by
  rw [← map_fst_families m, List.forall_mem_map]

/-! ## §2. When a stage succeeds -/

/-- The settings of a stage are valid and nothing that it adds is there yet. -/
structure Fits (m : DispatchModel α) (s : Stage α) : Prop where
  valid : s.validate = .ok ()
  families : ∀ name ∈ s.kind.families, name ∉ m.program.families
  expressions : s.kind = .cashFlow →
    m.program.expression? "NPV" = none ∧ m.program.expression? "Annualized_NPV" = none
  objective : s.kind = .cashFlow → m.program.objective = none

/-- A stage succeeds exactly when it fits. -/
theorem apply_eq_ok_iff {m m' : DispatchModel α} {s : Stage α} :
    s.apply m = .ok m' ↔ s.Fits m ∧ s.applied m = m' := by
  have names := @new_iff α _ m.program m s
  cases s with
  | ramping l =>
    rw [apply, withRamping_eq_ok_iff]
    constructor
    · rintro ⟨valid, new, rfl⟩
      exact ⟨⟨valid, names.1 new, nofun, nofun⟩, rfl⟩
    · rintro ⟨fits, rfl⟩
      exact ⟨fits.valid, names.2 fits.families, rfl⟩
  | times t =>
    rw [apply, withUpDownTimes_eq_ok_iff]
    constructor
    · rintro ⟨valid, new, rfl⟩
      exact ⟨⟨valid, names.1 new, nofun, nofun⟩, rfl⟩
    · rintro ⟨fits, rfl⟩
      exact ⟨fits.valid, names.2 fits.families, rfl⟩
  | cashFlow c =>
    rw [apply, withCashFlows_eq_ok_iff]
    constructor
    · rintro ⟨valid, new, npv, yearly, free, rfl⟩
      exact ⟨⟨valid, new, fun _ => ⟨npv, yearly⟩, fun _ => free⟩, rfl⟩
    · rintro ⟨fits, rfl⟩
      obtain ⟨npv, yearly⟩ := fits.expressions rfl
      exact ⟨fits.valid, fits.families, npv, yearly, fits.objective rfl, rfl⟩

/-- A stage first checks its settings and then that its names are new. -/
theorem exists_apply_eq_checks (m : DispatchModel α) (s : Stage α) :
    ∃ rest, s.apply m =
      s.validate >>= fun _ => m.program.ensureNew s.kind.families >>= fun _ => rest := by
  cases s <;> exact ⟨_, rfl⟩

theorem exists_of_validate_eq_error {s : Stage α} {f : Fault α} (h : s.validate = .error f) :
    ∃ cause, f = .configuration cause := by
  cases s with
  | ramping l =>
    have h : l.validate = .error f := h
    unfold RampingLimits.validate at h
    split at h <;> cases h
    exact ⟨_, rfl⟩
  | times t =>
    have h : t.validate = .error f := h
    unfold UpDownTimes.validate at h
    split at h <;> cases h
    exact ⟨_, rfl⟩
  | cashFlow c =>
    have h : c.validate = .error f := h
    unfold CashFlowParams.validate at h
    repeat' split at h
    all_goals cases h
    all_goals exact ⟨_, rfl⟩

/-- A stage fails where a family of its own is there already. -/
theorem exists_apply_eq_error {m : DispatchModel α} {s : Stage α} {name : String}
    (own : name ∈ s.kind.families) (taken : name ∈ m.program.families) :
    ∃ cause, s.apply m = .error (.configuration cause) := by
  obtain ⟨rest, checks⟩ := exists_apply_eq_checks m s
  rw [checks]
  cases valid : s.validate with
  | error f =>
    obtain ⟨cause, rfl⟩ := exists_of_validate_eq_error valid
    exact ⟨cause, rfl⟩
  | ok u =>
    cases new : m.program.ensureNew s.kind.families with
    | ok u => exact absurd taken (Program.ensureNew_eq_ok_iff.1 new name own)
    | error f =>
      unfold Program.ensureNew at new
      split at new <;> cases new
      exact ⟨_, rfl⟩

end Stage

/-! ## §3. What a stage leaves -/

namespace Program

variable {α : Type}

/-- Two programs have the same variables, expressions and objective. -/
structure SameButConstraints (p q : Program α) : Prop where
  specs : p.specs = q.specs
  expressions : p.expressions = q.expressions
  objective : p.objective = q.objective

theorem SameButConstraints.symm {p q : Program α} (same : p.SameButConstraints q) :
    q.SameButConstraints p :=
  ⟨same.specs.symm, same.expressions.symm, same.objective.symm⟩

theorem SameButConstraints.trans {p q r : Program α} (first : p.SameButConstraints q)
    (second : q.SameButConstraints r) : p.SameButConstraints r :=
  ⟨first.specs.trans second.specs, first.expressions.trans second.expressions,
    first.objective.trans second.objective⟩

end Program

namespace Stage

open DispatchModel

variable {α : Type} [Analytic α]

@[simp] theorem sets_applied (m : DispatchModel α) (s : Stage α) :
    (s.applied m).sets = m.sets := by
  cases s <;> rfl

@[simp] theorem periods_applied (m : DispatchModel α) (s : Stage α) :
    (s.applied m).periods = m.periods := by
  cases s <;> rfl

@[simp] theorem designs_applied (m : DispatchModel α) (s : Stage α) :
    (s.applied m).designs = m.designs := by
  cases s <;> rfl

@[simp] theorem weighted_applied (m : DispatchModel α) (s : Stage α) :
    (s.applied m).weighted = m.weighted := by
  cases s <;> rfl

theorem families_applied (m : DispatchModel α) (s : Stage α) :
    (s.applied m).program.families = m.program.families ++ s.kind.families := by
  cases s <;> rfl

theorem constraints_applied (m : DispatchModel α) (s : Stage α) :
    (s.applied m).program.constraints =
      m.program.constraints ++
        (s.families m).flatMap fun f => f.2.map fun x => ⟨f.1, x.1, x.2⟩ := by
  cases s <;> rfl

theorem familyMembers_applied (m : DispatchModel α) (s : Stage α) (name : String) :
    (s.applied m).program.familyMembers name =
      m.program.familyMembers name ++
        ((s.families m).filter (·.1 == name)).flatMap fun f =>
          f.2.map fun x => ⟨name, x.1, x.2⟩ := by
  rw [← Program.familyMembers_extend]
  unfold Program.familyMembers
  rw [constraints_applied]
  rfl

/-- Only cash flows add more than constraints. -/
theorem sameButConstraints_applied {m : DispatchModel α} {s : Stage α}
    (plain : s.kind ≠ .cashFlow) : (s.applied m).program.SameButConstraints m.program := by
  cases s with
  | cashFlow c => exact absurd rfl plain
  | ramping l | times t => exact ⟨rfl, rfl, rfl⟩

/-- What a stage makes of the rest does not depend on the constraints. -/
theorem sameButConstraints_applied_of_same {m n : DispatchModel α}
    (same : m.program.SameButConstraints n.program) (s : Stage α) :
    (s.applied m).program.SameButConstraints (s.applied n).program := by
  cases s with
  | ramping l | times t => exact ⟨same.specs, same.expressions, same.objective⟩
  | cashFlow c =>
    have start : m.cashFlowStart = n.cashFlowStart := by
      unfold cashFlowStart Program.size
      rw [same.specs]
    refine ⟨congrArg (· ++ _) same.specs, ?_, ?_⟩
    · show m.program.expressions ++ _ = n.program.expressions ++ _
      rw [same.expressions, start]
    · show some _ = some _
      rw [start]

/-- A stage has no family of a name that is not its own. -/
theorem filter_families_eq_nil {m : DispatchModel α} {s : Stage α} {name : String}
    (other : name ∉ s.kind.families) : (s.families m).filter (·.1 == name) = [] := by
  rw [List.filter_eq_nil_iff]
  intro f hf same
  rw [← map_fst_families m, ← eq_of_beq same] at other
  exact other (List.mem_map_of_mem hf)

/-- What a stage adds does not depend on whether a stage of another kind came before it. -/
theorem families_of_applied {m : DispatchModel α} {s t : Stage α} (different : s.kind ≠ t.kind) :
    t.families (s.applied m) = t.families m := by
  cases s <;> cases t <;> first | rfl | exact absurd rfl different

/-- Whether a stage fits depends on its own names only, and for cash flows on expressions and the
objective. -/
theorem Fits.congr {m n : DispatchModel α} {s : Stage α} (fits : s.Fits m)
    (names : ∀ name ∈ s.kind.families, name ∈ m.program.families ↔ name ∈ n.program.families)
    (rest : s.kind = .cashFlow → m.program.expressions = n.program.expressions ∧
      m.program.objective = n.program.objective) : s.Fits n where
  valid := fits.valid
  families name own := by
    rw [← names name own]
    exact fits.families name own
  expressions last := by
    unfold Program.expression?
    rw [← (rest last).1]
    exact fits.expressions last
  objective last := by
    rw [← (rest last).2]
    exact fits.objective last

/-- A stage fits as it did before a stage of another kind. -/
theorem fits_applied_iff {m : DispatchModel α} {s t : Stage α} (different : s.kind ≠ t.kind) :
    t.Fits (s.applied m) ↔ t.Fits m := by
  have names : ∀ name ∈ t.kind.families,
      (name ∈ (s.applied m).program.families ↔ name ∈ m.program.families) := by
    intro name own
    have other := StageKind.not_mem_families (Ne.symm different) name own
    rw [families_applied, List.mem_append, or_iff_left other]
  -- only cash flows have expressions and an objective, and then the other stage is none of them
  have rest : t.kind = .cashFlow →
      (s.applied m).program.expressions = m.program.expressions ∧
        (s.applied m).program.objective = m.program.objective := by
    intro last
    have same := sameButConstraints_applied (m := m) fun first => different (first.trans last.symm)
    exact ⟨same.expressions, same.objective⟩
  constructor
  · intro fits
    exact fits.congr names rest
  · intro fits
    refine fits.congr (fun name own => (names name own).symm) fun last => ?_
    exact ⟨(rest last).1.symm, (rest last).2.symm⟩

end Stage

/-! ## §4. Models that differ in the order of their constraints -/

/-- Two models have the same variables, families with the same members, expressions and objective;
their families may stand in another order. -/
structure DispatchModel.Alike {α : Type} (m n : DispatchModel α) : Prop where
  sets : m.sets = n.sets
  periods : m.periods = n.periods
  designs : m.designs = n.designs
  weighted : m.weighted = n.weighted
  specs : m.program.specs = n.program.specs
  families : ∀ name, name ∈ m.program.families ↔ name ∈ n.program.families
  members : ∀ name, m.program.familyMembers name = n.program.familyMembers name
  constraints : m.program.constraints.Perm n.program.constraints
  expressions : m.program.expressions = n.program.expressions
  objective : m.program.objective = n.program.objective

namespace DispatchModel.Alike

variable {α : Type}

theorem refl (m : DispatchModel α) : m.Alike m where
  sets := rfl
  periods := rfl
  designs := rfl
  weighted := rfl
  specs := rfl
  families _ := Iff.rfl
  members _ := rfl
  constraints := .refl _
  expressions := rfl
  objective := rfl

theorem trans {m n o : DispatchModel α} (first : m.Alike n) (second : n.Alike o) :
    m.Alike o where
  sets := first.sets.trans second.sets
  periods := first.periods.trans second.periods
  designs := first.designs.trans second.designs
  weighted := first.weighted.trans second.weighted
  specs := first.specs.trans second.specs
  families name := (first.families name).trans (second.families name)
  members name := (first.members name).trans (second.members name)
  constraints := first.constraints.trans second.constraints
  expressions := first.expressions.trans second.expressions
  objective := first.objective.trans second.objective

end DispatchModel.Alike

namespace Stage

open DispatchModel

variable {α : Type} [Analytic α]

theorem fits_of_alike {m n : DispatchModel α} (alike : m.Alike n) {s : Stage α}
    (fits : s.Fits m) : s.Fits n :=
  fits.congr (fun name _ => alike.families name) fun _ => ⟨alike.expressions, alike.objective⟩

/-- A stage adds the same to models that are alike, so the models behind it are alike. -/
theorem alike_applied {m n : DispatchModel α} (alike : m.Alike n) (s : Stage α) :
    (s.applied m).Alike (s.applied n) := by
  have added : s.families m = s.families n := by
    cases s with
    | ramping l => exact congrArg (rampFamilies l) alike.periods
    | times t => exact congrArg (windowFamilies t) alike.periods
    | cashFlow c =>
      show m.cashFlowFamilies c = n.cashFlowFamilies c
      unfold cashFlowFamilies cashFlowRelations buildingCost fixedCost netInflow cashFlowStart
        Program.size
      rw [alike.designs, alike.periods, alike.specs]
  have same : (s.applied m).program.SameButConstraints (s.applied n).program :=
    sameButConstraints_applied_of_same ⟨alike.specs, alike.expressions, alike.objective⟩ s
  constructor
  case families =>
    intro name
    rw [families_applied, families_applied, List.mem_append, List.mem_append, alike.families]
  case members =>
    intro name
    rw [familyMembers_applied, familyMembers_applied, alike.members, added]
  case constraints =>
    rw [constraints_applied, constraints_applied, added]
    exact alike.constraints.append_right _
  case specs => exact same.specs
  case expressions => exact same.expressions
  case objective => exact same.objective
  case sets => simpa using alike.sets
  case periods => simpa using alike.periods
  case designs => simpa using alike.designs
  case weighted => simpa using alike.weighted

/-- Stages of different kinds commute. -/
theorem applied_comm {m : DispatchModel α} {s t : Stage α} (different : s.kind ≠ t.kind) :
    (t.applied (s.applied m)).Alike (s.applied (t.applied m)) := by
  have first := families_of_applied (m := m) different
  have second := families_of_applied (m := m) different.symm
  -- one of the two is no cash flow, and is then as if it were not there
  have same : (t.applied (s.applied m)).program.SameButConstraints
      (s.applied (t.applied m)).program := by
    by_cases last : s.kind = .cashFlow
    · have plain : t.kind ≠ .cashFlow := fun h => different (last.trans h.symm)
      exact (sameButConstraints_applied plain).trans
        (sameButConstraints_applied_of_same (sameButConstraints_applied plain) s).symm
    · exact (sameButConstraints_applied_of_same (sameButConstraints_applied last) t).trans
        (sameButConstraints_applied last).symm
  constructor
  case families =>
    intro name
    simp only [families_applied, List.mem_append]
    tauto
  case members =>
    intro name
    simp only [familyMembers_applied, first, second]
    -- one of the two has no family of the name
    by_cases own : name ∈ s.kind.families
    · have other := StageKind.not_mem_families different name own
      rw [filter_families_eq_nil other]
      simp
    · rw [filter_families_eq_nil own]
      simp
  case constraints =>
    simp only [constraints_applied, first, second, List.append_assoc]
    exact List.perm_append_comm.append_left _
  case specs => exact same.specs
  case expressions => exact same.expressions
  case objective => exact same.objective
  all_goals simp

/-! ## §5. Orders -/

theorem run_cons_eq_ok_iff {m m' : DispatchModel α} {s : Stage α} {stages : List (Stage α)} :
    run m (s :: stages) = .ok m' ↔ s.Fits m ∧ run (s.applied m) stages = .ok m' := by
  unfold run
  rw [List.foldlM_cons, bind_eq_ok_iff]
  constructor
  · rintro ⟨_, first, rest⟩
    obtain ⟨fits, rfl⟩ := apply_eq_ok_iff.1 first
    exact ⟨fits, rest⟩
  · rintro ⟨fits, rest⟩
    exact ⟨_, apply_eq_ok_iff.2 ⟨fits, rfl⟩, rest⟩

/-- A stage does not fit behind one of its own kind. -/
theorem kind_ne_of_fits_applied {m : DispatchModel α} {s t : Stage α}
    (fits : t.Fits (s.applied m)) : s.kind ≠ t.kind := by
  intro same
  obtain ⟨name, own⟩ := StageKind.exists_mem_families t.kind
  refine fits.families name own ?_
  rw [families_applied, List.mem_append, same]
  exact .inr own

/-- A run keeps all families and adds those of its stages. -/
theorem mem_families_of_run {m m' : DispatchModel α} {stages : List (Stage α)}
    (h : run m stages = .ok m') {name : String}
    (there : name ∈ m.program.families ∨ ∃ s ∈ stages, name ∈ s.kind.families) :
    name ∈ m'.program.families := by
  induction stages generalizing m with
  | nil =>
    obtain rfl := pure_eq_ok_iff.1 h
    simpa using there
  | cons s stages ih =>
    obtain ⟨-, rest⟩ := run_cons_eq_ok_iff.1 h
    refine ih rest ?_
    rw [families_applied, List.mem_append]
    rcases there with there | ⟨t, ht, own⟩
    · exact .inl (.inl there)
    · rcases List.mem_cons.1 ht with rfl | ht
      · exact .inl (.inr own)
      · exact .inr ⟨t, ht, own⟩

/-- The same stages give models that are alike from models that are alike. -/
theorem exists_run_of_alike {m n m' : DispatchModel α} (alike : m.Alike n)
    {stages : List (Stage α)} (h : run m stages = .ok m') :
    ∃ n', run n stages = .ok n' ∧ m'.Alike n' := by
  induction stages generalizing m n with
  | nil =>
    obtain rfl := pure_eq_ok_iff.1 h
    exact ⟨n, rfl, alike⟩
  | cons s stages ih =>
    obtain ⟨fits, rest⟩ := run_cons_eq_ok_iff.1 h
    obtain ⟨n', rest, result⟩ := ih (alike_applied alike s) rest
    exact ⟨n', run_cons_eq_ok_iff.2 ⟨fits_of_alike alike fits, rest⟩, result⟩

/-- Another order of the stages succeeds too, with a model that is alike. -/
theorem exists_run_of_perm {stages order : List (Stage α)} (perm : stages.Perm order)
    {m m' : DispatchModel α} (h : run m stages = .ok m') :
    ∃ n', run m order = .ok n' ∧ m'.Alike n' := by
  induction perm generalizing m m' with
  | nil => exact ⟨m', h, .refl m'⟩
  | cons s _ ih =>
    obtain ⟨fits, rest⟩ := run_cons_eq_ok_iff.1 h
    obtain ⟨n', rest, alike⟩ := ih rest
    exact ⟨n', run_cons_eq_ok_iff.2 ⟨fits, rest⟩, alike⟩
  | swap s t stages =>
    -- the first two succeeded one after the other, so they are of different kinds
    obtain ⟨first, rest⟩ := run_cons_eq_ok_iff.1 h
    obtain ⟨second, rest⟩ := run_cons_eq_ok_iff.1 rest
    have different := kind_ne_of_fits_applied second
    obtain ⟨n', rest, alike⟩ := exists_run_of_alike (applied_comm different) rest
    have first' : s.Fits m := (fits_applied_iff different).1 second
    have second' : t.Fits (s.applied m) := (fits_applied_iff different.symm).2 first
    exact ⟨n', run_cons_eq_ok_iff.2 ⟨first', run_cons_eq_ok_iff.2 ⟨second', rest⟩⟩, alike⟩
  | trans _ _ first second =>
    obtain ⟨n', h, alike⟩ := first h
    obtain ⟨o', h, alike'⟩ := second h
    exact ⟨o', h, alike.trans alike'⟩

/-- A stage with valid settings fits a model as it was built. -/
theorem fits_built {prices : PriceSet α} {fleet : Fleet α} {weighted : Bool}
    {keys : List (PeriodKey × α)} {s : Stage α} (valid : s.validate = .ok ()) :
    s.Fits (built prices fleet weighted keys) where
  valid := valid
  families name own := by
    have stage : name ∈ Stages.rampNames ++ Stages.windowNames ++ CashFlowVars.families := by
      cases s <;> simp_all [kind, StageKind.families]
    exact not_mem_families_built (Stages.plain_names name stage)
  expressions _ := ⟨rfl, rfl⟩
  objective _ := rfl

/-- Valid stages of different kinds all succeed on a model as it was built. -/
theorem exists_run_built {prices : PriceSet α} {fleet : Fleet α} {weighted : Bool}
    {keys : List (PeriodKey × α)} {stages : List (Stage α)}
    (distinct : (stages.map kind).Nodup) (valid : ∀ s ∈ stages, s.validate = .ok ()) :
    ∃ m, run (built prices fleet weighted keys) stages = .ok m := by
  have every : ∀ m : DispatchModel α, (∀ s ∈ stages, s.Fits m) →
      ∃ m', run m stages = .ok m' := by
    clear valid
    induction stages with
    | nil => exact fun m _ => ⟨m, rfl⟩
    | cons s stages ih =>
      intro m fits
      obtain ⟨new, distinct⟩ := List.nodup_cons.1 distinct
      obtain ⟨first, rest⟩ := List.forall_mem_cons.1 fits
      have later : ∀ t ∈ stages, t.Fits (s.applied m) := by
        intro t ht
        have different : s.kind ≠ t.kind := fun same => new (List.mem_map.2 ⟨t, ht, same.symm⟩)
        exact (fits_applied_iff different).2 (rest t ht)
      obtain ⟨m', run⟩ := ih distinct (s.applied m) later
      exact ⟨m', run_cons_eq_ok_iff.2 ⟨first, run⟩⟩
  exact every _ fun s hs => fits_built (valid s hs)

/-- **The order of the stages does not matter.** Whatever model the stages start from: if they
succeed in one order, they succeed in every order, and the models have the same variables, the same
members of every family, the same expressions and the same objective. A further stage of a kind that
has been carried out is a fault of configuration, whatever its settings are and whatever was to
follow it. -/
theorem order_irrelevant {m m' : DispatchModel α} {stages : List (Stage α)}
    (success : run m stages = .ok m') :
    (∀ order : List (Stage α), stages.Perm order → ∃ n', run m order = .ok n' ∧ m'.Alike n') ∧
      ∀ (s : Stage α) (later : List (Stage α)), s.kind ∈ stages.map kind →
        ∃ cause, run m (stages ++ s :: later) = .error (.configuration cause) := by
  constructor
  · intro order perm
    exact exists_run_of_perm perm success
  · intro s later again
    obtain ⟨t, ht, same⟩ := List.mem_map.1 again
    obtain ⟨name, own⟩ := StageKind.exists_mem_families s.kind
    have taken : name ∈ m'.program.families :=
      mem_families_of_run success (.inr ⟨t, ht, same ▸ own⟩)
    obtain ⟨cause, refused⟩ := exists_apply_eq_error own taken
    refine ⟨cause, ?_⟩
    have split : run m (stages ++ s :: later) =
        run m stages >>= fun n => s.apply n >>= fun n => run n later := by
      unfold run
      rw [List.foldlM_append]
      simp only [List.foldlM_cons]
    rw [split, success]
    show (s.apply m' >>= _) = _
    rw [refused]
    rfl

/-- The standard unit at two prices: standard stages can be carried out from the last to the first as
well, and no second ramping is accepted. -/
theorem order_irrelevant_two_hours :
    let stages : List (Stage ℝ) := [.ramping .standard, .times .standard, .cashFlow .standard]
    ∃ m, DispatchModel.build (PriceSet.ofColumns none 2 [(none, [30, 50])])
        (Fleet.empty.withUnit (.standard : ThermalGenerator ℝ)) false = .ok m ∧
      ∃ m', run m stages = .ok m' ∧ (∃ n', run m stages.reverse = .ok n' ∧ m'.Alike n') ∧
        ∃ cause, run m (stages ++ [.ramping .standard]) = .error (.configuration cause) := by
  intro stages
  let prices : PriceSet ℝ := PriceSet.ofColumns none 2 [(none, [30, 50])]
  have keys : priced prices prices.sets.periods = .ok (PriceSet.hourly none [30, 50]) :=
    priced_ofColumns rfl (by simp) (by simp)
  have build : DispatchModel.build prices (Fleet.empty.withUnit .standard) false = .ok _ :=
    build_eq_ok_iff.2 ⟨Stages.validate_one_standard, by decide, _, keys, rfl⟩
  have valid : ∀ s ∈ stages, s.validate = .ok () := by
    simp only [stages, List.forall_mem_cons]
    exact ⟨RampingLimits.validate_standard, UpDownTimes.validate_standard,
      CashFlowParams.validate_standard, nofun⟩
  obtain ⟨m', success⟩ := exists_run_built (by decide) valid
  obtain ⟨orders, again⟩ := order_irrelevant success
  exact ⟨_, build, m', success, orders _ (List.reverse_perm _).symm,
    again (.ramping .standard) [] (by simp [stages, kind])⟩

end Stage

end PlantEconomics
