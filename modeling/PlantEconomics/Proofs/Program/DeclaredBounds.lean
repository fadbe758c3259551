import PlantEconomics.Program.Simplex
import PlantEconomics.Proofs.Machine
import PlantEconomics.Proofs.Program.Relaxation

/-!
# Declared bounds in relaxations

A solver is given the effective bounds of the variables. For a real variable and for one that is not
negative they are the declared bounds and those of the domain, together. A binary variable has zero
and one instead of what is declared. So whether an optimal point lies within the bounds that a
variable is declared with, for every solver that answers within the bounds it is given, depends on
the variable alone, as long as there are values within all bounds: a binary variable must be
declared with bounds that leave both zero and one, or with none.

  * `VariableSpec.contains_bounds_iff`: effective bounds as domain and declared bounds together;
  * `VariableSpec.within_declared_iff`: when effective bounds imply the declared ones;
  * `Program.declared_bounds_kept_iff` is about solvers and programs.
-/

namespace PlantEconomics

/-! ## §1. Effective and declared bounds -/

/-- Whether a value is in a domain; the binary values are relaxed. -/
def Domain.Contains {α : Type} [Scalar α] (d : Domain) (x : α) : Prop :=
  match d with
  | .reals => True
  | .nonNegative => 0 ≤ x
  | .binary => 0 ≤ x ∧ x ≤ 1

namespace VariableSpec

/-- The bounds that a variable is declared with. -/
def declared {α : Type} (s : VariableSpec α) : Bounds α := ⟨s.lower, s.upper⟩

/-- Whether the bounds that a variable is declared with are kept: a real variable is free of
conditions, one that is not negative needs a number as its lower bound, if it has one, and a binary
one needs bounds that both its values satisfy. -/
def KeepsDeclared {α : Type} [Scalar α] (s : VariableSpec α) : Prop :=
  match s.domain with
  | .reals => True
  | .nonNegative => ∀ l ∈ s.lower, (l == l) = true
  | .binary => s.declared.contains 0 = true ∧ s.declared.contains 1 = true

variable {s : VariableSpec Float}

/-- When declared bounds are kept, the effective bounds are those of the domain and the declared
ones, together. -/
theorem contains_bounds_iff (keeps : s.KeepsDeclared) (x : Float) :
    s.bounds.contains x = true ↔ s.domain.Contains x ∧ s.declared.contains x = true := by
  unfold KeepsDeclared at keeps
  unfold bounds Domain.Contains
  cases domain : s.domain with
  | reals => simp [declared]
  | nonNegative =>
    rw [domain] at keeps
    cases lower : s.lower with
    | none => simp [declared, lower, Bounds.contains]
    | some l =>
      have number := Machine.isNumber_of_beq_self (keeps l lower)
      simp only [declared, Bounds.contains, Option.all_some, Bool.and_eq_true, decide_eq_true_eq]
      rw [Machine.larger_le_iff number (by exact Machine.isNumber_of_beq_self rfl),
        and_comm (a := l ≤ x), and_assoc, lower, Option.all_some, decide_eq_true_eq]
  | binary =>
    rw [domain] at keeps
    obtain ⟨zero, one⟩ := keeps
    simp only [declared, Bounds.contains, Bool.and_eq_true, Option.all_eq_true, decide_eq_true_eq,
      Option.all_some] at zero one ⊢
    constructor
    · rintro ⟨above, below⟩
      exact ⟨⟨above, below⟩, fun l lower => Machine.le_trans (zero.1 l lower) above,
        fun u upper => Machine.le_trans below (one.2 u upper)⟩
    · exact And.left

/-- If there is a value within the effective bounds, all such values are within the declared bounds
exactly when these are kept. -/
theorem within_declared_iff {y : Float} (inhabited : s.bounds.contains y = true) :
    (∀ x, s.bounds.contains x = true → s.declared.contains x = true) ↔ s.KeepsDeclared := by
  constructor
  · intro within
    unfold KeepsDeclared
    cases domain : s.domain with
    | reals => trivial
    | nonNegative =>
      -- a lower bound that is no number compares with no value
      intro l lower
      have above := within y inhabited
      simp only [declared, Bounds.contains, Option.mem_def.1 lower, Option.all_some,
        Bool.and_eq_true, decide_eq_true_eq] at above
      exact (Machine.isNumber_of_le above.1).1.beq_self
    | binary =>
      have both (x : Float) (inside : Domain.binary.Contains x) :
          s.declared.contains x = true :=
        within x (by simpa [bounds, domain, Bounds.contains, Domain.Contains] using inside)
      exact ⟨both _ ⟨rfl, rfl⟩, both _ ⟨rfl, rfl⟩⟩
  · intro keeps x inside
    exact ((contains_bounds_iff keeps x).1 inside).2

end VariableSpec

/-! ## §2. Solvers that keep bounds -/

/-- Whether there is a value for each variable, within its bounds. -/
def LinearProgram.Contains {α : Type} [Scalar α] (lp : LinearProgram α) (values : List α) : Prop :=
  values.length = lp.bounds.length ∧
    ∀ (v : Var) b, lp.bounds[v]? = some b → b.contains (values.getD v 0) = true

/-- Whether a solver keeps the bounds of a linear program if it solves it. -/
def LinearSolver.Keeps {α : Type} [Scalar α] (solve : LinearSolver α) (lp : LinearProgram α) :
    Prop :=
  ∀ values, solve lp = .ok values → lp.Contains values

theorem LinearSolver.keeps_of_solved {α : Type} [Scalar α] {solve : LinearSolver α}
    {lp : LinearProgram α} {values : List α} (solved : solve lp = .ok values)
    (inside : lp.Contains values) : solve.Keeps lp := by
  intro others answer
  rw [solved] at answer
  cases answer
  exact inside

namespace Program

variable {p : Program Float} {o : Objective Float}

/-- The values of an optimal point are within the effective bounds, if the solver keeps bounds. -/
theorem bounds_contain_of_optimum {solve : LinearSolver Float} (objective : p.objective = some o)
    (keeps : solve.Keeps (p.relaxation o)) {opt : Optimum Float}
    (found : p.optimum solve = .ok opt) {v : Var} {spec : VariableSpec Float}
    (known : p.spec? v = some spec) : spec.bounds.contains (opt.value v) = true := by
  obtain ⟨solved, -⟩ := (optimum_eq_ok_iff objective).1 found
  refine (keeps opt.values solved).2 v spec.bounds ?_
  rw [bounds_relaxation, known, Option.map_some]

/-- All values within the effective bounds are found by some solver that keeps them. -/
theorem exists_optimum_of_bounds (objective : p.objective = some o) {value : Var → Float}
    (inside : ∀ v spec, p.spec? v = some spec → spec.bounds.contains (value v) = true) :
    ∃ solve : LinearSolver Float, solve.Keeps (p.relaxation o) ∧
      ∃ opt, p.optimum solve = .ok opt ∧ ∀ v < p.size, opt.value v = value v := by
  have given {v : Var} (own : v < p.size) (default : Float) :
      (p.valuesOf value).getD v default = value v := by
    simp [valuesOf, own]
  let opt : Optimum Float :=
    ⟨p.valuesOf value, o.expression.evaluate fun v => (p.valuesOf value).getD v 0⟩
  refine ⟨fun _ => .ok (p.valuesOf value), LinearSolver.keeps_of_solved rfl ?_, opt,
    (optimum_eq_ok_iff objective).2 ⟨rfl, rfl⟩, fun v own => given own _⟩
  refine ⟨by simp [valuesOf, relaxation, size], fun v b known => ?_⟩
  rw [bounds_relaxation, Option.map_eq_some_iff] at known
  obtain ⟨spec, known, rfl⟩ := known
  rw [given (Array.getElem?_eq_some_iff.1 known).1]
  exact inside v spec known

/-- **When declared bounds are kept.** For a variable of a program, all solvers that keep the bounds
they are given find values within its declared bounds only, exactly if some variable has effective
bounds that no value satisfies, so that nothing is ever found, or if what the variable may
effectively take is what it is declared with. -/
theorem declared_bounds_kept_iff (objective : p.objective = some o) {v : Var}
    {spec : VariableSpec Float} (known : p.spec? v = some spec) :
    (∀ solve : LinearSolver Float, solve.Keeps (p.relaxation o) →
        ∀ opt, p.optimum solve = .ok opt → spec.declared.contains (opt.value v) = true) ↔
      (∃ w other, p.spec? w = some other ∧ ∀ x, other.bounds.contains x = false) ∨
        spec.KeepsDeclared := by
  constructor
  · intro kept
    by_contra! broken
    obtain ⟨inhabited, dropped⟩ := broken
    simp only [ne_eq, Bool.not_eq_false] at inhabited
    obtain ⟨x, inside, outside⟩ : ∃ x, spec.bounds.contains x = true ∧
        spec.declared.contains x ≠ true := by
      obtain ⟨y, inside⟩ := inhabited v spec known
      simpa using mt (VariableSpec.within_declared_iff inside).1 dropped
    -- the other variables take any values within their bounds
    choose! chosen within using inhabited
    let value (w : Var) : Float := if w = v then x else (p.spec? w).elim 0 (chosen w)
    have bounded : ∀ w other, p.spec? w = some other →
        other.bounds.contains (value w) = true := by
      intro w other unknown
      by_cases same : w = v
      · subst same
        obtain rfl := Option.some.inj (known.symm.trans unknown)
        simpa [value] using inside
      · simpa [value, same, unknown] using within w other unknown
    obtain ⟨solve, keeps, opt, found, values⟩ := exists_optimum_of_bounds objective bounded
    have kept := kept solve keeps opt found
    rw [values v (Array.getElem?_eq_some_iff.1 known).1] at kept
    exact outside (by simpa [value] using kept)
  · rintro (⟨w, other, unknown, none⟩ | keeps) solve bounded opt found
    · have inside := bounds_contain_of_optimum objective bounded found unknown
      rw [none] at inside
      cases inside
    · have inside := bounds_contain_of_optimum objective bounded found known
      exact (VariableSpec.within_declared_iff inside).2 keeps _ inside

/-! ## §3. A choice that is to be made -/

/-- What a choice and a quantity cost. -/
def cost : Objective Float := ⟨"cost", ⟨0, [(0, 1), (1, 1)], by simp [Ascending]⟩, .minimize⟩

/-- A choice that is declared as made, and a quantity that is declared between minus one and
three. -/
def madeChoice : Program Float :=
  { specs := #[⟨"choice", .binary, some 1, none⟩, ⟨"quantity", .nonNegative, some (-1), some 3⟩]
    constraints := []
    families := []
    expressions := []
    objective := some cost }

/-- The declared bounds of the quantity are kept by all solvers, those of the choice are not. -/
theorem declared_bounds_kept_quantity :
    (∀ solve : LinearSolver Float, solve.Keeps (madeChoice.relaxation cost) →
      ∀ opt, madeChoice.optimum solve = .ok opt →
        (⟨some (-1), some 3⟩ : Bounds Float).contains (opt.value 1) = true) ∧
    ¬∀ solve : LinearSolver Float, solve.Keeps (madeChoice.relaxation cost) →
      ∀ opt, madeChoice.optimum solve = .ok opt →
        (⟨some 1, none⟩ : Bounds Float).contains (opt.value 0) = true := by
  constructor
  · refine (declared_bounds_kept_iff (p := madeChoice) (o := cost) (v := 1) rfl rfl).2 (.inr ?_)
    intro l lower
    cases lower
    rfl
  · refine mt (declared_bounds_kept_iff (p := madeChoice) (o := cost) (v := 0) rfl rfl).1 ?_
    rintro (⟨w, other, known, none⟩ | ⟨zero, -⟩)
    · match w, known with
      | 0, rfl => exact absurd (none 0) (by decide +kernel)
      | 1, rfl => exact absurd (none 0) (by decide +kernel)
    · exact absurd zero (by decide +kernel)

/-- The simplex method keeps the bounds it is given, and leaves the choice. -/
theorem made_choice_left :
    ∃ opt, madeChoice.optimum Simplex.solve = .ok opt ∧
      Simplex.solve.Keeps (madeChoice.relaxation cost) ∧
      ∃ spec, madeChoice.spec? 0 = some spec ∧ spec.lower = some 1 ∧
        spec.declared.contains (opt.value 0) = false := by
  have solved : Simplex.solve (madeChoice.relaxation cost) = .ok [0, 0] := by rfl
  refine ⟨⟨[0, 0], 0⟩, (optimum_eq_ok_iff (o := cost) rfl).2 ⟨solved, rfl⟩,
    LinearSolver.keeps_of_solved solved ⟨rfl, fun v b known => ?_⟩, _, rfl, rfl, rfl⟩
  rw [bounds_relaxation, Option.map_eq_some_iff] at known
  obtain ⟨spec, known, rfl⟩ := known
  match v, known with
  | 0, rfl => rfl
  | 1, rfl => rfl

end Program

end PlantEconomics
