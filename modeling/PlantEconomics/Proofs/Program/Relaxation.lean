import PlantEconomics.Program.Relaxation
import PlantEconomics.Proofs.Program.Evaluation

/-!
# What the relaxation of a program keeps

Under exact arithmetic the linear program of a program has exactly its feasible assignments: a row
is a constraint with the constant of its body on the other side, and the bounds are those of the
variables, binary ones between zero and one. The two objectives differ by the constant.

So a solver that gives optimal points of linear programs gives optimal points of relaxations. What
it is assumed to do is `LinearProgram.IsOptimal`, which speaks of the linear program alone. It
compares lists of values, while a program is evaluated under an assignment of all variables; the two
meet in `valuesOf`, the values of an assignment at the variables that the program has.

The rows may also be made step by step: the constant is taken off on both sides, what is left is
brought to one side, with `≥` turned around, and the constant is taken over again
(`Program.relaxationInSteps`). The optimal points are the same.
-/

namespace PlantEconomics

/-- Whether an assignment satisfies all constraints and lies within all bounds. -/
structure Program.Feasible {α : Type} [Scalar α] (p : Program α) (value : Var → α) : Prop where
  satisfied : ∀ c ∈ p.constraints, c.holds value 0 = true
  bounded : ∀ (v : Var) (spec : VariableSpec α), p.spec? v = some spec →
    spec.bounds.contains (value v) = true

section Exact

variable {α : Type} [Field α] [LinearOrder α]

/-! ## §1. Linear programs and their optimal points -/

/-- Whether an assignment satisfies a row. -/
def LinearRow.Holds (r : LinearRow α) (value : Var → α) : Prop :=
  match r.sense with
  | .le => termsValue value r.terms ≤ r.limit
  | .ge => r.limit ≤ termsValue value r.terms
  | .eq => termsValue value r.terms = r.limit

/-- Whether one value of an objective is as good as another, or better. -/
def Goal.AsGood (goal : Goal) (x y : α) : Prop :=
  match goal with
  | .minimize => x ≤ y
  | .maximize => y ≤ x

namespace LinearProgram

/-- Whether an assignment satisfies all rows and lies within all bounds. -/
structure Feasible (lp : LinearProgram α) (value : Var → α) : Prop where
  satisfied : ∀ r ∈ lp.rows, r.Holds value
  bounded : ∀ (v : Var) (b : Bounds α), lp.bounds[v]? = some b → b.contains (value v) = true

/-- The assignment of a list of values; further variables are zero. -/
def assign (values : List α) (v : Var) : α := values.getD v 0

/-- A value for each variable, together feasible and as good as all other feasible values. -/
structure IsOptimal (lp : LinearProgram α) (values : List α) : Prop where
  length : values.length = lp.bounds.length
  feasible : lp.Feasible (assign values)
  best : ∀ others : List α, others.length = lp.bounds.length → lp.Feasible (assign others) →
    lp.goal.AsGood (termsValue (assign values) lp.objective)
      (termsValue (assign others) lp.objective)

end LinearProgram

/-! ## §2. Rows and bounds -/

/-- A row holds as its constraint does: a constant may be moved to the other side. -/
theorem Constraint.row_holds_iff [IsStrictOrderedRing α] (c : Constraint α) (value : Var → α) :
    c.row.Holds value ↔ c.holds value 0 = true := by
  have value_eq := Affine.evaluate_eq c.relation.body value
  unfold LinearRow.Holds Constraint.row Constraint.holds Relation.holds
  rw [value_eq]
  cases c.relation.sense with
  | le =>
    show termsValue value _ ≤ -_ ↔ decide (_ ≤ _) = true
    rw [decide_eq_true_eq, le_neg_iff_add_nonpos_right]
  | ge =>
    show -_ ≤ termsValue value _ ↔ decide (-0 ≤ _) = true
    rw [decide_eq_true_eq, neg_zero, neg_le_iff_add_nonneg]
  | eq =>
    show termsValue value _ = -_ ↔ decide (Scalar.abs _ ≤ 0) = true
    rw [decide_eq_true_eq, Scalar.abs_eq, abs_nonpos_iff, eq_neg_iff_add_eq_zero]

namespace Program

/-- A linear program has the effective bounds of the variables of its program. -/
theorem bounds_relaxation {α : Type} [Scalar α] (p : Program α) (o : Objective α) (v : Var) :
    (p.relaxation o).bounds[v]? = (p.spec? v).map (·.bounds) := by
  simp [relaxation, spec?]

/-- The linear program of a program has the feasible assignments of the program. In both, binary
variables may take all values between zero and one. -/
theorem relaxation_feasible_iff [IsStrictOrderedRing α] (p : Program α) (o : Objective α)
    (value : Var → α) : (p.relaxation o).Feasible value ↔ p.Feasible value := by
  constructor
  · intro h
    refine ⟨fun c hc => ?_, fun v spec known => ?_⟩
    · rw [← Constraint.row_holds_iff]
      exact h.satisfied c.row (List.mem_map_of_mem hc)
    · exact h.bounded v spec.bounds (by rw [bounds_relaxation, known, Option.map_some])
  · intro h
    refine ⟨fun r hr => ?_, fun v b known => ?_⟩
    · obtain ⟨c, hc, rfl⟩ := List.mem_map.1 hr
      rw [Constraint.row_holds_iff]
      exact h.satisfied c hc
    · rw [bounds_relaxation, Option.map_eq_some_iff] at known
      obtain ⟨spec, known, rfl⟩ := known
      exact h.bounded v spec known

/-! ## §3. Values of assignments -/

/-- Whether a constraint or the objective has a term with a variable. -/
def Mentions (p : Program α) (v : Var) : Prop :=
  (∃ c ∈ p.constraints, ∃ t ∈ c.relation.body.terms, t.1 = v) ∨
    ∃ o, p.objective = some o ∧ ∃ t ∈ o.expression.terms, t.1 = v

/-- The values of an assignment at the variables of a program. -/
def valuesOf (p : Program α) (value : Var → α) : List α := (List.range p.size).map value

omit [LinearOrder α] in
theorem assign_valuesOf {p : Program α} {value : Var → α} {v : Var} (h : v < p.size) :
    LinearProgram.assign (p.valuesOf value) v = value v := by
  simp [LinearProgram.assign, valuesOf, h]

omit [LinearOrder α] in
/-- Where foreign variables are zero, nothing that a program says is lost with them. -/
theorem assign_valuesOf_of_mentions {p : Program α} {value : Var → α}
    (foreign : ∀ v, p.Mentions v → p.size ≤ v → value v = 0) {v : Var} (hv : p.Mentions v) :
    LinearProgram.assign (p.valuesOf value) v = value v := by
  by_cases own : v < p.size
  · exact assign_valuesOf own
  · rw [foreign v hv (Nat.le_of_not_lt own)]
    simp [LinearProgram.assign, valuesOf, own]

end Program

omit [LinearOrder α] in
theorem termsValue_congr {value other : Var → α} {ts : List (Var × α)}
    (agree : ∀ t ∈ ts, value t.1 = other t.1) : termsValue value ts = termsValue other ts := by
  unfold termsValue
  rw [List.map_congr_left fun t ht => congrArg (t.2 * ·) (agree t ht)]

theorem Affine.evaluate_congr {value other : Var → α} {a : Affine α}
    (agree : ∀ t ∈ a.terms, value t.1 = other t.1) : a.evaluate value = a.evaluate other := by
  rw [evaluate_eq, evaluate_eq, termsValue_congr agree]

/-- The values of a feasible assignment are feasible by themselves. -/
theorem Program.Feasible.valuesOf {p : Program α} {value : Var → α} (feasible : p.Feasible value)
    (foreign : ∀ v, p.Mentions v → p.size ≤ v → value v = 0) :
    p.Feasible (LinearProgram.assign (p.valuesOf value)) where
  satisfied c hc := by
    have same : c.relation.body.evaluate (LinearProgram.assign (p.valuesOf value)) =
        c.relation.body.evaluate value := by
      refine Affine.evaluate_congr fun t ht => ?_
      exact assign_valuesOf_of_mentions foreign (.inl ⟨c, hc, t, ht, rfl⟩)
    have holds := feasible.satisfied c hc
    unfold Constraint.holds Relation.holds at holds ⊢
    rw [same]
    exact holds
  bounded v spec known := by
    have own : v < p.size := by
      unfold spec? at known
      exact (Array.getElem?_eq_some_iff.1 known).1
    rw [assign_valuesOf own]
    exact feasible.bounded v spec known

end Exact

/-! ## §4. A program with a fractional optimum -/

namespace Program

/-- Three for each quantity, two for the choice, and one anyway. -/
def gain : Objective ℚ := ⟨"gain", ⟨1, [(0, 3), (1, 2)], by simp [Ascending]⟩, .maximize⟩

/-- A quantity up to three and a choice that takes two of four places. -/
def placement : Program ℚ :=
  { specs := #[⟨"quantity", .nonNegative, none, some 3⟩, ⟨"choice", .binary, none, none⟩]
    constraints := [⟨"places", .scalar, ⟨⟨-4, [(0, 1), (1, 2)], by simp [Ascending]⟩, .le⟩⟩]
    families := ["places"]
    expressions := []
    objective := some gain }

/-- A solver that knows a single linear program. -/
def solvePlacement : LinearSolver ℚ := fun lp =>
  if lp = placement.relaxation gain then .ok [3, 1 / 2] else .error .infeasible

theorem feasible_placement_iff {value : Var → ℚ} :
    placement.Feasible value ↔
      value 0 + 2 * value 1 ≤ 4 ∧ (0 ≤ value 0 ∧ value 0 ≤ 3) ∧ 0 ≤ value 1 ∧ value 1 ≤ 1 := by
  have places : ∀ c ∈ placement.constraints,
      (c.holds value 0 = true ↔ value 0 + 2 * value 1 ≤ 4) := by
    intro c hc
    obtain rfl := List.mem_singleton.1 hc
    rw [← Constraint.row_holds_iff]
    simp [LinearRow.Holds, Constraint.row]
  have quantity : (⟨"quantity", .nonNegative, none, some 3⟩ : VariableSpec ℚ).bounds.contains
      (value 0) = true ↔ 0 ≤ value 0 ∧ value 0 ≤ 3 := by
    simp [VariableSpec.bounds, Bounds.contains]
  have choice : (⟨"choice", .binary, none, none⟩ : VariableSpec ℚ).bounds.contains
      (value 1) = true ↔ 0 ≤ value 1 ∧ value 1 ≤ 1 := by
    simp [VariableSpec.bounds, Bounds.contains]
  constructor
  · intro h
    exact ⟨(places _ List.mem_cons_self).1 (h.satisfied _ List.mem_cons_self),
      quantity.1 (h.bounded 0 _ rfl), choice.1 (h.bounded 1 _ rfl)⟩
  · rintro ⟨fits, enough, whole⟩
    refine ⟨fun c hc => (places c hc).2 fits, fun v spec known => ?_⟩
    match v, known with
    | 0, rfl => exact quantity.2 enough
    | 1, rfl => exact choice.2 whole

theorem isOptimal_of_solvePlacement {lp : LinearProgram ℚ} {values : List ℚ}
    (solved : solvePlacement lp = .ok values) : lp.IsOptimal values := by
  unfold solvePlacement at solved
  split at solved
  · next known =>
    cases solved
    subst known
    refine ⟨rfl, ?_, ?_⟩
    · rw [relaxation_feasible_iff, feasible_placement_iff]
      simp [LinearProgram.assign]
      norm_num
    · intro others length feasible
      rw [relaxation_feasible_iff, feasible_placement_iff] at feasible
      obtain ⟨places, ⟨-, quantity⟩, -⟩ := feasible
      simp [Goal.AsGood, LinearProgram.assign, relaxation, gain, termsValue] at places quantity ⊢
      linarith
  · cases solved

end Program

/-! ## §5. Optimal points -/

section Optimal

variable {α : Type} [Field α] [LinearOrder α]

theorem Goal.asGood_add_iff [IsStrictOrderedRing α] (goal : Goal) (x y c : α) :
    goal.AsGood (x + c) (y + c) ↔ goal.AsGood x y := by
  cases goal with
  | minimize => exact add_le_add_iff_right c
  | maximize => exact add_le_add_iff_right c

namespace Program

theorem optimum_eq_ok_iff {α : Type} [Scalar α] {solve : LinearSolver α} {p : Program α}
    {o : Objective α} (objective : p.objective = some o) {opt : Optimum α} :
    p.optimum solve = .ok opt ↔
      solve (p.relaxation o) = .ok opt.values ∧
        opt.objective = o.expression.evaluate opt.value := by
  unfold optimum
  rw [objective]
  constructor
  · intro h
    cases solved : solve (p.relaxation o) with
    | error cause => simp [solved] at h
    | ok values =>
      simp only [solved, Except.ok.injEq] at h
      subst h
      exact ⟨rfl, rfl⟩
  · rintro ⟨solved, value⟩
    obtain ⟨values, reached⟩ := opt
    simp only [solved, Except.ok.injEq, Optimum.mk.injEq, true_and]
    exact value.symm

/-- **The optimum of a relaxation.** The linear program of a program and its objective has the
feasible assignments of the program, and its objective is the program's without the constant. So
with a solver whose answers are optimal points, the values found are feasible for the program, the
objective is that of the program at these values, with its constant, and it is as good as the
objective at every feasible assignment; those whose binary variables are zero or one are among them.
Variables that a program mentions but does not have, if there are any, are to be zero. -/
theorem relaxed_optimum [IsStrictOrderedRing α] {solve : LinearSolver α}
    (correct : ∀ lp values, solve lp = .ok values → lp.IsOptimal values) {p : Program α}
    {o : Objective α} (objective : p.objective = some o) :
    (∀ value, ((p.relaxation o).Feasible value ↔ p.Feasible value) ∧
        o.expression.evaluate value =
          termsValue value (p.relaxation o).objective + o.expression.constant) ∧
      ∀ opt, p.optimum solve = .ok opt →
        p.Feasible opt.value ∧ opt.objective = o.expression.evaluate opt.value ∧
          ∀ value, p.Feasible value → (∀ v, p.Mentions v → p.size ≤ v → value v = 0) →
            o.goal.AsGood opt.objective (o.expression.evaluate value) := by
  refine ⟨fun value => ⟨p.relaxation_feasible_iff o value, ?_⟩, ?_⟩
  · exact Affine.evaluate_eq o.expression value
  · intro opt found
    obtain ⟨solved, reached⟩ := (optimum_eq_ok_iff objective).1 found
    have optimal := correct _ _ solved
    refine ⟨(p.relaxation_feasible_iff o _).1 optimal.feasible, reached, ?_⟩
    intro value feasible foreign
    -- the solver's point is compared with the values that the assignment has
    have comparable : (p.relaxation o).Feasible (LinearProgram.assign (p.valuesOf value)) :=
      (p.relaxation_feasible_iff o _).2 (feasible.valuesOf foreign)
    have best := optimal.best (p.valuesOf value) (by simp [valuesOf, relaxation, size]) comparable
    have same : termsValue (LinearProgram.assign (p.valuesOf value)) (p.relaxation o).objective =
        termsValue value o.expression.terms := by
      refine termsValue_congr fun t ht => ?_
      exact assign_valuesOf_of_mentions foreign (.inr ⟨o, objective, t, ht, rfl⟩)
    rw [same] at best
    rw [reached, Affine.evaluate_eq, Affine.evaluate_eq, Goal.asGood_add_iff]
    exact best

end Program

end Optimal

namespace Program

/-- Half a choice is optimal in the relaxation, and no whole choice is better. -/
theorem relaxed_optimum_placement :
    ∃ opt, placement.optimum solvePlacement = .ok opt ∧ opt.objective = 11 ∧
      placement.Feasible opt.value ∧
      ∀ value, placement.Feasible value → gain.expression.evaluate value ≤ 11 := by
  have solved : solvePlacement (placement.relaxation gain) = .ok [3, 1 / 2] := if_pos rfl
  have reached : gain.expression.evaluate (Optimum.value ⟨[3, 1 / 2], 11⟩) = 11 := by
    rw [Affine.evaluate_eq]
    simp [gain, Optimum.value, termsValue]
    norm_num
  have found : placement.optimum solvePlacement = .ok ⟨[3, 1 / 2], 11⟩ :=
    (optimum_eq_ok_iff (o := gain) rfl).2 ⟨solved, reached.symm⟩
  obtain ⟨-, optimal⟩ := relaxed_optimum (fun _ _ => isOptimal_of_solvePlacement)
    (p := placement) (o := gain) rfl
  obtain ⟨feasible, -, best⟩ := optimal _ found
  refine ⟨_, found, rfl, feasible, fun value other => best value other ?_⟩
  intro v mentioned foreign
  -- the program has all variables that it mentions
  have terms : ∀ c : ℚ, ∀ t ∈ [((0 : Var), c), (1, 2)], t.1 < placement.size := by
    intro c
    simp [placement, size]
  have own : v < placement.size := by
    rcases mentioned with ⟨c, hc, t, ht, rfl⟩ | ⟨o, ho, t, ht, rfl⟩
    · obtain rfl := List.mem_singleton.1 hc
      exact terms 1 t ht
    · obtain rfl := Option.some.inj ho
      exact terms 3 t ht
  exact absurd own (Nat.not_lt.2 foreign)

end Program

/-! ## §6. Rows step by step -/

/-- An expression that is to be zero, or at most zero. Comparisons are kept in this form. -/
structure Residual (α : Type) where
  expression : Affine α
  isZero : Bool

namespace Residual

variable {α : Type} [Scalar α]

/-- `lhs ≤ rhs`. -/
def le (lhs rhs : Affine α) : Residual α := ⟨lhs - rhs, false⟩

/-- `lhs ≥ rhs`, which is `rhs ≤ lhs`. -/
def ge (lhs rhs : Affine α) : Residual α := le rhs lhs

/-- `lhs = rhs`. -/
def equals (lhs rhs : Affine α) : Residual α := ⟨lhs - rhs, true⟩

/-- The terms of the expression, and what its constant leaves for them. -/
def row (r : Residual α) : LinearRow α :=
  { terms := r.expression.terms
    sense := if r.isZero then .eq else .le
    limit := -r.expression.constant }

end Residual

section Steps

variable {α : Type} [Scalar α]

/-- A constraint with the constant of its body taken off on both sides. -/
def Constraint.residual (c : Constraint α) : Residual α :=
  let rhs := Affine.const (-c.relation.body.constant)
  let lhs := c.relation.body + rhs
  match c.relation.sense with
  | .le => .le lhs rhs
  | .ge => .ge lhs rhs
  | .eq => .equals lhs rhs

/-- The expression of an objective with its constant taken off. -/
def Objective.shifted (o : Objective α) : Affine α :=
  o.expression - Affine.const o.expression.constant

/-- The linear program of a program and an objective, with its rows made step by step. -/
def Program.relaxationInSteps (p : Program α) (o : Objective α) : LinearProgram α :=
  { bounds := p.specs.toList.map (·.bounds)
    rows := p.constraints.map fun c => c.residual.row
    objective := o.shifted.terms
    goal := o.goal }

end Steps

section StepsExact

variable {α : Type} [Field α] [LinearOrder α]

/-- Taking the constant off leaves the terms, and no constant. -/
theorem Objective.shifted_eq (o : Objective α) :
    o.shifted.terms = o.expression.terms ∧ o.shifted.constant = 0 := by
  refine ⟨rfl, ?_⟩
  show o.expression.constant + -1 * o.expression.constant = 0
  ring

variable [IsStrictOrderedRing α]

theorem Residual.row_holds_iff (r : Residual α) (value : Var → α) :
    r.row.Holds value ↔
      if r.isZero then r.expression.evaluate value = 0 else r.expression.evaluate value ≤ 0 := by
  rw [Affine.evaluate_eq]
  unfold LinearRow.Holds row
  cases r.isZero with
  | false => exact le_neg_iff_add_nonpos_right
  | true => exact eq_neg_iff_add_eq_zero

/-- The steps move the constant to the other side and nothing else; a row that is turned around
holds as it did. -/
theorem Constraint.residual_row_holds_iff (c : Constraint α) (value : Var → α) :
    c.residual.row.Holds value ↔ c.row.Holds value := by
  rw [Residual.row_holds_iff, Constraint.row_holds_iff]
  unfold Constraint.residual Constraint.holds Relation.holds
  cases c.relation.sense with
  | le => simp [Residual.le]
  | ge => simp [Residual.ge, Residual.le]
  | eq => simp [Residual.equals, Scalar.abs_eq]

namespace Program

theorem relaxationInSteps_feasible_iff (p : Program α) (o : Objective α) (value : Var → α) :
    (p.relaxationInSteps o).Feasible value ↔ (p.relaxation o).Feasible value := by
  have rows : (∀ r ∈ (p.relaxationInSteps o).rows, r.Holds value) ↔
      ∀ r ∈ (p.relaxation o).rows, r.Holds value := by
    simp only [relaxationInSteps, relaxation, List.forall_mem_map,
      Constraint.residual_row_holds_iff]
  exact ⟨fun h => ⟨rows.1 h.satisfied, h.bounded⟩, fun h => ⟨rows.2 h.satisfied, h.bounded⟩⟩

/-- **Rows made step by step** have the optimal points of rows that are made at once. -/
theorem relaxationInSteps_isOptimal_iff (p : Program α) (o : Objective α) (values : List α) :
    (p.relaxationInSteps o).IsOptimal values ↔ (p.relaxation o).IsOptimal values := by
  have feasible := p.relaxationInSteps_feasible_iff o
  have objective : (p.relaxationInSteps o).objective = (p.relaxation o).objective :=
    o.shifted_eq.1
  constructor
  · intro h
    refine ⟨h.length, (feasible _).1 h.feasible, fun others length fits => ?_⟩
    rw [← objective]
    exact h.best others length ((feasible _).2 fits)
  · intro h
    refine ⟨h.length, (feasible _).2 h.feasible, fun others length fits => ?_⟩
    rw [objective]
    exact h.best others length ((feasible _).1 fits)

end Program

end StepsExact

end PlantEconomics
