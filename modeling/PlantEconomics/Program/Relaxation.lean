import PlantEconomics.Program.Basic

/-!
# Relaxations

The relaxation of a program lets its binary variables take every value between zero and one. What
is left is a linear program: bounds, rows that compare a sum of terms with a number, and terms to
be made small or large. A row is a constraint with the constant of its body moved to the other
side; the constant of the objective is left out, because it moves no optimal point, and comes back
when the objective is evaluated.

Linear programs are solved by a *linear solver*, which is an argument here: it gives the values of
an optimal point, or the cause why there is none.
-/

namespace PlantEconomics

/-! ## §1. Linear programs -/

/-- A sum of terms, and the number that it is compared with. -/
structure LinearRow (α : Type) where
  terms : List (Var × α)
  sense : Sense
  limit : α
deriving Repr, DecidableEq

/-- Bounds by variable, rows, and terms to be made small or large. -/
structure LinearProgram (α : Type) where
  bounds : List (Bounds α)
  rows : List (LinearRow α)
  objective : List (Var × α)
  goal : Goal
deriving Repr, DecidableEq

/-- A way to solve linear programs: values by variable, or the cause why there is no optimum. -/
abbrev LinearSolver (α : Type) : Type := LinearProgram α → Except SolverCause (List α)

/-! ## §2. The relaxation of a program -/

section Relaxation

variable {α : Type} [Scalar α]

/-- A constraint as a row. -/
def Constraint.row (c : Constraint α) : LinearRow α :=
  { terms := c.relation.body.terms
    sense := c.relation.sense
    limit := -c.relation.body.constant }

/-- The linear program of a program and an objective. -/
def Program.relaxation (p : Program α) (o : Objective α) : LinearProgram α :=
  { bounds := p.specs.toList.map (·.bounds)
    rows := p.constraints.map (·.row)
    objective := o.expression.terms
    goal := o.goal }

/-! ## §3. Optimal points -/

/-- Values by variable, and the value of the objective there. -/
structure Optimum (α : Type) where
  values : List α
  objective : α
deriving Repr, DecidableEq

/-- The value of a variable; variables that the program does not have are zero. -/
def Optimum.value (o : Optimum α) (v : Var) : α := o.values.getD v 0

/-- An optimal point of the relaxation of a program. -/
def Program.optimum (solve : LinearSolver α) (p : Program α) : Except (Fault α) (Optimum α) :=
  match p.objective with
  | none => .error (.solver .noObjective)
  | some o =>
    match solve (p.relaxation o) with
    | .error cause => .error (.solver cause)
    | .ok values => .ok { values, objective := o.expression.evaluate fun v => values.getD v 0 }

end Relaxation

end PlantEconomics
