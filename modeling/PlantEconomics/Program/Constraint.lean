import PlantEconomics.Market.Period
import PlantEconomics.Program.Affine
import PlantEconomics.Vocabulary

/-!
# Variables, constraints and objectives

A variable has a name, a domain and perhaps bounds. A constraint compares an expression, its body,
with zero; it belongs to a named family and has an index in it. A relation between two expressions
becomes the constraint on their difference, with the vanished terms left out, so that equal
relations have equal bodies.
-/

namespace PlantEconomics

/-! ## §1. Variables -/

/-- The values that a variable may take. -/
inductive Domain where
  | reals
  | nonNegative
  | binary
deriving Repr, DecidableEq

instance : Vocabulary Domain where
  all := [.reals, .nonNegative, .binary]
  word
    | .reals => "Reals"
    | .nonNegative => "NonNegativeReals"
    | .binary => "Binary"

/-- Name, domain and declared bounds of a variable. -/
structure VariableSpec (α : Type) where
  name : String
  domain : Domain
  lower : Option α
  upper : Option α
deriving Repr, DecidableEq

/-- The least and the greatest value allowed, where there are such. -/
structure Bounds (α : Type) where
  lower : Option α
  upper : Option α
deriving Repr, DecidableEq

/-- Whether a value lies within bounds. -/
def Bounds.contains {α : Type} [Scalar α] (b : Bounds α) (x : α) : Bool :=
  (b.lower.all fun l => l ≤ x) && b.upper.all fun u => x ≤ u

/-- The bounds that domain and declaration together put on a variable. -/
def VariableSpec.bounds {α : Type} [Scalar α] (s : VariableSpec α) : Bounds α :=
  match s.domain with
  | .reals => ⟨s.lower, s.upper⟩
  | .nonNegative =>
    match s.lower with
    | some l => ⟨some (Scalar.larger l 0), s.upper⟩
    | none => ⟨some 0, s.upper⟩
  | .binary => ⟨some 0, some 1⟩

/-! ## §2. Constraints -/

/-- How a body compares with zero. -/
inductive Sense where
  | le
  | ge
  | eq
deriving Repr, DecidableEq

instance : Vocabulary Sense where
  all := [.le, .ge, .eq]
  word
    | .le => "Le"
    | .ge => "Ge"
    | .eq => "Eq"

/-- Where a constraint stands in its family. -/
inductive Index where
  /-- The only member of its family. -/
  | scalar
  /-- A position in the list of periods. -/
  | position (t : Nat)
  | period (k : PeriodKey)
deriving Repr, DecidableEq

/-- How an index is written behind the name of the family. -/
def Index.text : Index → String
  | .scalar => ""
  | .position t => s!"[{t}]"
  | .period k => k.text

/-- A body and how it compares with zero. -/
structure Relation (α : Type) where
  body : Affine α
  sense : Sense

namespace Relation

variable {α : Type} [Scalar α]

/-- The relation of two expressions. -/
def between (lhs : Affine α) (sense : Sense) (rhs : Affine α) : Relation α :=
  ⟨(lhs - rhs).pruned, sense⟩

/-- `lhs ≤ rhs`. -/
def le (lhs rhs : Affine α) : Relation α := between lhs .le rhs

/-- `lhs ≥ rhs`. -/
def ge (lhs rhs : Affine α) : Relation α := between lhs .ge rhs

/-- `lhs = rhs`. -/
def equals (lhs rhs : Affine α) : Relation α := between lhs .eq rhs

/-- Whether an assignment satisfies a relation up to a tolerance. -/
def holds (r : Relation α) (value : Var → α) (tolerance : α) : Bool :=
  let v := r.body.evaluate value
  match r.sense with
  | .le => v ≤ tolerance
  | .ge => -tolerance ≤ v
  | .eq => Scalar.abs v ≤ tolerance

end Relation

/-- A relation with its family and its index. -/
structure Constraint (α : Type) where
  family : String
  index : Index
  relation : Relation α

namespace Constraint

variable {α : Type}

/-- The name of a constraint: its family and its index. -/
def name (c : Constraint α) : String := c.family ++ c.index.text

/-- Whether an assignment satisfies a constraint up to a tolerance. -/
def holds [Scalar α] (c : Constraint α) (value : Var → α) (tolerance : α) : Bool :=
  c.relation.holds value tolerance

end Constraint

/-! ## §3. Objectives -/

/-- Which way an objective is to go. -/
inductive Goal where
  | minimize
  | maximize
deriving Repr, DecidableEq

instance : Vocabulary Goal where
  all := [.minimize, .maximize]
  word
    | .minimize => "Minimize"
    | .maximize => "Maximize"

/-- A named expression that is to be made as small or as large as possible. -/
structure Objective (α : Type) where
  name : String
  expression : Affine α
  goal : Goal

end PlantEconomics
