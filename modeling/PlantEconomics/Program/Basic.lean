import PlantEconomics.Fault
import PlantEconomics.Program.Constraint

/-!
# Mathematical programs

A program has variables, families of constraints, named expressions and at most one objective. It
only ever grows: variables are numbered as they come, a family is added as a whole and once, and
so is an expression and the objective. An addition that would define something again is refused.

Additions change a program in place, step by step. So where one is refused, the program is what the
steps before made of it; that it is what it was before is for the order of the steps to see to.
-/

namespace PlantEconomics

/-- Variables in the order of their creation, constraints in the order of their families, the names
of the families, named expressions and the objective. -/
structure Program (α : Type) where
  specs : Array (VariableSpec α)
  constraints : List (Constraint α)
  families : List String
  expressions : List (String × Affine α)
  objective : Option (Objective α)

namespace Program

variable {α : Type}

/-- The program without anything. -/
def empty : Program α := ⟨#[], [], [], [], none⟩

/-! ## §1. Variables -/

/-- Number of variables, which is also the next variable. -/
def size (p : Program α) : Nat := p.specs.size

/-- The program with one more variable. -/
def addVariable (p : Program α) (spec : VariableSpec α) : Program α :=
  { p with specs := p.specs.push spec }

/-- The program with several more variables. -/
def addVariables (p : Program α) (specs : List (VariableSpec α)) : Program α :=
  { p with specs := p.specs ++ specs.toArray }

/-- What is known of a variable. -/
def spec? (p : Program α) (v : Var) : Option (VariableSpec α) := p.specs[v]?

/-- The first variable of a name. -/
def find? (p : Program α) (name : String) : Option Var :=
  p.specs.findIdx? fun s => s.name == name

@[simp] theorem size_addVariable (p : Program α) (spec : VariableSpec α) :
    (p.addVariable spec).size = p.size + 1 := by
  simp [addVariable, size]

@[simp] theorem size_addVariables (p : Program α) (specs : List (VariableSpec α)) :
    (p.addVariables specs).size = p.size + specs.length := by
  simp [addVariables, size]

/-! ## §2. Families of constraints -/

/-- Whether a family is defined. -/
def hasFamily (p : Program α) (family : String) : Bool := p.families.contains family

/-- Fail with the first of some families that is already defined. -/
def ensureNew (p : Program α) (families : List String) : Except (Fault α) Unit :=
  match families.find? p.hasFamily with
  | some f => .error (.configuration (.familyDefined f))
  | none => .ok ()

/-- The program with a family of constraints, whether or not there is one of its name. -/
def withFamily (p : Program α) (family : String) (members : List (Index × Relation α)) :
    Program α :=
  { p with
    constraints := p.constraints ++ members.map fun m => ⟨family, m.1, m.2⟩
    families := p.families ++ [family] }

/-- The constraints of a family. -/
def familyMembers (p : Program α) (family : String) : List (Constraint α) :=
  p.constraints.filter fun c => c.family == family

/-- The first constraint of a family with an index. -/
def constraint? (p : Program α) (family : String) (index : Index) : Option (Constraint α) :=
  p.constraints.find? fun c => c.family == family && c.index == index

/-- The constraints that an assignment violates by more than a tolerance. -/
def violations [Scalar α] (p : Program α) (value : Var → α) (tolerance : α) :
    List (Constraint α) :=
  p.constraints.filter fun c => !c.holds value tolerance

/-! ## §3. Expressions and the objective -/

/-- The expression of a name. -/
def expression? (p : Program α) (name : String) : Option (Affine α) := p.expressions.lookup name

/-- Fail if there is an expression of a name. -/
def ensureNewExpression (p : Program α) (name : String) : Except (Fault α) Unit :=
  match p.expression? name with
  | some _ => .error (.configuration (.expressionDefined name))
  | none => .ok ()

/-- Fail if there is an objective. -/
def ensureNoObjective (p : Program α) : Except (Fault α) Unit :=
  match p.objective with
  | some o => .error (.configuration (.objectiveDefined o.name))
  | none => .ok ()

/-! ## §4. Changes in place -/

/-- Steps that change a program in place. Where one of them fails, the program is left as the steps
before it made it. -/
abbrev InPlace (α : Type) : Type → Type := ExceptT (Fault α) (StateM (Program α))

/-- Add a new family of constraints. The result is the number of its members. -/
def addFamilyInPlace (family : String) (members : List (Index × Relation α)) : InPlace α Nat := do
  (← get).ensureNew [family]
  let before := (← get).constraints.length
  modify fun p =>
    { p with constraints := p.constraints ++ members.map fun m => ⟨family, m.1, m.2⟩ }
  modify fun p => { p with families := p.families ++ [family] }
  return (← get).constraints.length - before

/-- Add a new family of one constraint. -/
def addConstraintInPlace (family : String) (r : Relation α) : InPlace α Unit := do
  let _ ← addFamilyInPlace family [(.scalar, r)]
  return ()

/-- Add a new named expression. -/
def addExpressionInPlace (name : String) (e : Affine α) : InPlace α Unit := do
  (← get).ensureNewExpression name
  modify fun p => { p with expressions := p.expressions ++ [(name, e)] }

/-- Set the objective, of which there is only one. -/
def setObjectiveInPlace (o : Objective α) : InPlace α Unit := do
  (← get).ensureNoObjective
  modify fun p => { p with objective := some o }

/-- The program that steps in place make of a program, if they all succeed. -/
def carriedOut {β : Type} (steps : InPlace α β) (p : Program α) : Except (Fault α) (Program α) :=
  match (steps.run.run p).run with
  | (.ok _, q) => .ok q
  | (.error fault, _) => .error fault

/-- The program with a new family of constraints. -/
def addFamily (p : Program α) (family : String) (members : List (Index × Relation α)) :
    Except (Fault α) (Program α) :=
  carriedOut (addFamilyInPlace family members) p

/-- The program with a new family of one constraint. -/
def addConstraint (p : Program α) (family : String) (r : Relation α) :
    Except (Fault α) (Program α) :=
  carriedOut (addConstraintInPlace family r) p

/-- The program with a new named expression. -/
def addExpression (p : Program α) (name : String) (e : Affine α) :
    Except (Fault α) (Program α) :=
  carriedOut (addExpressionInPlace name e) p

/-- The program with its objective. -/
def setObjective (p : Program α) (o : Objective α) : Except (Fault α) (Program α) :=
  carriedOut (setObjectiveInPlace o) p

/-! ## §5. Summary -/

/-- The names of the families in the order of the characters. -/
def sortedFamilies (p : Program α) : List String := p.families.mergeSort fun a b => a ≤ b

/-- One line on the size of a program, its families and its objective. -/
def summary (p : Program α) : String :=
  let objective := match p.objective with
    | some o => "Some(" ++ Text.quote o.name ++ ")"
    | none => "None"
  "AlgebraicModel " ++ "\x7b " ++
    s!"n_vars: {p.size}, n_constraints: {p.constraints.length}, families: " ++
    Text.quoteList "\x7b" "\x7d" p.sortedFamilies ++ ", objective: " ++ objective ++ " \x7d"

end Program

end PlantEconomics
