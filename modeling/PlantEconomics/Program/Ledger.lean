import PlantEconomics.Program.Basic
import Std.Data.HashMap

/-!
# Ledgers

Whoever builds a program speaks of its variables by handles. A store hands out a handle for each new
variable, and a map leads from the handle back to the place of the variable. A ledger is a program
with such a map. What the handles are is the store's business, so it is an argument here: `handle n`
is the one that the store hands out after `n` others.

An edit changes a ledger in place, and answers what was asked or fails. Either way the ledger is
what the steps of the edit have made of it.
-/

namespace PlantEconomics

/-! ## §1. Ledgers -/

/-- A program whose variables have handles. -/
structure Ledger (α : Type) where
  /-- How many handles the store has handed out. -/
  given : Nat
  /-- The handles of the variables, in the order of their creation. -/
  handles : Array Var
  /-- The place of the variable of a handle. -/
  positions : Std.HashMap Var Nat
  program : Program α

namespace Ledger

variable {α : Type}

/-- The ledger without anything. -/
def empty : Ledger α := ⟨0, #[], ∅, Program.empty⟩

/-- Handles with what is known of their variables, in the order of creation. -/
def entries (l : Ledger α) : List (Var × VariableSpec α) :=
  l.handles.toList.zip l.program.specs.toList

/-- What is known of the variable of a handle. -/
def spec? (l : Ledger α) (v : Var) : Option (VariableSpec α) :=
  l.positions[v]?.bind fun i => l.program.spec? i

/-- The handle of the first variable of a name. -/
def find? (l : Ledger α) (name : String) : Option Var :=
  (l.program.find? name).bind fun i => l.handles[i]?

/-! ## §2. Changes in place -/

/-- Steps that change a ledger in place. Where one of them fails, the ledger is left as the steps
before it made it. -/
abbrev InPlace (α : Type) : Type → Type := ExceptT (Fault α) (StateM (Ledger α))

/-- Create a variable under the next handle of the store, which is the result. -/
def create (handle : Nat → Var) (spec : VariableSpec α) : InPlace α Var := do
  let v := handle (← get).given
  modify fun l => { l with given := l.given + 1 }
  modify fun l => { l with positions := l.positions.insert v l.program.size }
  modify fun l => { l with handles := l.handles.push v, program := l.program.addVariable spec }
  return v

/-- Steps on the program of a ledger. The program is kept as they leave it, also where they fail. -/
def onProgram {β : Type} (steps : Program.InPlace α β) : InPlace α β := ExceptT.mk do
  let l ← get
  let (result, p) := (steps.run.run l.program).run
  set { l with program := p }
  return result

end Ledger

/-! ## §3. Edits -/

/-- One thing to be added to a program. -/
inductive Edit (α : Type) where
  | create (spec : VariableSpec α)
  | family (name : String) (members : List (Index × Relation α))
  | constraint (name : String) (r : Relation α)
  | expression (name : String) (e : Affine α)
  | objective (o : Objective α)

/-- What an edit answers. -/
inductive Edit.Answer where
  /-- The handle of the new variable. -/
  | handle (v : Var)
  /-- The number of members of the new family. -/
  | members (n : Nat)
  | done
deriving Repr, DecidableEq

/-- The steps of an edit. -/
def Edit.steps {α : Type} (handle : Nat → Var) : Edit α → Ledger.InPlace α Edit.Answer
  | .create spec => do return .handle (← Ledger.create handle spec)
  | .family name members => do
    return .members (← Ledger.onProgram (Program.addFamilyInPlace name members))
  | .constraint name r => do
    Ledger.onProgram (Program.addConstraintInPlace name r)
    return .done
  | .expression name e => do
    Ledger.onProgram (Program.addExpressionInPlace name e)
    return .done
  | .objective o => do
    Ledger.onProgram (Program.setObjectiveInPlace o)
    return .done

namespace Ledger

variable {α : Type}

/-- Try an edit: its answer or its fault, and the ledger that it leaves in either case. -/
def attempt (handle : Nat → Var) (l : Ledger α) (e : Edit α) :
    Except (Fault α) Edit.Answer × Ledger α :=
  ((e.steps handle).run.run l).run

/-- The ledger after a history of edits, whether or not they succeeded, from nothing. -/
def after (handle : Nat → Var) (history : List (Edit α)) : Ledger α :=
  history.foldl (fun l e => (l.attempt handle e).2) empty

end Ledger

end PlantEconomics
