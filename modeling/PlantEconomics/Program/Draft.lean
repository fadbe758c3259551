import PlantEconomics.Program.Basic
import Std.Data.TreeMap

/-!
# Drafts of families

While periods are built one after the other, the members of a family come one at a time, those of
different families mixed. A draft keeps them in the order in which they come; committing it adds
each family as a whole, the families in the order of their names.

A program is changed in place when a draft is committed, family by family. So it matters that the
names are looked at before the first family is added.
-/

namespace PlantEconomics

/-! ## §1. Drafts -/

/-- A relation, the family that it is meant for and its index there. -/
structure Member (α : Type) where
  family : String
  index : Index
  relation : Relation α

/-- Members in the order in which they came. -/
structure Draft (α : Type) where
  members : List (Member α)

namespace Draft

variable {α : Type}

/-- The draft without members. -/
def empty : Draft α := ⟨[]⟩

/-- The draft with one more member. -/
def push (d : Draft α) (m : Member α) : Draft α := ⟨d.members ++ [m]⟩

/-- Put a member behind those of its family. -/
def sortIn (byFamily : Std.TreeMap String (Array (Index × Relation α))) (m : Member α) :
    Std.TreeMap String (Array (Index × Relation α)) :=
  byFamily.alter m.family fun members? => some ((members?.getD #[]).push (m.index, m.relation))

/-- The members of a draft by the names of their families. -/
def byFamily (d : Draft α) : Std.TreeMap String (Array (Index × Relation α)) :=
  d.members.foldl sortIn ∅

/-- The families of a draft with their members, in the order of the names. -/
def gathered (d : Draft α) : List (String × List (Index × Relation α)) :=
  d.byFamily.toList.map fun f => (f.1, f.2.toList)

/-- The names of the families of a draft, each once and in their order. -/
def families (d : Draft α) : List String := d.gathered.map (·.1)

end Draft

/-! ## §2. Commits -/

namespace Draft

variable {α : Type}

/-- Add the families of a draft to the program, one after the other; none of them may be defined
there. -/
def commitInPlace (d : Draft α) : Program.InPlace α Unit := do
  (← get).ensureNew d.families
  d.gathered.forM fun f => discard (Program.addFamilyInPlace f.1 f.2)

/-- The program with the families of a draft. -/
def commit (d : Draft α) (p : Program α) : Except (Fault α) (Program α) :=
  Program.carriedOut d.commitInPlace p

end Draft

end PlantEconomics
