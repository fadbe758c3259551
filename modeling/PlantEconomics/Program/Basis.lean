import PlantEconomics.Program.Factors

/-!
# Bases

A *basis* is an invertible square matrix of which one column at a time is replaced. It is kept as
factors of an earlier matrix and the *changes* since: a change holds the new column as a combination
of the columns that it came upon. Equations are solved with the factors first and the changes
after that; for rows in the place of columns it is the other way round.

When the changes have as many entries as the factors, the matrix is factored anew, which also does
away with the rounding that the changes have piled up.
-/

namespace PlantEconomics

/-- A replaced column: the row it belongs to, and what is taken from each row for a unit of that
row. -/
structure Change where
  row : Nat
  column : SparseVector

/-- Factors of a matrix, and the columns replaced since. -/
structure Basis where
  /-- The factors. -/
  factors : Factors
  /-- The factors with rows and columns exchanged. -/
  transposed : Factors
  /-- The changes, the oldest first. -/
  changes : Array Change
  /-- Number of entries of the changes. -/
  entries : Nat

namespace Basis

/-- The basis of factors. -/
def ofFactors (f : Factors) : Basis := ⟨f, f.transpose, #[], 0⟩

/-- The basis of `n` columns that each hold a single one. -/
def identity (n : Nat) : Basis := ofFactors (.identity n)

/-- Number of columns. -/
def size (b : Basis) : Nat := b.factors.rowAt.size

/-- The combination of the columns that gives a right side. -/
def solve (b : Basis) (right : SparseVector) : SpreadVector :=
  b.changes.foldl (fun s change =>
    let x := s.number change.row
    change.column.foldl (fun s i a => s.add i (-(x * a))) s)
    (b.factors.solve (.ofSparse b.size right))

/-- The combination of the rows that gives a right side. -/
def solveRows (b : Basis) (right : SparseVector) : SpreadVector :=
  b.transposed.solve (b.changes.foldr (fun change s =>
    s.add change.row (-(change.column.foldl (fun sum i a => sum + a * s.number i) 0)))
    (.ofSparse b.size right))

/-- The basis of some columns, if these can be factored; else the basis itself. -/
def refactored (b : Basis) (column : Nat → SparseVector) : Basis :=
  match Factors.ofColumns? b.size column with
  | some f => ofFactors f
  | none => b

/-- The basis with the column of a row replaced by one that is the given combination of the columns
before; `column` tells the columns after that. -/
def replace (b : Basis) (row : Nat) (pivot : Float) (combination : SparseVector)
    (column : Nat → SparseVector) : Basis :=
  let changed : Basis := { b with
    changes := b.changes.push
      ⟨row, combination.map fun i x => if i = row then 1 - 1 / pivot else x / pivot⟩
    entries := b.entries + combination.size }
  if b.entries < b.factors.entries then changed else changed.refactored column

end Basis

end PlantEconomics
