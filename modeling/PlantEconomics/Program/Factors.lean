import PlantEconomics.Program.Sparse

/-!
# Triangular factors

A square matrix whose rows and columns are put in a suitable order is the product of a lower and an
upper triangular matrix. Equations with such a matrix are solved place by place: once the number at
a place is known, its column is taken from what is left.

Only places that the right side can influence are worked on. `visit` lists them so that every place
comes after all places that it influences; the solution goes through the list from its end.

The factors are found column by column, short columns first. Among the rows left, one is chosen
whose number is at least a tenth of the largest one, and of these one with few entries, which keeps
both rounding and the number of entries small.
-/

namespace PlantEconomics

/-! ## §1. Triangles -/

/-- The places that can be reached from a place and have not been seen yet, each after those that it
leads to. The depth is at most the first argument. -/
def visit (next : Nat → Array Nat) : Nat → Array Bool × Array Nat → Nat → Array Bool × Array Nat
  | 0, s, _ => s
  | depth + 1, (seen, order), i =>
    if seen.getD i true then (seen, order)
    else
      let (seen, order) := (next i).foldl (visit next depth) (seen.setIfInBounds i true, order)
      (seen, order.push i)

/-- The places below `n` that can be reached from some places, each after those that it leads to. -/
def visited (n : Nat) (next : Nat → Array Nat) (starts : Array Nat) : Array Nat :=
  (starts.foldl (visit next (n + 1)) (Array.replicate n false, #[])).2

/-- A triangular matrix: the columns without the diagonal, and the diagonal unless it holds ones. -/
structure Triangle where
  columns : Array SparseVector
  diagonal? : Option FloatArray

namespace Triangle

/-- The column at a place. -/
def column (t : Triangle) (i : Nat) : SparseVector := t.columns.getD i .empty

/-- Number of entries outside the diagonal. -/
def entries (t : Triangle) : Nat := t.columns.foldl (fun sum v => sum + v.size) 0

/-- The triangle with rows and columns exchanged. -/
def transpose (t : Triangle) : Triangle :=
  { t with columns := SparseVector.columnsOf t.columns.size t.columns }

/-- The numbers once the one at a place is known: its column is taken from the others. -/
def settle (t : Triangle) (i : Nat) (numbers : FloatArray) : FloatArray :=
  let x := match t.diagonal? with
    | none => numbers.get! i
    | some diagonal => numbers.get! i / diagonal.get! i
  (t.column i).foldl (fun numbers j a => numbers.set! j (numbers.get! j - x * a))
    (numbers.set! i x)

/-- The solution of the equations with a right side. -/
def solve (t : Triangle) (right : SpreadVector) : SpreadVector :=
  let order := visited right.size (fun i => (t.column i).places) right.places
  let s := order.foldl .reach right
  { s with numbers := order.foldr t.settle s.numbers }

end Triangle

/-! ## §2. Factors -/

/-- Triangles whose product is a matrix with its rows and columns put in order. Each table gives the
place of a row or column in the order, or the row or column at a place. -/
structure Factors where
  lower : Triangle
  upper : Triangle
  placeOfRow : Array Nat
  rowAt : Array Nat
  placeOfColumn : Array Nat
  columnAt : Array Nat

namespace Factors

/-- Number of entries, the diagonal counted once. -/
def entries (f : Factors) : Nat := f.lower.entries + f.upper.entries + f.rowAt.size

/-- The factors of the matrix with rows and columns exchanged. -/
def transpose (f : Factors) : Factors :=
  { lower := f.upper.transpose
    upper := f.lower.transpose
    placeOfRow := f.placeOfColumn
    rowAt := f.columnAt
    placeOfColumn := f.placeOfRow
    columnAt := f.rowAt }

/-- The solution of the equations with a right side. -/
def solve (f : Factors) (right : SpreadVector) : SpreadVector :=
  (f.upper.solve (f.lower.solve (right.moved f.placeOfRow))).moved f.columnAt

/-! ## §3. Factors of a matrix -/

/-- The largest number below which a column counts as zero. -/
def leastPivot : Float := 1e-8

/-- The share of the largest number that a pivot has to have. -/
def pivotShare : Float := 0.1

/-- The table that leads back. -/
def inverse (table : Array Nat) : Array Nat :=
  table.size.fold (fun i _ back => back.setIfInBounds (table.getD i 0) i)
    (Array.replicate table.size 0)

/-- The first columns of both factors. The places of `lower` are rows of the matrix; rows whose
place is not below the number of columns have not been chosen yet. -/
structure Elimination where
  lower : Array SparseVector
  upper : Array SparseVector
  diagonal : FloatArray
  placeOfRow : Array Nat
  rowAt : Array Nat

namespace Elimination

/-- No column yet. -/
def start (n : Nat) : Elimination :=
  ⟨#[], #[], .empty, Array.range n, Array.range n⟩

/-- Number of columns so far. -/
def depth (e : Elimination) : Nat := e.lower.size

/-- The place of a row. -/
def place (e : Elimination) (r : Nat) : Nat := e.placeOfRow.getD r 0

/-- Whether a row has been chosen. -/
def isChosen (e : Elimination) (r : Nat) : Bool := e.place r < e.depth

/-- The column of the lower factor that belongs to a row. -/
def columnOf (e : Elimination) (r : Nat) : SparseVector := e.lower.getD (e.place r) .empty

/-- What the columns so far leave of one more column. -/
def reduce (e : Elimination) (column : SparseVector) : SpreadVector :=
  let n := e.rowAt.size
  let s := SpreadVector.ofSparse n column
  let order := visited n (fun r => if e.isChosen r then (e.columnOf r).places else #[])
    (s.places.filter e.isChosen)
  let s := order.foldl .reach s
  { s with numbers := order.foldr (fun r numbers =>
      if e.isChosen r then
        let x := numbers.get! r
        (e.columnOf r).foldl (fun numbers i a => numbers.set! i (numbers.get! i - x * a)) numbers
      else numbers) s.numbers }

/-- The row of the next pivot; `none` if the matrix cannot be inverted. -/
def pivotRow? (e : Elimination) (entriesOfRow : Array Nat) (s : SpreadVector) : Option Nat :=
  let left := s.places.filter fun r => !e.isChosen r
  let largest := left.foldl (fun m r => if m < (s.number r).abs then (s.number r).abs else m) 0
  if largest < leastPivot then none
  else
    left.foldl (fun best? r =>
      if pivotShare * largest ≤ (s.number r).abs then
        match best? with
        | none => some r
        | some best =>
          if entriesOfRow.getD r 0 < entriesOfRow.getD best 0 then some r else best?
      else best?) none

/-- The elimination with one more column, whose pivot stands in a row. -/
def extend (e : Elimination) (s : SpreadVector) (r : Nat) : Elimination :=
  let k := e.depth
  let displaced := e.rowAt.getD k 0
  let place := e.place r
  let placeOfRow := (e.placeOfRow.setIfInBounds r k).setIfInBounds displaced
    (if displaced = r then k else place)
  let pivot := s.number r
  let (lower, upper) := s.toSparse.foldl (fun ((lower, upper) : SparseVector × SparseVector) i x =>
    if x == 0 then (lower, upper)
    else
      let p := placeOfRow.getD i 0
      if p < k then (lower, upper.push p x)
      else if p = k then (lower, upper)
      else (lower.push i (x / pivot), upper)) (.empty, .empty)
  { lower := e.lower.push lower
    upper := e.upper.push upper
    diagonal := e.diagonal.push pivot
    placeOfRow
    rowAt := (e.rowAt.setIfInBounds k r).setIfInBounds place displaced }

end Elimination

/-- The factors of a matrix of `n` columns; `none` if it cannot be inverted. -/
def ofColumns? (n : Nat) (column : Nat → SparseVector) : Option Factors :=
  let columnAt := ((List.range n).mergeSort fun i j => (column i).size ≤ (column j).size).toArray
  let entriesOfRow := n.fold (fun j _ counts =>
    (column j).places.foldl (fun counts i => counts.modify i (· + 1)) counts)
    (Array.replicate n 0)
  let eliminated? := columnAt.foldlM (fun e j =>
    let s := e.reduce (column j)
    (e.pivotRow? entriesOfRow s).map (e.extend s)) (Elimination.start n)
  eliminated?.map fun e =>
    { lower := ⟨e.lower.map fun v => ⟨v.places.map e.place, v.numbers⟩, none⟩
      upper := ⟨e.upper, some e.diagonal⟩
      placeOfRow := e.placeOfRow
      rowAt := e.rowAt
      placeOfColumn := inverse columnAt
      columnAt }

/-- The factors of the matrix that changes nothing. -/
def identity (n : Nat) : Factors :=
  { lower := ⟨Array.replicate n .empty, none⟩
    upper := ⟨Array.replicate n .empty, some (constantly n 1)⟩
    placeOfRow := Array.range n
    rowAt := Array.range n
    placeOfColumn := Array.range n
    columnAt := Array.range n }

end Factors

end PlantEconomics
