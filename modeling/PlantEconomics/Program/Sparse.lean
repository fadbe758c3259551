/-!
# Sparse vectors

A *sparse vector* names some places and gives a number to each of them; other places hold zero. A
*spread vector* has room for a number at every place and lists the places that it has reached, in
the order in which it reached them. A computation spreads a vector out, works on it and gathers what
it has reached.

A place that has been reached stays reached when its number becomes zero. So the places of a result
follow from the places of what it is computed from, and not from rounding.
-/

namespace PlantEconomics

/-! ## §1. Numbers by place -/

/-- Equal numbers. -/
def constantly (n : Nat) (x : Float) : FloatArray := ⟨Array.replicate n x⟩

/-- The numbers of an index below a limit. -/
@[inline] def tabulate (n : Nat) (f : Nat → Float) : FloatArray :=
  n.fold (fun i _ xs => xs.push (f i)) (FloatArray.emptyWithCapacity n)

/-! ## §2. Sparse vectors -/

/-- Numbers at the places that are named. -/
structure SparseVector where
  places : Array Nat
  numbers : FloatArray

namespace SparseVector

/-- The vector that names no place. -/
def empty : SparseVector := ⟨#[], .empty⟩

/-- Number of places that are named. -/
def size (v : SparseVector) : Nat := v.places.size

/-- One more place. -/
def push (v : SparseVector) (i : Nat) (x : Float) : SparseVector :=
  ⟨v.places.push i, v.numbers.push x⟩

@[simp] theorem size_push (v : SparseVector) (i : Nat) (x : Float) :
    (v.push i x).size = v.size + 1 := by
  simp [push, size]

/-- Go through places and numbers in their order. -/
@[inline] def foldl {β : Type} (f : β → Nat → Float → β) (start : β) (v : SparseVector) : β :=
  v.places.size.fold (fun k _ b => f b (v.places.getD k 0) (v.numbers.get! k)) start

/-- The numbers of a function of places and numbers, at the same places. -/
@[inline] def map (f : Nat → Float → Float) (v : SparseVector) : SparseVector :=
  ⟨v.places, tabulate v.size fun k => f (v.places.getD k 0) (v.numbers.get! k)⟩

/-- The sum of the squares. -/
def squares (v : SparseVector) : Float := v.foldl (fun sum _ x => sum + x * x) 0

/-- The vector with a single number. -/
def single (i : Nat) (x : Float) : SparseVector := empty.push i x

/-- The vector of terms. -/
def ofTerms (terms : List (Nat × Float)) : SparseVector :=
  terms.foldl (fun v p => v.push p.1 p.2) empty

/-- The columns of a matrix of rows. -/
def columnsOf (width : Nat) (rows : Array SparseVector) : Array SparseVector :=
  rows.size.fold (fun i _ columns =>
    (rows.getD i empty).foldl (fun columns j x =>
      columns.modify j fun column => column.push i x) columns) (Array.replicate width empty)

end SparseVector

/-! ## §3. Spread vectors -/

/-- Numbers at all places, and the places reached so far. -/
structure SpreadVector where
  numbers : FloatArray
  reached : Array Bool
  places : Array Nat

namespace SpreadVector

/-- Zeros, with no place reached. -/
def zeros (n : Nat) : SpreadVector := ⟨constantly n 0, Array.replicate n false, #[]⟩

/-- Number of places. -/
def size (s : SpreadVector) : Nat := s.numbers.size

/-- The number at a place. -/
def number (s : SpreadVector) (i : Nat) : Float := s.numbers.get! i

/-- The vector with one more place reached. -/
def reach (s : SpreadVector) (i : Nat) : SpreadVector :=
  if s.reached.getD i true then s
  else { s with reached := s.reached.setIfInBounds i true, places := s.places.push i }

/-- The vector with another number at a place, which is reached with it. -/
def set (s : SpreadVector) (i : Nat) (x : Float) : SpreadVector :=
  let s := s.reach i
  { s with numbers := s.numbers.set! i x }

/-- The vector with a number added at a place, which is reached with it. -/
def add (s : SpreadVector) (i : Nat) (x : Float) : SpreadVector :=
  let s := s.reach i
  { s with numbers := s.numbers.set! i (s.numbers.get! i + x) }

/-- A sparse vector spread over `n` places. -/
def ofSparse (n : Nat) (v : SparseVector) : SpreadVector := v.foldl set (zeros n)

/-- The places reached and their numbers. -/
def toSparse (s : SpreadVector) : SparseVector :=
  ⟨s.places, tabulate s.places.size fun k => s.numbers.get! (s.places.getD k 0)⟩

/-- The vector with every number moved from its place to the place that a table gives. -/
def moved (s : SpreadVector) (target : Array Nat) : SpreadVector :=
  s.places.foldl (fun t i => t.set (target.getD i i) (s.numbers.get! i)) (zeros s.size)

end SpreadVector

end PlantEconomics
