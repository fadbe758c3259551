/-!
# Numbers the library computes with

Every formula of the library (costs, constraints, cash flows, cluster means, mixing terms) is
written once, over a type `α` of *scalars*: numbers with the four operations, decimal literals
and comparisons. Running the library takes `α` to be `Float`, and the order of the operations in
each definition is then the order of the roundings. Reasoning about the formulas takes `α` to be
an exact field.

Two classes are enough.

  * `Scalar`: arithmetic, literals, order, equality;
  * `Analytic`: square root, exponential, logarithm and powers on top of it.

Nothing here assumes a law. In particular `x == x` may fail (a value that is not a number), and
`isFinite`, `smaller` and `larger` are defined so that they mean the right thing in that case.
-/

namespace PlantEconomics

/-- Arithmetic, decimal literals, order and equality, without any law. -/
class Scalar (α : Type) extends
    Zero α, One α, Add α, Sub α, Mul α, Div α, Neg α, LT α, LE α, BEq α, OfScientific α where
  /-- The scalar nearest to a natural number. -/
  ofNat : Nat → α
  /-- Strict order is decided. -/
  decidableLT : DecidableLT α
  /-- Weak order is decided. -/
  decidableLE : DecidableLE α

/-- Square root, exponential, natural logarithm and powers. -/
class Analytic (α : Type) extends Scalar α where
  /-- Square root. -/
  sqrt : α → α
  /-- Exponential. -/
  exp : α → α
  /-- Natural logarithm. -/
  ln : α → α
  /-- The power `x ^ y` with a scalar exponent. -/
  power : α → α → α

namespace Scalar

variable {α : Type} [Scalar α]

instance : DecidableLT α := Scalar.decidableLT

instance : DecidableLE α := Scalar.decidableLE

/-! ## §1. Derived operations -/

/-- A scalar is finite when it differs from itself by nothing: infinite values and values that
are no number do not. -/
def isFinite (x : α) : Bool := x - x == 0

/-- Distance from zero. -/
def abs (x : α) : α := if x < 0 then -x else x

/-- The smaller of two scalars; an operand that is no number is ignored. -/
def smaller (a b : α) : α := if b < a then b else if a == a then a else b

/-- The larger of two scalars; an operand that is no number is ignored. -/
def larger (a b : α) : α := if a < b then b else if a == a then a else b

/-- Sum of a list, from the left. -/
def total (xs : List α) : α := xs.foldl (· + ·) 0

/-- Square of the distance between two points, summed coordinate by coordinate. -/
def squaredDistance (a b : List α) : α :=
  total (List.zipWith (fun x y => (x - y) * (x - y)) a b)

@[simp] theorem total_nil : total ([] : List α) = 0 := rfl

end Scalar

/-! ## §2. Machine numbers -/

instance : Scalar Float where
  zero := 0.0
  one := 1.0
  ofNat := Float.ofNat
  decidableLT := inferInstance
  decidableLE := inferInstance

instance : Analytic Float where
  sqrt := Float.sqrt
  exp := Float.exp
  ln := Float.log
  power := Float.pow

end PlantEconomics
