import PlantEconomics.Scalar
import PlantEconomics.Vocabulary

/-!
# The knee of a curve

The knee of a curve is where it turns: further on, more of `x` buys little more of `y`. Both axes
are scaled to the unit interval, the curve is turned so that it rises and then flattens, and the
*gap* is how far it lies above the diagonal. A local maximum of the gap is a knee once the gap has
fallen below that maximum by more than the sensitivity times the mean step of `x`; passing a local
minimum withdraws the candidate, unless the gap falls below zero.

`KneeRule.index?` is the position of the first knee.
-/

namespace PlantEconomics

/-- How a curve bends. -/
inductive Curvature where
  | convex
  | concave
deriving Repr, DecidableEq

instance : Vocabulary Curvature where
  all := [.convex, .concave]
  word
    | .convex => "Convex"
    | .concave => "Concave"

/-- Where a curve goes. -/
inductive Trend where
  | increasing
  | decreasing
deriving Repr, DecidableEq

instance : Vocabulary Trend where
  all := [.increasing, .decreasing]
  word
    | .increasing => "Increasing"
    | .decreasing => "Decreasing"

/-- What curve is looked at, and how much the gap has to fall after its maximum. -/
structure KneeRule (α : Type) where
  curvature : Curvature
  trend : Trend
  sensitivity : α
deriving Repr, DecidableEq

namespace Knee

variable {α : Type} [Scalar α]

/-! ## §1. Scaling and turning -/

/-- Values scaled to the unit interval; there is no scale without a finite positive span. -/
def normalized? : List α → Option (List α)
  | [] => none
  | x :: rest =>
    let lo := rest.foldl Scalar.smaller x
    let span := rest.foldl Scalar.larger x - lo
    if Scalar.isFinite span = false ∨ span ≤ 0 then none
    else some ((x :: rest).map fun v => (v - lo) / span)

/-- The greatest of the values. -/
def greatest : List α → α
  | [] => 0
  | x :: rest => rest.foldl Scalar.larger x

/-- Values turned so that the curve rises and then flattens. -/
def turned (c : Curvature) (t : Trend) (y : List α) : List α :=
  match t, c with
  | .decreasing, .concave => y.reverse
  | .decreasing, .convex => y.map (greatest y - ·)
  | .increasing, .convex => y.reverse.map (greatest y - ·)
  | .increasing, .concave => y

/-- Mean of the steps from each value to the next. -/
def meanStep (x : List α) : α :=
  Scalar.total (List.zipWith (· - ·) x.tail x) / Scalar.ofNat (x.length - 1)

/-! ## §2. Maxima and minima of the gap -/

/-- The value at a position. -/
def at_ (v : List α) (i : Nat) : α := v.getD i 0

/-- Whether the value at a position is at least those beside it; an end has no value beyond it. -/
def isPeak (v : List α) (i : Nat) : Bool :=
  at_ v (i - 1) ≤ at_ v i && at_ v (min (i + 1) (v.length - 1)) ≤ at_ v i

/-- Whether the value at a position is at most those beside it. -/
def isDip (v : List α) (i : Nat) : Bool :=
  at_ v i ≤ at_ v (i - 1) && at_ v i ≤ at_ v (min (i + 1) (v.length - 1))

/-- The positions of the maxima, in their order. -/
def peaks (v : List α) : List Nat := (List.range v.length).filter (isPeak v)

/-! ## §3. The scan -/

/-- What the gap may fall to behind each of its maxima. -/
def thresholds (gap : List α) (slack : α) : List α :=
  (peaks gap).map fun i => at_ gap i - slack

/-- What the scan carries along: the threshold in force, the latest maximum, and how many maxima
it has come to. -/
structure Cursor (α : Type) where
  threshold : α
  top : Nat
  passed : Nat

/-- In front of the first maximum. -/
def Cursor.start : Cursor α := ⟨0, 0, 0⟩

/-- Come to a position: a maximum brings the next of the thresholds into force, and a minimum sets
the threshold to zero. -/
def Cursor.arrive (gap limits : List α) (c : Cursor α) (i : Nat) : Cursor α :=
  let c := if isPeak gap i then ⟨at_ limits c.passed, i, c.passed + 1⟩ else c
  if isDip gap i then { c with threshold := 0 } else c

/-- Look at `left` positions from `i` on: the latest maximum, once the next value lies below the
threshold. -/
def scan (gap limits : List α) (c : Cursor α) (i : Nat) : Nat → Option Nat
  | 0 => none
  | left + 1 =>
    let c := c.arrive gap limits i
    if at_ gap (i + 1) < c.threshold then some c.top
    else scan gap limits c (i + 1) left

/-- The first knee of a gap curve. -/
def ofGap? (gap : List α) (slack : α) : Option Nat :=
  match (peaks gap).head? with
  | none => none
  | some first => scan gap (thresholds gap slack) .start first (gap.length - 1 - first)

end Knee

namespace KneeRule

variable {α : Type} [Scalar α]

/-- The rule for curves that fall and flatten. -/
def falling : KneeRule α := ⟨.convex, .decreasing, 1⟩

/-- Curves that were reversed to be looked at have their positions counted from the other end. -/
def isReversed (r : KneeRule α) : Bool :=
  match r.curvature, r.trend with
  | .convex, .decreasing => false
  | .concave, .increasing => false
  | .convex, .increasing => true
  | .concave, .decreasing => true

/-- The position on the curve of a position of the gap. -/
def place (r : KneeRule α) (n i : Nat) : Nat := if r.isReversed then n - 1 - i else i

/-- The gap between the turned curve and the diagonal, and the mean step. -/
def gap? (r : KneeRule α) (x y : List α) : Option (List α × α) := do
  let xs ← Knee.normalized? x
  let ys ← Knee.normalized? y
  return (List.zipWith (· - ·) (Knee.turned r.curvature r.trend ys) xs, Knee.meanStep xs)

/-- The position of the knee; a curve of fewer than three points has none. -/
def index? (r : KneeRule α) (x y : List α) : Option Nat :=
  if x.length < 3 ∨ y.length ≠ x.length then none
  else do
    let (gap, step) ← r.gap? x y
    let i ← Knee.ofGap? gap (r.sensitivity * Scalar.abs step)
    return r.place x.length i

/-- The abscissa of the knee. -/
def knee? (r : KneeRule α) (x y : List α) : Option α :=
  (r.index? x y).bind fun i => x[i]?

end KneeRule

end PlantEconomics
