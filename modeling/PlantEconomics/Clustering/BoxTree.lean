/-!
# Trees of boxes

The rounds of k-means assign rows to the nearest of several centres. A tree of boxes over the rows
does this for many rows at once: every node knows a box around its rows, their number, their sum
and the cost of replacing them by their mean, and a whole node goes to one centre as soon as no
other centre can be nearer to any point of its box.

  * `BoxTree.build` splits rows in the middle of the widest side of their box;
  * `BoxTree.assign` hands the rows of a tree to centres, adding up sums, numbers and cost.

Everything is computed on machine numbers in a fixed order.
-/

namespace PlantEconomics

/-- A point: one number per feature. -/
abbrev Point := List Float

namespace Point

/-- Squared distance, summed from the first feature on. -/
def squaredDistance (a b : Point) : Float :=
  (List.zipWith (fun x y => (x - y) * (x - y)) a b).foldl (· + ·) 0.0

/-- Sum of two points. -/
def add (a b : Point) : Point := List.zipWith (· + ·) a b

/-- A point divided by a number. -/
def dividedBy (a : Point) (d : Float) : Point := a.map (· / d)

end Point

/-- What is known of the rows under a node: their number, the centre and the half sides of their
box, their sum, and the cost of taking their mean for each of them. -/
structure BoxSummary where
  count : Nat
  center : Point
  radius : Point
  sum : Point
  cost : Float

/-- A tree of boxes. -/
inductive BoxTree where
  | leaf (summary : BoxSummary)
  | fork (summary : BoxSummary) (lower upper : BoxTree)

namespace BoxTree

/-- What is known of all rows of a tree. -/
def summary : BoxTree → BoxSummary
  | leaf s => s
  | fork s _ _ => s

/-- Cost of taking the point `c` for each of the rows under a node. -/
def costAt (s : BoxSummary) (c : Point) : Float :=
  s.cost + Float.ofNat s.count * Point.squaredDistance (s.sum.dividedBy (Float.ofNat s.count)) c

/-! ## §1. Building -/

/-- Boxes narrower than this are not split. -/
def leastRadius : Float := 1e-10

/-- Least and greatest values of the features. -/
def bounds (first : Point) (rows : List Point) : Point × Point :=
  rows.foldl
    (fun (lo, hi) r =>
      (List.zipWith (fun l x => if x < l then x else l) lo r,
        List.zipWith (fun h x => if h < x then x else h) hi r))
    (first, first)

/-- Position and value of the largest entry, the first of several, from position `i` on, the best
so far being `best`. -/
def widest (best : Nat × Float) (i : Nat) : Point → Nat × Float
  | [] => best
  | r :: rest => widest (if best.2 < r then (i, r) else best) (i + 1) rest

/-- Rows whose feature lies below the cut move to the front, the others to the back: the two ends
advance over rows that are in place, and two rows that are both out of place are exchanged. The
result is the rows and how many belong to the front. -/
def separate (feature : Nat) (cut : Float) (rows : Array Point) (i j : Nat) :
    Array Point × Nat :=
  if h : i < j ∧ j ≤ rows.size then
    let a := rows[i]
    let b := rows[j - 1]
    let front := a.getD feature 0.0 < cut
    let back := cut ≤ b.getD feature 0.0
    if !front && !back then
      separate feature cut ((rows.set i b).set (j - 1) a (by simp; omega)) (i + 1) (j - 1)
    else if front && back then separate feature cut rows (i + 1) (j - 1)
    else if front then separate feature cut rows (i + 1) j
    else separate feature cut rows i (j - 1)
  else (rows, i)
termination_by j - i
decreasing_by all_goals omega

/-- The summary of equal rows. -/
def equalRows (row : Point) (count : Nat) (center radius : Point) : BoxSummary :=
  { count, center, radius, cost := 0.0
    sum := if 1 < count then row.map (· * Float.ofNat count) else row }

/-- The tree over a list of rows, `fuel` bounding its height. -/
def buildWithin : Nat → List Point → BoxTree
  | _, [] => leaf ⟨0, [], [], [], 0.0⟩
  | 0, row :: rest => leaf (equalRows row (rest.length + 1) row (row.map fun _ => 0.0))
  | fuel + 1, row :: rest =>
    let (lo, hi) := bounds row rest
    let center := List.zipWith (fun l h => (l + h) / 2.0) lo hi
    let radius := List.zipWith (fun l h => (h - l) / 2.0) lo hi
    let (feature, width) := widest (0, -1.0) 0 radius
    let count := rest.length + 1
    if width < leastRadius then leaf (equalRows row count center radius)
    else
      let (sorted, front) :=
        separate feature (center.getD feature 0.0) (row :: rest).toArray 0 count
      let lower := buildWithin fuel (sorted.toList.take front)
      let upper := buildWithin fuel (sorted.toList.drop front)
      let sum := lower.summary.sum.add upper.summary.sum
      let mean := sum.dividedBy (Float.ofNat count)
      let cost := costAt lower.summary mean + costAt upper.summary mean
      fork { count, center, radius, sum, cost } lower upper

/-- The tree over a list of rows. Every fork separates its rows, so there are at most as many
levels as rows. -/
def build (rows : List Point) : BoxTree := buildWithin rows.length rows

/-! ## §2. Assigning -/

/-- What the centres have been handed so far. -/
structure Assigned where
  sums : Array Point
  counts : Array Nat
  cost : Float

/-- Nothing handed to `k` centres of `n` features. -/
def Assigned.none (k n : Nat) : Assigned :=
  ⟨Array.replicate k (List.replicate n 0.0), Array.replicate k 0, 0.0⟩

/-- The candidate nearest to a point, the first of several, the best so far being `best`. -/
def nearestOf (centers : Array Point) (p : Point) (best : Nat × Float) : List Nat → Nat
  | [] => best.1
  | c :: rest =>
    let d := Point.squaredDistance p (centers.getD c [])
    nearestOf centers p (if d < best.2 then (c, d) else best) rest

/-- Left and right side of the test whether one centre is farther than another from every point of
a box: the squared distance between the two, and the distance from the one to the corner of the
box that lies farthest in the direction of the other. -/
def cornerTest (center radius best other : Point) : Float × Float :=
  let diffs := List.zipWith (· - ·) other best
  let lhs := diffs.foldl (fun acc d => acc + d * d) 0.0
  let rhs := (diffs.zip ((center.zip radius).zip best)).foldl
    (fun acc (d, (m, r), b) => acc + ((if 0.0 < d then m + r else m - r) - b) * d) 0.0
  (lhs, rhs)

/-- Whether a centre is farther than the best one from every point of a box. -/
def isPruned (s : BoxSummary) (best other : Point) : Bool :=
  let (lhs, rhs) := cornerTest s.center s.radius best other
  2.0 * rhs ≤ lhs

/-- Hand all rows of a node to one centre. -/
def handOver (centers : Array Point) (s : BoxSummary) (c : Nat) (acc : Assigned) :
    Assigned × Float :=
  ({ acc with
      sums := acc.sums.modify c (·.add s.sum)
      counts := acc.counts.modify c (· + s.count) },
    costAt s (centers.getD c []))

/-- Hand the rows of a tree to the nearest of the candidate centres, with the cost of doing so. -/
def assignTo (centers : Array Point) : BoxTree → List Nat → Assigned → Assigned × Float
  | leaf s, candidates, acc => handOver centers s (closest s candidates) acc
  | fork s lower upper, candidates, acc =>
    let best := closest s candidates
    let kept := candidates.filter fun c =>
      c == best || !isPruned s (centers.getD best []) (centers.getD c [])
    if 1 < kept.length then
      let (acc, a) := assignTo centers lower kept acc
      let (acc, b) := assignTo centers upper kept acc
      (acc, a + b)
    else handOver centers s best acc
where
  /-- The candidate nearest to the centre of a box. -/
  closest (s : BoxSummary) : List Nat → Nat
    | [] => 0
    | c :: rest =>
      nearestOf centers s.center (c, Point.squaredDistance s.center (centers.getD c [])) rest

/-- Hand the rows of a tree to centres of `n` features. -/
def assign (tree : BoxTree) (centers : Array Point) (n : Nat) : Assigned :=
  let (acc, cost) :=
    assignTo centers tree (List.range centers.size) (Assigned.none centers.size n)
  { acc with cost }

end BoxTree

end PlantEconomics
