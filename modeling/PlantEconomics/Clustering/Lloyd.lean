import PlantEconomics.Clustering.BoxTree
import PlantEconomics.Clustering.KMeans
import PlantEconomics.Random.Xoshiro

/-!
# Labelling by rounds of assignment

The labeller that k-means uses. The first centres are spread out: after a random first row, each
further centre is a row chosen with a probability proportional to its squared distance from the
centres so far. Then rows go to their nearest centres and centres move to the means of their rows,
round after round, until a round no longer lowers the cost. In the end every row is labelled with
the centre nearest to it.
-/

namespace PlantEconomics

namespace Lloyd

/-- The largest finite number. -/
def greatest : Float := Float.ofBits 0x7FEFFFFFFFFFFFFF

/-! ## §1. The first centres -/

/-- A row with the squared distance to its nearest centre so far and the number of that centre. -/
structure Seated where
  row : Point
  distance : Float
  centre : Nat

/-- Take centre number `j` at a point into account. -/
def reseat (j : Nat) (p : Point) (rows : List Seated) : List Seated :=
  rows.map fun s =>
    let d := Point.squaredDistance s.row p
    if d < s.distance then { s with distance := d, centre := j } else s

/-- The first row at which the distances added up so far reach a bound, or the last row. -/
def walk (cutoff : Float) (cost : Float) : List Seated → Point
  | [] => []
  | [s] => s.row
  | s :: rest => if cutoff ≤ cost + s.distance then s.row else walk cutoff (cost + s.distance) rest

/-- Seat the rows at centre `j`, which is at a point, and at `n` further ones. -/
def seatFrom (j : Nat) (p : Point) (rows : List Seated) : Nat → Random.Chooser → List Seated
  | 0, _ => reseat j p rows
  | n + 1, g =>
    let rows := reseat j p rows
    let (u, g) := g.unit
    let cutoff := u * (rows.map (·.distance)).foldl (· + ·) 0.0
    seatFrom (j + 1) (walk cutoff 0.0 rows) rows n g

/-- The centre that each row is seated at when `k` centres have been spread out. -/
def firstLabels (rows : List Point) (k : Nat) (g : Random.Chooser) : List Nat :=
  let (i, g) := g.below rows.length
  (seatFrom 0 (rows.getD i []) (rows.map fun r => ⟨r, greatest, 0⟩) (k - 1) g).map (·.centre)

/-- The means of the rows seated at each of `k` centres of `n` features. -/
def firstCenters (rows : List Point) (labels : List Nat) (k n : Nat) : Array Point :=
  ((List.range k).map fun c =>
    let members := ((rows.zip labels).filter fun p => p.2 == c).map (·.1)
    (members.foldl Point.add (List.replicate n 0.0)).dividedBy (Float.ofNat members.length)).toArray

/-! ## §2. Rounds -/

/-- Centres moved to the means of what they were handed; a centre without rows stays. -/
def moved (centers : Array Point) (a : BoxTree.Assigned) : Array Point :=
  centers.mapIdx fun c p =>
    let n := a.counts.getD c 0
    if 0 < n then (a.sums.getD c []).dividedBy (Float.ofNat n) else p

/-- At most so many rounds, ending with the first one that does not lower the cost. -/
def rounds (tree : BoxTree) (n : Nat) : Nat → Float → Array Point → Array Point
  | 0, _, centers => centers
  | left + 1, previous, centers =>
    let a := tree.assign centers n
    let centers' := moved centers a
    if previous ≤ a.cost then centers' else rounds tree n left a.cost centers'

/-! ## §3. Labels -/

/-- The number of the centre nearest to a row, the first of several, from number `c` on. -/
def nearestLabel (row : Point) (best : Nat × Float) (c : Nat) : List Point → Nat
  | [] => best.1
  | p :: rest =>
    let d := Point.squaredDistance row p
    nearestLabel row (if d < best.2 then (c, d) else best) (c + 1) rest

/-- The label of every sample. -/
def labels (samples : List Point) (k maxRounds : Nat) (seed : UInt64) : List Nat :=
  let n := featureCount samples
  let start := firstCenters samples (firstLabels samples k (Random.Chooser.ofSeed seed)) k n
  let centers := (rounds (BoxTree.build samples) n maxRounds greatest start).toList
  samples.map fun s => nearestLabel s (0, greatest) 0 centers

/-- The labeller of k-means. -/
def labeller : Labeller Float := fun samples k maxRounds seed =>
  .ok (labels samples k maxRounds seed)

end Lloyd

/-- k-means on machine numbers. -/
def KMeans.clusterer {σ : Type} (settings : KMeans) : Clusterer Float σ :=
  KMeans.fit Lloyd.labeller settings

end PlantEconomics
