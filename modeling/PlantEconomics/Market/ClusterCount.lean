import PlantEconomics.Clustering.KMeans
import PlantEconomics.Clustering.Knee
import PlantEconomics.Market.Series
import PlantEconomics.Powers

/-!
# How many representative days

More representative days fit the data better, but each further one gains less. The days are
clustered with every count of a range, from one stream of seeds, and the count at the knee of the
inertia curve is chosen.
-/

namespace PlantEconomics

/-- The counts tried, from `least` up to but not including `upper`, and the seed of the stream. -/
structure CountSweep where
  least : Nat
  upper : Nat
  seed : UInt64
deriving DecidableEq

/-- The curve of inertias, the count at its knee, and whether the knee is so close to the end that
a longer sweep may move it. -/
structure ChosenCount (α : Type) where
  curve : List (Nat × α)
  count : Nat
  nearUpper : Bool
deriving Repr, DecidableEq

namespace CountSweep

/-- The first count tried unless settings say otherwise. -/
def standardLeast : Nat := 4

/-- The end of the counts tried unless settings say otherwise. -/
def standardUpper : Nat := 30

/-- A sweep with standard limits where none are set. -/
def ofSettings (least upper : Option Nat) (seed : UInt64) : CountSweep :=
  ⟨least.getD standardLeast, upper.getD standardUpper, seed⟩

/-- The smallest end that leaves three counts. Counts are words of 64 bits. -/
def neededUpper (s : CountSweep) : Nat := (s.least + 3) % twoTo 64

/-- The last count tried, again as a word of 64 bits. -/
def last (s : CountSweep) : Nat := (s.upper + (twoTo 64 - 1)) % twoTo 64

variable {α σ : Type}

/-- Why a sweep cannot run over so many days. -/
def fault? (s : CountSweep) (days : Nat) : Option (Fault α) :=
  if s.least = 0 then some (.configuration .zeroLeastCount)
  else if s.upper < s.neededUpper then some (.configuration (.narrowSweep s.upper s.neededUpper))
  else if days < s.last then some (.dataShape (.fewDays s.last days))
  else none

/-- Inertias of the clusterings with `n` counts from `k` on. -/
def curveFrom (fit : Clusterer α σ) (samples : List (List α)) (k : Nat) :
    Nat → ExceptT (Fault α) (StateM (Random.SeedStream × σ)) (List (Nat × α))
  | 0 => return []
  | n + 1 => do
    let p ← fit samples k
    let rest ← curveFrom fit samples (k + 1) n
    return (k, p.inertia) :: rest

/-- The count at the knee of a curve. -/
def choose [Scalar α] (s : CountSweep) (curve : List (Nat × α)) :
    Except (Fault α) (ChosenCount α) :=
  let knee := KneeRule.falling.index? (curve.map fun p => Scalar.ofNat p.1) (curve.map (·.2))
  match knee.bind fun i => curve[i]? with
  | none => .error (.noElbow s.least s.upper)
  | some (count, _) => .ok { curve, count, nearUpper := s.upper ≤ count + 2 }

/-- Cluster the days with every count and choose one. The clusterer's own state is threaded
through; the stream starts anew from the seed. -/
def run [Scalar α] (s : CountSweep) (days : DayProfiles α) (fit : Clusterer α σ) :
    ExceptT (Fault α) (StateM σ) (ChosenCount α) := do
  if let some fault := s.fault? days.size then throw fault
  let own ← get
  let (result, (_, own')) :=
    (curveFrom fit days.days s.least (s.upper - s.least)).run.run
      (Random.SeedStream.ofSeed s.seed, own)
  set own'
  let curve ← result
  s.choose curve

end CountSweep

end PlantEconomics
