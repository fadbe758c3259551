import PlantEconomics.Clustering.KMeans
import PlantEconomics.Market.Series

/-!
# Representative days

The days of a series are grouped, and each group is replaced by one day: its profile is the centre
of the group, and its weight is the number of days in it. Centre values below a ten-thousandth are
noise and become zero.

Representative days are numbered from one in the order of the clusterer's centres.
-/

namespace PlantEconomics

/-- A representative day. Its weight is a word of thirty-two bits. -/
structure RepresentativeDay (α : Type) where
  profile : List α
  weight : UInt32
deriving Repr, DecidableEq

/-- The representative days of a series, the first of them being day 1. -/
structure RepresentativeDays (α : Type) where
  days : List (RepresentativeDay α)
deriving Repr, DecidableEq

namespace RepresentativeDays

variable {α σ : Type}

/-- Number of representative days. -/
def size (r : RepresentativeDays α) : Nat := r.days.length

/-- The day with a number. -/
def day? (r : RepresentativeDays α) : Nat → Option (RepresentativeDay α)
  | 0 => none
  | d + 1 => r.days[d]?

/-- Number of days of the data that are represented, as far as a word holds it. -/
def totalWeight (r : RepresentativeDays α) : UInt32 := (r.days.map (·.weight)).foldl (· + ·) 0

/-- The weight of a day, as a number. -/
def weight? (r : RepresentativeDays α) (d : Nat) : Option Nat := (r.day? d).map (·.weight.toNat)

/-- The price of an hour, counted from one, of a day. -/
def price? (r : RepresentativeDays α) (d hour : Nat) : Option α :=
  match hour with
  | 0 => none
  | h + 1 => (r.day? d).bind fun day => day.profile[h]?

/-- Values below a ten-thousandth become zero. -/
def withoutNoise [Scalar α] (v : α) : α := if v < 0.0001 then 0 else v

/-- The days that a partition of days stands for. -/
def ofPartition [Scalar α] (p : Partition α) : RepresentativeDays α :=
  { days := List.zipWith (fun c n => ⟨c.map withoutNoise, n⟩) p.centroids p.counts }

/-- Group days into `k` representative ones. The stream of seeds starts from `seed`. -/
def ofDays [Scalar α] (days : DayProfiles α) (k : Nat) (seed : UInt64) (fit : Clusterer α σ) :
    ExceptT (Fault α) (StateM σ) (RepresentativeDays α) := do
  let own ← get
  let (result, (_, own')) := (fit days.days k).run.run (Random.SeedStream.ofSeed seed, own)
  set own'
  let p ← result
  return ofPartition p

/-- Group the days of a series into `k` representative ones. -/
def ofSeries [Scalar α] (s : PriceSeries α) (horizon k : Nat) (seed : UInt64)
    (fit : Clusterer α σ) : ExceptT (Fault α) (StateM σ) (RepresentativeDays α) := do
  let days ← DayProfiles.ofSeries s horizon
  ofDays days k seed fit

end RepresentativeDays

end PlantEconomics
