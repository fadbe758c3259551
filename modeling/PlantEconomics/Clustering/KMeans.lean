import PlantEconomics.Clustering.Partition
import PlantEconomics.Random.ChaCha

/-!
# Clusterers

A clusterer splits samples into a given number of clusters. It may draw from a stream of seeds and
may keep a state of its own; both are threaded through its calls, also through those that fail.

k-means asks a *labeller* for the labels of each of several independent runs, each run with a seed
from the stream, and keeps the run of least inertia, the earliest of several. The centres are
always the means of the members under the labels, so that centres, labels and inertia belong to
one assignment whatever the labeller did inside. One cluster needs no labeller and draws nothing.
-/

namespace PlantEconomics

/-- A partitioner with a state of type `σ` beside the stream of seeds. -/
abbrev Clusterer (α σ : Type) : Type :=
  List (List α) → Nat → ExceptT (Fault α) (StateM (Random.SeedStream × σ)) (Partition α)

/-- A way to label samples: from the samples, the number of clusters, the number of rounds it may
take and a seed. -/
abbrev Labeller (α : Type) : Type :=
  List (List α) → (clusters rounds : Nat) → (seed : UInt64) → Except (Fault α) (List Nat)

/-- How often k-means starts over, and how many rounds each run may take. -/
structure KMeans where
  restarts : Nat
  rounds : Nat
deriving Repr, DecidableEq

namespace KMeans

/-- Ten runs of up to three hundred rounds. -/
def standard : KMeans := ⟨10, 300⟩

/-- Settings with at least one run of one round. -/
def ofSettings (restarts rounds : Nat) : KMeans := ⟨max restarts 1, max rounds 1⟩

variable {α σ : Type} [Scalar α]

/-- Draw a seed. -/
def drawSeed : ExceptT (Fault α) (StateM (Random.SeedStream × σ)) UInt64 := do
  let (stream, own) ← get
  let (seed, stream') := stream.next
  set (stream', own)
  return seed

/-- One run: the partition that the labeller's labels make. -/
def runOnce (label : Labeller α) (rounds : Nat) (samples : List (List α)) (k : Nat)
    (seed : UInt64) : Except (Fault α) (Partition α) := do
  let labels ← label samples k rounds seed
  if labels.length != samples.length || labels.any fun l => k ≤ l then
    .error (.clustering (.refused "labels outside the requested cluster range"))
  else return Partition.ofLabels samples labels k

/-- Of two runs the one of smaller inertia, the earlier one if neither is smaller. -/
def better (earlier later : Partition α) : Partition α :=
  if later.inertia < earlier.inertia then later else earlier

/-- The best of a run already made and `n` further runs. -/
def bestOf (run : UInt64 → Except (Fault α) (Partition α)) (best : Partition α) :
    Nat → ExceptT (Fault α) (StateM (Random.SeedStream × σ)) (Partition α)
  | 0 => return best
  | n + 1 => do
    let seed ← drawSeed
    let p ← run seed
    bestOf run (better best p) n

/-- The best of several runs, of which there is at least one. -/
def fit (label : Labeller α) (settings : KMeans) : Clusterer α σ := fun samples k => do
  if let some fault := samplesFault? samples k then throw fault
  if k = 1 then return Partition.ofLabels samples (samples.map fun _ => 0) 1
  let run := runOnce label settings.rounds samples k
  let seed ← drawSeed
  let first ← run seed
  bestOf run first (settings.restarts - 1)

end KMeans

end PlantEconomics
