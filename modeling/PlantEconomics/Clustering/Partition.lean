import PlantEconomics.Fault
import PlantEconomics.Scalar

/-!
# Partitions of samples

A sample is a list of numbers, one per feature. A partition of samples into clusters gives every
sample the number of its cluster and every cluster a centre; its inertia is the sum of the squared
distances of the samples to their centres.

The centres that fit a labelling are the means of the members (`memberMeans`); a cluster without
members takes the mean of all samples.
-/

namespace PlantEconomics

/-! ## §1. Partitions -/

/-- Centres, one label per sample, and the inertia. -/
structure Partition (α : Type) where
  centroids : List (List α)
  labels : List Nat
  inertia : α
deriving Repr, DecidableEq

namespace Partition

variable {α : Type}

/-- Number of clusters. -/
def size (p : Partition α) : Nat := p.centroids.length

/-- Number of samples in each cluster, counted label by label in words of thirty-two bits; labels
that name no cluster are not counted. -/
def counts (p : Partition α) : List UInt32 :=
  p.labels.foldl (fun counts l => counts.modify l (· + 1)) (List.replicate p.size 0)

/-- Counting labels adds to each count as many as the labels have its number, as far as a word holds
them. -/
theorem getElem?_countLabels (labels : List Nat) (counts : List UInt32) (c : Nat) :
    (labels.foldl (fun counts l => counts.modify l (· + 1)) counts)[c]? =
      counts[c]?.map (· + UInt32.ofNat (labels.count c)) := by
  induction labels generalizing counts with
  | nil =>
    show counts[c]? = _
    cases counts[c]? <;> simp
  | cons l labels ih =>
    rw [List.foldl_cons, ih, List.getElem?_modify, List.count_cons]
    by_cases own : l = c
    · cases counts[c]? <;> simp [own, UInt32.ofNat_add, UInt32.add_assoc, UInt32.add_comm]
    · simp [own]

theorem counts_eq (p : Partition α) :
    p.counts = (List.range p.size).map fun c => UInt32.ofNat (p.labels.count c) := by
  refine List.ext_getElem? fun c => ?_
  rw [counts, getElem?_countLabels, List.getElem?_map, List.getElem?_replicate]
  by_cases named : c < p.size
  · simp [named]
  · simp [named]

@[simp] theorem length_counts (p : Partition α) : p.counts.length = p.size := by
  simp [counts_eq]

end Partition

variable {α : Type} [Scalar α]

/-! ## §2. Inertia and means -/

/-- Sum of the squared distances of samples to the centres that their labels name; a label that
names no centre adds nothing. -/
def inertiaOf (samples centroids : List (List α)) (labels : List Nat) : α :=
  Scalar.total <| (samples.zip labels).filterMap fun (s, l) =>
    centroids[l]?.map (Scalar.squaredDistance s)

/-- Sum of rows of `n` features, feature by feature. -/
def rowSum (n : Nat) (rows : List (List α)) : List α :=
  rows.foldl (List.zipWith (· + ·)) (List.replicate n 0)

/-- The samples that carry a label. -/
def membersOf (samples : List (List α)) (labels : List Nat) (c : Nat) : List (List α) :=
  ((samples.zip labels).filter fun p => p.2 == c).map (·.1)

/-- Mean of rows of `n` features. -/
def rowMean (n : Nat) (rows : List (List α)) : List α :=
  (rowSum n rows).map (· / Scalar.ofNat rows.length)

/-- Number of features of the samples. -/
def featureCount (samples : List (List α)) : Nat := (samples.head?.map List.length).getD 0

/-- The centre of each of `k` clusters: the mean of its members, or of all samples if it has
none. -/
def memberMeans (samples : List (List α)) (labels : List Nat) (k : Nat) : List (List α) :=
  (List.range k).map fun c =>
    match membersOf samples labels c with
    | [] => rowMean (featureCount samples) samples
    | members => rowMean (featureCount samples) members

/-- The partition that labels make of samples. -/
def Partition.ofLabels (samples : List (List α)) (labels : List Nat) (k : Nat) : Partition α :=
  let centroids := memberMeans samples labels k
  { centroids, labels, inertia := inertiaOf samples centroids labels }

@[simp] theorem length_memberMeans (samples : List (List α)) (labels : List Nat) (k : Nat) :
    (memberMeans samples labels k).length = k := by
  simp [memberMeans]

/-! ## §3. Samples that can be partitioned -/

/-- Why samples cannot be split into `k` clusters, if they cannot. -/
def samplesFault? (samples : List (List α)) (k : Nat) : Option (Fault α) :=
  if k = 0 then some (.configuration .zeroClusters)
  else if samples.isEmpty then some (.dataShape .emptySamples)
  else if samples.length < k then some (.dataShape (.moreClustersThanSamples k samples.length))
  else if featureCount samples = 0 then some (.dataShape .noFeatures)
  else if samples.any fun s => s.length != featureCount samples then
    some (.dataShape .raggedSamples)
  else if samples.any fun s => s.any fun x => !Scalar.isFinite x then
    some (.dataShape .nonFiniteSamples)
  else none

end PlantEconomics
