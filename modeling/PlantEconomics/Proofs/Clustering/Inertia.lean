import PlantEconomics.Proofs.Clustering.Means
import PlantEconomics.Proofs.Clustering.KMeans

/-!
# Inertia is least at the means

A labelling splits the inertia into the spreads of the clusters: the sums of the squared distances
of their members to their centres. In exact arithmetic the spread of some rows about a point is
their spread about their mean and, on top of that, their number times the squared distance of the
point to the mean. So no other centres give a labelling less inertia than the means do. In
particular the point that k-means takes for a single cluster, put in the place of all centres, gives
no less.

  * `inertiaOf_eq_sum_spread`: the clusters share the inertia;
  * `spread_rowMean_le`: the mean is the point of least spread;
  * `inertia_least_at_means` puts it together.
-/

namespace PlantEconomics

open Finset

/-! ## §1. Spreads -/

section Spread

variable {α : Type} [Field α] [LinearOrder α] {n : Nat}

/-- Sum of the squared distances of rows to a point. -/
def spread (rows : List (List α)) (c : List α) : α :=
  (rows.map fun r => Scalar.squaredDistance r c).sum

@[simp] theorem spread_nil (c : List α) : spread [] c = 0 := rfl

theorem squaredDistance_eq_sum {a b : List α} (ha : a.length = n) (hb : b.length = n) :
    Scalar.squaredDistance a b = ∑ t ∈ range n, (a.getD t 0 - b.getD t 0) ^ 2 := by
  unfold Scalar.squaredDistance
  rw [Scalar.total_eq_sum, sum_eq_sum_range (f := fun t => (a.getD t 0 - b.getD t 0) ^ 2)]
  · rw [List.length_zipWith, ha, hb, Nat.min_self]
  · intro t ht
    rw [List.length_zipWith] at ht
    have hta : t < a.length := by omega
    have htb : t < b.length := by omega
    simp [List.getD_eq_getElem?_getD, hta, htb, sq]

/-- A spread is summed place by place. -/
theorem spread_eq_sum {rows : List (List α)} {c : List α} (wide : ∀ r ∈ rows, r.length = n)
    (point : c.length = n) :
    spread rows c = ∑ t ∈ range n, (rows.map fun r => (r.getD t 0 - c.getD t 0) ^ 2).sum := by
  unfold spread
  induction rows with
  | nil => simp
  | cons r rows ih =>
    obtain ⟨first, rest⟩ := List.forall_mem_cons.1 wide
    simp only [List.map_cons, List.sum_cons]
    rw [sum_add_distrib, ← ih rest, squaredDistance_eq_sum first point]

/-! ## §2. The mean of rows -/

omit [LinearOrder α] in
/-- The squares about a number are those about the mean, and the distance of the two as often as
there are values. -/
theorem sum_sq_sub_eq {xs : List α} {m : α} (mean : xs.length * m = xs.sum) (a : α) :
    (xs.map fun x => (x - a) ^ 2).sum =
      (xs.map fun x => (x - m) ^ 2).sum + xs.length * (m - a) ^ 2 := by
  -- what the two squares of a value differ by is linear in the value, so its sum knows the mean
  have shifted : ∀ x, (x - a) ^ 2 = (x - m) ^ 2 + (2 * (m - a) * x + (a ^ 2 - m ^ 2)) := by
    intro x
    ring
  have linear : (xs.map fun x => 2 * (m - a) * x).sum = 2 * (m - a) * xs.sum := by
    rw [List.sum_map_mul_left, List.map_id']
  rw [List.map_congr_left fun x _ => shifted x, List.sum_map_add, List.sum_map_add, linear, ← mean,
    List.map_const', List.sum_replicate, nsmul_eq_mul]
  ring

variable [IsStrictOrderedRing α]

/-- **No point has less spread than the mean.** -/
theorem spread_rowMean_le {rows : List (List α)} (wide : ∀ r ∈ rows, r.length = n) {c : List α}
    (point : c.length = n) : spread rows (rowMean n rows) ≤ spread rows c := by
  rw [spread_eq_sum wide (length_rowMean wide), spread_eq_sum wide point]
  refine sum_le_sum fun t _ => ?_
  have mean : ((rows.map fun r => r.getD t 0).length : α) * (rowMean n rows).getD t 0 =
      (rows.map fun r => r.getD t 0).sum := by
    rw [getD_rowMean wide, List.length_map]
    -- the mean of no rows is not their sum over their number, but both sides are zero then
    cases rows with
    | nil => simp
    | cons r rows => exact mul_div_cancel₀ _ (Nat.cast_ne_zero.2 (Nat.succ_ne_zero _))
  have split := sum_sq_sub_eq mean (c.getD t 0)
  rw [List.map_map, List.map_map] at split
  have apart : 0 ≤ ((rows.map fun r => r.getD t 0).length : α) *
      ((rowMean n rows).getD t 0 - c.getD t 0) ^ 2 :=
    mul_nonneg (Nat.cast_nonneg _) (sq_nonneg _)
  calc (rows.map fun r => (r.getD t 0 - (rowMean n rows).getD t 0) ^ 2).sum
      ≤ (rows.map fun r => (r.getD t 0 - (rowMean n rows).getD t 0) ^ 2).sum +
          ((rows.map fun r => r.getD t 0).length : α) *
            ((rowMean n rows).getD t 0 - c.getD t 0) ^ 2 := le_add_of_nonneg_right apart
    _ = (rows.map fun r => (r.getD t 0 - c.getD t 0) ^ 2).sum := split.symm

/-- So no point has less spread than the centre of a cluster, with or without members. -/
theorem spread_memberMean_le {samples : List (List α)} (labels : List Nat)
    (wide : ∀ s ∈ samples, s.length = featureCount samples) (i : Nat) {c : List α}
    (point : c.length = featureCount samples) :
    spread (membersOf samples labels i) (memberMean samples labels i) ≤
      spread (membersOf samples labels i) c := by
  rcases memberMean_eq samples labels i with ⟨none, -⟩ | ⟨-, eq⟩
  · rw [none, spread_nil, spread_nil]
  · rw [eq]
    exact spread_rowMean_le (fun s hs => wide s (mem_of_mem_membersOf hs)) point

end Spread

/-! ## §3. Inertia by clusters -/

section Inertia

variable {α : Type} [Field α] [LinearOrder α] {samples : List (List α)} {labels : List Nat}
  {k : Nat}

/-- With a centre for each label, inertia is summed over the samples. -/
theorem inertiaOf_eq_sum {centroids : List (List α)} (bound : ∀ l ∈ labels, l < centroids.length) :
    inertiaOf samples centroids labels =
      ((samples.zip labels).map fun p =>
        Scalar.squaredDistance p.1 (centroids.getD p.2 [])).sum := by
  have named : (samples.zip labels).filterMap
      (fun p => centroids[p.2]?.map (Scalar.squaredDistance p.1)) =
      (samples.zip labels).map fun p => Scalar.squaredDistance p.1 (centroids.getD p.2 []) := by
    rw [← List.filterMap_eq_map]
    refine List.filterMap_congr fun p hp => ?_
    have centred := bound p.2 (List.of_mem_zip hp).2
    simp [List.getD_eq_getElem?_getD, centred]
  unfold inertiaOf
  rw [Scalar.total_eq_sum]
  exact congrArg List.sum named

/-- **The clusters share the inertia**: it is the sum of their spreads. -/
theorem inertiaOf_eq_sum_spread {centroids : List (List α)} (named : Labels samples k labels)
    (centred : centroids.length = k) :
    inertiaOf samples centroids labels =
      ∑ c ∈ range k, spread (membersOf samples labels c) (centroids.getD c []) := by
  rw [inertiaOf_eq_sum fun l hl => centred ▸ named.bound l hl]
  exact (sum_membersOf_zip (fun c s => Scalar.squaredDistance s (centroids.getD c []))
    named.length named.bound).symm

/-- The same centre for all clusters makes the labels irrelevant. -/
theorem inertiaOf_replicate (named : Labels samples k labels) (g : List α) :
    inertiaOf samples (List.replicate k g) labels = spread samples g := by
  have alike : ∀ c ∈ range k, spread (membersOf samples labels c)
      ((List.replicate k g).getD c []) = spread (membersOf samples labels c) g := by
    intro c hc
    rw [List.getD_eq_getElem?_getD, List.getElem?_replicate_of_lt (mem_range.1 hc),
      Option.getD_some]
  rw [inertiaOf_eq_sum_spread named List.length_replicate, sum_congr rfl alike]
  exact sum_membersOf (fun s => Scalar.squaredDistance s g) named.length named.bound

theorem getD_memberMeans (samples : List (List α)) (labels : List Nat) {c : Nat} (hc : c < k) :
    (memberMeans samples labels k).getD c [] = memberMean samples labels c := by
  rw [memberMeans_eq_map]
  simp [List.getD_eq_getElem?_getD, hc]

variable [IsStrictOrderedRing α]

/-- No centres give a labelling less inertia than the means of its clusters. -/
theorem inertiaOf_memberMeans_le (wide : ∀ s ∈ samples, s.length = featureCount samples)
    (named : Labels samples k labels) {centroids : List (List α)} (centred : centroids.length = k)
    (points : ∀ c ∈ centroids, c.length = featureCount samples) :
    inertiaOf samples (memberMeans samples labels k) labels ≤
      inertiaOf samples centroids labels := by
  rw [inertiaOf_eq_sum_spread named (length_memberMeans ..), inertiaOf_eq_sum_spread named centred]
  refine sum_le_sum fun c hc => ?_
  have hc := mem_range.1 hc
  have point : (centroids.getD c []).length = featureCount samples := by
    have inside : c < centroids.length := centred.symm ▸ hc
    rw [List.getD_eq_getElem _ _ inside]
    exact points _ (List.getElem_mem _)
  rw [getD_memberMeans samples labels hc]
  exact spread_memberMean_le labels wide c point

/-! ## §4. One cluster -/

/-- Splitting samples further never gives more inertia than leaving them in one cluster. -/
theorem inertia_ofLabels_le_one (wide : ∀ s ∈ samples, s.length = featureCount samples)
    (named : Labels samples k labels) {zeros : List Nat} (zero : Labels samples 1 zeros) :
    (Partition.ofLabels samples labels k).inertia ≤
      (Partition.ofLabels samples zeros 1).inertia := by
  -- the one centre in the place of all others is no better, and then the labels do not matter
  let g := memberMean samples zeros 0
  have point : ∀ c ∈ List.replicate k g, c.length = featureCount samples := by
    intro c hc
    rw [List.eq_of_mem_replicate hc]
    exact length_memberMean wide zeros 0
  calc inertiaOf samples (memberMeans samples labels k) labels
      ≤ inertiaOf samples (List.replicate k g) labels :=
        inertiaOf_memberMeans_le wide named List.length_replicate point
    _ = spread samples g := inertiaOf_replicate named g
    _ = inertiaOf samples (List.replicate 1 g) zeros := (inertiaOf_replicate zero g).symm

end Inertia

/-! ## §5. Least inertia -/

variable {α σ : Type} [Field α] [LinearOrder α] [IsStrictOrderedRing α]

/-- **The means are the centres of least inertia.** Of all centres of the width of the samples, no
matter how they are labelled, the means of the members give the labelling least inertia. So however
a labeller answers and whichever run is kept, several clusters have at most the inertia that k-means
gives one cluster, and it always gives that one. -/
theorem inertia_least_at_means (samples : List (List α)) :
    (∀ k labels centroids, (∀ s ∈ samples, s.length = featureCount samples) →
      Labels samples k labels → centroids.length = k →
      (∀ c ∈ centroids, c.length = featureCount samples) →
      inertiaOf samples (memberMeans samples labels k) labels ≤
        inertiaOf samples centroids labels) ∧
    ∀ k label settings p (s s' : Random.SeedStream × σ),
      Yields (KMeans.fit label settings samples k) s p s' →
      ∃ q, (∀ label settings (t : Random.SeedStream × σ),
          Yields (KMeans.fit label settings samples 1) t q t) ∧
        p.inertia ≤ q.inertia := by
  refine ⟨fun k labels centroids wide named centred points =>
    inertiaOf_memberMeans_le wide named centred points, fun k label settings p s s' made => ?_⟩
  obtain ⟨clusterable, labels, named, rfl⟩ := KMeans.of_yields_fit made
  refine ⟨Partition.ofLabels samples (samples.map fun _ => 0) 1, fun label settings t => ?_, ?_⟩
  · rw [KMeans.fit_one clusterable.one]
    exact yields_pure_iff.2 ⟨rfl, rfl⟩
  · exact inertia_ofLabels_le_one clusterable.wide named (labels_zeros samples)

/-- Three samples in three clusters, of which one is empty: other centres are no better, and neither
is one cluster. -/
theorem inertia_least_at_means_three :
    let samples : List (List ℚ) := [[0], [2], [10]]
    let labels := [0, 0, 2]
    let p : Partition ℚ := ⟨[[1], [4], [10]], labels, 2⟩
    let stream := Random.SeedStream.ofSeed 0
    inertiaOf samples (memberMeans samples labels 3) labels ≤
      inertiaOf samples [[0], [7], [9]] labels ∧
    Yields (KMeans.fit (fun _ _ _ _ => .ok labels) ⟨1, 5⟩ samples 3) (stream, ()) p
      (stream.next.2, ()) ∧
    ∃ q, (∀ label settings (t : Random.SeedStream × Unit),
        Yields (KMeans.fit label settings samples 1) t q t) ∧
      p.inertia ≤ q.inertia := by
  intro samples labels p stream
  have wide : ∀ s ∈ samples, s.length = featureCount samples := by decide
  have named : Labels samples 3 labels := ⟨rfl, by decide⟩
  have clusterable : Clusterable samples 3 := ⟨by decide, by decide, by decide, wide, by simp⟩
  have same : Partition.ofLabels samples labels 3 = p := by decide +kernel
  have made : Yields (KMeans.fit (fun _ _ _ _ => .ok labels) ⟨1, 5⟩ samples 3) (stream, ()) p
      (stream.next.2, ()) := by
    rw [← same]
    exact KMeans.yields_fit_of_labels clusterable (by decide) rfl named
  obtain ⟨least, fewer⟩ := inertia_least_at_means (σ := Unit) samples
  exact ⟨least _ _ _ wide named rfl (by decide), made, fewer _ _ _ _ _ _ made⟩

end PlantEconomics
