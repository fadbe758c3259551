import Mathlib
import PlantEconomics.Proofs.Clustering.KMeans
import PlantEconomics.Proofs.Clustering.Means
import PlantEconomics.Proofs.Machine
import PlantEconomics.Proofs.Market.Days
import PlantEconomics.Proofs.Market.RepresentativeDays

/-!
# Representative days conserve the data

However k-means labels the days of a series, the representative days share out all days of the
data: their weights add up to the number of days, and a price counted with its weight stands for
the prices of all days of its cluster. What is lost is the noise, the parts of the means that are
below the threshold and become zero.

The shape of the result holds for machine numbers as well. There a mean may be infinite, but it is
always a number, so that it compares with the threshold; a value that is no number would pass it.

  * `Represents`: numbers, hours, values and the total weight of representative days;
  * `Conserves`: weighted prices against the prices of the data;
  * `conserve_kMeans`: both, for every labeller.
-/

namespace PlantEconomics

open Finset

/-! ## §1. The days of a labelling -/

namespace RepresentativeDays

section Labelled

variable {α : Type} [Scalar α]

/-- The day that stands for a cluster. -/
def ofCluster (samples : List (List α)) (labels : List Nat) (c : Nat) : RepresentativeDay α :=
  ⟨(memberMean samples labels c).map withoutNoise, UInt32.ofNat (labels.count c)⟩

/-- Centres and counts of a labelling go together, cluster by cluster. -/
theorem zipWith_centroids_counts {β : Type} (f : List α → UInt32 → β) (samples : List (List α))
    (labels : List Nat) (k : Nat) :
    List.zipWith f (Partition.ofLabels samples labels k).centroids
        (Partition.ofLabels samples labels k).counts =
      (List.range k).map fun c =>
        f (memberMean samples labels c) (UInt32.ofNat (labels.count c)) := by
  rw [Partition.counts_eq]
  show List.zipWith f (memberMeans samples labels k)
    ((List.range (memberMeans samples labels k).length).map fun c =>
      UInt32.ofNat (labels.count c)) = _
  rw [length_memberMeans, memberMeans_eq_map, List.zipWith_map, List.zipWith_self]

theorem days_ofPartition (samples : List (List α)) (labels : List Nat) (k : Nat) :
    (ofPartition (Partition.ofLabels samples labels k)).days =
      (List.range k).map (ofCluster samples labels) :=
  zipWith_centroids_counts _ samples labels k

/-- The days are numbered from one to the number of clusters. -/
theorem day?_ofPartition_iff {samples : List (List α)} {labels : List Nat} {k d : Nat}
    {day : RepresentativeDay α} :
    (ofPartition (Partition.ofLabels samples labels k)).day? d = some day ↔
      (1 ≤ d ∧ d ≤ k) ∧ ofCluster samples labels (d - 1) = day := by
  cases d with
  | zero => simp [day?]
  | succ c =>
    show (ofPartition (Partition.ofLabels samples labels k)).days[c]? = some day ↔ _
    rw [days_ofPartition, List.getElem?_map, Option.map_eq_some_iff]
    simp [List.getElem?_eq_some_iff]

/-- The weights are the counts of the clusters. -/
theorem map_weight_ofPartition (p : Partition α) :
    (ofPartition p).days.map (·.weight) = p.counts := by
  have even : p.centroids.length = p.counts.length := p.length_counts.symm
  unfold ofPartition
  refine List.ext_getElem ?_ fun c _ _ => ?_
  · simp [even]
  · simp

end Labelled

/-! ## §2. The shape of the result -/

section Shape

variable {α : Type} [Scalar α]

/-- Whether there are `k` representative days of `h` hours for `n` days of data: each has a weight
and a price for each hour, no price is noise, and the weights add up. They do so as words, and as
numbers where a word holds the number of days. -/
structure Represents (r : RepresentativeDays α) (k h n : Nat) : Prop where
  weights : ∀ d, (∃ w, r.weight? d = some w) ↔ 1 ≤ d ∧ d ≤ k
  prices : ∀ d hour, (∃ v, r.price? d hour = some v) ↔ (1 ≤ d ∧ d ≤ k) ∧ 1 ≤ hour ∧ hour ≤ h
  values : ∀ d hour v, r.price? d hour = some v → v = 0 ∨ 0.0001 ≤ v
  word : r.totalWeight = UInt32.ofNat n
  total : n < 2 ^ 32 → (r.days.map (·.weight.toNat)).sum = n

/-- Whether a property of values carries over from `n` days to their means, and values that have
it compare with the threshold of noise. -/
structure CarriesOver (P : α → Prop) (n : Nat) : Prop where
  zero : P 0
  add : ∀ x y, P x → Scalar.isFinite y = true → P (x + y)
  div : ∀ x m, P x → 0 < m → m ≤ n → P (x / Scalar.ofNat m)
  threshold : ∀ v, P v → ¬v < 0.0001 → 0.0001 ≤ v

omit [Scalar α] in
theorem price?_eq_some_iff {r : RepresentativeDays α} {d hour : Nat} {v : α} :
    r.price? d hour = some v ↔
      ∃ day, r.day? d = some day ∧ 1 ≤ hour ∧ day.profile[hour - 1]? = some v := by
  cases hour with
  | zero => simp [price?]
  | succ hour => simp [price?, Option.bind_eq_some_iff]

/-- **Any labelling of clusterable days gives representative days of them**, if what makes values
compare carries over to their means. -/
theorem represents_of_labels {P : α → Prop} {samples : List (List α)} {labels : List Nat}
    {k h : Nat} (carries : CarriesOver P samples.length) (clusterable : Clusterable samples k)
    (wide : featureCount samples = h) (named : Labels samples k labels) :
    (ofPartition (Partition.ofLabels samples labels k)).Represents k h samples.length := by
  have length : ∀ c, (ofCluster samples labels c).profile.length = h := by
    intro c
    show ((memberMean samples labels c).map withoutNoise).length = h
    rw [List.length_map, length_memberMean clusterable.wide, wide]
  -- a mean that is not below the threshold is above it, because it compares
  have clamped : ∀ c, ∀ v ∈ (ofCluster samples labels c).profile, v = 0 ∨ 0.0001 ≤ v := by
    intro c v hv
    obtain ⟨mean, hmean, rfl⟩ := List.mem_map.1 hv
    have number : P mean := forall_mem_memberMean carries.zero carries.add carries.div
      clusterable.ne_nil clusterable.finite labels c mean hmean
    unfold withoutNoise
    by_cases low : mean < 0.0001
    · exact .inl (if_pos low)
    · rw [if_neg low]
      exact .inr (carries.threshold mean number low)
  have clusters : ∀ l ∈ labels, l < (Partition.ofLabels samples labels k).size := by
    rw [Partition.size, Partition.ofLabels, length_memberMeans]
    exact named.bound
  refine ⟨fun d => ?_, fun d hour => ?_, fun d hour v hv => ?_, ?_, fun few => ?_⟩
  · simp [weight?, day?_ofPartition_iff]
  · simp only [price?_eq_some_iff, day?_ofPartition_iff]
    constructor
    · rintro ⟨v, day, ⟨number, rfl⟩, first, hv⟩
      have inside := (List.getElem?_eq_some_iff.1 hv).1
      rw [length] at inside
      exact ⟨number, first, by omega⟩
    · rintro ⟨number, first, last⟩
      have inside : hour - 1 < (ofCluster samples labels (d - 1)).profile.length := by
        rw [length]
        omega
      exact ⟨_, _, ⟨number, rfl⟩, first, List.getElem?_eq_getElem inside⟩
  · obtain ⟨day, hday, -, hv⟩ := price?_eq_some_iff.1 hv
    obtain ⟨-, rfl⟩ := day?_ofPartition_iff.1 hday
    exact clamped _ _ (List.mem_of_getElem? hv)
  · unfold totalWeight
    rw [map_weight_ofPartition, ← List.sum_eq_foldl, ← named.length]
    exact Partition.sum_counts clusters
  · rw [← named.length] at few ⊢
    have numbers : (ofPartition (Partition.ofLabels samples labels k)).days.map (·.weight.toNat) =
        (Partition.ofLabels samples labels k).sizes := by
      rw [← Partition.map_toNat_counts few, ← map_weight_ofPartition, List.map_map]
      rfl
    rw [numbers]
    exact Partition.sum_sizes clusters

/-- In an ordered field all values compare. -/
theorem carriesOver_of_field {α : Type} [Field α] [LinearOrder α] (n : Nat) :
    CarriesOver (fun _ : α => True) n :=
  ⟨trivial, fun _ _ _ _ => trivial, fun _ _ _ _ _ => trivial, fun _ _ low => not_lt.1 low⟩

/-- Machine numbers compare if they are numbers. -/
theorem carriesOver_isNumber {n : Nat} (fits : n < 2 ^ 64) : CarriesOver Machine.IsNumber n where
  zero := Machine.isNumber_of_beq_self rfl
  add _ _ hx hy := hx.add hy
  div _ _ hx some_count few := hx.div_ofNat some_count (Nat.lt_of_le_of_lt few fits)
  threshold _ hv low := Machine.le_of_not_lt hv (Machine.isNumber_of_beq_self rfl) low

end Shape

end RepresentativeDays

/-! ## §3. Totals of an hour in exact arithmetic -/

section Totals

variable {α : Type} [Field α] [LinearOrder α]

/-- Hour `t` of all representative days, each as often as it stands for a day. -/
def RepresentativeDays.hourTotal (r : RepresentativeDays α) (t : Nat) : α :=
  (r.days.map fun day => (day.weight.toNat : α) * day.profile.getD t 0).sum

/-- Hour `t` of all days of `h` hours that a series fills. -/
def PriceSeries.hourTotal (s : PriceSeries α) (h t : Nat) : α :=
  ∑ d ∈ range (s.size / h), s.values.getD (d * h + t) 0

/-- What the clusters with noise in hour `t` add up to, each as often as it has members. -/
def Partition.noise (p : Partition α) (t : Nat) : α :=
  (List.zipWith
    (fun centre (n : UInt32) =>
      if centre.getD t 0 < 0.0001 then (n.toNat : α) * centre.getD t 0 else 0)
    p.centroids p.counts).sum

omit [LinearOrder α] in
/-- An hour of all days is the sum over the days. -/
theorem DayProfiles.sum_windows (s : PriceSeries α) {h t : Nat} (positive : 0 < h) (ht : t < h) :
    ((windows h positive s.values).map fun day => day.getD t 0).sum = s.hourTotal h t := by
  unfold PriceSeries.hourTotal PriceSeries.size
  rw [sum_eq_sum_range (f := fun d => s.values.getD (d * h + t) 0), List.length_map,
    length_windows]
  intro d hd
  rw [List.length_map, length_windows] at hd
  simp [getElem?_windows positive hd, List.getD_eq_getElem?_getD, ht]

/-- Where no mean is noise, nothing is lost. -/
theorem Partition.noise_eq_zero {p : Partition α} {t : Nat}
    (clear : ∀ centre ∈ p.centroids, ¬centre.getD t 0 < 0.0001) : p.noise t = 0 := by
  refine List.sum_eq_zero fun x hx => ?_
  obtain ⟨i, hi, rfl⟩ := List.mem_iff_getElem.1 hx
  rw [List.getElem_zipWith]
  exact if_neg (clear _ (List.getElem_mem _))

/-- What is left of a mean is the mean without its noise. -/
theorem RepresentativeDays.getD_withoutNoise (mean : List α) (t : Nat) :
    (mean.map withoutNoise).getD t 0 =
      mean.getD t 0 - if mean.getD t 0 < 0.0001 then mean.getD t 0 else 0 := by
  have value : ∀ v : α, withoutNoise v = v - if v < 0.0001 then v else 0 := by
    intro v
    unfold withoutNoise
    by_cases low : v < 0.0001
    · rw [if_pos low, if_pos low, sub_self]
    · rw [if_neg low, if_neg low, sub_zero]
  simp only [List.getD_eq_getElem?_getD, List.getElem?_map]
  cases mean[t]? with
  | none => simp
  | some v => exact value v

/-- **The representative days lose the noise and nothing else**, as long as a word holds the number
of days. -/
theorem RepresentativeDays.hourTotal_ofPartition [IsStrictOrderedRing α]
    {samples : List (List α)} {labels : List Nat} {k : Nat} (named : Labels samples k labels)
    (wide : ∀ s ∈ samples, s.length = featureCount samples) (few : samples.length < 2 ^ 32)
    (t : Nat) :
    (ofPartition (Partition.ofLabels samples labels k)).hourTotal t =
      (samples.map fun s => s.getD t 0).sum - (Partition.ofLabels samples labels k).noise t := by
  let mean := memberMean samples labels
  unfold hourTotal Partition.noise
  rw [days_ofPartition, zipWith_centroids_counts, List.map_map,
    ← sum_count_mul_mean named.length named.bound wide t]
  -- cluster by cluster, weight times what is left is number times mean less its noise
  show ∑ c ∈ range k, ((UInt32.ofNat (labels.count c)).toNat : α) *
    ((mean c).map withoutNoise).getD t 0 = _ - ∑ c ∈ range k, _
  rw [← sum_sub_distrib]
  refine sum_congr rfl fun c _ => ?_
  rw [toNat_ofNat_count (named.length ▸ few)]
  rw [getD_withoutNoise, mul_sub, mul_ite, mul_zero]

end Totals

/-! ## §4. Grouping by k-means -/

namespace RepresentativeDays

/-- Whether representative days give every hour of the data but for the noise of a partition, and
the whole hour where no mean is noise. -/
structure Conserves {α : Type} [Field α] [LinearOrder α] (r : RepresentativeDays α)
    (s : PriceSeries α) (h : Nat) (p : Partition α) : Prop where
  exact : ∀ t < h, r.hourTotal t = s.hourTotal h t - p.noise t
  clear : ∀ t < h, (∀ centre ∈ p.centroids, ¬centre.getD t 0 < 0.0001) →
    r.hourTotal t = s.hourTotal h t

/-- What k-means was given and gave, when it grouped the days of a series. -/
theorem labelled_of_yields {α σ : Type} [Scalar α] {s : PriceSeries α} {h k : Nat} {seed : UInt64}
    {label : Labeller α} {settings : KMeans} {own own' : σ} {r : RepresentativeDays α}
    (run : Yields (ofSeries s h k seed (KMeans.fit label settings)) own r own') :
    ∃ (positive : 0 < h) (p : Partition α) (stream : Random.SeedStream),
      Yields (KMeans.fit label settings (DayProfiles.windows h positive s.values) k)
        (Random.SeedStream.ofSeed seed, own) p (stream, own') ∧
      Clusterable (DayProfiles.windows h positive s.values) k ∧
      p.IsLabelled (DayProfiles.windows h positive s.values) k ∧ ofPartition p = r := by
  obtain ⟨days, cut, run⟩ := yields_ofSeries_iff.1 run
  obtain ⟨positive, rfl⟩ := DayProfiles.ofSeries_eq_ok_iff.1 cut
  obtain ⟨p, stream, fitted, made⟩ := yields_ofDays_iff.1 run
  obtain ⟨clusterable, labelled⟩ := KMeans.of_yields_fit fitted
  exact ⟨positive, p, stream, fitted, clusterable, labelled, made⟩

/-- The days of a series have its horizon. -/
theorem featureCount_windows {α : Type} [Scalar α] {s : PriceSeries α} {h k : Nat}
    {positive : 0 < h} (clusterable : Clusterable (DayProfiles.windows h positive s.values) k) :
    featureCount (DayProfiles.windows h positive s.values) = h := by
  obtain ⟨day, hday⟩ := List.exists_mem_of_ne_nil _ clusterable.ne_nil
  rw [← clusterable.wide day hday]
  exact DayProfiles.length_of_mem_windows positive hday

/-- A labeller with one answer. -/
def labelling {α : Type} (labels : List Nat) : Labeller α := fun _ _ _ _ => .ok labels

/-- Conversely, any labels that fit the days can come out of a run. -/
theorem yields_of_labels {α σ : Type} [Scalar α] {s : PriceSeries α} {h k : Nat}
    {labels : List Nat} {days : List (List α)} (rounds : Nat) (seed : UInt64) (own : σ)
    (cut : DayProfiles.ofSeries s h = .ok ⟨h, days⟩) (clusterable : Clusterable days k)
    (several : k ≠ 1) (named : Labels days k labels) :
    Yields (ofSeries s h k seed (KMeans.fit (labelling labels) ⟨1, rounds⟩)) own
      (ofPartition (Partition.ofLabels days labels k)) own :=
  yields_ofSeries_iff.2 ⟨⟨h, days⟩, cut, yields_ofDays_iff.2
    ⟨_, _, KMeans.yields_fit_of_labels clusterable several rfl named, rfl⟩⟩

theorem represents_of_yields {α σ : Type} [Scalar α] {P : α → Prop} {s : PriceSeries α} {h k : Nat}
    {seed : UInt64} {label : Labeller α} {settings : KMeans} {own own' : σ}
    {r : RepresentativeDays α} (carries : CarriesOver P (s.size / h))
    (run : Yields (ofSeries s h k seed (KMeans.fit label settings)) own r own') :
    r.Represents k h (s.size / h) := by
  obtain ⟨positive, p, stream, -, clusterable, ⟨labels, named, rfl⟩, rfl⟩ := labelled_of_yields run
  have days : (DayProfiles.windows h positive s.values).length = s.size / h :=
    DayProfiles.length_windows positive s.values
  rw [← days] at carries ⊢
  exact represents_of_labels carries clusterable (featureCount_windows clusterable) named

theorem conserves_of_isLabelled {α : Type} [Field α] [LinearOrder α] [IsStrictOrderedRing α]
    {s : PriceSeries α} {h k : Nat} {positive : 0 < h} {p : Partition α}
    (clusterable : Clusterable (DayProfiles.windows h positive s.values) k)
    (labelled : p.IsLabelled (DayProfiles.windows h positive s.values) k)
    (few : s.size / h < 2 ^ 32) : (ofPartition p).Conserves s h p := by
  obtain ⟨labels, named, rfl⟩ := labelled
  have days : (DayProfiles.windows h positive s.values).length < 2 ^ 32 := by
    rw [DayProfiles.length_windows]
    exact few
  have lost (t : Nat) := hourTotal_ofPartition named clusterable.wide days t
  constructor
  · intro t ht
    rw [lost, DayProfiles.sum_windows s positive ht]
  · intro t ht clear
    rw [lost, DayProfiles.sum_windows s positive ht, Partition.noise_eq_zero clear, sub_zero]

/-- **Representative days conserve the data.** Whenever k-means groups the days of a series, and
whatever its labeller answers, there is a day for each cluster, with all hours, without noise, and
with weights that add up to the number of days. This holds for exact numbers, and for machine
numbers as long as a machine word counts the values. In exact arithmetic the weighted prices of
each hour are the prices of all days in that hour, less what is noise in the means of the
partition that k-means gave.

Weights are words of thirty-two bits. Whatever the number of days, they add up to its word; as
numbers they add up, and conserve the prices, as long as there are fewer than `2 ^ 32` days. -/
theorem conserve_kMeans :
    (∀ {σ : Type} {s : PriceSeries Float} {h k : Nat} {seed : UInt64} {label : Labeller Float}
      {settings : KMeans} {own own' : σ} {r : RepresentativeDays Float}, s.size < 2 ^ 64 →
      Yields (ofSeries s h k seed (KMeans.fit label settings)) own r own' →
      r.Represents k h (s.size / h)) ∧
    (∀ {α σ : Type} [Field α] [LinearOrder α] [IsStrictOrderedRing α] {s : PriceSeries α}
      {h k : Nat} {seed : UInt64} {label : Labeller α} {settings : KMeans} {own own' : σ}
      {r : RepresentativeDays α},
      Yields (ofSeries s h k seed (KMeans.fit label settings)) own r own' →
      r.Represents k h (s.size / h) ∧
      ∃ days p stream, DayProfiles.ofSeries s h = .ok days ∧
        Yields (KMeans.fit label settings days.days k) (Random.SeedStream.ofSeed seed, own) p
          (stream, own') ∧
        p.IsLabelled days.days k ∧ ofPartition p = r ∧
        (s.size / h < 2 ^ 32 → r.Conserves s h p)) := by
  constructor
  · intro σ s h k seed label settings own own' r fits run
    have few : s.size / h < 2 ^ 64 := Nat.lt_of_le_of_lt (Nat.div_le_self _ _) fits
    exact represents_of_yields (carriesOver_isNumber few) run
  · intro α σ _ _ _ s h k seed label settings own own' r run
    refine ⟨represents_of_yields (carriesOver_of_field _) run, ?_⟩
    obtain ⟨positive, p, stream, fitted, clusterable, labelled, rfl⟩ := labelled_of_yields run
    exact ⟨⟨h, DayProfiles.windows h positive s.values⟩, p, stream,
      DayProfiles.ofSeries_eq_ok_iff.2 ⟨positive, rfl⟩, fitted, labelled, rfl,
      conserves_of_isLabelled clusterable labelled⟩

/-- Three days of two hours and one hour more. The second cluster is empty, so its day is the mean
of all days with weight zero, and the mean of the second hour is negative in the first cluster. -/
theorem conserve_kMeans_empty_cluster :
    (∃ r : RepresentativeDays Float, r.days = [⟨[2, 0], 2⟩, ⟨[3, 2], 0⟩, ⟨[5, 8], 1⟩] ∧
      Yields (ofSeries (.ofValues "base" [1, 2, 3, -4, 5, 8, 9]) 2 3 0
        (KMeans.fit (labelling [0, 0, 2]) ⟨1, 300⟩)) () r () ∧
      r.Represents 3 2 3) ∧
    (∃ r : RepresentativeDays ℚ, r.days = [⟨[2, 0], 2⟩, ⟨[3, 2], 0⟩, ⟨[5, 8], 1⟩] ∧
      Yields (ofSeries (.ofValues "base" [1, 2, 3, -4, 5, 8, 9]) 2 3 0
        (KMeans.fit (labelling [0, 0, 2]) ⟨1, 300⟩)) () r () ∧
      r.Represents 3 2 3 ∧ ∃ p, ofPartition p = r ∧
        r.Conserves (.ofValues "base" [1, 2, 3, -4, 5, 8, 9]) 2 p) := by
  constructor
  · have cut : DayProfiles.ofSeries (.ofValues "base" [1, 2, 3, -4, 5, 8, 9]) 2 =
        .ok ⟨2, [[(1 : Float), 2], [3, -4], [5, 8]]⟩ := by
      simp [DayProfiles.ofSeries_eq_ok_iff, DayProfiles.windows, PriceSeries.ofValues]
    have clusterable : Clusterable [[(1 : Float), 2], [3, -4], [5, 8]] 3 :=
      samplesFault?_eq_none_iff.1 (by decide +kernel)
    have named : Labels [[(1 : Float), 2], [3, -4], [5, 8]] 3 [0, 0, 2] := ⟨rfl, by decide⟩
    have run := yields_of_labels 300 0 () cut clusterable (by decide) named
    exact ⟨_, by decide +kernel, run, conserve_kMeans.1 (by decide) run⟩
  · have cut : DayProfiles.ofSeries (.ofValues "base" [1, 2, 3, -4, 5, 8, 9]) 2 =
        .ok ⟨2, [[(1 : ℚ), 2], [3, -4], [5, 8]]⟩ := by
      simp [DayProfiles.ofSeries_eq_ok_iff, DayProfiles.windows, PriceSeries.ofValues]
    have clusterable : Clusterable [[(1 : ℚ), 2], [3, -4], [5, 8]] 3 :=
      samplesFault?_eq_none_iff.1 (by decide +kernel)
    have named : Labels [[(1 : ℚ), 2], [3, -4], [5, 8]] 3 [0, 0, 2] := ⟨rfl, by decide⟩
    have run := yields_of_labels 300 0 () cut clusterable (by decide) named
    obtain ⟨represents, _, p, _, -, -, -, made, conserves⟩ := conserve_kMeans.2 run
    exact ⟨_, by decide +kernel, run, represents, p, made, conserves (by decide)⟩

end RepresentativeDays

end PlantEconomics
