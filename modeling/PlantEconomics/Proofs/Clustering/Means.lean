import PlantEconomics.Clustering.Partition
import PlantEconomics.Proofs.Exact

/-!
# Members and means

A labelling shares the samples out among the clusters, so what is summed over the members of all
clusters is summed over the samples. The mean of a cluster is built from its members one by one:
whatever holds of zero, is kept when a value of a sample is added and is kept by the division holds
of all values of all means. In exact arithmetic a mean times the number of members is their sum.

  * `sum_membersOf`: the members of all clusters are the samples;
  * `Partition.sum_counts`, `Partition.map_toNat_counts`: counts in words, and as numbers;
  * `forall_mem_memberMeans`: what carries over to the values of the means;
  * `count_mul_mean`: number times mean.
-/

namespace PlantEconomics

open Finset

/-! ## §1. Members -/

section Members

variable {α : Type}

theorem membersOf_cons (s : List α) (samples : List (List α)) (l : Nat) (labels : List Nat)
    (c : Nat) :
    membersOf (s :: samples) (l :: labels) c =
      if l = c then s :: membersOf samples labels c else membersOf samples labels c := by
  unfold membersOf
  rw [List.zip_cons_cons, List.filter_cons]
  by_cases h : l = c
  · simp [h]
  · simp [h]

theorem mem_of_mem_membersOf {samples : List (List α)} {labels : List Nat} {c : Nat} {s : List α}
    (hs : s ∈ membersOf samples labels c) : s ∈ samples := by
  obtain ⟨p, hp, rfl⟩ := List.mem_map.1 hs
  exact (List.of_mem_zip (List.mem_of_mem_filter hp)).1

theorem length_membersOf_le (samples : List (List α)) (labels : List Nat) (c : Nat) :
    (membersOf samples labels c).length ≤ samples.length := by
  unfold membersOf
  rw [List.length_map]
  refine (List.length_filter_le _ _).trans ?_
  rw [List.length_zip]
  exact Nat.min_le_left _ _

/-- A cluster has as many members as there are samples with its label. -/
theorem length_membersOf {samples : List (List α)} {labels : List Nat}
    (same : labels.length = samples.length) (c : Nat) :
    (membersOf samples labels c).length = labels.count c := by
  induction samples generalizing labels with
  | nil =>
    obtain rfl := List.length_eq_zero_iff.1 same
    rfl
  | cons s samples ih =>
    cases labels with
    | nil => exact absurd same (by simp)
    | cons l labels =>
      rw [membersOf_cons, List.count_cons]
      by_cases h : l = c
      · simp [h, ih (Nat.succ.inj same)]
      · simp [h, ih (Nat.succ.inj same)]

/-- Summing over the members of all clusters is summing over the samples, each with its label. -/
theorem sum_membersOf_zip {β : Type} [AddCommMonoid β] (f : Nat → List α → β)
    {samples : List (List α)} {labels : List Nat} {k : Nat}
    (same : labels.length = samples.length) (bound : ∀ l ∈ labels, l < k) :
    ∑ c ∈ range k, ((membersOf samples labels c).map (f c)).sum =
      ((samples.zip labels).map fun p => f p.2 p.1).sum := by
  induction samples generalizing labels with
  | nil => simp [membersOf]
  | cons s samples ih =>
    cases labels with
    | nil => exact absurd same (by simp)
    | cons l labels =>
      obtain ⟨first, rest⟩ := List.forall_mem_cons.1 bound
      -- the first sample goes to one cluster and leaves the sums of the others as they are
      have step : ∀ c, ((membersOf (s :: samples) (l :: labels) c).map (f c)).sum =
          (if l = c then f l s else 0) + ((membersOf samples labels c).map (f c)).sum := by
        intro c
        rw [membersOf_cons]
        by_cases h : l = c
        · simp [h]
        · simp [h]
      simp only [step]
      rw [sum_add_distrib, ih (Nat.succ.inj same) rest, sum_ite_eq, if_pos (mem_range.2 first),
        List.zip_cons_cons, List.map_cons, List.sum_cons]

/-- Where the label does not matter, it is summing over the samples. -/
theorem sum_membersOf {β : Type} [AddCommMonoid β] (f : List α → β) {samples : List (List α)}
    {labels : List Nat} {k : Nat} (same : labels.length = samples.length)
    (bound : ∀ l ∈ labels, l < k) :
    ∑ c ∈ range k, ((membersOf samples labels c).map f).sum = (samples.map f).sum := by
  have unlabelled : ((samples.zip labels).map fun p => f p.1) = samples.map f := by
    calc ((samples.zip labels).map fun p => f p.1)
        = ((samples.zip labels).map Prod.fst).map f := (List.map_map ..).symm
      _ = samples.map f := by rw [List.map_fst_zip (Nat.le_of_eq same.symm)]
  rw [sum_membersOf_zip (fun _ => f) same bound, unlabelled]

/-- Labels are counted cluster by cluster. -/
theorem sum_count_eq_length {labels : List Nat} {k : Nat} (bound : ∀ l ∈ labels, l < k) :
    ∑ c ∈ range k, labels.count c = labels.length := by
  have counted : ∑ c ∈ range k, (labels : Multiset Nat).count c = (labels : Multiset Nat).card :=
    Multiset.sum_count_eq_card fun l hl => mem_range.2 (bound l hl)
  simpa only [Multiset.coe_count, Multiset.coe_card] using counted

end Members

/-! ## §2. Counts -/

section Counts

/-- Words add up to the word of the sum. -/
theorem sum_map_ofNat (ns : List Nat) : (ns.map UInt32.ofNat).sum = UInt32.ofNat ns.sum := by
  induction ns with
  | nil => rfl
  | cons n ns ih => rw [List.map_cons, List.sum_cons, ih, List.sum_cons, UInt32.ofNat_add]

/-- Where a word holds the number of labels, it holds how many of them are the same. -/
theorem toNat_ofNat_count {labels : List Nat} (few : labels.length < 2 ^ 32) (c : Nat) :
    (UInt32.ofNat (labels.count c)).toNat = labels.count c :=
  UInt32.toNat_ofNat_of_lt' (List.count_le_length.trans_lt few)

variable {α : Type} {p : Partition α}

/-- The number of samples in each cluster, however large. -/
def Partition.sizes (p : Partition α) : List Nat := (List.range p.size).map p.labels.count

theorem Partition.sum_sizes (named : ∀ l ∈ p.labels, l < p.size) :
    p.sizes.sum = p.labels.length :=
  sum_count_eq_length named

/-- Counts add up to the word of the number of samples. -/
theorem Partition.sum_counts (named : ∀ l ∈ p.labels, l < p.size) :
    p.counts.sum = UInt32.ofNat p.labels.length := by
  have words : p.counts = p.sizes.map UInt32.ofNat := by
    rw [counts_eq, sizes, List.map_map]
    rfl
  rw [words, sum_map_ofNat, sum_sizes named]

/-- Where a word holds the number of samples, the counts are the sizes. -/
theorem Partition.map_toNat_counts (few : p.labels.length < 2 ^ 32) :
    p.counts.map (·.toNat) = p.sizes := by
  rw [counts_eq, List.map_map]
  exact List.map_congr_left fun c _ => toNat_ofNat_count few c

end Counts

/-! ## §3. Rows -/

section Rows

variable {α : Type} [Scalar α] {n : Nat}

theorem length_rowSum {rows : List (List α)} (wide : ∀ r ∈ rows, r.length = n) :
    (rowSum n rows).length = n := by
  unfold rowSum
  refine List.foldlRecOn (motive := fun acc : List α => acc.length = n) rows _
    List.length_replicate fun acc hacc r hr => ?_
  rw [List.length_zipWith, hacc, wide r hr, Nat.min_self]

theorem length_rowMean {rows : List (List α)} (wide : ∀ r ∈ rows, r.length = n) :
    (rowMean n rows).length = n := by
  rw [rowMean, List.length_map, length_rowSum wide]

/-- What holds of zero, and is kept when a value of a row is added, holds of all sums. -/
theorem forall_mem_rowSum {P Q : α → Prop} (zero : P 0) (add : ∀ x y, P x → Q y → P (x + y))
    {rows : List (List α)} (values : ∀ r ∈ rows, ∀ y ∈ r, Q y) : ∀ x ∈ rowSum n rows, P x := by
  have begun : ∀ x ∈ List.replicate n (0 : α), P x := by
    intro x hx
    rw [(List.mem_replicate.1 hx).2]
    exact zero
  unfold rowSum
  refine List.foldlRecOn (motive := fun acc : List α => ∀ x ∈ acc, P x) rows _ begun
    fun acc hacc r hr x hx => ?_
  obtain ⟨i, hi, rfl⟩ := List.mem_iff_getElem.1 hx
  rw [List.getElem_zipWith]
  exact add _ _ (hacc _ (List.getElem_mem _)) (values r hr _ (List.getElem_mem _))

end Rows

/-! ## §4. Means of members -/

section Means

variable {α : Type} [Scalar α]

/-- The centre of one cluster. -/
def memberMean (samples : List (List α)) (labels : List Nat) (c : Nat) : List α :=
  match membersOf samples labels c with
  | [] => rowMean (featureCount samples) samples
  | members => rowMean (featureCount samples) members

theorem memberMeans_eq_map (samples : List (List α)) (labels : List Nat) (k : Nat) :
    memberMeans samples labels k = (List.range k).map (memberMean samples labels) := rfl

/-- A centre is the mean of its members, or of all samples if there are none. -/
theorem memberMean_eq (samples : List (List α)) (labels : List Nat) (c : Nat) :
    (membersOf samples labels c = [] ∧
      memberMean samples labels c = rowMean (featureCount samples) samples) ∨
    (membersOf samples labels c ≠ [] ∧
      memberMean samples labels c =
        rowMean (featureCount samples) (membersOf samples labels c)) := by
  unfold memberMean
  cases membersOf samples labels c with
  | nil => exact .inl ⟨rfl, rfl⟩
  | cons s members => exact .inr ⟨List.cons_ne_nil _ _, rfl⟩

theorem length_memberMean {samples : List (List α)}
    (wide : ∀ s ∈ samples, s.length = featureCount samples) (labels : List Nat) (c : Nat) :
    (memberMean samples labels c).length = featureCount samples := by
  rcases memberMean_eq samples labels c with ⟨-, eq⟩ | ⟨-, eq⟩
  · rw [eq, length_rowMean wide]
  · rw [eq, length_rowMean fun s hs => wide s (mem_of_mem_membersOf hs)]

/-- What holds of zero, is kept when a value of a sample is added, and is kept by the division by
a number of samples, holds of all values of all means. -/
theorem forall_mem_memberMean {P Q : α → Prop} {samples : List (List α)} (zero : P 0)
    (add : ∀ x y, P x → Q y → P (x + y))
    (div : ∀ x n, P x → 0 < n → n ≤ samples.length → P (x / Scalar.ofNat n))
    (some_sample : samples ≠ []) (values : ∀ s ∈ samples, ∀ y ∈ s, Q y) (labels : List Nat)
    (c : Nat) : ∀ x ∈ memberMean samples labels c, P x := by
  have mean : ∀ rows : List (List α), rows ≠ [] → rows.length ≤ samples.length →
      (∀ s ∈ rows, s ∈ samples) → ∀ x ∈ rowMean (featureCount samples) rows, P x := by
    intro rows some_row few inside x hx
    obtain ⟨y, hy, rfl⟩ := List.mem_map.1 hx
    refine div _ _ ?_ (List.length_pos_iff.2 some_row) few
    exact forall_mem_rowSum zero add (fun s hs => values s (inside s hs)) y hy
  rcases memberMean_eq samples labels c with ⟨-, eq⟩ | ⟨some_member, eq⟩
  · rw [eq]
    exact mean samples some_sample (Nat.le_refl _) fun s hs => hs
  · rw [eq]
    exact mean _ some_member (length_membersOf_le ..) fun s => mem_of_mem_membersOf

end Means

/-! ## §5. Means in exact arithmetic -/

section Exact

variable {α : Type} [Field α] [LinearOrder α] {n : Nat}

omit [LinearOrder α] in
theorem getD_zipWith_add {a b : List α} (same : a.length = b.length) (t : Nat) :
    (List.zipWith (· + ·) a b).getD t 0 = a.getD t 0 + b.getD t 0 := by
  by_cases ht : t < a.length
  · have ht' : t < b.length := same ▸ ht
    simp [List.getD_eq_getElem?_getD, ht, ht']
  · have ht' : ¬t < b.length := same ▸ ht
    simp [List.getD_eq_getElem?_getD, ht, ht']

/-- A sum of rows is the sum in every place. -/
theorem getD_rowSum {rows : List (List α)} (wide : ∀ r ∈ rows, r.length = n) (t : Nat) :
    (rowSum n rows).getD t 0 = (rows.map fun r => r.getD t 0).sum := by
  -- the sum so far has to be general, since it grows along the rows
  have begun : ∀ acc : List α, acc.length = n →
      (rows.foldl (List.zipWith (· + ·)) acc).getD t 0 =
        acc.getD t 0 + (rows.map fun r => r.getD t 0).sum := by
    induction rows with
    | nil => intro acc _; simp
    | cons r rows ih =>
      intro acc hacc
      obtain ⟨first, rest⟩ := List.forall_mem_cons.1 wide
      have same : acc.length = r.length := by rw [hacc, first]
      have longer : (List.zipWith (· + ·) acc r).length = n := by
        rw [List.length_zipWith, ← same, Nat.min_self, hacc]
      rw [List.foldl_cons, ih rest _ longer, getD_zipWith_add same, List.map_cons, List.sum_cons,
        add_assoc]
  have zero : (List.replicate n (0 : α)).getD t 0 = 0 := by
    rw [List.getD_eq_getElem?_getD, List.getElem?_replicate]
    split <;> rfl
  show (rows.foldl (List.zipWith (· + ·)) (List.replicate n 0)).getD t 0 = _
  rw [begun _ List.length_replicate, zero, zero_add]

theorem getD_rowMean {rows : List (List α)} (wide : ∀ r ∈ rows, r.length = n) (t : Nat) :
    (rowMean n rows).getD t 0 = (rows.map fun r => r.getD t 0).sum / rows.length := by
  have divided : (rowMean n rows).getD t 0 = (rowSum n rows).getD t 0 / rows.length := by
    unfold rowMean
    simp only [List.getD_eq_getElem?_getD, List.getElem?_map]
    cases (rowSum n rows)[t]? <;> simp
  rw [divided, getD_rowSum wide]

/-- **Number of members times mean is their sum**, also for a cluster without members. -/
theorem count_mul_mean [CharZero α] {samples : List (List α)} {labels : List Nat}
    (same : labels.length = samples.length)
    (wide : ∀ s ∈ samples, s.length = featureCount samples) (c t : Nat) :
    (labels.count c : α) * (memberMean samples labels c).getD t 0 =
      ((membersOf samples labels c).map fun s => s.getD t 0).sum := by
  rw [← length_membersOf same c]
  rcases memberMean_eq samples labels c with ⟨none, -⟩ | ⟨some_member, eq⟩
  · simp [none]
  · have number : ((membersOf samples labels c).length : α) ≠ 0 := by
      rw [Nat.cast_ne_zero, Ne, List.length_eq_zero_iff]
      exact some_member
    rw [eq, getD_rowMean fun s hs => wide s (mem_of_mem_membersOf hs), mul_div_cancel₀ _ number]

/-- Over all clusters, number times mean adds up to the sum over the samples. -/
theorem sum_count_mul_mean [CharZero α] {samples : List (List α)} {labels : List Nat} {k : Nat}
    (same : labels.length = samples.length) (bound : ∀ l ∈ labels, l < k)
    (wide : ∀ s ∈ samples, s.length = featureCount samples) (t : Nat) :
    ∑ c ∈ range k, (labels.count c : α) * (memberMean samples labels c).getD t 0 =
      (samples.map fun s => s.getD t 0).sum := by
  rw [← sum_membersOf (fun s => s.getD t 0) same bound]
  exact sum_congr rfl fun c _ => count_mul_mean same wide c t

end Exact

end PlantEconomics
