import PlantEconomics.Proofs.Clustering.Means

/-!
# Means in one pass

The means of the members can be found in one pass over the samples. Every cluster has a sum and a
count, and each sample is added to those of its label, and to the sum of the whole, value by value.
In the end the sums are divided by the counts, and a cluster that nothing was counted in takes the
mean of the whole.

Each cluster gets the values of its members in the order of the samples, just as they are added when
the members are looked up cluster by cluster. So nothing is reordered, and the means are the same
also where sums are rounded.

  * `addInPlaces_eq_zipWith`: value by value is row by row;
  * `Gathering.add_eq`, `Gathering.foldl_add`: one sample, and all of them;
  * `Gathering.sums_ofSamples`, `Gathering.counts_ofSamples`: what each cluster gets;
  * `Gathering.means_ofSamples`: the means.
-/

namespace PlantEconomics

variable {α : Type} [Scalar α]

/-! ## §1. The pass -/

/-- Add the values of a sample to a row, each in its place. -/
def addInPlaces (row sample : List α) : List α :=
  sample.zipIdx.foldl (fun row v => row.modify v.2 (· + v.1)) row

/-- The sums and the counts of the clusters, and the sum of the whole. -/
structure Gathering (α : Type) where
  sums : List (List α)
  counts : List Nat
  whole : List α

namespace Gathering

/-- Nothing gathered of samples of `n` features in `k` clusters. -/
def start (n k : Nat) : Gathering α :=
  ⟨List.replicate k (List.replicate n 0), List.replicate k 0, List.replicate n 0⟩

/-- Add a value in its place to the sum of a cluster and to that of the whole. -/
def addValue (l : Nat) (g : Gathering α) (v : α × Nat) : Gathering α :=
  { g with
    sums := g.sums.modify l fun row => row.modify v.2 (· + v.1)
    whole := g.whole.modify v.2 (· + v.1) }

/-- Count a sample and add its values. -/
def add (g : Gathering α) (p : List α × Nat) : Gathering α :=
  p.1.zipIdx.foldl (addValue p.2) { g with counts := g.counts.modify p.2 (· + 1) }

/-- One pass over samples with their labels. -/
def ofSamples (samples : List (List α)) (labels : List Nat) (k : Nat) : Gathering α :=
  (samples.zip labels).foldl add (start (featureCount samples) k)

/-- The sums by the counts, or the mean of the whole, which is of `n` samples. -/
def means (g : Gathering α) (n : Nat) : List (List α) :=
  let whole := g.whole.map (· / Scalar.ofNat n)
  List.zipWith (fun sum count =>
    if count = 0 then whole else sum.map (· / Scalar.ofNat count)) g.sums g.counts

end Gathering

/-! ## §2. One sample -/

section Rows

theorem foldl_modify_succ (a : α) (row : List α) (values : List α) (i : Nat) :
    (values.zipIdx (i + 1)).foldl (fun row v => row.modify v.2 (· + v.1)) (a :: row) =
      a :: (values.zipIdx i).foldl (fun row v => row.modify v.2 (· + v.1)) row := by
  induction values generalizing i row with
  | nil => rfl
  | cons v values ih =>
    rw [List.zipIdx_cons, List.foldl_cons, List.modify_succ_cons, ih, List.zipIdx_cons,
      List.foldl_cons]

/-- Adding value by value is adding row by row. -/
theorem addInPlaces_eq_zipWith {row sample : List α} (same : row.length = sample.length) :
    addInPlaces row sample = List.zipWith (· + ·) row sample := by
  induction sample generalizing row with
  | nil =>
    obtain rfl := List.length_eq_zero_iff.1 same
    rfl
  | cons v sample ih =>
    cases row with
    | nil => exact absurd same (by simp)
    | cons a row =>
      rw [List.zipWith_cons_cons, ← ih (Nat.succ.inj same)]
      exact foldl_modify_succ (a + v) row sample 0

/-- Adding rows value by value gives their sum. -/
theorem foldl_addInPlaces {n : Nat} {rows : List (List α)} (wide : ∀ r ∈ rows, r.length = n) :
    rows.foldl addInPlaces (List.replicate n 0) = rowSum n rows := by
  -- the sum so far has to be general, since it grows along the rows
  have begun : ∀ acc : List α, acc.length = n →
      rows.foldl addInPlaces acc = rows.foldl (List.zipWith (· + ·)) acc := by
    induction rows with
    | nil => exact fun _ _ => rfl
    | cons r rows ih =>
      intro acc fits
      obtain ⟨first, rest⟩ := List.forall_mem_cons.1 wide
      have same : acc.length = r.length := fits.trans first.symm
      have longer : (List.zipWith (· + ·) acc r).length = n := by
        rw [List.length_zipWith, ← same, Nat.min_self, fits]
      rw [List.foldl_cons, List.foldl_cons, addInPlaces_eq_zipWith same]
      exact ih rest _ longer
  exact begun _ List.length_replicate

end Rows

namespace Gathering

theorem foldl_addValue (l : Nat) (values : List (α × Nat)) (g : Gathering α) :
    values.foldl (addValue l) g =
      { g with
        sums := g.sums.modify l fun row => values.foldl (fun row v => row.modify v.2 (· + v.1)) row
        whole := values.foldl (fun row v => row.modify v.2 (· + v.1)) g.whole } := by
  induction values generalizing g with
  | nil =>
    show g = { g with sums := g.sums.modify l id }
    rw [List.modify_id]
  | cons v values ih =>
    rw [List.foldl_cons, ih]
    simp only [addValue, List.modify_modify_eq]
    rfl

/-- **One sample** is added to the sum and the count of its label and to the whole. -/
theorem add_eq (g : Gathering α) (p : List α × Nat) :
    g.add p =
      { sums := g.sums.modify p.2 (addInPlaces · p.1)
        counts := g.counts.modify p.2 (· + 1)
        whole := addInPlaces g.whole p.1 } :=
  foldl_addValue ..

/-! ## §3. All samples -/

/-- The samples of a label among samples with their labels. -/
def labelled (pairs : List (List α × Nat)) (c : Nat) : List (List α) :=
  (pairs.filter fun p => p.2 == c).map (·.1)

omit [Scalar α] in
theorem labelled_cons (p : List α × Nat) (pairs : List (List α × Nat)) (c : Nat) :
    labelled (p :: pairs) c = if p.2 = c then p.1 :: labelled pairs c else labelled pairs c := by
  unfold labelled
  rw [List.filter_cons]
  by_cases own : p.2 = c
  · simp [own]
  · simp [own]

omit [Scalar α] in
/-- Where each sample changes the entry of its label, an entry is changed by its own samples, in
their order. -/
theorem getElem?_foldl_modify {β : Type} (f : β → List α → β) (pairs : List (List α × Nat))
    (entries : List β) (c : Nat) :
    (pairs.foldl (fun entries p => entries.modify p.2 (f · p.1)) entries)[c]? =
      entries[c]?.map fun b => (labelled pairs c).foldl f b := by
  induction pairs generalizing entries with
  | nil => simp [labelled]
  | cons p pairs ih =>
    rw [List.foldl_cons, ih, labelled_cons, List.getElem?_modify]
    by_cases own : p.2 = c
    · simp [own, Function.comp_def]
    · simp [own]

/-- **All samples** are added one after the other, each to its own. -/
theorem foldl_add (pairs : List (List α × Nat)) (g : Gathering α) :
    pairs.foldl add g =
      { sums := pairs.foldl (fun sums p => sums.modify p.2 (addInPlaces · p.1)) g.sums
        counts := pairs.foldl (fun counts p => counts.modify p.2 (· + 1)) g.counts
        whole := (pairs.map (·.1)).foldl addInPlaces g.whole } := by
  induction pairs generalizing g with
  | nil => rfl
  | cons p pairs ih =>
    rw [List.foldl_cons, ih, add_eq]
    rfl

section Samples

variable {samples : List (List α)} {labels : List Nat} {k : Nat}
  (wide : ∀ s ∈ samples, s.length = featureCount samples)

include wide

theorem sums_ofSamples : (ofSamples samples labels k).sums =
    (List.range k).map fun c => rowSum (featureCount samples) (membersOf samples labels c) := by
  refine List.ext_getElem? fun c => ?_
  have members : labelled (samples.zip labels) c = membersOf samples labels c := rfl
  have fit : ∀ s ∈ membersOf samples labels c, s.length = featureCount samples :=
    fun s hs => wide s (mem_of_mem_membersOf hs)
  rw [ofSamples, foldl_add, getElem?_foldl_modify, members, start, List.getElem?_replicate,
    List.getElem?_map]
  by_cases hc : c < k
  · simp [hc, foldl_addInPlaces fit]
  · simp [hc]

omit wide in
theorem counts_ofSamples : (ofSamples samples labels k).counts =
    (List.range k).map fun c => (membersOf samples labels c).length := by
  refine List.ext_getElem? fun c => ?_
  have members : labelled (samples.zip labels) c = membersOf samples labels c := rfl
  rw [ofSamples, foldl_add, getElem?_foldl_modify (fun count _ => count + 1), members, start,
    List.getElem?_replicate, List.getElem?_map]
  by_cases hc : c < k
  · simp [hc, List.foldl_const]
  · simp [hc]

theorem whole_ofSamples (same : labels.length = samples.length) :
    (ofSamples samples labels k).whole = rowSum (featureCount samples) samples := by
  rw [ofSamples, foldl_add, List.map_fst_zip (Nat.le_of_eq same.symm)]
  exact foldl_addInPlaces wide

/-- **One pass finds the means of the members**, for samples of one length and as many labels. -/
theorem means_ofSamples (same : labels.length = samples.length) :
    (ofSamples samples labels k).means samples.length = memberMeans samples labels k := by
  unfold means
  rw [sums_ofSamples wide, counts_ofSamples, whole_ofSamples wide same, memberMeans_eq_map,
    List.zipWith_map, List.zipWith_self]
  refine List.map_congr_left fun c _ => ?_
  unfold memberMean
  cases membersOf samples labels c with
  | nil => rfl
  | cons s members => rfl

end Samples

end Gathering

end PlantEconomics
