import PlantEconomics.Clustering.KMeans
import PlantEconomics.Proofs.Outcome

/-!
# What k-means gives

Whatever the labeller answers, a partition that comes out of k-means is the one that some labels
make of the samples: one label for each sample, each of them the number of a cluster. So its
centres, its labels and its counts belong together, however many runs there were and whichever of
them was kept.
-/

namespace PlantEconomics

variable {α : Type} [Scalar α]

/-! ## §1. Samples -/

/-- What samples have to be like. -/
structure Clusterable (samples : List (List α)) (k : Nat) : Prop where
  some_cluster : 0 < k
  enough : k ≤ samples.length
  some_feature : 0 < featureCount samples
  wide : ∀ s ∈ samples, s.length = featureCount samples
  finite : ∀ s ∈ samples, ∀ x ∈ s, Scalar.isFinite x = true

theorem Clusterable.ne_nil {samples : List (List α)} {k : Nat} (h : Clusterable samples k) :
    samples ≠ [] := by
  rintro rfl
  exact absurd (Nat.lt_of_lt_of_le h.some_cluster h.enough) (Nat.lt_irrefl 0)

theorem Clusterable.one {samples : List (List α)} {k : Nat} (h : Clusterable samples k) :
    Clusterable samples 1 :=
  { h with some_cluster := Nat.one_pos, enough := List.length_pos_iff.2 h.ne_nil }

theorem samplesFault?_eq_none_iff {samples : List (List α)} {k : Nat} :
    samplesFault? samples k = none ↔ Clusterable samples k := by
  unfold samplesFault?
  constructor
  · intro h
    split_ifs at h with zero empty few bare ragged infinite
    refine ⟨Nat.pos_of_ne_zero zero, Nat.not_lt.1 few, Nat.pos_of_ne_zero bare, ?_, ?_⟩
    · simpa using ragged
    · simpa using infinite
  · intro h
    have some_cluster := Nat.ne_of_gt h.some_cluster
    have some_sample : ¬samples.isEmpty = true := mt List.isEmpty_iff.1 h.ne_nil
    have some_feature := Nat.ne_of_gt h.some_feature
    rw [if_neg some_cluster, if_neg some_sample, if_neg (Nat.not_lt.2 h.enough),
      if_neg some_feature, if_neg (by simpa using h.wide), if_neg (by simpa using h.finite)]

/-! ## §2. Labels -/

/-- Whether labels name a cluster for each sample. -/
structure Labels (samples : List (List α)) (k : Nat) (labels : List Nat) : Prop where
  length : labels.length = samples.length
  bound : ∀ l ∈ labels, l < k

omit [Scalar α] in
/-- In a single cluster every sample has label zero. -/
theorem labels_zeros (samples : List (List α)) : Labels samples 1 (samples.map fun _ => 0) where
  length := List.length_map _
  bound l hl := by
    obtain ⟨_, -, rfl⟩ := List.mem_map.1 hl
    exact Nat.one_pos

/-- Whether a partition is what some labels make of the samples. -/
def Partition.IsLabelled (samples : List (List α)) (k : Nat) (p : Partition α) : Prop :=
  ∃ labels, Labels samples k labels ∧ Partition.ofLabels samples labels k = p

/-! ## §3. Draws -/

namespace Random.SeedStream

/-- The next `n` numbers of a stream. -/
def draws (s : SeedStream) : Nat → List UInt64
  | 0 => []
  | n + 1 => s.next.1 :: s.next.2.draws n

/-- The stream behind its next `n` numbers. -/
def advance (s : SeedStream) : Nat → SeedStream
  | 0 => s
  | n + 1 => s.next.2.advance n

end Random.SeedStream

/-! ## §4. Runs -/

namespace KMeans

variable {σ : Type}

theorem runOnce_eq_ok_iff {label : Labeller α} {rounds : Nat} {samples : List (List α)} {k : Nat}
    {seed : UInt64} {p : Partition α} :
    runOnce label rounds samples k seed = .ok p ↔
      ∃ labels, label samples k rounds seed = .ok labels ∧ Labels samples k labels ∧
        Partition.ofLabels samples labels k = p := by
  unfold runOnce
  rw [bind_eq_ok_iff]
  refine exists_congr fun labels => and_congr_right fun _ => ?_
  by_cases named : Labels samples k labels
  · have accepted : ¬(labels.length != samples.length || labels.any fun l => k ≤ l) = true := by
      simpa using And.intro named.length named.bound
    rw [if_neg accepted, pure_eq_ok_iff, and_iff_right named]
  · have refused : (labels.length != samples.length || labels.any fun l => k ≤ l) = true := by
      by_contra accepted
      have accepted : labels.length = samples.length ∧ ∀ l ∈ labels, l < k := by
        simpa using accepted
      exact named ⟨accepted.1, accepted.2⟩
    rw [if_pos refused]
    simp [named]

theorem isLabelled_of_runOnce_eq_ok {label : Labeller α} {rounds : Nat}
    {samples : List (List α)} {k : Nat} {seed : UInt64} {p : Partition α}
    (h : runOnce label rounds samples k seed = .ok p) : p.IsLabelled samples k := by
  obtain ⟨labels, -, named, made⟩ := runOnce_eq_ok_iff.1 h
  exact ⟨labels, named, made⟩

omit [Scalar α] in
theorem yields_drawSeed_iff {stream : Random.SeedStream} {own : σ} {seed : UInt64}
    {s' : Random.SeedStream × σ} :
    Yields (drawSeed (α := α)) (stream, own) seed s' ↔
      stream.next.1 = seed ∧ (stream.next.2, own) = s' := by
  show ((.ok stream.next.1, (stream.next.2, own)) : Except (Fault α) UInt64 × _) = (.ok seed, s') ↔
    _
  simp

/-- The best of several runs comes from all of them, made with successive draws. -/
theorem yields_bestOf_iff {run : UInt64 → Except (Fault α) (Partition α)} {best p : Partition α}
    {n : Nat} {stream : Random.SeedStream} {own : σ} {s' : Random.SeedStream × σ} :
    Yields (bestOf run best n) (stream, own) p s' ↔
      ∃ ps, List.Forall₂ (fun seed q => run seed = .ok q) (stream.draws n) ps ∧
        ps.foldl better best = p ∧ (stream.advance n, own) = s' := by
  -- on the runs left, for whichever partition is the best so far
  induction n generalizing best stream with
  | zero =>
    unfold bestOf Random.SeedStream.draws Random.SeedStream.advance
    simp [yields_pure_iff]
  | succ n ih =>
    unfold bestOf Random.SeedStream.draws Random.SeedStream.advance
    simp only [yields_bind_iff, List.forall₂_cons_left_iff, yields_drawSeed_iff, yields_lift_iff]
    constructor
    · rintro ⟨_, _, ⟨rfl, rfl⟩, q, _, ⟨made, rfl⟩, rest⟩
      obtain ⟨ps, all, best, left⟩ := ih.1 rest
      exact ⟨q :: ps, ⟨q, ps, made, all, rfl⟩, best, left⟩
    · rintro ⟨_, ⟨q, ps, made, all, rfl⟩, best, left⟩
      exact ⟨_, _, ⟨rfl, rfl⟩, q, _, ⟨made, rfl⟩, ih.2 ⟨ps, all, best, left⟩⟩

/-- The better of two partitions is one of them. -/
theorem better_eq (earlier later : Partition α) :
    better earlier later = earlier ∨ better earlier later = later := by
  unfold better
  split
  · exact .inr rfl
  · exact .inl rfl

/-- So the best of several partitions is one of them. -/
theorem foldl_better_mem (best : Partition α) (ps : List (Partition α)) :
    ps.foldl better best ∈ best :: ps := by
  induction ps generalizing best with
  | nil => exact List.mem_cons_self
  | cons p ps ih =>
    rw [List.foldl_cons]
    rcases List.mem_cons.1 (ih (better best p)) with kept | later
    · rw [kept]
      rcases better_eq best p with same | same
      · rw [same]
        exact List.mem_cons_self
      · rw [same]
        exact List.mem_cons_of_mem _ List.mem_cons_self
    · exact List.mem_cons_of_mem _ (List.mem_cons_of_mem _ later)

/-! ## §5. k-means -/

section Fit

variable {label : Labeller α} {settings : KMeans} {samples : List (List α)} {k : Nat}

/-- Samples that cannot be split are refused. -/
theorem fit_of_fault {fault : Fault α} (h : samplesFault? samples k = some fault) :
    (fit label settings samples k : ExceptT _ (StateM (Random.SeedStream × σ)) _) =
      throw fault := by
  unfold fit
  simp only [h]
  rfl

/-- A single cluster needs neither a labeller nor a seed. -/
theorem fit_one (clusterable : Clusterable samples 1) :
    (fit label settings samples 1 : ExceptT _ (StateM (Random.SeedStream × σ)) _) =
      pure (Partition.ofLabels samples (samples.map fun _ => 0) 1) := by
  unfold fit
  simp only [samplesFault?_eq_none_iff.2 clusterable]
  rfl

/-- Several clusters are made by the first run and the further ones. -/
theorem fit_several (clusterable : Clusterable samples k) (several : k ≠ 1) :
    (fit label settings samples k : ExceptT _ (StateM (Random.SeedStream × σ)) _) =
      (do
        let seed ← drawSeed
        let first ← runOnce label settings.rounds samples k seed
        bestOf (runOnce label settings.rounds samples k) first (settings.restarts - 1)) := by
  unfold fit
  simp only [samplesFault?_eq_none_iff.2 clusterable, if_neg several]

/-- There is always a first run. -/
theorem draws_max_one (stream : Random.SeedStream) (n : Nat) :
    stream.draws (max n 1) = stream.next.1 :: stream.next.2.draws (n - 1) ∧
      stream.advance (max n 1) = stream.next.2.advance (n - 1) := by
  have first : max n 1 = n - 1 + 1 := by omega
  rw [first]
  exact ⟨rfl, rfl⟩

/-- Several clusters come from as many runs as the settings ask for, and at least one. -/
theorem yields_fit_several_iff (clusterable : Clusterable samples k) (several : k ≠ 1)
    {stream : Random.SeedStream} {own : σ} {p : Partition α} {s' : Random.SeedStream × σ} :
    Yields (fit label settings samples k) (stream, own) p s' ↔
      ∃ first rest, List.Forall₂
          (fun seed q => runOnce label settings.rounds samples k seed = .ok q)
          (stream.draws (max settings.restarts 1)) (first :: rest) ∧
        rest.foldl better first = p ∧ (stream.advance (max settings.restarts 1), own) = s' := by
  obtain ⟨seeds, left⟩ := draws_max_one stream settings.restarts
  rw [fit_several clusterable several, seeds, left]
  simp only [yields_bind_iff, yields_drawSeed_iff, yields_lift_iff, List.forall₂_cons]
  constructor
  · rintro ⟨_, _, ⟨rfl, rfl⟩, first, _, ⟨made, rfl⟩, further⟩
    obtain ⟨rest, all, best, after⟩ := yields_bestOf_iff.1 further
    exact ⟨first, rest, ⟨made, all⟩, best, after⟩
  · rintro ⟨first, rest, ⟨made, all⟩, best, after⟩
    exact ⟨_, _, ⟨rfl, rfl⟩, first, _, ⟨made, rfl⟩, yields_bestOf_iff.2 ⟨rest, all, best, after⟩⟩

/-- **What k-means gives is a labelling of the samples with its means.** -/
theorem of_yields_fit {s s' : Random.SeedStream × σ} {p : Partition α}
    (h : Yields (fit label settings samples k) s p s') :
    Clusterable samples k ∧ p.IsLabelled samples k := by
  cases hfault : samplesFault? samples k with
  | some fault =>
    rw [fit_of_fault hfault] at h
    exact absurd h not_yields_throw
  | none =>
    have clusterable := samplesFault?_eq_none_iff.1 hfault
    refine ⟨clusterable, ?_⟩
    by_cases one : k = 1
    · subst one
      rw [fit_one clusterable] at h
      obtain ⟨rfl, -⟩ := yields_pure_iff.1 h
      exact ⟨_, labels_zeros samples, rfl⟩
    · obtain ⟨first, rest, runs, rfl, -⟩ := (yields_fit_several_iff clusterable one).1 h
      rw [← mapM_eq_ok_iff] at runs
      obtain ⟨seed, -, made⟩ := exists_mem_of_mem_mapM_eq_ok runs (foldl_better_mem first rest)
      exact isLabelled_of_runOnce_eq_ok made

/-- Conversely, a single run gives the partition that any fitting labels make. -/
theorem yields_fit_of_labels {rounds : Nat} {labels : List Nat} {stream : Random.SeedStream}
    {own : σ} (clusterable : Clusterable samples k) (several : k ≠ 1)
    (answer : label samples k rounds stream.next.1 = .ok labels)
    (named : Labels samples k labels) :
    Yields (fit label ⟨1, rounds⟩ samples k) (stream, own) (Partition.ofLabels samples labels k)
      (stream.next.2, own) := by
  have made : runOnce label rounds samples k stream.next.1 =
      .ok (Partition.ofLabels samples labels k) := runOnce_eq_ok_iff.2 ⟨labels, answer, named, rfl⟩
  exact (yields_fit_several_iff clusterable several).2
    ⟨_, [], .cons made .nil, rfl, rfl⟩

end Fit

end KMeans

end PlantEconomics
