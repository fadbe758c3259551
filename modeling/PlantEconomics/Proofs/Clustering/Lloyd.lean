import PlantEconomics.Clustering.Lloyd
import PlantEconomics.Proofs.Clustering.KMeans

/-!
# The labels of k-means

The labeller of k-means always answers, with a label below the number of clusters for each sample.
A label is the place of a centre, and no round changes how many centres there are. So k-means gives
a partition of all samples that can be split into so many clusters.
-/

namespace PlantEconomics

namespace Lloyd

/-! ## §1. Centres -/

theorem size_firstCenters (rows : List Point) (labels : List Nat) (k n : Nat) :
    (firstCenters rows labels k n).size = k := by
  simp [firstCenters]

/-- A round moves centres, and neither takes one away nor adds one. -/
theorem size_rounds (tree : BoxTree) (n left : Nat) (previous : Float) (centers : Array Point) :
    (rounds tree n left previous centers).size = centers.size := by
  induction left generalizing previous centers with
  | zero => rfl
  | succ left ih =>
    have moved_size : (moved centers (tree.assign centers n)).size = centers.size := by
      simp [moved]
    unfold rounds
    show (if _ then _ else _ : Array Point).size = _
    split
    · exact moved_size
    · rw [ih, moved_size]

/-! ## §2. Labels -/

/-- The nearest of some centres is one of them, or the best one before them. -/
theorem nearestLabel_lt {row : Point} {k : Nat} {best : Nat × Float} {c : Nat}
    {centers : List Point} (begun : best.1 < k) (rest : c + centers.length ≤ k) :
    nearestLabel row best c centers < k := by
  induction centers generalizing best c with
  | nil => exact begun
  | cons p centers ih =>
    rw [List.length_cons] at rest
    unfold nearestLabel
    refine ih ?_ (by omega)
    split
    · show c < k
      omega
    · exact begun

/-- The labeller answers with a cluster for each sample. -/
theorem labels_labels {samples : List Point} {k : Nat} (some_cluster : 0 < k) (maxRounds : Nat)
    (seed : UInt64) : Labels samples k (labels samples k maxRounds seed) where
  length := by simp [labels]
  bound l hl := by
    obtain ⟨row, -, rfl⟩ := List.mem_map.1 hl
    refine nearestLabel_lt some_cluster (Nat.le_of_eq ?_)
    rw [Nat.zero_add, Array.length_toList, size_rounds, size_firstCenters]

end Lloyd

/-! ## §3. k-means -/

namespace KMeans

variable {α σ : Type} [Scalar α]

/-- With a labeller that always answers, samples that can be split are split. -/
theorem exists_yields_fit {label : Labeller α} {settings : KMeans} {samples : List (List α)}
    {k : Nat} (clusterable : Clusterable samples k)
    (answers : ∀ seed, ∃ labels, label samples k settings.rounds seed = .ok labels ∧
      Labels samples k labels) (s : Random.SeedStream × σ) :
    ∃ p s', Yields (fit label settings samples k) s p s' := by
  by_cases one : k = 1
  · subst one
    rw [fit_one clusterable]
    exact ⟨_, s, yields_pure_iff.2 ⟨rfl, rfl⟩⟩
  · obtain ⟨stream, own⟩ := s
    have each : ∀ seed, ∃ p, runOnce label settings.rounds samples k seed = .ok p := by
      intro seed
      obtain ⟨labels, answer, named⟩ := answers seed
      exact ⟨_, runOnce_eq_ok_iff.2 ⟨labels, answer, named, rfl⟩⟩
    obtain ⟨first, made⟩ := each stream.next.1
    obtain ⟨rest, all⟩ : ∃ rest, (stream.next.2.draws (settings.restarts - 1)).mapM
        (runOnce label settings.rounds samples k) = .ok rest :=
      exists_mapM_eq_ok fun seed _ => each seed
    refine ⟨_, _, (yields_fit_several_iff clusterable one).2 ⟨first, rest, ?_, rfl, rfl⟩⟩
    rw [(draws_max_one stream settings.restarts).1]
    exact .cons made (mapM_eq_ok_iff.1 all)

/-- **k-means with its own labeller gives a partition exactly when the samples can be split.** -/
theorem exists_yields_clusterer_iff {settings : KMeans} {samples : List (List Float)} {k : Nat}
    (s : Random.SeedStream × σ) :
    (∃ p s', Yields (clusterer settings samples k) s p s') ↔ Clusterable samples k := by
  constructor
  · rintro ⟨p, s', h⟩
    exact (of_yields_fit h).1
  · intro clusterable
    exact exists_yields_fit clusterable (fun seed =>
      ⟨_, rfl, Lloyd.labels_labels clusterable.some_cluster settings.rounds seed⟩) s

end KMeans

end PlantEconomics
