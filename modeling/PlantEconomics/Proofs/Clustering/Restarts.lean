import PlantEconomics.Proofs.Clustering.KMeans
import PlantEconomics.Proofs.Clustering.Means
import PlantEconomics.Proofs.Machine

/-!
# Which run k-means keeps

k-means makes its runs one after the other, each with the next seed of the stream, and a run that
fails ends it. Of the runs made it keeps the first of least inertia: while it goes along, the best
run so far has less inertia than every run before it and no more than any run since. That a later
run replaces the best one only if its inertia is smaller, and that comparing inertias is comparing
them in an order, is all that this needs. The elements of an ordered field compare in an order, and
so do machine numbers as long as they are numbers. Inertias of finite samples always are: a mean may
be infinite, but it is a number, and so is a sum of squares.

  * `Machine.comparesOn_isNumber`, `KMeans.isNumber_of_runOnce`: machine inertias compare in an order;
  * `FirstLeast` says which run is kept, and `firstLeast_foldl` that it is;
  * `Partition.Splits` says what a partition has to be like, and every labelling is;
  * `FirstFault` says which fault ends the runs, and `fails_fit_several_iff` that it does;
  * `KMeans.fit_keeps_first_least` puts it together.
-/

namespace PlantEconomics

/-! ## §1. Comparing -/

/-- Whether the values with a property compare in an order: no two are below each other, and where
one is below another, every third is above the one or below the other. -/
structure Scalar.ComparesOn {α : Type} [Scalar α] (P : α → Prop) : Prop where
  asymm : ∀ x y, P x → P y → x < y → ¬y < x
  cut : ∀ x y z, P x → P y → P z → x < y → x < z ∨ z < y

/-- The elements of an ordered field do. -/
theorem Scalar.comparesOn_field {α : Type} [Field α] [LinearOrder α] :
    Scalar.ComparesOn fun _ : α => True where
  asymm _ _ _ _ := lt_asymm
  cut x y z _ _ _ below := by
    rcases lt_or_ge x z with h | h
    · exact .inl h
    · exact .inr (lt_of_le_of_lt h below)

/-- Machine numbers do, as long as they are numbers. -/
theorem Machine.comparesOn_isNumber : Scalar.ComparesOn Machine.IsNumber where
  asymm x y hx hy below := by
    rw [Machine.lt_iff hy hx]
    exact lt_asymm ((Machine.lt_iff hx hy).1 below)
  cut x y z hx hy hz below := by
    rw [Machine.lt_iff hx hz, Machine.lt_iff hz hy]
    rcases lt_or_ge (Machine.place (Machine.kind x)) (Machine.place (Machine.kind z)) with h | h
    · exact .inl h
    · exact .inr (lt_of_le_of_lt h ((Machine.lt_iff hx hy).1 below))

/-! ## §2. Inertias of machine numbers -/

namespace Machine

theorem isNonneg_total {xs : List Float} (h : ∀ x ∈ xs, IsNonneg x) : IsNonneg (Scalar.total xs) :=
  List.foldlRecOn xs _ isNonneg_zero fun _ hacc x hx => hacc.add (h x hx)

theorem isNonneg_squaredDistance {a b : List Float} (finite : ∀ x ∈ a, Scalar.isFinite x = true)
    (numbers : ∀ y ∈ b, IsNumber y) : IsNonneg (Scalar.squaredDistance a b) := by
  refine isNonneg_total fun z hz => ?_
  obtain ⟨i, hi, rfl⟩ := List.mem_iff_getElem.1 hz
  rw [List.getElem_zipWith]
  exact (isNumber_sub (finite _ (List.getElem_mem _)) (numbers _ (List.getElem_mem _))).mul_self

theorem isNonneg_inertiaOf {samples centroids : List (List Float)} {labels : List Nat}
    (finite : ∀ s ∈ samples, ∀ x ∈ s, Scalar.isFinite x = true)
    (numbers : ∀ c ∈ centroids, ∀ y ∈ c, IsNumber y) :
    IsNonneg (inertiaOf samples centroids labels) := by
  refine isNonneg_total fun z hz => ?_
  obtain ⟨p, hp, distance⟩ := List.mem_filterMap.1 hz
  obtain ⟨c, hc, rfl⟩ := Option.map_eq_some_iff.1 distance
  exact isNonneg_squaredDistance (finite _ (List.of_mem_zip hp).1)
    (numbers _ (List.mem_of_getElem? hc))

/-- Finite samples have means that are numbers, so every labelling of them has an inertia that is
one. -/
theorem isNumber_inertia_ofLabels {samples : List (List Float)} {k : Nat}
    (clusterable : Clusterable samples k) (fits : samples.length < 2 ^ 64) (labels : List Nat) :
    IsNumber (Partition.ofLabels samples labels k).inertia := by
  refine (isNonneg_inertiaOf clusterable.finite fun c hc => ?_).number
  obtain ⟨i, -, rfl⟩ := List.mem_map.1 hc
  exact forall_mem_memberMean (isNumber_of_beq_self rfl) (fun _ _ hx hy => hx.add hy)
    (fun _ _ hx some_count few => hx.div_ofNat some_count (Nat.lt_of_le_of_lt few fits))
    clusterable.ne_nil clusterable.finite labels i

end Machine

/-! ## §3. The first of least inertia -/

section Least

variable {α : Type} [Scalar α]

/-- Whether a partition is the first of least inertia: less than every one before it, and no more
than any one behind it. -/
def FirstLeast (ps : List (Partition α)) (p : Partition α) : Prop :=
  ∃ before behind, ps = before ++ p :: behind ∧ (∀ q ∈ before, p.inertia < q.inertia) ∧
    ∀ q ∈ behind, ¬q.inertia < p.inertia

theorem FirstLeast.mem {ps : List (Partition α)} {p : Partition α} (h : FirstLeast ps p) :
    p ∈ ps := by
  obtain ⟨before, behind, rfl, -⟩ := h
  simp

variable {P : α → Prop}

/-- No partition of the list has less inertia. -/
theorem FirstLeast.not_lt (order : Scalar.ComparesOn P) {ps : List (Partition α)}
    (numbers : ∀ q ∈ ps, P q.inertia) {p : Partition α} (h : FirstLeast ps p) :
    ∀ q ∈ ps, ¬q.inertia < p.inertia := by
  intro q hq
  have number := numbers p h.mem
  have hP := numbers q hq
  obtain ⟨before, behind, rfl, less, most⟩ := h
  rcases List.mem_append.1 hq with hq | hq
  · exact order.asymm _ _ number hP (less q hq)
  · rcases List.mem_cons.1 hq with rfl | hq
    · exact fun below => order.asymm _ _ number number below below
    · exact most q hq

/-- It is the first that no other is below, so a search from the front finds it. -/
theorem FirstLeast.find?_eq (order : Scalar.ComparesOn P) {ps : List (Partition α)}
    (numbers : ∀ q ∈ ps, P q.inertia) {p : Partition α} (h : FirstLeast ps p) :
    ps.find? (fun q => ∀ r ∈ ps, ¬r.inertia < q.inertia) = some p := by
  have least := h.not_lt order numbers
  have mem := h.mem
  obtain ⟨before, behind, split, less, -⟩ := h
  refine List.find?_eq_some_iff_append.2 ⟨decide_eq_true least, before, behind, split, ?_⟩
  intro q hq
  have above : ¬∀ r ∈ ps, ¬r.inertia < q.inertia := fun all => all p mem (less q hq)
  rw [decide_eq_false above]
  rfl

/-- There is only one such partition. -/
theorem FirstLeast.unique (order : Scalar.ComparesOn P) {ps : List (Partition α)}
    (numbers : ∀ q ∈ ps, P q.inertia) {p p' : Partition α} (h : FirstLeast ps p)
    (h' : FirstLeast ps p') : p = p' :=
  Option.some.inj ((h.find?_eq order numbers).symm.trans (h'.find?_eq order numbers))

/-- One more run: the better of it and the best one so far is the best one from then on. -/
theorem FirstLeast.better (order : Scalar.ComparesOn P) {ps : List (Partition α)}
    (numbers : ∀ q ∈ ps, P q.inertia) {best p : Partition α} (number : P p.inertia)
    (h : FirstLeast ps best) : FirstLeast (ps ++ [p]) (KMeans.better best p) := by
  have hP := numbers best h.mem
  unfold KMeans.better
  by_cases smaller : p.inertia < best.inertia
  · rw [if_pos smaller]
    refine ⟨ps, [], rfl, fun q hq => ?_, by simp⟩
    -- no partition is below the best one so far, which is above the new one
    rcases order.cut _ _ _ number hP (numbers q hq) smaller with less | less
    · exact less
    · exact absurd less (h.not_lt order numbers q hq)
  · rw [if_neg smaller]
    obtain ⟨before, behind, rfl, less, most⟩ := h
    refine ⟨before, behind ++ [p], by simp, less, fun q hq => ?_⟩
    rcases List.mem_append.1 hq with hq | hq
    · exact most q hq
    · rw [List.mem_singleton.1 hq]
      exact smaller

/-- So going along all runs keeps the first of least inertia. -/
theorem firstLeast_foldl (order : Scalar.ComparesOn P) {done rest : List (Partition α)}
    (numbers : ∀ q ∈ done ++ rest, P q.inertia) {best : Partition α} (h : FirstLeast done best) :
    FirstLeast (done ++ rest) (rest.foldl KMeans.better best) := by
  -- on the runs left; those that are done grow by the one that is compared
  induction rest generalizing done best with
  | nil =>
    rw [List.append_nil]
    exact h
  | cons p rest ih =>
    have grown : done ++ p :: rest = (done ++ [p]) ++ rest := by simp
    have numbers_done : ∀ q ∈ done, P q.inertia := fun q hq => numbers q (List.mem_append_left _ hq)
    rw [grown] at numbers ⊢
    exact ih numbers (h.better order numbers_done (numbers p (by simp)))

end Least

/-! ## §4. What a partition is like -/

section Splits

variable {α : Type} [Scalar α]

/-- Whether a partition splits samples into `k` clusters: centres of their width, a label for each
sample, and centres and inertia as the labels make them. The counts add up to the number of samples
as words do, and as numbers where a word holds it. -/
structure Partition.Splits (p : Partition α) (samples : List (List α)) (k : Nat) : Prop where
  size : p.centroids.length = k
  wide : ∀ c ∈ p.centroids, c.length = featureCount samples
  named : Labels samples k p.labels
  word : p.counts.sum = UInt32.ofNat samples.length
  counts : samples.length < 2 ^ 32 → (p.counts.map (·.toNat)).sum = samples.length
  means : p.centroids = memberMeans samples p.labels k
  inertia : p.inertia = inertiaOf samples p.centroids p.labels

theorem Partition.IsLabelled.splits {samples : List (List α)} {k : Nat} {p : Partition α}
    (clusterable : Clusterable samples k) (h : p.IsLabelled samples k) : p.Splits samples k := by
  obtain ⟨labels, named, rfl⟩ := h
  have size : (Partition.ofLabels samples labels k).size = k := length_memberMeans ..
  have clusters : ∀ l ∈ labels, l < (Partition.ofLabels samples labels k).size := by
    rw [size]
    exact named.bound
  refine ⟨size, fun c hc => ?_, named, ?_, fun few => ?_, rfl, rfl⟩
  · obtain ⟨i, -, rfl⟩ := List.mem_map.1 (show c ∈ (List.range k).map (memberMean samples labels)
      from hc)
    exact length_memberMean clusterable.wide labels i
  · rw [← named.length]
    exact sum_counts clusters
  · rw [← named.length] at few ⊢
    rw [map_toNat_counts few]
    exact sum_sizes clusters

end Splits

/-! ## §5. Runs -/

namespace Random.SeedStream

/-- Fewer draws are the first of more draws. -/
theorem draws_of_le (s : SeedStream) {m n : Nat} (h : m ≤ n) : s.draws m <+: s.draws n := by
  induction m generalizing s n with
  | zero => exact List.nil_prefix
  | succ m ih =>
    cases n with
    | zero => omega
    | succ n => exact List.cons_prefix_cons.2 ⟨rfl, ih _ (by omega)⟩

end Random.SeedStream

namespace KMeans

variable {α σ : Type} [Scalar α]

omit [Scalar α] in
theorem not_fails_drawSeed {s s' : Random.SeedStream × σ} {e : Fault α} :
    ¬Fails drawSeed s e s' := by
  show ¬((.ok s.1.next.1, (s.1.next.2, s.2)) : Except (Fault α) UInt64 × _) = (.error e, s')
  simp

/-- Whether the first of the runs with some seeds that fails is the one behind `made` others, with
a fault. -/
def FirstFault (run : UInt64 → Except (Fault α) (Partition α)) (seeds : List UInt64)
    (fault : Fault α) (made : Nat) : Prop :=
  ∃ before seed behind, seeds = before ++ seed :: behind ∧ (∀ x ∈ before, ∃ q, run x = .ok q) ∧
    run seed = .error fault ∧ before.length = made

variable {run : UInt64 → Except (Fault α) (Partition α)} {fault : Fault α} {made : Nat}

omit [Scalar α] in
theorem not_firstFault_nil : ¬FirstFault run [] fault made := by
  rintro ⟨before, seed, behind, none, -⟩
  simp at none

omit [Scalar α] in
/-- Either the first run fails, or it succeeds and one of the others fails. -/
theorem firstFault_cons_iff {seed : UInt64} {seeds : List UInt64} :
    FirstFault run (seed :: seeds) fault made ↔
      (run seed = .error fault ∧ made = 0) ∨
      ∃ q, run seed = .ok q ∧ ∃ others, FirstFault run seeds fault others ∧ made = others + 1 := by
  constructor
  · rintro ⟨before, seed', behind, split, all, failed, rfl⟩
    cases before with
    | nil =>
      obtain ⟨rfl, -⟩ := List.cons.inj split
      exact .inl ⟨failed, rfl⟩
    | cons x before =>
      obtain ⟨rfl, rest⟩ := List.cons.inj split
      obtain ⟨⟨q, first⟩, all⟩ := List.forall_mem_cons.1 all
      exact .inr ⟨q, first, _, ⟨before, seed', behind, rest, all, failed, rfl⟩, rfl⟩
  · rintro (⟨failed, rfl⟩ | ⟨q, first, _, ⟨before, seed', behind, rfl, all, failed, rfl⟩, rfl⟩)
    · exact ⟨[], seed, seeds, rfl, by simp, failed, rfl⟩
    · exact ⟨seed :: before, seed', behind, rfl, List.forall_mem_cons.2 ⟨⟨q, first⟩, all⟩, failed,
        rfl⟩

omit [Scalar α] in
/-- A run followed by others fails with the first fault, and no seed is drawn after it. -/
theorem fails_run_iff {others : Partition α → ExceptT (Fault α) (StateM (Random.SeedStream × σ))
      (Partition α)} {n : Nat} {own : σ} {s' : Random.SeedStream × σ}
    (rest : ∀ q stream, Fails (others q) (stream, own) fault s' ↔
      ∃ made, FirstFault run (stream.draws n) fault made ∧
        (stream.advance (made + 1), own) = s') (stream : Random.SeedStream) :
    Fails (drawSeed >>= fun seed => liftM (run seed) >>= others) (stream, own) fault s' ↔
      ∃ made, FirstFault run (stream.draws (n + 1)) fault made ∧
        (stream.advance (made + 1), own) = s' := by
  unfold Random.SeedStream.draws
  simp only [fails_bind_iff, not_fails_drawSeed, yields_drawSeed_iff, yields_lift_iff,
    fails_lift_iff, false_or, firstFault_cons_iff]
  constructor
  · rintro ⟨_, _, ⟨rfl, rfl⟩, ⟨failed, rfl⟩ | ⟨q, _, ⟨first, rfl⟩, later⟩⟩
    · exact ⟨0, .inl ⟨failed, rfl⟩, rfl⟩
    · obtain ⟨made, fault, left⟩ := (rest q _).1 later
      exact ⟨made + 1, .inr ⟨q, first, made, fault, rfl⟩, left⟩
  · rintro ⟨made, ⟨failed, rfl⟩ | ⟨q, first, others, fault, rfl⟩, left⟩
    · exact ⟨_, _, ⟨rfl, rfl⟩, .inl ⟨failed, left⟩⟩
    · exact ⟨_, _, ⟨rfl, rfl⟩, .inr ⟨q, _, ⟨first, rfl⟩, (rest q _).2 ⟨others, fault, left⟩⟩⟩

theorem fails_bestOf_iff {best : Partition α} {n : Nat} {stream : Random.SeedStream} {own : σ}
    {s' : Random.SeedStream × σ} :
    Fails (bestOf run best n) (stream, own) fault s' ↔
      ∃ made, FirstFault run (stream.draws n) fault made ∧
        (stream.advance (made + 1), own) = s' := by
  -- on the runs left, for whichever partition is the best so far
  induction n generalizing best stream with
  | zero =>
    unfold bestOf Random.SeedStream.draws
    simp [not_fails_pure, not_firstFault_nil]
  | succ n ih => exact fails_run_iff (fun q stream => ih) stream

section Fit

variable {label : Labeller α} {settings : KMeans} {samples : List (List α)} {k : Nat}
  {stream : Random.SeedStream} {own : σ}

/-- Several clusters fail exactly when a run does, and then with the fault of the first. -/
theorem fails_fit_several_iff (clusterable : Clusterable samples k) (several : k ≠ 1)
    {s' : Random.SeedStream × σ} :
    Fails (fit label settings samples k) (stream, own) fault s' ↔
      ∃ made, FirstFault (runOnce label settings.rounds samples k)
          (stream.draws (max settings.restarts 1)) fault made ∧
        (stream.advance (made + 1), own) = s' := by
  have runs : max settings.restarts 1 = settings.restarts - 1 + 1 := by omega
  rw [fit_several clusterable several, runs]
  exact fails_run_iff (fun q stream => fails_bestOf_iff) stream

omit [Scalar α] in
/-- What every run has is true of all partitions that runs have given. -/
theorem forall_mem_of_runs {Q : Partition α → Prop} (each : ∀ seed q, run seed = .ok q → Q q)
    {seeds : List UInt64} {ps : List (Partition α)}
    (all : List.Forall₂ (fun seed q => run seed = .ok q) seeds ps) : ∀ q ∈ ps, Q q := by
  intro q hq
  obtain ⟨seed, -, made⟩ := exists_mem_of_mem_mapM_eq_ok (mapM_eq_ok_iff.2 all) hq
  exact each seed q made

omit [Scalar α] in
/-- Runs with the first of some seeds give partitions that runs with all of them give too. -/
theorem mem_of_fewer_runs {seeds seeds' : List UInt64} {ps qs : List (Partition α)}
    (front : seeds <+: seeds') (all : List.Forall₂ (fun seed q => run seed = .ok q) seeds ps)
    (all' : List.Forall₂ (fun seed q => run seed = .ok q) seeds' qs) : ∀ p ∈ ps, p ∈ qs := by
  intro p hp
  obtain ⟨seed, drawn, made⟩ := exists_mem_of_mem_mapM_eq_ok (mapM_eq_ok_iff.2 all) hp
  obtain ⟨q, hq, again⟩ := exists_mem_of_mapM_eq_ok (mapM_eq_ok_iff.2 all') (front.subset drawn)
  rw [made] at again
  cases again
  exact hq

variable {P : α → Prop}

/-- Several clusters come from the first run of least inertia. -/
theorem yields_fit_several_iff_firstLeast (order : Scalar.ComparesOn P)
    (numbers : ∀ seed q, runOnce label settings.rounds samples k seed = .ok q → P q.inertia)
    (clusterable : Clusterable samples k) (several : k ≠ 1) {p : Partition α}
    {s' : Random.SeedStream × σ} :
    Yields (fit label settings samples k) (stream, own) p s' ↔
      ∃ ps, List.Forall₂ (fun seed q => runOnce label settings.rounds samples k seed = .ok q)
          (stream.draws (max settings.restarts 1)) ps ∧
        FirstLeast ps p ∧ (stream.advance (max settings.restarts 1), own) = s' := by
  have begun : ∀ first : Partition α, FirstLeast [first] first := fun first =>
    ⟨[], [], rfl, by simp, by simp⟩
  rw [yields_fit_several_iff clusterable several]
  constructor
  · rintro ⟨first, rest, all, rfl, left⟩
    exact ⟨_, all, firstLeast_foldl order (forall_mem_of_runs numbers all) (begun first), left⟩
  · rintro ⟨ps, all, least, left⟩
    cases ps with
    | nil =>
      rw [(draws_max_one stream settings.restarts).1] at all
      cases all
    | cons first rest =>
      have inOrder := forall_mem_of_runs numbers all
      have kept : FirstLeast (first :: rest) (rest.foldl better first) :=
        firstLeast_foldl order inOrder (begun first)
      exact ⟨first, rest, all, kept.unique order inOrder least, left⟩

/-- More runs from the same place never keep a partition of more inertia. -/
theorem not_lt_of_more_restarts (order : Scalar.ComparesOn P) {rounds : Nat}
    (numbers : ∀ seed q, runOnce label rounds samples k seed = .ok q → P q.inertia)
    (clusterable : Clusterable samples k) (several : k ≠ 1) {restarts more : Nat}
    (further : restarts ≤ more) {p q : Partition α} {s₁ s₂ : Random.SeedStream × σ}
    (fewer : Yields (fit label ⟨restarts, rounds⟩ samples k) (stream, own) p s₁)
    (longer : Yields (fit label ⟨more, rounds⟩ samples k) (stream, own) q s₂) :
    ¬p.inertia < q.inertia := by
  obtain ⟨ps, all, kept, -⟩ :=
    (yields_fit_several_iff_firstLeast order numbers clusterable several).1 fewer
  obtain ⟨qs, all', kept', -⟩ :=
    (yields_fit_several_iff_firstLeast order numbers clusterable several).1 longer
  have front : stream.draws (max restarts 1) <+: stream.draws (max more 1) :=
    stream.draws_of_le (by omega)
  exact kept'.not_lt order (forall_mem_of_runs numbers all') p
    (mem_of_fewer_runs front all all' p kept.mem)

end Fit

/-- Whatever the labeller answers, the runs on finite machine numbers have numbers as inertias. -/
theorem isNumber_of_runOnce {label : Labeller Float} {rounds k : Nat} {samples : List (List Float)}
    (clusterable : Clusterable samples k) (fits : samples.length < 2 ^ 64) (seed : UInt64)
    (p : Partition Float) (made : runOnce label rounds samples k seed = .ok p) :
    Machine.IsNumber p.inertia := by
  obtain ⟨labels, -, -, rfl⟩ := runOnce_eq_ok_iff.1 made
  exact Machine.isNumber_inertia_ofLabels clusterable fits labels

/-! ## §6. What k-means keeps -/

/-- **k-means keeps the first run of least inertia.** Samples that cannot be split are refused with
their fault. What is given splits samples that can be split, with the means and the inertia of its
own labels; its counts are words, which add up to the number of samples below `2 ^ 32`. A single
cluster is always given. Neither of these draws a seed. Several clusters come from at least one run,
each with the next seed of the stream. The first run that fails ends all, and its fault is the
result. Where inertias compare in an order, the result is otherwise the first run of least inertia,
and more runs from the same place never give more inertia. -/
theorem fit_keeps_first_least (label : Labeller α) (settings : KMeans) (samples : List (List α))
    (k : Nat) (stream : Random.SeedStream) (own : σ) :
    (∀ fault, samplesFault? samples k = some fault →
      Fails (fit label settings samples k) (stream, own) fault (stream, own)) ∧
    (∀ p s', Yields (fit label settings samples k) (stream, own) p s' →
      samplesFault? samples k = none ∧ p.Splits samples k) ∧
    (k = 1 → samplesFault? samples k = none →
      ∃ p, Yields (fit label settings samples k) (stream, own) p (stream, own)) ∧
    (2 ≤ k → samplesFault? samples k = none →
      let run := runOnce label settings.rounds samples k
      let seeds := stream.draws (max settings.restarts 1)
      (∀ fault s', Fails (fit label settings samples k) (stream, own) fault s' ↔
        ∃ made, FirstFault run seeds fault made ∧ (stream.advance (made + 1), own) = s') ∧
      ∀ P, Scalar.ComparesOn P → (∀ seed q, run seed = .ok q → P q.inertia) →
        (∀ p s', Yields (fit label settings samples k) (stream, own) p s' ↔
          ∃ ps, List.Forall₂ (fun seed q => run seed = .ok q) seeds ps ∧ FirstLeast ps p ∧
            (stream.advance (max settings.restarts 1), own) = s') ∧
        ∀ more, settings.restarts ≤ more → ∀ p q s₁ s₂,
          Yields (fit label settings samples k) (stream, own) p s₁ →
          Yields (fit label ⟨more, settings.rounds⟩ samples k) (stream, own) q s₂ →
          ¬p.inertia < q.inertia) := by
  refine ⟨fun fault refused => ?_, fun p s' made => ?_, fun one accepted => ?_,
    fun two accepted => ?_⟩
  · rw [fit_of_fault refused]
    exact fails_throw_iff.2 ⟨rfl, rfl⟩
  · obtain ⟨clusterable, labelled⟩ := of_yields_fit made
    exact ⟨samplesFault?_eq_none_iff.2 clusterable, labelled.splits clusterable⟩
  · subst one
    rw [fit_one (samplesFault?_eq_none_iff.1 accepted)]
    exact ⟨_, yields_pure_iff.2 ⟨rfl, rfl⟩⟩
  · have clusterable := samplesFault?_eq_none_iff.1 accepted
    have several : k ≠ 1 := by omega
    refine ⟨fun fault s' => fails_fit_several_iff clusterable several,
      fun P order numbers => ⟨fun p s' => ?_, fun more further p q s₁ s₂ fewer longer => ?_⟩⟩
    · exact yields_fit_several_iff_firstLeast order numbers clusterable several
    · exact not_lt_of_more_restarts order numbers clusterable several further fewer longer

/-- Two runs on machine numbers, of which the second is better and is kept. -/
theorem fit_keeps_first_least_second_run :
    let samples : List (List Float) := [[0], [0], [10], [10]]
    let label : Labeller Float := fun _ _ _ seed =>
      .ok (if seed % 2 = 0 then [0, 0, 1, 1] else [0, 1, 0, 1])
    let stream := Random.SeedStream.ofSeed 1
    let p : Partition Float := ⟨[[5], [5]], [0, 1, 0, 1], 100⟩
    let q : Partition Float := ⟨[[0], [10]], [0, 0, 1, 1], 0⟩
    samplesFault? samples 2 = none ∧
    (∀ seed r, runOnce label 5 samples 2 seed = .ok r → Machine.IsNumber r.inertia) ∧
    Yields (fit label ⟨1, 5⟩ samples 2) (stream, ()) p (stream.advance 1, ()) ∧
    Yields (fit label ⟨2, 5⟩ samples 2) (stream, ()) q (stream.advance 2, ()) ∧
    q.Splits samples 2 ∧ ¬p.inertia < q.inertia := by
  intro samples label stream p q
  have accepted : samplesFault? samples 2 = none := by decide +kernel
  have numbers : ∀ seed r, runOnce label 5 samples 2 seed = .ok r → Machine.IsNumber r.inertia :=
    isNumber_of_runOnce (samplesFault?_eq_none_iff.1 accepted) (by decide)
  have first : runOnce label 5 samples 2 (stream.next.1) = .ok p := by decide +kernel
  have second : runOnce label 5 samples 2 (stream.next.2.next.1) = .ok q := by decide +kernel
  have smaller : q.inertia < p.inertia := by decide +kernel
  obtain ⟨-, -, -, several⟩ := fit_keeps_first_least label ⟨1, 5⟩ samples 2 stream ()
  obtain ⟨-, one⟩ := several (Nat.le_refl 2) accepted
  obtain ⟨kept, more⟩ := one _ Machine.comparesOn_isNumber numbers
  obtain ⟨-, split, -, several'⟩ := fit_keeps_first_least label ⟨2, 5⟩ samples 2 stream ()
  obtain ⟨-, two⟩ := several' (Nat.le_refl 2) accepted
  have fewer : Yields (fit label ⟨1, 5⟩ samples 2) (stream, ()) p (stream.advance 1, ()) :=
    (kept _ _).2 ⟨[p], .cons first .nil, ⟨[], [], rfl, by simp, by simp⟩, rfl⟩
  have longer : Yields (fit label ⟨2, 5⟩ samples 2) (stream, ()) q (stream.advance 2, ()) :=
    ((two _ Machine.comparesOn_isNumber numbers).1 _ _).2
      ⟨[p, q], .cons first (.cons second .nil), ⟨[p], [], rfl, by simpa using smaller, by simp⟩, rfl⟩
  exact ⟨accepted, numbers, fewer, longer, (split _ _ longer).2,
    more 2 (by decide) _ _ _ _ fewer longer⟩

end KMeans

end PlantEconomics
