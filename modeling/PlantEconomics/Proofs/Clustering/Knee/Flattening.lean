import PlantEconomics.Proofs.Clustering.Knee.Scaling

/-!
# The knee of a curve that falls and flattens

A curve of inertias falls, and each step gains less than the one before it. With exact arithmetic
its gap to the diagonal rises from zero to a plateau and falls back to zero. All maxima of the gap
lie on the plateau. The scan comes to the last of them with its threshold in force, and from there
the gap falls all the way, so that only the end of the curve decides.

  * `Knee.Bends`: gaps that do not rise again, and go on falling once they fall;
  * `Knee.ofGap?_of_bends`: the scan over such a gap;
  * `KneeRule.index?_of_flattens`: the knee of a curve that falls and flattens.
-/

namespace PlantEconomics

namespace Knee

variable {α : Type} [Field α] [LinearOrder α]

/-! ## §1. Gaps that bend -/

/-- Whether a gap bends: where it does not rise it does not rise any more, and where it falls it
goes on falling. -/
structure Bends (gap : List α) : Prop where
  rests : ∀ i, i + 2 < gap.length → at_ gap (i + 1) ≤ at_ gap i →
    at_ gap (i + 2) ≤ at_ gap (i + 1)
  falls : ∀ i, i + 2 < gap.length → at_ gap (i + 1) < at_ gap i →
    at_ gap (i + 2) < at_ gap (i + 1)

/-- Whether `m` is the last of the first `n` positions with the greatest value. -/
structure IsLastMax (g : Nat → α) (n m : Nat) : Prop where
  inside : m < n
  most : ∀ i < n, g i ≤ g m
  last : ∀ i < n, m < i → g i < g m

omit [Field α] in
theorem exists_isLastMax (g : Nat → α) {n : Nat} (h : 0 < n) : ∃ m, IsLastMax g n m := by
  -- compare values first and positions second
  obtain ⟨m, inside, most⟩ := Finset.exists_max_image (Finset.range n)
    (fun i => toLex (g i, i)) ⟨0, Finset.mem_range.2 h⟩
  have key : ∀ i < n, g i < g m ∨ g i = g m ∧ i ≤ m := fun i hi =>
    (Prod.Lex.toLex_le_toLex).1 (most i (Finset.mem_range.2 hi))
  refine ⟨m, Finset.mem_range.1 inside, fun i hi => ?_, fun i hi after => ?_⟩
  · rcases key i hi with less | ⟨same, -⟩
    · exact less.le
    · exact same.le
  · rcases key i hi with less | ⟨-, before⟩
    · exact less
    · exact absurd after (Nat.not_lt.2 before)

omit [Field α] in
theorem IsLastMax.congr {g g' : Nat → α} {n m : Nat} (h : IsLastMax g n m)
    (same : ∀ i < n, g i = g' i) : IsLastMax g' n m := by
  refine ⟨h.inside, fun i hi => ?_, fun i hi after => ?_⟩
  · rw [← same i hi, ← same m h.inside]
    exact h.most i hi
  · rw [← same i hi, ← same m h.inside]
    exact h.last i hi after

variable {gap : List α} {m : Nat}

section Onward

variable {r : α → α → Prop}

/-- What holds of a step and passes on from each step to the next holds of all later steps. -/
theorem step_onward
    (passes : ∀ i, i + 2 < gap.length → r (at_ gap (i + 1)) (at_ gap i) →
      r (at_ gap (i + 2)) (at_ gap (i + 1)))
    {i j : Nat} (le : i ≤ j) (inside : j + 1 < gap.length) (first : r (at_ gap (i + 1)) (at_ gap i)) :
    r (at_ gap (j + 1)) (at_ gap j) := by
  induction j, le using Nat.le_induction with
  | base => exact first
  | succ j le ih => exact passes j inside (ih (by omega))

/-- So it holds from the first of the positions to any later one. -/
theorem rel_onward [IsTrans α r]
    (passes : ∀ i, i + 2 < gap.length → r (at_ gap (i + 1)) (at_ gap i) →
      r (at_ gap (i + 2)) (at_ gap (i + 1)))
    {i j : Nat} (less : i < j) (inside : j < gap.length) (first : r (at_ gap (i + 1)) (at_ gap i)) :
    r (at_ gap j) (at_ gap i) := by
  induction j, less using Nat.le_induction with
  | base => exact first
  | succ j less ih =>
    exact trans_of r (step_onward passes (by omega) inside first) (ih (by omega))

end Onward

namespace Bends

/-- Behind the last maximum the gap falls at every step. -/
theorem falls_behind (h : Bends gap) (top : IsLastMax (at_ gap) gap.length m) {i : Nat}
    (behind : m ≤ i) (inside : i + 1 < gap.length) : at_ gap (i + 1) < at_ gap i :=
  step_onward h.falls behind inside (top.last (m + 1) (by omega) (Nat.lt_succ_self m))

/-- In front of the last maximum the gap does not fall. -/
theorem le_before (h : Bends gap) (top : IsLastMax (at_ gap) gap.length m) {i j : Nat}
    (le : i ≤ j) (before : j ≤ m) : at_ gap i ≤ at_ gap j := by
  have := top.inside
  induction j, le using Nat.le_induction with
  | base => exact le_rfl
  | succ j le ih =>
    refine (ih (by omega)).trans (not_lt.1 fun fall => ?_)
    exact not_lt.2 (top.most j (by omega)) (rel_onward h.falls (by omega) top.inside fall)

/-! ## §2. Maxima and minima of a gap that bends -/

/-- The last maximum is the latest one from there on. -/
theorem isTop_behind (h : Bends gap) (top : IsLastMax (at_ gap) gap.length m) {i : Nat}
    (behind : m ≤ i) (inside : i < gap.length) : IsTop gap i m := by
  have := top.inside
  refine ⟨behind, ?_, fun j after upTo => ?_⟩
  · unfold isPeak
    rw [Bool.and_eq_true, decide_eq_true_iff, decide_eq_true_iff]
    exact ⟨top.most _ (by omega), top.most _ (by omega)⟩
  · have fall : at_ gap j < at_ gap (j - 1) := by
      have := h.falls_behind top (i := j - 1) (by omega) (by omega)
      rwa [show j - 1 + 1 = j by omega] at this
    unfold isPeak
    rw [Bool.and_eq_false_iff]
    exact .inl (decide_eq_false (not_le.2 fall))

/-- Behind the last maximum there is no minimum but the end of the curve. -/
theorem not_isDip_behind (h : Bends gap) (top : IsLastMax (at_ gap) gap.length m) {i : Nat}
    (behind : m ≤ i) (inside : i + 1 < gap.length) : ¬isDip gap i = true := by
  have fall := h.falls_behind top behind inside
  unfold isDip
  rw [Bool.and_eq_true, decide_eq_true_iff, decide_eq_true_iff, show min (i + 1) _ = i + 1 by omega]
  exact fun dip => not_le.2 fall dip.2

theorem limit_behind (h : Bends gap) (top : IsLastMax (at_ gap) gap.length m) (slack : α) {i : Nat}
    (inside : i + 1 < gap.length) : limit gap slack m i = at_ gap m - slack := by
  unfold limit
  rw [if_neg]
  rintro ⟨j, upTo, behind, dip⟩
  exact h.not_isDip_behind top behind (by omega) dip

/-- A maximum in front of the last one is as high. -/
theorem le_of_isPeak (h : Bends gap) (top : IsLastMax (at_ gap) gap.length m) {i : Nat}
    (before : i < m) (peak : isPeak gap i = true) : at_ gap m ≤ at_ gap i := by
  have := top.inside
  unfold isPeak at peak
  rw [Bool.and_eq_true, decide_eq_true_iff, decide_eq_true_iff,
    show min (i + 1) _ = i + 1 by omega] at peak
  exact rel_onward (r := (· ≤ ·)) h.rests before top.inside peak.2

/-- So nothing falls in front of the last maximum. -/
theorem not_falls_before [IsStrictOrderedRing α] (h : Bends gap)
    (top : IsLastMax (at_ gap) gap.length m) {slack : α} (start : at_ gap 0 = 0)
    (nonneg : 0 ≤ slack) {i : Nat} (before : i < m) (m' : Nat) : ¬Falls gap slack i m' := by
  intro falls
  have upTo := falls.top.le
  have high : at_ gap m ≤ at_ gap (i + 1) :=
    (h.le_of_isPeak top (by omega) falls.top.peak).trans (h.le_before top (by omega) before)
  have positive : 0 ≤ at_ gap m := start ▸ top.most 0 (Nat.zero_lt_of_lt top.inside)
  have below := falls.below
  unfold limit at below
  split at below
  · exact absurd (positive.trans high) (not_le.2 below)
  · have := top.most m' (by have := top.inside; omega)
    linarith

end Bends

/-! ## §3. The scan over a gap that bends -/

/-- **The knee of a gap that bends is the last maximum**, if it is higher than the slack. -/
theorem ofGap?_of_bends [IsStrictOrderedRing α] (h : Bends gap) {slack : α}
    (start : at_ gap 0 = 0) (finish : at_ gap (gap.length - 1) = 0) (nonneg : 0 ≤ slack)
    (top : IsLastMax (at_ gap) gap.length m) :
    ofGap? gap slack = if slack < at_ gap m then some m else none := by
  have inside := top.inside
  split
  · next high =>
    -- the end of the curve lies below the threshold, so there is a knee, and only one candidate
    have early : m ≠ gap.length - 1 := by
      rintro rfl
      linarith
    have falls : Falls gap slack (gap.length - 2) m := by
      refine ⟨by omega, h.isTop_behind top (by omega) (by omega), ?_⟩
      rw [h.limit_behind top slack (by omega), show gap.length - 2 + 1 = gap.length - 1 by omega,
        finish]
      exact sub_pos.2 high
    cases found : ofGap? gap slack with
    | none => exact absurd falls (ofGap?_eq_none_iff.1 found _ _)
    | some m' =>
      obtain ⟨i, first, -⟩ := ofGap?_eq_some_iff.1 found
      have behind : m ≤ i := not_lt.1 fun before =>
        h.not_falls_before top start nonneg before m' first
      have := first.inside
      rw [first.top.unique (h.isTop_behind top behind (by omega))]
  · next low =>
    refine ofGap?_eq_none_iff.2 fun i m' falls => ?_
    rcases Nat.lt_or_ge i m with before | behind
    · exact h.not_falls_before top start nonneg before m' falls
    · have onward := falls.inside
      obtain rfl := falls.top.unique (h.isTop_behind top behind (by omega))
      have below := falls.below
      rw [h.limit_behind top slack onward] at below
      have rest : at_ gap (gap.length - 1) ≤ at_ gap (i + 1) := by
        rcases Nat.lt_or_ge (i + 1 + 1) gap.length with more | last
        · exact (rel_onward h.falls (by omega) (by omega) (h.falls_behind top (by omega) more)).le
        · rw [show gap.length - 1 = i + 1 by omega]
      linarith

/-! ## §4. Curves that fall and flatten -/

section Values

variable {v : List α}

theorem at_eq {i : Nat} (h : i < v.length) : at_ v i = v[i] := by
  unfold at_
  rw [List.getD_eq_getElem?_getD, List.getElem?_eq_getElem h]
  rfl

theorem at_mem {i : Nat} (h : i < v.length) : at_ v i ∈ v := at_eq h ▸ List.getElem_mem h

theorem at_map (f : α → α) {i : Nat} (h : i < v.length) : at_ (v.map f) i = f (at_ v i) := by
  rw [at_eq (by rwa [List.length_map]), at_eq h, List.getElem_map]

/-- Two positions with the least and the greatest value are the ends of the values. -/
theorem spans_at {p q : Nat} (hp : p < v.length) (hq : q < v.length)
    (least : ∀ i < v.length, at_ v p ≤ at_ v i) (most : ∀ i < v.length, at_ v i ≤ at_ v q) :
    Spans v (at_ v p) (at_ v q) := by
  refine ⟨at_mem hp, at_mem hq, fun a ha => ?_, fun a ha => ?_⟩
  · obtain ⟨i, hi, rfl⟩ := List.mem_iff_getElem.1 ha
    exact at_eq hi ▸ least i hi
  · obtain ⟨i, hi, rfl⟩ := List.mem_iff_getElem.1 ha
    exact at_eq hi ▸ most i hi

theorem at_lt_at (h : v.Pairwise (· < ·)) {i j : Nat} (less : i < j) (inside : j < v.length) :
    at_ v i < at_ v j := by
  rw [at_eq (by omega), at_eq inside]
  exact List.pairwise_iff_getElem.1 h i j (by omega) inside less

theorem at_le_at (h : v.Pairwise (· ≥ ·)) {i j : Nat} (le : i ≤ j) (inside : j < v.length) :
    at_ v j ≤ at_ v i := by
  rcases Nat.lt_or_eq_of_le le with less | rfl
  · rw [at_eq inside, at_eq (less.trans inside)]
    exact List.pairwise_iff_getElem.1 h i j (by omega) inside less
  · exact le_rfl

/-- The steps from each value to the next add up to the way from the first to the last. -/
theorem sum_steps (a : α) (rest : List α) :
    (List.zipWith (· - ·) rest (a :: rest)).sum = at_ (a :: rest) rest.length - a := by
  induction rest generalizing a with
  | nil => exact (sub_self a).symm
  | cons b rest ih =>
    rw [List.zipWith_cons_cons, List.sum_cons, ih b]
    show b - a + (at_ (b :: rest) rest.length - b) = at_ (b :: rest) rest.length - a
    rw [add_comm, sub_add_sub_cancel]

end Values

/-- The slope of a curve from a position to the next. -/
def slope (x y : List α) (i : Nat) : α :=
  (at_ y (i + 1) - at_ y i) / (at_ x (i + 1) - at_ x i)

/-- Whether a curve falls and flattens: it does not rise anywhere, falls somewhere, and its slope
does not decrease. -/
structure Flattens (x y : List α) : Prop where
  paired : y.length = x.length
  increasing : x.Pairwise (· < ·)
  falling : y.Pairwise (· ≥ ·)
  varying : ∃ a ∈ y, ∃ b ∈ y, a ≠ b
  convex : ∀ i, i + 2 < x.length → slope x y i ≤ slope x y (i + 1)

namespace Flattens

variable {x y : List α}

theorem spans_x (h : Flattens x y) (some_point : 0 < x.length) :
    Spans x (at_ x 0) (at_ x (x.length - 1)) := by
  refine spans_at some_point (by omega) (fun i inside => ?_) fun i inside => ?_
  · rcases Nat.eq_zero_or_pos i with rfl | later
    · exact le_rfl
    · exact (at_lt_at h.increasing later inside).le
  · rcases Nat.lt_or_ge i (x.length - 1) with earlier | last
    · exact (at_lt_at h.increasing earlier (by omega)).le
    · rw [show i = x.length - 1 by omega]

theorem spans_y (h : Flattens x y) (some_point : 0 < x.length) :
    Spans y (at_ y (x.length - 1)) (at_ y 0) := by
  have := h.paired
  refine spans_at (by omega) (by omega) (fun i inside => ?_) fun i inside => ?_
  · exact at_le_at h.falling (by omega) (by omega)
  · exact at_le_at h.falling (Nat.zero_le i) inside

theorem x_differ (h : Flattens x y) (points : 2 ≤ x.length) : at_ x 0 < at_ x (x.length - 1) :=
  at_lt_at h.increasing (by omega) (by omega)

theorem y_differ (h : Flattens x y) (some_point : 0 < x.length) :
    at_ y (x.length - 1) < at_ y 0 := by
  have ends := h.spans_y some_point
  refine lt_of_le_of_ne ends.le fun same => ?_
  -- values between equal ends would all be one
  obtain ⟨a, ha, b, hb, differ⟩ := h.varying
  have hab := (ends.le_hi a ha).trans (same ▸ ends.lo_le b hb)
  have hba := (ends.le_hi b hb).trans (same ▸ ends.lo_le a ha)
  exact differ (le_antisymm hab hba)

variable [IsStrictOrderedRing α]

theorem normalized?_x (h : Flattens x y) (points : 2 ≤ x.length) :
    normalized? x = some (x.map (share (at_ x 0) (at_ x (x.length - 1)))) := by
  rw [normalized?_eq (h.spans_x (by omega)), if_pos (h.x_differ points)]

theorem normalized?_y (h : Flattens x y) (some_point : 0 < x.length) :
    normalized? y = some (y.map (share (at_ y (x.length - 1)) (at_ y 0))) := by
  rw [normalized?_eq (h.spans_y some_point), if_pos (h.y_differ some_point)]

/-- The scaled abscissas have the same mean step whatever lies between the ends. -/
theorem meanStep_x (h : Flattens x y) (points : 2 ≤ x.length) :
    meanStep (x.map (share (at_ x 0) (at_ x (x.length - 1)))) =
      1 / ((x.length - 1 : Nat) : α) := by
  have differ := h.x_differ points
  have first : at_ (x.map (share (at_ x 0) (at_ x (x.length - 1)))) 0 = 0 := by
    rw [at_map _ (by omega), share_lo]
  have last : at_ (x.map (share (at_ x 0) (at_ x (x.length - 1)))) (x.length - 1) = 1 := by
    rw [at_map _ (by omega), share_hi differ]
  have size : (x.map (share (at_ x 0) (at_ x (x.length - 1)))).length = x.length :=
    List.length_map _
  generalize x.map (share (at_ x 0) (at_ x (x.length - 1))) = xs at first last size ⊢
  unfold meanStep
  rw [Scalar.total_eq_sum, Scalar.ofNat_eq_cast, size]
  congr 1
  cases xs with
  | nil =>
    rw [List.length_nil] at size
    omega
  | cons a rest =>
    rw [show x.length - 1 = rest.length by rw [← size, List.length_cons, Nat.add_sub_cancel]] at last
    rw [List.tail_cons, sum_steps, last, show a = 0 from first, sub_zero]

end Flattens

/-! ## §5. The gap of a curve that falls and flattens -/

omit [LinearOrder α] in
theorem share_sub (lo hi a b : α) : share lo hi b - share lo hi a = (b - a) / (hi - lo) := by
  rw [share, share, ← sub_div, sub_sub_sub_cancel_right]

/-- The gap at a position of scaled curves. -/
theorem at_gap [IsStrictOrderedRing α] {xs ys : List α} (hy : Spans ys 0 1)
    (paired : ys.length = xs.length) {i : Nat} (inside : i < xs.length) :
    at_ (List.zipWith (· - ·) (turned .convex .decreasing ys) xs) i =
      (1 - at_ ys i) - at_ xs i := by
  rw [turned_falling hy, at_eq (by rw [List.length_zipWith, List.length_map]; omega),
    List.getElem_zipWith, List.getElem_map, at_eq inside, at_eq (paired ▸ inside)]

namespace Flattens

variable [IsStrictOrderedRing α] {x y gap : List α}

/-- How fast the gap rises with the abscissa behind a position. -/
def tilt (x y : List α) (i : Nat) : α :=
  -(slope x y i / (at_ y 0 - at_ y (x.length - 1))) - 1 / (at_ x (x.length - 1) - at_ x 0)

theorem tilt_antitone (h : Flattens x y) {i : Nat} (inside : i + 2 < x.length) :
    tilt x y (i + 1) ≤ tilt x y i := by
  have fall : 0 ≤ at_ y 0 - at_ y (x.length - 1) := (sub_pos.2 (h.y_differ (by omega))).le
  unfold tilt
  gcongr
  exact h.convex i inside

/-- A step of the gap is the tilt along the step of the abscissa. -/
theorem step_gap (h : Flattens x y)
    (hgap : ∀ i < x.length, at_ gap i = (1 - share (at_ y (x.length - 1)) (at_ y 0) (at_ y i)) -
      share (at_ x 0) (at_ x (x.length - 1)) (at_ x i)) {i : Nat} (inside : i + 1 < x.length) :
    at_ gap (i + 1) - at_ gap i = (at_ x (i + 1) - at_ x i) * tilt x y i := by
  have step : at_ x (i + 1) - at_ x i ≠ 0 :=
    (sub_pos.2 (at_lt_at h.increasing (Nat.lt_succ_self i) inside)).ne'
  rw [hgap _ inside, hgap _ (by omega)]
  calc _ = -(share (at_ y (x.length - 1)) (at_ y 0) (at_ y (i + 1)) -
          share (at_ y (x.length - 1)) (at_ y 0) (at_ y i)) -
        (share (at_ x 0) (at_ x (x.length - 1)) (at_ x (i + 1)) -
          share (at_ x 0) (at_ x (x.length - 1)) (at_ x i)) := by ring
    _ = -((at_ y (i + 1) - at_ y i) / (at_ y 0 - at_ y (x.length - 1))) -
        (at_ x (i + 1) - at_ x i) / (at_ x (x.length - 1) - at_ x 0) := by
      rw [share_sub, share_sub]
    _ = (at_ x (i + 1) - at_ x i) * tilt x y i := by
      unfold tilt slope
      field_simp

/-- **The gap of a curve that falls and flattens bends**: its steps have the signs of a tilt that
does not increase. -/
theorem bends (h : Flattens x y) (size : gap.length = x.length)
    (hgap : ∀ i < x.length, at_ gap i = (1 - share (at_ y (x.length - 1)) (at_ y 0) (at_ y i)) -
      share (at_ x 0) (at_ x (x.length - 1)) (at_ x i)) : Bends gap := by
  have step (i : Nat) (inside : i + 1 < x.length) : 0 < at_ x (i + 1) - at_ x i :=
    sub_pos.2 (at_lt_at h.increasing (Nat.lt_succ_self i) inside)
  refine ⟨fun i inside rest => ?_, fun i inside fall => ?_⟩
  · rw [← sub_nonpos, h.step_gap hgap (by omega)] at rest ⊢
    exact mul_nonpos_of_nonneg_of_nonpos (step _ (by omega)).le ((h.tilt_antitone (by omega)).trans
      (nonpos_of_mul_nonpos_right rest (step _ (by omega))))
  · rw [← sub_neg, h.step_gap hgap (by omega)] at fall ⊢
    exact mul_neg_of_pos_of_neg (step _ (by omega)) ((h.tilt_antitone (by omega)).trans_lt
      (neg_of_mul_neg_right fall (step _ (by omega)).le))

/-- The gap curve and the mean step for a curve that falls and flattens. -/
theorem gap?_eq (h : Flattens x y) (points : 2 ≤ x.length) (s : α) :
    ∃ gap, (⟨.convex, .decreasing, s⟩ : KneeRule α).gap? x y =
        some (gap, 1 / ((x.length - 1 : Nat) : α)) ∧
      gap.length = x.length ∧
      ∀ i < x.length, at_ gap i = (1 - share (at_ y (x.length - 1)) (at_ y 0) (at_ y i)) -
        share (at_ x 0) (at_ x (x.length - 1)) (at_ x i) := by
  have scaledX := h.normalized?_x points
  have scaledY := h.normalized?_y (by omega)
  have spans := spans_of_normalized? scaledY
  refine ⟨_, (KneeRule.gap?_eq scaledX scaledY).trans (by rw [h.meanStep_x points]), ?_, ?_⟩
  · have := h.paired
    rw [turned_falling spans]
    simp only [List.length_zipWith, List.length_map]
    omega
  · intro i inside
    rw [at_gap spans (by simpa using h.paired) (by rwa [List.length_map]), at_map _ inside,
      at_map _ (h.paired ▸ inside)]

end Flattens

end Knee

/-! ## §6. The knee of a curve that falls and flattens -/

namespace KneeRule

variable {α : Type} [Field α] [LinearOrder α] [IsStrictOrderedRing α]

/-- **The knee of a curve that falls and flattens is the last position with the greatest gap**, if
that gap is greater than the share of one step in the sensitivity; otherwise it has none. The gap is
between the scaled curve upside down and the diagonal. -/
theorem index?_of_flattens {x y : List α} {s : α} (points : 3 ≤ x.length)
    (h : Knee.Flattens x y) (nonneg : 0 ≤ s) :
    ∃ xs ys m, Knee.normalized? x = some xs ∧ Knee.normalized? y = some ys ∧
      (∀ i < x.length, Knee.at_ xs i = (Knee.at_ x i - Knee.at_ x 0) /
        (Knee.at_ x (x.length - 1) - Knee.at_ x 0)) ∧
      (∀ i < x.length, Knee.at_ ys i = (Knee.at_ y i - Knee.at_ y (x.length - 1)) /
        (Knee.at_ y 0 - Knee.at_ y (x.length - 1))) ∧
      Knee.IsLastMax (fun i => (1 - Knee.at_ ys i) - Knee.at_ xs i) x.length m ∧
      (⟨.convex, .decreasing, s⟩ : KneeRule α).index? x y =
        if s / ((x.length - 1 : Nat) : α) < (1 - Knee.at_ ys m) - Knee.at_ xs m then some m
        else none := by
  obtain ⟨gap, scaled, size, hgap⟩ := h.gap?_eq (by omega) s
  have bends := h.bends size hgap
  have start : Knee.at_ gap 0 = 0 := by
    rw [hgap 0 (by omega), Knee.share_lo, Knee.share_hi (h.y_differ (by omega)), sub_self, sub_self]
  have finish : Knee.at_ gap (gap.length - 1) = 0 := by
    rw [size, hgap _ (by omega), Knee.share_lo, Knee.share_hi (h.x_differ (by omega)), sub_zero,
      sub_self]
  obtain ⟨m, top⟩ := Knee.exists_isLastMax (Knee.at_ gap) (n := gap.length) (by omega)
  have inside : m < x.length := size ▸ top.inside
  have scaledX (i : Nat) (hi : i < x.length) :=
    Knee.at_map (Knee.share (Knee.at_ x 0) (Knee.at_ x (x.length - 1))) hi
  have scaledY (i : Nat) (hi : i < x.length) :=
    Knee.at_map (Knee.share (Knee.at_ y (x.length - 1)) (Knee.at_ y 0)) (h.paired ▸ hi)
  refine ⟨_, _, m, h.normalized?_x (by omega), h.normalized?_y (by omega), scaledX, scaledY, ?_, ?_⟩
  · refine (size ▸ top).congr fun i hi => ?_
    rw [hgap i hi, scaledX i hi, scaledY i hi]
  · have slack : s * Scalar.abs (1 / ((x.length - 1 : Nat) : α)) = s / ((x.length - 1 : Nat) : α) := by
      rw [Scalar.abs_eq, abs_of_nonneg (one_div_nonneg.2 (Nat.cast_nonneg _)), mul_one_div]
    rw [index?_eq_map, found?_eq points h.paired scaled, slack, scaledX m inside, scaledY m inside,
      ← hgap m inside,
      Knee.ofGap?_of_bends bends start finish (div_nonneg nonneg (Nat.cast_nonneg _)) top]
    show Option.map id _ = _
    rw [Option.map_id]
    rfl

/-- A curve whose gap has its maximum at three positions: the knee is the last of them. -/
theorem index?_of_flattens_plateau :
    Knee.Flattens [0, 1, 2, 3, 4] ([8, 4, 2, 0, 0] : List ℚ) ∧
    Knee.normalized? [0, 1, 2, 3, 4] = some ([0, 1 / 4, 1 / 2, 3 / 4, 1] : List ℚ) ∧
    Knee.normalized? [8, 4, 2, 0, 0] = some ([1, 1 / 2, 1 / 4, 0, 0] : List ℚ) ∧
    (⟨.convex, .decreasing, 1 / 2⟩ : KneeRule ℚ).index? [0, 1, 2, 3, 4] [8, 4, 2, 0, 0] = some 3 := by
  have flattens : Knee.Flattens [0, 1, 2, 3, 4] ([8, 4, 2, 0, 0] : List ℚ) := by
    refine ⟨by decide, by decide +kernel, by decide +kernel, ⟨8, by simp, 4, by simp, by decide⟩, ?_⟩
    intro i inside
    have : i < 3 := Nat.lt_of_add_lt_add_right inside
    interval_cases i <;> decide +kernel
  have scaledX : Knee.normalized? [0, 1, 2, 3, 4] = some ([0, 1 / 4, 1 / 2, 3 / 4, 1] : List ℚ) := by
    decide +kernel
  have scaledY : Knee.normalized? [8, 4, 2, 0, 0] = some ([1, 1 / 2, 1 / 4, 0, 0] : List ℚ) := by
    decide +kernel
  obtain ⟨xs, ys, m, hx, hy, -, -, top, knee⟩ :=
    index?_of_flattens (s := 1 / 2) (by decide) flattens (by norm_num)
  obtain rfl := Option.some.inj (scaledX.symm.trans hx)
  obtain rfl := Option.some.inj (scaledY.symm.trans hy)
  have last : m = 3 := by
    have inside : m < 5 := top.inside
    have most := top.most 3 (by decide)
    have strict := top.last 3 (by decide)
    interval_cases m
    · exact absurd most (by decide +kernel)
    · exact absurd (strict (by decide)) (by decide +kernel)
    · exact absurd (strict (by decide)) (by decide +kernel)
    · rfl
    · exact absurd most (by decide +kernel)
  subst last
  rw [if_pos (by decide +kernel)] at knee
  exact ⟨flattens, scaledX, scaledY, knee⟩

end KneeRule

end PlantEconomics
