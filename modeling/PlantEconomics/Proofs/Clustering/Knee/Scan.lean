import Mathlib.Data.Nat.Find
import PlantEconomics.Clustering.Knee

/-!
# What the knee scan finds

The scan goes over the gap curve once. It carries a threshold, the latest maximum and a count that
selects the next of the thresholds. Here is what it finds, said without a scan. At a position `i`
the threshold in force is that of the latest maximum, or zero if there has been a minimum since.
The knee is the latest maximum at the first position behind which the gap lies below the threshold
in force.

Nothing is assumed of the arithmetic, so all of this holds of machine numbers.

  * `Knee.Tracks`: what the cursor of the scan holds at a position, kept from each position to the
    next;
  * `Knee.ofGap?_eq_some_iff`, `Knee.ofGap?_eq_none_iff`: the scan against its description;
  * `KneeRule.knee_at_first_fall`: the same for the knee of a curve.
-/

namespace PlantEconomics

namespace Knee

variable {α : Type} [Scalar α] {gap : List α} {slack : α}

/-! ## §1. The threshold in force -/

/-- Whether `m` is the latest maximum at position `i`. -/
structure IsTop (gap : List α) (i m : Nat) : Prop where
  le : m ≤ i
  peak : isPeak gap m = true
  latest : ∀ j, m < j → j ≤ i → isPeak gap j = false

theorem IsTop.unique {i m m' : Nat} (h : IsTop gap i m) (h' : IsTop gap i m') : m = m' := by
  rcases Nat.lt_trichotomy m m' with less | same | more
  · have := h.latest m' less h'.le
    rw [h'.peak] at this
    cases this
  · exact same
  · have := h'.latest m more h.le
    rw [h.peak] at this
    cases this

/-- The threshold in force at position `i` if `m` is the latest maximum. -/
def limit (gap : List α) (slack : α) (m i : Nat) : α :=
  if ∃ j ≤ i, m ≤ j ∧ isDip gap j = true then 0 else at_ gap m - slack

/-- Whether the gap falls below the threshold in force behind position `i`, where `m` is the latest
maximum. -/
structure Falls (gap : List α) (slack : α) (i m : Nat) : Prop where
  inside : i + 1 < gap.length
  top : IsTop gap i m
  below : at_ gap (i + 1) < limit gap slack m i

theorem limit_self (i : Nat) :
    limit gap slack i i = if isDip gap i then 0 else at_ gap i - slack := by
  unfold limit
  refine if_congr ?_ rfl rfl
  constructor
  · rintro ⟨j, le, ge, dip⟩
    rwa [Nat.le_antisymm le ge] at dip
  · exact fun dip => ⟨i, Nat.le_refl i, Nat.le_refl i, dip⟩

theorem limit_succ {m i : Nat} (h : m ≤ i) :
    limit gap slack m (i + 1) = if isDip gap (i + 1) then 0 else limit gap slack m i := by
  unfold limit
  by_cases dip : isDip gap (i + 1) = true
  · rw [if_pos ⟨i + 1, Nat.le_refl _, by omega, dip⟩, if_pos dip]
  · rw [if_neg dip]
    refine if_congr ?_ rfl rfl
    constructor
    · rintro ⟨j, le, ge, found⟩
      have : j ≠ i + 1 := by
        rintro rfl
        exact dip found
      exact ⟨j, by omega, ge, found⟩
    · rintro ⟨j, le, ge, found⟩
      exact ⟨j, by omega, ge, found⟩

/-! ## §2. The count of maxima -/

/-- The maxima in front of a maximum are as many as come before it in the list of maxima. -/
theorem getElem?_peaks {i : Nat} (inside : i < gap.length) (peak : isPeak gap i = true) :
    (peaks gap)[(List.range i).countP (isPeak gap)]? = some i := by
  obtain ⟨n, hn⟩ : ∃ n, gap.length = i + (n + 1) := ⟨gap.length - i - 1, by omega⟩
  have split : peaks gap = (List.range i).filter (isPeak gap) ++
      i :: ((List.range n).map fun j => i + (j + 1)).filter (isPeak gap) := by
    unfold peaks
    rw [hn, List.range_add, List.filter_append, List.range_succ_eq_map, List.map_cons,
      List.map_map, Nat.add_zero, List.filter_cons_of_pos peak]
    rfl
  rw [split, List.countP_eq_length_filter, List.getElem?_append_right (Nat.le_refl _),
    Nat.sub_self, List.getElem?_cons_zero]

/-- So the threshold that the count selects is that of the maximum. -/
theorem getElem?_thresholds {i : Nat} (inside : i < gap.length) (peak : isPeak gap i = true) :
    (thresholds gap slack)[(List.range i).countP (isPeak gap)]? = some (at_ gap i - slack) := by
  unfold thresholds
  rw [List.getElem?_map, getElem?_peaks inside peak]
  rfl

/-! ## §3. The cursor -/

/-- What the cursor holds when the scan has come to position `i`. -/
structure Tracks (gap : List α) (slack : α) (i : Nat) (c : Cursor α) : Prop where
  top : IsTop gap i c.top
  threshold : c.threshold = limit gap slack c.top i
  passed : c.passed = (List.range (i + 1)).countP (isPeak gap)

/-- At a maximum only the count of those in front of it matters. -/
theorem tracks_arrive_of_peak {i : Nat} {c : Cursor α} (inside : i < gap.length)
    (peak : isPeak gap i = true) (passed : c.passed = (List.range i).countP (isPeak gap)) :
    Tracks gap slack i (c.arrive gap (thresholds gap slack) i) := by
  have selected : at_ (thresholds gap slack) c.passed = at_ gap i - slack := by
    unfold at_
    rw [List.getD_eq_getElem?_getD, passed, getElem?_thresholds inside peak]
    rfl
  have counted : c.passed + 1 = (List.range (i + 1)).countP (isPeak gap) := by
    rw [List.range_succ, List.countP_append, ← passed, List.countP_singleton, if_pos peak]
  have top : IsTop gap i i := ⟨Nat.le_refl i, peak, fun j _ _ => by omega⟩
  unfold Cursor.arrive
  rw [if_pos peak, selected]
  by_cases dip : isDip gap i = true
  · rw [if_pos dip]
    exact ⟨top, by rw [limit_self, if_pos dip], counted⟩
  · rw [if_neg dip]
    exact ⟨top, by rw [limit_self, if_neg dip], counted⟩

/-- **The cursor goes on to the next position.** -/
theorem Tracks.arrive {i : Nat} {c : Cursor α} (h : Tracks gap slack i c)
    (inside : i + 1 < gap.length) :
    Tracks gap slack (i + 1) (c.arrive gap (thresholds gap slack) (i + 1)) := by
  by_cases peak : isPeak gap (i + 1) = true
  · exact tracks_arrive_of_peak inside peak h.passed
  · have top : IsTop gap (i + 1) c.top := by
      refine ⟨Nat.le_succ_of_le h.top.le, h.top.peak, fun j after upTo => ?_⟩
      rcases Nat.lt_or_eq_of_le upTo with before | rfl
      · exact h.top.latest j after (by omega)
      · exact Bool.eq_false_iff.2 peak
    have counted : c.passed = (List.range (i + 1 + 1)).countP (isPeak gap) := by
      rw [List.range_succ, List.countP_append, ← h.passed, List.countP_singleton, if_neg peak,
        Nat.add_zero]
    unfold Cursor.arrive
    rw [if_neg peak]
    by_cases dip : isDip gap (i + 1) = true
    · rw [if_pos dip]
      exact ⟨top, by rw [limit_succ h.top.le, if_pos dip], counted⟩
    · rw [if_neg dip]
      exact ⟨top, by rw [limit_succ h.top.le, if_neg dip, h.threshold], counted⟩

/-- The cursor with which a scan from position `first` comes to its position number `k`. -/
def cursorAt (gap limits : List α) (first : Nat) : Nat → Cursor α
  | 0 => .start
  | k + 1 => (cursorAt gap limits first k).arrive gap limits (first + k)

/-- A scan looks at its positions with these cursors. -/
theorem scan_cursorAt (gap limits : List α) (first k left : Nat) :
    scan gap limits (cursorAt gap limits first k) (first + k) (left + 1) =
      if at_ gap (first + k + 1) < (cursorAt gap limits first (k + 1)).threshold then
        some (cursorAt gap limits first (k + 1)).top
      else scan gap limits (cursorAt gap limits first (k + 1)) (first + (k + 1)) left := rfl

/-- The first maximum is one, inside the curve, and there is none in front of it. -/
theorem of_head?_peaks {first : Nat} (h : (peaks gap).head? = some first) :
    first < gap.length ∧ isPeak gap first = true ∧ ∀ j < first, isPeak gap j = false := by
  unfold peaks at h
  rw [List.head?_filter, List.find?_range_eq_some] at h
  obtain ⟨peak, inside, none⟩ := h
  exact ⟨List.mem_range.1 inside, peak, fun j before => by simpa using none j before⟩

theorem countP_before_first {first : Nat} (h : (peaks gap).head? = some first) :
    (List.range first).countP (isPeak gap) = 0 := by
  rw [List.countP_eq_zero]
  intro j before
  rw [(of_head?_peaks h).2.2 j (List.mem_range.1 before)]
  exact Bool.false_ne_true

theorem tracks_first {first : Nat} (h : (peaks gap).head? = some first) :
    Tracks gap slack first (Cursor.start.arrive gap (thresholds gap slack) first) := by
  obtain ⟨inside, peak, -⟩ := of_head?_peaks h
  exact tracks_arrive_of_peak inside peak (countP_before_first h).symm

/-- **The run of the cursor.** Wherever the scan has come to, the cursor holds the latest maximum,
the threshold in force and the count of maxima. -/
theorem tracks_cursorAt {first : Nat} (h : (peaks gap).head? = some first) (k : Nat)
    (inside : first + k < gap.length) :
    Tracks gap slack (first + k) (cursorAt gap (thresholds gap slack) first (k + 1)) := by
  induction k with
  | zero => exact tracks_first h
  | succ k ih => exact (ih (by omega)).arrive inside

/-- The threshold that is looked up at a maximum is there, and it is that of the maximum. -/
theorem getElem?_thresholds_cursorAt {first : Nat} (h : (peaks gap).head? = some first) {i : Nat}
    (reached : first ≤ i) (inside : i < gap.length) (peak : isPeak gap i = true) :
    (thresholds gap slack)[(cursorAt gap (thresholds gap slack) first (i - first)).passed]? =
      some (at_ gap i - slack) := by
  have passed : (cursorAt gap (thresholds gap slack) first (i - first)).passed =
      (List.range i).countP (isPeak gap) := by
    obtain ⟨k, rfl⟩ := Nat.exists_eq_add_of_le reached
    rw [Nat.add_sub_cancel_left]
    cases k with
    | zero => exact (countP_before_first h).symm
    | succ k => exact (tracks_cursorAt h k (by omega)).passed
  rw [passed]
  exact getElem?_thresholds inside peak

/-! ## §4. The scan -/

/-- What a scan finds from its position number `k` on: the latest maximum at the first fall. The
induction is on the number of positions left, and the cursor is tracked at each of them. -/
theorem scan_eq_some_iff {first k left m : Nat} (h : (peaks gap).head? = some first)
    (room : first + k + left + 1 = gap.length) :
    scan gap (thresholds gap slack) (cursorAt gap (thresholds gap slack) first k) (first + k) left =
        some m ↔
      ∃ i, first + k ≤ i ∧ Falls gap slack i m ∧
        ∀ j, first + k ≤ j → j < i → ∀ m', ¬Falls gap slack j m' := by
  induction left generalizing k with
  | zero =>
    refine ⟨fun found => (by cases found), ?_⟩
    rintro ⟨i, reached, falls, -⟩
    have := falls.inside
    omega
  | succ left ih =>
    have tracked : Tracks gap slack (first + k)
        (cursorAt gap (thresholds gap slack) first (k + 1)) := tracks_cursorAt h k (by omega)
    rw [scan_cursorAt]
    split
    · next below =>
      rw [tracked.threshold] at below
      have falls : Falls gap slack (first + k) _ := ⟨by omega, tracked.top, below⟩
      constructor
      · intro found
        cases found
        exact ⟨first + k, Nat.le_refl _, falls, fun j reached before => by omega⟩
      · rintro ⟨i, reached, found, least⟩
        -- an earlier fall would be the first one
        rcases Nat.lt_or_eq_of_le reached with later | rfl
        · exact absurd falls (least _ (Nat.le_refl _) later _)
        · rw [found.top.unique tracked.top]
    · next notBelow =>
      rw [tracked.threshold] at notBelow
      have stays : ∀ m', ¬Falls gap slack (first + k) m' := by
        intro m' falls
        rw [falls.top.unique tracked.top] at falls
        exact notBelow falls.below
      rw [ih (by omega)]
      constructor
      · rintro ⟨i, reached, falls, least⟩
        refine ⟨i, by omega, falls, fun j from_ before => ?_⟩
        rcases Nat.lt_or_eq_of_le from_ with later | rfl
        · exact least j later before
        · exact stays
      · rintro ⟨i, reached, falls, least⟩
        rcases Nat.lt_or_eq_of_le reached with later | rfl
        · exact ⟨i, later, falls, fun j from_ => least j (by omega)⟩
        · exact absurd falls (stays m)

/-- **The knee of a gap curve is the latest maximum at its first fall.** -/
theorem ofGap?_eq_some_iff {m : Nat} :
    ofGap? gap slack = some m ↔
      ∃ i, Falls gap slack i m ∧ ∀ j < i, ∀ m', ¬Falls gap slack j m' := by
  unfold ofGap?
  cases hfirst : (peaks gap).head? with
  | none =>
    -- without a maximum nothing can fall
    have noPeak : peaks gap = [] := List.head?_eq_none_iff.1 hfirst
    refine ⟨fun h => (by cases h), ?_⟩
    rintro ⟨i, falls, -⟩
    have inside : m < gap.length := by
      have := falls.top.le
      have := falls.inside
      omega
    have : m ∈ peaks gap := List.mem_filter.2 ⟨List.mem_range.2 inside, falls.top.peak⟩
    rw [noPeak] at this
    cases this
  | some first =>
    obtain ⟨inside, -, none⟩ := of_head?_peaks hfirst
    have reached : ∀ {i m' : Nat}, Falls gap slack i m' → first ≤ i := by
      intro i m' falls
      by_contra before
      have := none m' (by have := falls.top.le; omega)
      rw [falls.top.peak] at this
      cases this
    show scan gap _ (cursorAt gap (thresholds gap slack) first 0) (first + 0) _ = _ ↔ _
    rw [scan_eq_some_iff hfirst (by omega)]
    constructor
    · rintro ⟨i, -, falls, least⟩
      exact ⟨i, falls, fun j before m' earlier => least j (reached earlier) before m' earlier⟩
    · rintro ⟨i, falls, least⟩
      exact ⟨i, reached falls, falls, fun j _ before => least j before⟩

/-- A gap curve without a fall has no knee. -/
theorem ofGap?_eq_none_iff : ofGap? gap slack = none ↔ ∀ i m, ¬Falls gap slack i m := by
  classical
  constructor
  · intro h i m falls
    -- the first of the falls would be a knee
    have some_fall : ∃ i, ∃ m, Falls gap slack i m := ⟨i, m, falls⟩
    obtain ⟨m', first⟩ := Nat.find_spec some_fall
    have found : ofGap? gap slack = some m' := by
      refine ofGap?_eq_some_iff.2 ⟨_, first, fun j before m'' earlier => ?_⟩
      exact Nat.find_min some_fall before ⟨m'', earlier⟩
    rw [h] at found
    cases found
  · intro none
    cases h : ofGap? gap slack with
    | none => rfl
    | some m =>
      obtain ⟨i, falls, -⟩ := ofGap?_eq_some_iff.1 h
      exact absurd falls (none i m)

/-- A knee is a position of the curve, and never the last one: behind it the gap has to fall. -/
theorem succ_lt_length_of_ofGap? {m : Nat} (h : ofGap? gap slack = some m) :
    m + 1 < gap.length := by
  obtain ⟨i, falls, -⟩ := ofGap?_eq_some_iff.1 h
  have := falls.top.le
  have := falls.inside
  omega

/-! ## §5. Lengths -/

theorem length_of_normalized? {v w : List α} (h : normalized? v = some w) :
    w.length = v.length := by
  cases v with
  | nil => cases h
  | cons a rest =>
    unfold normalized? at h
    dsimp only at h
    split at h
    · cases h
    · cases h
      exact List.length_map _

@[simp] theorem length_turned (c : Curvature) (t : Trend) (v : List α) :
    (turned c t v).length = v.length := by
  cases c <;> cases t <;> simp [turned]

end Knee

/-! ## §6. The knee of a curve -/

namespace KneeRule

variable {α : Type} [Scalar α]

theorem gap?_eq {r : KneeRule α} {x y xs ys : List α} (hx : Knee.normalized? x = some xs)
    (hy : Knee.normalized? y = some ys) :
    r.gap? x y = some (List.zipWith (· - ·) (Knee.turned r.curvature r.trend ys) xs,
      Knee.meanStep xs) := by
  unfold gap?
  rw [hx, hy]
  rfl

theorem length_of_gap? {r : KneeRule α} {x y gap : List α} {step : α}
    (paired : y.length = x.length) (h : r.gap? x y = some (gap, step)) :
    gap.length = x.length := by
  cases hx : Knee.normalized? x with
  | none =>
    rw [gap?, hx] at h
    cases h
  | some xs =>
    cases hy : Knee.normalized? y with
    | none =>
      rw [gap?, hx, hy] at h
      cases h
    | some ys =>
      rw [gap?_eq hx hy] at h
      cases h
      rw [List.length_zipWith, Knee.length_turned, Knee.length_of_normalized? hx,
        Knee.length_of_normalized? hy, paired, Nat.min_self]

/-- The knee of the gap curve of a curve of three points or more. -/
def found? (r : KneeRule α) (x y : List α) : Option Nat :=
  if x.length < 3 ∨ y.length ≠ x.length then none
  else (r.gap? x y).bind fun g => Knee.ofGap? g.1 (r.sensitivity * Scalar.abs g.2)

theorem index?_eq_map (r : KneeRule α) (x y : List α) :
    r.index? x y = (r.found? x y).map (r.place x.length) := by
  unfold index? found?
  split
  · rfl
  · cases r.gap? x y with
    | none => rfl
    | some g =>
      rcases found : Knee.ofGap? g.1 (r.sensitivity * Scalar.abs g.2) with _ | i <;> simp [found]

theorem found?_eq {r : KneeRule α} {x y gap : List α} {step : α} (points : 3 ≤ x.length)
    (paired : y.length = x.length) (scaled : r.gap? x y = some (gap, step)) :
    r.found? x y = Knee.ofGap? gap (r.sensitivity * Scalar.abs step) := by
  unfold found?
  rw [if_neg (by omega), scaled]
  rfl

theorem succ_lt_of_found? {r : KneeRule α} {x y : List α} {m : Nat} (h : r.found? x y = some m) :
    m + 1 < x.length := by
  unfold found? at h
  split at h
  · cases h
  · next curve =>
    obtain ⟨⟨gap, step⟩, scaled, found⟩ := Option.bind_eq_some_iff.1 h
    rw [← length_of_gap? (by omega) scaled]
    exact Knee.succ_lt_length_of_ofGap? found

theorem lt_of_found? {r : KneeRule α} {x y : List α} {m : Nat} (h : r.found? x y = some m) :
    m < x.length :=
  Nat.lt_of_succ_lt (succ_lt_of_found? h)

/-- A curve that is looked at as it is has no knee at its last point. -/
theorem succ_lt_of_index? {r : KneeRule α} (straight : r.isReversed = false) {x y : List α}
    {i : Nat} (h : r.index? x y = some i) : i + 1 < x.length := by
  rw [index?_eq_map, Option.map_eq_some_iff] at h
  obtain ⟨m, found, placed⟩ := h
  have inPlace : r.place x.length m = m := by
    unfold place
    rw [straight]
    rfl
  rw [← placed, inPlace]
  exact succ_lt_of_found? found

omit [Scalar α] in
theorem place_lt (r : KneeRule α) {n i : Nat} (h : i < n) : r.place n i < n := by
  unfold place
  split <;> omega

/-- **The knee is the latest maximum at the first fall.** For a curve of three points or more that
can be scaled, the knee is the place of the latest maximum at the first position behind which the
gap lies below the threshold in force, and without such a position there is none. Whenever the scan
comes to a maximum, the threshold it looks up is there and is that of the maximum; and a knee is a
position of the curve. -/
theorem knee_at_first_fall {r : KneeRule α} {x y xs ys : List α} (points : 3 ≤ x.length)
    (paired : y.length = x.length) (hx : Knee.normalized? x = some xs)
    (hy : Knee.normalized? y = some ys) :
    let gap := List.zipWith (· - ·) (Knee.turned r.curvature r.trend ys) xs
    let slack := r.sensitivity * Scalar.abs (Knee.meanStep xs)
    let limits := Knee.thresholds gap slack
    gap.length = x.length ∧
    (∀ i m, Knee.Falls gap slack i m → (∀ j < i, ∀ m', ¬Knee.Falls gap slack j m') →
      r.index? x y = some (r.place x.length m)) ∧
    ((∀ i m, ¬Knee.Falls gap slack i m) → r.index? x y = none) ∧
    (∀ first, (Knee.peaks gap).head? = some first → ∀ i, first ≤ i → i < gap.length →
      Knee.Tracks gap slack i (Knee.cursorAt gap limits first (i + 1 - first)) ∧
      (Knee.isPeak gap i = true →
        limits[(Knee.cursorAt gap limits first (i - first)).passed]? =
          some (Knee.at_ gap i - slack))) ∧
    ∀ p, r.index? x y = some p → p < x.length := by
  intro gap slack limits
  have scaled := gap?_eq (r := r) hx hy
  have found := found?_eq points paired scaled
  refine ⟨length_of_gap? paired scaled, fun i m falls least => ?_, fun none => ?_,
    fun first hfirst i reached inside => ?_, fun p knee => ?_⟩
  · rw [index?_eq_map, found, Knee.ofGap?_eq_some_iff.2 ⟨i, falls, least⟩]
    rfl
  · rw [index?_eq_map, found, Knee.ofGap?_eq_none_iff.2 none]
    rfl
  · obtain ⟨k, rfl⟩ := Nat.exists_eq_add_of_le reached
    refine ⟨?_, Knee.getElem?_thresholds_cursorAt hfirst reached inside⟩
    rw [show first + k + 1 - first = k + 1 by omega]
    exact Knee.tracks_cursorAt hfirst k inside
  · rw [index?_eq_map, Option.map_eq_some_iff] at knee
    obtain ⟨m, atGap, rfl⟩ := knee
    exact r.place_lt (lt_of_found? atGap)

/-- A falling curve of three machine numbers: the gap is a quarter at the middle, and behind it, at
zero, lies below the threshold of an eighth. -/
theorem knee_at_first_fall_middle :
    let rule : KneeRule Float := ⟨.convex, .decreasing, 0.25⟩
    Knee.normalized? [1, 2, 3] = some ([0, 0.5, 1] : List Float) ∧
    Knee.normalized? [4, 1, 0] = some ([1, 0.25, 0] : List Float) ∧
    rule.index? [1, 2, 3] [4, 1, 0] = some 1 := by
  intro rule
  have hx : Knee.normalized? [1, 2, 3] = some ([0, 0.5, 1] : List Float) := by decide +kernel
  have hy : Knee.normalized? [4, 1, 0] = some ([1, 0.25, 0] : List Float) := by decide +kernel
  have hgap : List.zipWith (· - ·) (Knee.turned .convex .decreasing [1, 0.25, 0]) [0, 0.5, 1] =
      ([0, 0.25, 0] : List Float) := by decide +kernel
  have hslack : (0.25 : Float) * Scalar.abs (Knee.meanStep [0, 0.5, 1]) = 0.125 := by
    decide +kernel
  have falls : Knee.Falls ([0, 0.25, 0] : List Float) 0.125 1 1 :=
    ⟨by decide, ⟨by decide, by decide +kernel, fun j after upTo => absurd after (Nat.not_lt.2 upTo)⟩,
      by decide +kernel⟩
  have noPeak : Knee.isPeak ([0, 0.25, 0] : List Float) 0 = false := by decide +kernel
  obtain ⟨-, knee, -⟩ := knee_at_first_fall (r := rule) (by decide) (by decide) hx hy
  rw [hgap, hslack] at knee
  refine ⟨hx, hy, knee 1 1 falls fun j before m' earlier => ?_⟩
  obtain rfl : m' = 0 := by
    have := earlier.top.le
    omega
  have := earlier.top.peak
  rw [noPeak] at this
  cases this

end KneeRule

end PlantEconomics
