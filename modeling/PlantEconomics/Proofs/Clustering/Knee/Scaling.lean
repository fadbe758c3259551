import PlantEconomics.Proofs.Clustering.Knee.Scan
import PlantEconomics.Proofs.Exact

/-!
# Curves scaled to the unit square

With exact arithmetic a scaled curve is its share of the way from the least to the greatest value.
The knee is looked for on the scaled curve, so it does not see the units of the axes; and the four
kinds of curve are turned into one another by reading them from the other end and by subtracting
them from a constant.

  * `Knee.normalized?_eq`: scaling by the least and the greatest value;
  * `Knee.normalized?_affine`, `Knee.normalized?_reverse`, `Knee.normalized?_flip`: what scaling
    does to a curve with other units, read backwards, or upside down;
  * `KneeRule.index?_symmetric`: the four kinds of curve have one knee.
-/

namespace PlantEconomics

/-! ## §1. The least and the greatest value -/

namespace Knee

section Spans

variable {α : Type} [LinearOrder α]

/-- Whether values run from `lo` to `hi`, both among them. -/
structure Spans (v : List α) (lo hi : α) : Prop where
  lo_mem : lo ∈ v
  hi_mem : hi ∈ v
  lo_le : ∀ a ∈ v, lo ≤ a
  le_hi : ∀ a ∈ v, a ≤ hi

namespace Spans

variable {v : List α} {lo hi : α}

theorem le (h : Spans v lo hi) : lo ≤ hi := h.lo_le hi h.hi_mem

theorem unique {lo' hi' : α} (h : Spans v lo hi) (h' : Spans v lo' hi') : lo = lo' ∧ hi = hi' :=
  ⟨le_antisymm (h.lo_le lo' h'.lo_mem) (h'.lo_le lo h.lo_mem),
    le_antisymm (h'.le_hi hi h.hi_mem) (h.le_hi hi' h'.hi_mem)⟩

theorem reverse (h : Spans v lo hi) : Spans v.reverse lo hi :=
  ⟨List.mem_reverse.2 h.lo_mem, List.mem_reverse.2 h.hi_mem,
    fun a ha => h.lo_le a (List.mem_reverse.1 ha), fun a ha => h.le_hi a (List.mem_reverse.1 ha)⟩

/-- A map that keeps the order keeps the ends. -/
theorem map {f : α → α} (h : Spans v lo hi) (hf : Monotone f) : Spans (v.map f) (f lo) (f hi) where
  lo_mem := List.mem_map_of_mem h.lo_mem
  hi_mem := List.mem_map_of_mem h.hi_mem
  lo_le := List.forall_mem_map.2 fun a ha => hf (h.lo_le a ha)
  le_hi := List.forall_mem_map.2 fun a ha => hf (h.le_hi a ha)

/-- A map that turns the order round exchanges the ends. -/
theorem map_antitone {f : α → α} (h : Spans v lo hi) (hf : Antitone f) :
    Spans (v.map f) (f hi) (f lo) where
  lo_mem := List.mem_map_of_mem h.hi_mem
  hi_mem := List.mem_map_of_mem h.lo_mem
  lo_le := List.forall_mem_map.2 fun a ha => hf (h.le_hi a ha)
  le_hi := List.forall_mem_map.2 fun a ha => hf (h.lo_le a ha)

end Spans

end Spans

variable {α : Type} [Field α] [LinearOrder α]

/-- The ends of a list are found by going through it once. -/
theorem spans_foldl (a : α) (rest : List α) :
    Spans (a :: rest) (rest.foldl Scalar.smaller a) (rest.foldl Scalar.larger a) := by
  induction rest using List.reverseRecOn with
  | nil => exact ⟨by simp, by simp, by simp, by simp⟩
  | append_singleton rest b ih =>
    rw [List.foldl_append, List.foldl_append, List.foldl_cons, List.foldl_cons, List.foldl_nil,
      List.foldl_nil, Scalar.smaller_eq_min, Scalar.larger_eq_max, ← List.cons_append]
    refine ⟨?_, ?_, ?_, ?_⟩
    · rcases min_choice (rest.foldl Scalar.smaller a) b with eq | eq <;> rw [eq]
      · exact List.mem_append_left _ ih.lo_mem
      · exact List.mem_append_right _ List.mem_cons_self
    · rcases max_choice (rest.foldl Scalar.larger a) b with eq | eq <;> rw [eq]
      · exact List.mem_append_left _ ih.hi_mem
      · exact List.mem_append_right _ List.mem_cons_self
    · intro c hc
      rcases List.mem_append.1 hc with hc | hc
      · exact (min_le_left _ _).trans (ih.lo_le c hc)
      · exact (min_le_right _ _).trans (List.mem_singleton.1 hc).ge
    · intro c hc
      rcases List.mem_append.1 hc with hc | hc
      · exact (ih.le_hi c hc).trans (le_max_left _ _)
      · exact (List.mem_singleton.1 hc).le.trans (le_max_right _ _)

theorem exists_spans {v : List α} (h : v ≠ []) : ∃ lo hi, Spans v lo hi := by
  cases v with
  | nil => exact absurd rfl h
  | cons a rest => exact ⟨_, _, spans_foldl a rest⟩

theorem greatest_eq {v : List α} {lo hi : α} (h : Spans v lo hi) : greatest v = hi := by
  cases v with
  | nil => exact absurd h.lo_mem List.not_mem_nil
  | cons a rest => exact ((spans_foldl a rest).unique h).2

/-- A scaled curve is turned upside down by subtracting it from one. -/
theorem turned_falling {w : List α} (h : Spans w 0 1) :
    turned .convex .decreasing w = w.map (1 - ·) := by
  rw [turned, greatest_eq h]

/-- A curve that is turned by reading it backwards is turned as the curve read backwards. -/
theorem turned_reverse_convex {w : List α} (h : Spans w 0 1) :
    turned .convex .increasing w = turned .convex .decreasing w.reverse := by
  rw [turned_falling h.reverse, turned, greatest_eq h]

/-! ## §2. Scaling -/

section Share

variable {α : Type} [Field α]

/-- The share of the way from `lo` to `hi`. -/
def share (lo hi a : α) : α := (a - lo) / (hi - lo)

theorem share_lo (lo hi : α) : share lo hi lo = 0 := by
  rw [share, sub_self, zero_div]

/-- Other units do not change a share. -/
theorem share_affine {k : α} (hk : k ≠ 0) (c lo hi a : α) :
    share (k * lo + c) (k * hi + c) (k * a + c) = share lo hi a := by
  unfold share
  rw [add_sub_add_right_eq_sub, add_sub_add_right_eq_sub, ← mul_sub, ← mul_sub,
    mul_div_mul_left _ _ hk]

end Share

variable [IsStrictOrderedRing α]

theorem share_hi {lo hi : α} (h : lo < hi) : share lo hi hi = 1 := div_self (sub_pos.2 h).ne'

theorem share_strictMono {lo hi : α} (h : lo < hi) : StrictMono (share lo hi) := fun _ _ less =>
  div_lt_div_of_pos_right (sub_lt_sub_right less lo) (sub_pos.2 h)

/-- Upside down it is the share of the other part of the way. -/
theorem share_flip {lo hi : α} (h : lo < hi) (d a : α) :
    share (d - hi) (d - lo) (d - a) = 1 - share lo hi a := by
  have : hi - lo ≠ 0 := (sub_pos.2 h).ne'
  unfold share
  rw [sub_sub_sub_cancel_left, sub_sub_sub_cancel_left, eq_sub_iff_add_eq, ← add_div,
    sub_add_sub_cancel, div_self this]

/-- **Values are scaled by their least and their greatest**, if these differ. -/
theorem normalized?_eq {v : List α} {lo hi : α} (h : Spans v lo hi) :
    normalized? v = if lo < hi then some (v.map (share lo hi)) else none := by
  cases v with
  | nil => exact absurd h.lo_mem List.not_mem_nil
  | cons a rest =>
    obtain ⟨least, most⟩ := (spans_foldl a rest).unique h
    unfold normalized?
    dsimp only
    rw [least, most, Scalar.isFinite_eq_true]
    by_cases differ : lo < hi
    · rw [if_neg (by simpa using differ), if_pos differ]
      rfl
    · rw [if_pos (by simpa using differ), if_neg differ]

theorem normalized?_eq_some_iff {v w : List α} :
    normalized? v = some w ↔ ∃ lo hi, Spans v lo hi ∧ lo < hi ∧ v.map (share lo hi) = w := by
  constructor
  · intro scaled
    have : v ≠ [] := by
      rintro rfl
      cases scaled
    obtain ⟨lo, hi, h⟩ := exists_spans this
    rw [normalized?_eq h] at scaled
    split at scaled
    · next differ => exact ⟨lo, hi, h, differ, Option.some.inj scaled⟩
    · cases scaled
  · rintro ⟨lo, hi, h, differ, rfl⟩
    rw [normalized?_eq h, if_pos differ]

/-- Scaled values run from zero to one. -/
theorem spans_of_normalized? {v w : List α} (h : normalized? v = some w) : Spans w 0 1 := by
  obtain ⟨lo, hi, spans, differ, rfl⟩ := normalized?_eq_some_iff.1 h
  have := spans.map (share_strictMono differ).monotone
  rwa [share_lo, share_hi differ] at this

/-- Scaling does not see the units. -/
theorem normalized?_affine {k : α} (hk : 0 < k) (c : α) (v : List α) :
    normalized? (v.map (k * · + c)) = normalized? v := by
  rcases eq_or_ne v [] with rfl | some_value
  · rfl
  · obtain ⟨lo, hi, h⟩ := exists_spans some_value
    have increasing : StrictMono (k * · + c) := fun a b less =>
      add_lt_add_left (mul_lt_mul_of_pos_left less hk) c
    rw [normalized?_eq h, normalized?_eq (h.map increasing.monotone)]
    refine if_congr increasing.lt_iff_lt ?_ rfl
    rw [List.map_map]
    congr 2
    funext a
    exact share_affine hk.ne' c lo hi a

/-- Values read backwards are scaled as they are, read backwards. -/
theorem normalized?_reverse (v : List α) :
    normalized? v.reverse = (normalized? v).map List.reverse := by
  rcases eq_or_ne v [] with rfl | some_value
  · rfl
  · obtain ⟨lo, hi, h⟩ := exists_spans some_value
    rw [normalized?_eq h, normalized?_eq h.reverse, List.map_reverse]
    split <;> rfl

/-- Values upside down are scaled as they are, upside down. -/
theorem normalized?_flip (d : α) (v : List α) :
    normalized? (v.map (d - ·)) = (normalized? v).map fun w => w.map (1 - ·) := by
  rcases eq_or_ne v [] with rfl | some_value
  · rfl
  · obtain ⟨lo, hi, h⟩ := exists_spans some_value
    have decreasing : Antitone (d - ·) := fun a b le => sub_le_sub_left le d
    rw [normalized?_eq h, normalized?_eq (h.map_antitone decreasing)]
    by_cases differ : lo < hi
    · rw [if_pos differ, if_pos (sub_lt_sub_left differ d), Option.map_some, List.map_map,
        List.map_map]
      congr 2
      funext a
      exact share_flip differ d a
    · rw [if_neg differ, if_neg fun less => differ (sub_lt_sub_iff_left d |>.1 less)]
      rfl

/-- Upside down a scaled curve still runs from zero to one. -/
theorem Spans.flip {w : List α} (h : Spans w 0 1) : Spans (w.map (1 - ·)) 0 1 := by
  have := h.map_antitone (f := (1 - ·)) fun a b le => sub_le_sub_left le 1
  rwa [sub_self, sub_zero] at this

/-- Twice upside down is the curve itself. -/
theorem turned_flip {w : List α} (h : Spans w 0 1) :
    turned .convex .decreasing (w.map (1 - ·)) = turned .concave .increasing w := by
  rw [turned_falling h.flip, turned, List.map_map]
  calc w.map _ = w.map id := List.map_congr_left fun a _ => sub_sub_cancel 1 a
    _ = w := List.map_id w

end Knee

/-! ## §3. One knee for four kinds of curve -/

namespace KneeRule

section Congr

variable {α : Type} [Scalar α]

/-- Curves with the same scaled `x` that are turned into the same curve have the same gap. -/
theorem gap?_congr {r r' : KneeRule α} {x x' y y' : List α}
    (abscissas : Knee.normalized? x = Knee.normalized? x')
    (ordinates : (Knee.normalized? y).map (Knee.turned r.curvature r.trend) =
      (Knee.normalized? y').map (Knee.turned r'.curvature r'.trend)) :
    r.gap? x y = r'.gap? x' y' := by
  have unfolded (r : KneeRule α) (x y : List α) : r.gap? x y =
      (Knee.normalized? x).bind fun xs => ((Knee.normalized? y).map
        (Knee.turned r.curvature r.trend)).map fun t => (List.zipWith (· - ·) t xs,
          Knee.meanStep xs) := by
    unfold gap?
    cases Knee.normalized? x <;> cases Knee.normalized? y <;> rfl
  rw [unfolded, unfolded, abscissas, ordinates]

/-- Curves of the same length with the same gap have their knee at the same position of it. -/
theorem found?_congr {r r' : KneeRule α} {x x' y y' : List α} (hx : x.length = x'.length)
    (hy : y.length = y'.length) (same : r.gap? x y = r'.gap? x' y')
    (slack : r.sensitivity = r'.sensitivity) : r.found? x y = r'.found? x' y' := by
  unfold found?
  rw [hx, hy, same, slack]

/-- Where the curve was read from the other end for the gap curve, so is the position. -/
theorem index?_of_found?_eq {r r' : KneeRule α} {x y y' : List α}
    (same : r.found? x y = r'.found? x y') (plain : r'.isReversed = false)
    (reversed : r.isReversed = true) :
    (∀ i < x.length, r.index? x y = some (x.length - 1 - i) ↔ r'.index? x y' = some i) ∧
    (r.index? x y = none ↔ r'.index? x y' = none) := by
  have placed (n i : Nat) : r.place n i = n - 1 - i := if_pos reversed
  have kept (n i : Nat) : r'.place n i = i := if_neg (by simp [plain])
  rw [index?_eq_map, index?_eq_map, same]
  refine ⟨fun i inside => ?_, by simp only [Option.map_eq_none_iff]⟩
  cases found : r'.found? x y' with
  | none => simp
  | some m =>
    have := lt_of_found? found
    simp only [Option.map_some, Option.some.injEq, placed, kept]
    omega

end Congr

variable {α : Type} [Field α] [LinearOrder α] [IsStrictOrderedRing α]

/-- The knee does not see the units of the axes. -/
theorem index?_affine (r : KneeRule α) {a c : α} (ha : 0 < a) (hc : 0 < c) (b d : α)
    (x y : List α) : r.index? (x.map (a * · + b)) (y.map (c * · + d)) = r.index? x y := by
  rw [index?_eq_map, index?_eq_map, List.length_map]
  congr 1
  refine found?_congr (List.length_map _) (List.length_map _) (gap?_congr ?_ ?_) rfl
  · exact Knee.normalized?_affine ha b x
  · rw [Knee.normalized?_affine hc]

/-- The knee of a flattening rise is that of the fall upside down. -/
theorem index?_flip (s d : α) (x y : List α) :
    (⟨.concave, .increasing, s⟩ : KneeRule α).index? x y =
      (⟨.convex, .decreasing, s⟩ : KneeRule α).index? x (y.map (d - ·)) := by
  rw [index?_eq_map, index?_eq_map]
  show Option.map id _ = Option.map id _
  congr 1
  refine found?_congr rfl (List.length_map _).symm (gap?_congr rfl ?_) rfl
  rw [Knee.normalized?_flip, Option.map_map]
  cases scaled : Knee.normalized? y with
  | none => rfl
  | some ys => exact congrArg some (Knee.turned_flip (Knee.spans_of_normalized? scaled)).symm

/-- A steepening rise has the gap curve of the fall that it is from the other end. -/
theorem found?_reverse_convex (s : α) (x y : List α) :
    (⟨.convex, .increasing, s⟩ : KneeRule α).found? x y =
      (⟨.convex, .decreasing, s⟩ : KneeRule α).found? x y.reverse := by
  refine found?_congr rfl List.length_reverse.symm (gap?_congr rfl ?_) rfl
  rw [Knee.normalized?_reverse, Option.map_map]
  cases scaled : Knee.normalized? y with
  | none => rfl
  | some ys => exact congrArg some (Knee.turned_reverse_convex (Knee.spans_of_normalized? scaled))

/-- A steepening fall has the gap curve of the rise that it is from the other end. -/
theorem found?_reverse_concave (s : α) (x y : List α) :
    (⟨.concave, .decreasing, s⟩ : KneeRule α).found? x y =
      (⟨.concave, .increasing, s⟩ : KneeRule α).found? x y.reverse := by
  refine found?_congr rfl List.length_reverse.symm (gap?_congr rfl ?_) rfl
  rw [Knee.normalized?_reverse, Option.map_map]
  rfl

/-- **The four kinds of curve have one knee.** The knee does not see the units of the axes; the
knee of a flattening rise is that of the fall that one gets by subtracting it from a constant; and
the knee of a curve that steepens is, counted from the other end, the knee of the curve that one
gets by reading it backwards. -/
theorem index?_symmetric (s : α) (x y : List α) :
    (∀ (r : KneeRule α) (a b c d : α), 0 < a → 0 < c →
      r.index? (x.map (a * · + b)) (y.map (c * · + d)) = r.index? x y) ∧
    (∀ d, (⟨.concave, .increasing, s⟩ : KneeRule α).index? x y =
      (⟨.convex, .decreasing, s⟩ : KneeRule α).index? x (y.map (d - ·))) ∧
    ((∀ i < x.length,
      (⟨.convex, .increasing, s⟩ : KneeRule α).index? x y = some (x.length - 1 - i) ↔
        (⟨.convex, .decreasing, s⟩ : KneeRule α).index? x y.reverse = some i) ∧
      ((⟨.convex, .increasing, s⟩ : KneeRule α).index? x y = none ↔
        (⟨.convex, .decreasing, s⟩ : KneeRule α).index? x y.reverse = none)) ∧
    ((∀ i < x.length,
      (⟨.concave, .decreasing, s⟩ : KneeRule α).index? x y = some (x.length - 1 - i) ↔
        (⟨.concave, .increasing, s⟩ : KneeRule α).index? x y.reverse = some i) ∧
      ((⟨.concave, .decreasing, s⟩ : KneeRule α).index? x y = none ↔
        (⟨.concave, .increasing, s⟩ : KneeRule α).index? x y.reverse = none)) :=
  ⟨fun r _ b _ d ha hc => r.index?_affine ha hc b d x y, fun d => index?_flip s d x y,
    index?_of_found?_eq (found?_reverse_convex s x y) rfl rfl,
    index?_of_found?_eq (found?_reverse_concave s x y) rfl rfl⟩

/-- One lopsided curve with other units, upside down, and read from the other end. -/
theorem index?_symmetric_lopsided :
    let x : List ℚ := [0, 1, 2, 3, 4]
    (⟨.convex, .decreasing, 1⟩ : KneeRule ℚ).index? x [20, 4, 1, 0, 0] = some 1 ∧
    (⟨.convex, .decreasing, 1⟩ : KneeRule ℚ).index? (x.map (2 * · + 7))
      ([20, 4, 1, 0, 0].map (3 * · + 1)) = some 1 ∧
    (⟨.concave, .increasing, 1⟩ : KneeRule ℚ).index? x [0, 16, 19, 20, 20] = some 1 ∧
    (⟨.convex, .increasing, 1⟩ : KneeRule ℚ).index? x [0, 0, 1, 4, 20] = some 3 ∧
    (⟨.concave, .decreasing, 1⟩ : KneeRule ℚ).index? x [20, 20, 19, 16, 0] = some 3 := by
  intro x
  have fall : (⟨.convex, .decreasing, 1⟩ : KneeRule ℚ).index? x [20, 4, 1, 0, 0] = some 1 := by
    decide +kernel
  have upside : ([0, 16, 19, 20, 20] : List ℚ).map (20 - ·) = [20, 4, 1, 0, 0] := by decide +kernel
  have rise : (⟨.concave, .increasing, 1⟩ : KneeRule ℚ).index? x [0, 16, 19, 20, 20] = some 1 := by
    rw [(index?_symmetric 1 x [0, 16, 19, 20, 20]).2.1 20, upside]
    exact fall
  refine ⟨fall, ?_, rise, ?_, ?_⟩
  · exact ((index?_symmetric 1 x [20, 4, 1, 0, 0]).1 _ 2 7 3 1 (by norm_num) (by norm_num)).trans fall
  · exact ((index?_symmetric 1 x [0, 0, 1, 4, 20]).2.2.1.1 1 (by decide)).2 fall
  · exact ((index?_symmetric 1 x [20, 20, 19, 16, 0]).2.2.2.1 1 (by decide)).2 rise

end KneeRule

end PlantEconomics
