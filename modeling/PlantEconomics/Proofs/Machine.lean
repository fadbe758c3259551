import Mathlib
import PlantEconomics.Scalar

/-!
# Machine numbers

Machine numbers are no field: sums are rounded, and some operations give a value that is no number.
Such a value does not compare, and a threshold tells nothing about it. Here is what the means of a
clustering need. A number stays one when finite numbers are added, though the sum may become
infinite, and when it is divided by a count; numbers compare in an order, so that of two of them one
is at most the other; and squares of numbers, and sums of squares, are numbers.

The proofs go through the model of machine numbers: `kind` unpacks a number, the operations work on
what is unpacked, and packing loses nothing that matters here.
-/

namespace PlantEconomics

namespace Machine

open Float.Model Float.Model.UnpackedFloat

/-! ## §1. Kinds of values -/

/-- What a machine number stands for: an infinity, no number, a zero, or a mantissa with its
exponent. -/
def kind (x : Float) : UnpackedFloat := x.toModel.unpack

/-- Whether a machine number is a number. -/
def IsNumber (x : Float) : Prop := kind x ≠ .notANumber

theorem kind_add (x y : Float) :
    kind (x + y) = (Float.Model.pack (.add Format.binary64 (kind x) (kind y))).unpack := rfl

theorem kind_sub (x y : Float) :
    kind (x - y) = (Float.Model.pack (.sub Format.binary64 (kind x) (kind y))).unpack := rfl

theorem kind_mul (x y : Float) :
    kind (x * y) = (Float.Model.pack (.mul Format.binary64 (kind x) (kind y))).unpack := rfl

theorem kind_div (x y : Float) :
    kind (x / y) = (Float.Model.pack (.div Format.binary64 (kind x) (kind y))).unpack := rfl

theorem unpack_pack_notANumber : (Float.Model.pack .notANumber).unpack = .notANumber := rfl

theorem unpack_eq_notANumber {b : BitVec Format.binary64.numBits}
    (h : UnpackedFloat.unpack Format.binary64 b = .notANumber) :
    unpackExponent b = -1#_ ∧ unpackMantissa b ≠ 0#_ := by
  unfold UnpackedFloat.unpack at h
  dsimp only at h
  split at h
  · next exponent =>
    split at h
    · cases h
    · next mantissa => exact ⟨exponent, mantissa⟩
  · split at h
    · split at h <;> cases h
    · cases h

/-- Packing makes no number of nothing but what is no number already. -/
theorem unpack_pack_ne_notANumber {f : UnpackedFloat} (h : f ≠ .notANumber) :
    (Float.Model.pack f).unpack ≠ .notANumber := by
  intro packed
  obtain ⟨exponent, mantissa⟩ := unpack_eq_notANumber (show UnpackedFloat.unpack Format.binary64
    (UnpackedFloat.pack Format.binary64 f) = .notANumber from packed)
  cases f with
  | notANumber => exact h rfl
  | infinity s => simp [UnpackedFloat.pack, packedInfinity] at mantissa
  | zero s => simp [UnpackedFloat.pack, packedZero] at mantissa
  | finite s m e hm =>
    -- on overflow an infinity is packed, and otherwise the exponent is not all ones
    unfold UnpackedFloat.pack at exponent mantissa
    dsimp only at exponent mantissa
    split at exponent
    · next large =>
      rw [if_pos large] at mantissa
      simp [packedInfinity] at mantissa
    · next small =>
      split at exponent
      · rw [unpackExponent_packComponents] at exponent
        have bits := congrArg BitVec.toNat exponent
        rw [BitVec.toNat_ofNat, BitVec.neg_one_eq_allOnes, BitVec.toNat_allOnes] at bits
        have below := Nat.mod_eq_of_lt (show
          (e + Format.binary64.exponentBias + Format.binary64.mantissaBitsWithoutImplicit).toNat <
            2 ^ Format.binary64.exponentBits by omega)
        omega
      · rw [unpackExponent_packComponents] at exponent
        exact absurd exponent (by decide)

/-! ## §2. Order -/

/-- Where a value stands among the numbers: by its sign and whether it is infinite, then by the
exponent, then by the mantissa. -/
def place : UnpackedFloat → ℤ ×ₗ ℤ ×ₗ ℤ
  | .infinity .negative => toLex (-2, toLex (0, 0))
  | .finite .negative m e _ => toLex (-1, toLex (-e, -(m : ℤ)))
  | .notANumber => toLex (0, toLex (0, 0))
  | .zero _ => toLex (0, toLex (0, 0))
  | .finite .positive m e _ => toLex (1, toLex (e, (m : ℤ)))
  | .infinity .positive => toLex (2, toLex (0, 0))

theorem compare_toLex (x x' y y' z z' : ℤ) :
    compare (toLex (x, toLex (y, z)) : ℤ ×ₗ ℤ ×ₗ ℤ) (toLex (x', toLex (y', z'))) =
      (compare x x').then ((compare y y').then (compare z z')) := by
  rw [Prod.Lex.compare_def]
  show (compare x x').then (compare (toLex (y, z)) (toLex (y', z'))) = _
  rw [Prod.Lex.compare_def]
  rfl

theorem compare_neg (x y : ℤ) : compare (-x) (-y) = compare y x := by
  rw [← cmp_eq_compare, ← cmp_eq_compare]
  exact StrictAnti.cmp_map_eq (fun _ _ => neg_lt_neg) x y

theorem compare_cast (m n : ℕ) : compare (m : ℤ) n = compare m n := by
  rw [← cmp_eq_compare, ← cmp_eq_compare]
  exact Nat.strictMono_cast.cmp_map_eq m n

/-- Numbers compare by their places. -/
theorem compare_eq {a b : UnpackedFloat} (ha : a ≠ .notANumber) (hb : b ≠ .notANumber) :
    a.compare b = some (compare (place a) (place b)) := by
  -- all pairs of kinds are decided by the signs, but for two mantissas of the same sign
  cases a with
  | notANumber => exact absurd rfl ha
  | infinity s =>
    cases b with
    | notANumber => exact absurd rfl hb
    | infinity t => cases s <;> cases t <;> rfl
    | zero t => cases s <;> rfl
    | finite t m e hm => cases s <;> cases t <;> simp only [place, compare_toLex] <;> rfl
  | zero s =>
    cases b with
    | notANumber => exact absurd rfl hb
    | infinity t => cases t <;> rfl
    | zero t => rfl
    | finite t m e hm => cases t <;> simp only [place, compare_toLex] <;> rfl
  | finite s m e hm =>
    cases b with
    | notANumber => exact absurd rfl hb
    | infinity t => cases s <;> cases t <;> simp only [place, compare_toLex] <;> rfl
    | zero t => cases s <;> simp only [place, compare_toLex] <;> rfl
    | finite t m' e' hm' =>
      cases s <;> cases t <;> simp only [place, compare_toLex, compare_neg, compare_cast]
      · show some ((compare e e').then (compare m m')).swap =
          some ((compare e' e).then (compare m' m))
        rw [Ordering.swap_then, ← Std.OrientedOrd.eq_swap, ← Std.OrientedOrd.eq_swap]
      · rfl
      · rfl
      · rfl

/-- So one number is below another one exactly when its place is. -/
theorem lt_iff {x y : Float} (hx : IsNumber x) (hy : IsNumber y) :
    x < y ↔ place (kind x) < place (kind y) := by
  rw [← compare_lt_iff_lt]
  show decide ((kind x).lt (kind y) = true) = true ↔ _
  rw [UnpackedFloat.lt, compare_eq hx hy]
  simp

/-- A value that equals itself is a number. -/
theorem isNumber_of_beq_self {x : Float} (h : (x == x) = true) : IsNumber x := by
  intro none
  have same : (kind x).beq (kind x) = true := h
  rw [none] at same
  exact absurd same (by decide)

/-- One number is at most another one exactly when its place is. -/
theorem le_iff {x y : Float} (hx : IsNumber x) (hy : IsNumber y) :
    x ≤ y ↔ place (kind x) ≤ place (kind y) := by
  rw [← compare_le_iff_le]
  show decide ((kind x).le (kind y) = true) = true ↔ _
  rw [UnpackedFloat.le, compare_eq hx hy]
  cases compare (place (kind x)) (place (kind y)) with
  | lt => exact ⟨fun _ => nofun, fun _ => rfl⟩
  | eq => exact ⟨fun _ => nofun, fun _ => rfl⟩
  | gt => exact ⟨nofun, fun h => absurd rfl h⟩

/-- A number equals itself. -/
theorem IsNumber.beq_self {x : Float} (h : IsNumber x) : (x == x) = true := by
  show (kind x).beq (kind x) = true
  rw [UnpackedFloat.beq, compare_eq h h, Std.ReflOrd.compare_self]
  rfl

/-- If a number is not below another one, the other is at most it. -/
theorem le_of_not_lt {x y : Float} (hx : IsNumber x) (hy : IsNumber y) (h : ¬x < y) : y ≤ x := by
  rw [le_iff hy hx]
  exact not_lt.1 (mt (lt_iff hx hy).2 h)

/-- Only numbers are at most one another. -/
theorem isNumber_of_le {x y : Float} (h : x ≤ y) : IsNumber x ∧ IsNumber y := by
  have compared : (kind x).le (kind y) = true := of_decide_eq_true h
  constructor
  · intro none
    rw [none] at compared
    cases compared
  · intro none
    rw [none] at compared
    cases hx : kind x <;> rw [hx] at compared <;> cases compared

theorem le_trans {x y z : Float} (below : x ≤ y) (above : y ≤ z) : x ≤ z := by
  obtain ⟨hx, hy⟩ := isNumber_of_le below
  obtain ⟨-, hz⟩ := isNumber_of_le above
  rw [le_iff hx hy] at below
  rw [le_iff hy hz] at above
  exact (le_iff hx hz).2 (below.trans above)

/-- A number that is below another one is at most it. -/
theorem le_of_lt {x y : Float} (hx : IsNumber x) (hy : IsNumber y) (h : x < y) : x ≤ y :=
  (le_iff hx hy).2 ((lt_iff hx hy).1 h).le

/-- The larger of two numbers is at most what both are. -/
theorem larger_le_iff {x y z : Float} (hx : IsNumber x) (hy : IsNumber y) :
    Scalar.larger x y ≤ z ↔ x ≤ z ∧ y ≤ z := by
  unfold Scalar.larger
  split
  · next below => exact ⟨fun h => ⟨le_trans (le_of_lt hx hy below) h, h⟩, And.right⟩
  · next above =>
    rw [if_pos hx.beq_self]
    exact ⟨fun h => ⟨h, le_trans (le_of_not_lt hx hy above) h⟩, And.left⟩

/-! ## §3. Sums -/

/-- A finite number is neither infinite nor no number. -/
theorem kind_of_isFinite {x : Float} (h : Scalar.isFinite x = true) :
    kind x ≠ .notANumber ∧ ∀ s, kind x ≠ .infinity s := by
  have same : (kind (x - x)).beq (kind 0.0) = true := h
  -- a value whose difference from itself is no number does not compare equal to zero
  have difference : kind (x - x) ≠ .notANumber := by
    intro none
    rw [none] at same
    exact absurd same (by decide)
  rw [kind_sub] at difference
  refine ⟨fun none => ?_, fun s infinite => ?_⟩
  · rw [none] at difference
    exact difference unpack_pack_notANumber
  · rw [infinite] at difference
    cases s <;> exact difference unpack_pack_notANumber

theorem round_ne_notANumber (s : Sign) (m : Nat) (e : Int) (a : Accuracy) :
    roundWithAccuracy Format.binary64 s m e a ≠ .notANumber := by
  unfold roundWithAccuracy
  dsimp only
  split <;> simp

theorem normalize_ne_notANumber (m : Int) (e : Int) (s : Sign) :
    normalize Format.binary64 m e s ≠ .notANumber := by
  unfold UnpackedFloat.normalize
  split
  · exact round_ne_notANumber _ _ _ _
  · simp
  · exact round_ne_notANumber _ _ _ _

/-- A number stays one when a finite number is added. -/
theorem IsNumber.add {x y : Float} (hx : IsNumber x) (hy : Scalar.isFinite y = true) :
    IsNumber (x + y) := by
  -- only two infinities of different signs could give no number, and the second value is none
  obtain ⟨number, bounded⟩ := kind_of_isFinite hy
  unfold IsNumber at hx ⊢
  rw [kind_add]
  apply unpack_pack_ne_notANumber
  cases hkx : kind x with
  | notANumber => exact absurd hkx hx
  | infinity s =>
    cases hky : kind y with
    | notANumber => exact absurd hky number
    | infinity t => exact absurd hky (bounded t)
    | zero t => simp [UnpackedFloat.add]
    | finite t m e hm => simp [UnpackedFloat.add]
  | zero s =>
    cases hky : kind y with
    | notANumber => exact absurd hky number
    | infinity t => exact absurd hky (bounded t)
    | zero t => cases s <;> cases t <;> simp [UnpackedFloat.add]
    | finite t m e hm => simp [UnpackedFloat.add]
  | finite s m e hm =>
    cases hky : kind y with
    | notANumber => exact absurd hky number
    | infinity t => exact absurd hky (bounded t)
    | zero t => simp [UnpackedFloat.add]
    | finite t m' e' hm' =>
      unfold UnpackedFloat.add
      exact normalize_ne_notANumber _ _ _

/-! ## §4. Counts -/

/-- Of a mantissa with at least 53 bits the first 53 are left. -/
theorem shift_bounds {m : Nat} (hm : 2 ^ 52 ≤ m) :
    2 ^ 52 ≤ m / 2 ^ (m.log2 - 52) ∧ m / 2 ^ (m.log2 - 52) < 2 ^ 53 := by
  have positive : m ≠ 0 := by omega
  have bits : 52 ≤ m.log2 := (Nat.le_log2 positive).2 hm
  constructor
  · rw [Nat.le_div_iff_mul_le (Nat.two_pow_pos _), ← Nat.pow_add, Nat.add_sub_cancel' bits]
    exact Nat.log2_self_le positive
  · rw [Nat.div_lt_iff_lt_mul (Nat.two_pow_pos _), ← Nat.pow_add,
      show 53 + (m.log2 - 52) = m.log2 + 1 by omega]
    exact Nat.lt_log2_self

/-- Shifting such a mantissa to its target drops the other bits. -/
theorem shiftToTargetExponent_of_le {m : Nat} {e : Int} (a : Accuracy) (hm : 2 ^ 52 ≤ m)
    (he : -1074 ≤ e) :
    shiftToTargetExponent Format.binary64 m e a =
      (ExtendedMantissa.ofMantissaAndAccuracy m a >>> (m.log2 - 52),
        e + ((m.log2 - 52 : Nat) : Int)) := by
  have bits : 52 ≤ m.log2 := (Nat.le_log2 (by omega)).2 hm
  have target : Format.binary64.targetExponent (totalExponent m e) =
      max ((m.log2 : Int) + 1 + e - 53) (-1074) := rfl
  have amount : (Format.binary64.targetExponent (totalExponent m e) - e).toNat = m.log2 - 52 := by
    rw [target]
    omega
  unfold shiftToTargetExponent shiftToExponent
  dsimp only
  rw [amount]

theorem mantissa_shiftRight (x : ExtendedMantissa) (k : Nat) :
    (x >>> k).mantissa = x.mantissa / 2 ^ k := by
  induction k with
  | zero =>
    show x.mantissa = _
    simp
  | succ k ih =>
    show (x >>> k).mantissa / 2 = _
    rw [ih, Nat.div_div_eq_div_mul, Nat.pow_succ]

theorem mantissa_ofMantissaAndAccuracy (m : Nat) (a : Accuracy) :
    (ExtendedMantissa.ofMantissaAndAccuracy m a).mantissa = m := by
  cases a with
  | exact => rfl
  | inexact o => cases o <;> rfl

theorem roundedMantissa_bounds (x : ExtendedMantissa) :
    x.mantissa ≤ x.roundedMantissa ∧ x.roundedMantissa ≤ x.mantissa + 1 := by
  rcases x with ⟨m, r, s⟩
  cases r <;> cases s <;>
    simp [ExtendedMantissa.roundedMantissa, ExtendedMantissa.accuracy,
      Accuracy.roundToNearestEven]
  omega

/-- Rounding a mantissa of at least 53 bits leaves a mantissa of 53 bits. -/
theorem roundWithAccuracy_of_le (s : Sign) {m : Nat} {e : Int} (a : Accuracy) (hm : 2 ^ 52 ≤ m)
    (he : -1074 ≤ e) :
    ∃ m' e' h, roundWithAccuracy Format.binary64 s m e a = .finite s m' e' h ∧ 2 ^ 52 ≤ m' ∧
      m' < 2 ^ 53 ∧ e ≤ e' ∧ e' ≤ e + m.log2 - 51 := by
  obtain ⟨low, high⟩ := shift_bounds hm
  have bits : 52 ≤ m.log2 := (Nat.le_log2 (by omega)).2 hm
  let shifted := ExtendedMantissa.ofMantissaAndAccuracy m a >>> (m.log2 - 52)
  obtain ⟨below, above⟩ := roundedMantissa_bounds shifted
  rw [mantissa_shiftRight, mantissa_ofMantissaAndAccuracy] at below above
  -- rounding may give one bit more, and the second shift drops it again
  have least : 2 ^ 52 ≤ shifted.roundedMantissa := by omega
  have carry : shifted.roundedMantissa.log2 ≤ 53 := by
    have small : shifted.roundedMantissa < 2 ^ 54 := by omega
    have fewBits := (Nat.log2_lt (by omega)).2 small
    omega
  obtain ⟨low', high'⟩ := shift_bounds least
  unfold roundWithAccuracy
  rw [shiftToTargetExponent_of_le a hm he]
  dsimp only
  rw [shiftToTargetExponent_of_le .exact least (by omega)]
  dsimp only
  have positive : (ExtendedMantissa.ofMantissaAndAccuracy shifted.roundedMantissa .exact >>>
      (shifted.roundedMantissa.log2 - 52)).mantissa ≠ 0 := by
    rw [mantissa_shiftRight, mantissa_ofMantissaAndAccuracy]
    omega
  rw [dif_neg positive]
  refine ⟨_, _, Nat.pos_of_ne_zero positive, rfl, ?_, ?_, ?_, ?_⟩
  · rw [mantissa_shiftRight, mantissa_ofMantissaAndAccuracy]
    exact low'
  · rw [mantissa_shiftRight, mantissa_ofMantissaAndAccuracy]
    exact high'
  · omega
  · omega

/-- A mantissa of 53 bits with a moderate exponent is packed without its first bit. -/
theorem pack_finite {s : Sign} {m : Nat} {e : Int} {h : 0 < m} {biased : Nat} (low : 2 ^ 52 ≤ m)
    (high : m < 2 ^ 53) (he : e + 1023 + 52 = biased) (hb : biased < 2047) :
    UnpackedFloat.pack Format.binary64 (.finite s m e h) =
      packComponents Format.binary64 s (BitVec.ofNat 11 biased) (BitVec.ofNat 52 m) := by
  have bits : m.log2 + 1 = Format.binary64.mantissaBits := by
    rw [(Nat.log2_eq_iff (by omega)).2 ⟨low, high⟩]
    rfl
  have exponent : e + Format.binary64.exponentBias + Format.binary64.mantissaBitsWithoutImplicit =
      (biased : Int) := he
  unfold UnpackedFloat.pack
  dsimp only
  rw [exponent, Int.toNat_natCast, if_neg (by omega), if_pos bits]

/-- Unpacking puts the first bit back. -/
theorem unpack_packComponents {s : Sign} {m : Nat} {e : Int} {h : 0 < m} {biased : Nat}
    (low : 2 ^ 52 ≤ m) (high : m < 2 ^ 53) (he : e + 1023 + 52 = biased) (hb : 0 < biased)
    (hb' : biased < 2047) :
    UnpackedFloat.unpack Format.binary64
      (packComponents Format.binary64 s (BitVec.ofNat 11 biased) (BitVec.ofNat 52 m)) =
        .finite s m e h := by
  have field : (BitVec.ofNat 11 biased).toNat = biased := by
    rw [BitVec.toNat_ofNat, Nat.mod_eq_of_lt (by omega)]
  have notAllOnes : BitVec.ofNat 11 biased ≠ -1#11 := by
    intro same
    rw [same] at field
    have : biased = 2047 := field.symm
    omega
  have notZero : BitVec.ofNat 11 biased ≠ 0#11 := by
    intro same
    rw [same] at field
    have : biased = 0 := field.symm
    omega
  have mantissa : (1#1 ++ BitVec.ofNat 52 m).toNat = m := by
    rw [BitVec.toNat_append, ← Nat.shiftLeft_add_eq_or_of_lt (BitVec.isLt _), BitVec.toNat_ofNat]
    show 2 ^ 52 + m % 2 ^ 52 = m
    omega
  unfold UnpackedFloat.unpack
  simp only [unpackMantissa_packComponents, unpackExponent_packComponents,
    unpackSign_packComponents, Sign.ofBitVec_toBitVec, notAllOnes, notZero, if_false, field,
    mantissa]
  congr 1
  show (biased : Int) - (1023 + 52) = e
  omega

/-- A mantissa of 53 bits with a moderate exponent is packed without loss. -/
theorem unpack_pack_finite {s : Sign} {m : Nat} {e : Int} {h : 0 < m} (low : 2 ^ 52 ≤ m)
    (high : m < 2 ^ 53) (he : -1074 ≤ e) (he' : e ≤ 971) :
    (Float.Model.pack (.finite s m e h)).unpack = .finite s m e h := by
  obtain ⟨biased, hbiased⟩ : ∃ b : Nat, e + 1023 + 52 = b :=
    ⟨_, (Int.toNat_of_nonneg (by omega)).symm⟩
  show UnpackedFloat.unpack Format.binary64
    (UnpackedFloat.pack Format.binary64 (.finite s m e h)) = _
  rw [pack_finite low high hbiased (by omega)]
  exact unpack_packComponents low high hbiased (by omega) (by omega)

/-- What is rounded from at least 53 bits and does not overflow is packed without loss. -/
theorem unpack_pack_round (s : Sign) {m : Nat} {e : Int} (a : Accuracy) (hm : 2 ^ 52 ≤ m)
    (he : -1074 ≤ e) (he' : e + m.log2 ≤ 1022) :
    ∃ m' e' h, (Float.Model.pack (roundWithAccuracy Format.binary64 s m e a)).unpack =
        .finite s m' e' h ∧
      2 ^ 52 ≤ m' ∧ m' < 2 ^ 53 ∧ e ≤ e' ∧ e' ≤ e + m.log2 - 51 := by
  obtain ⟨m', e', h, rounded, low, high, least, most⟩ := roundWithAccuracy_of_le s a hm he
  refine ⟨m', e', h, ?_, low, high, least, most⟩
  rw [rounded]
  exact unpack_pack_finite low high (by omega) (by omega)

/-- A count of at most 53 bits is shifted to 53 bits. -/
theorem shiftLeft_bounds {n : Nat} (hn : 0 < n) (small : n.log2 < 53) :
    2 ^ 52 ≤ n <<< (52 - n.log2) ∧ n <<< (52 - n.log2) < 2 ^ 53 := by
  rw [Nat.shiftLeft_eq]
  constructor
  · calc 2 ^ 52 = 2 ^ n.log2 * 2 ^ (52 - n.log2) := by
          rw [← Nat.pow_add, Nat.add_sub_cancel' (by omega)]
      _ ≤ n * 2 ^ (52 - n.log2) := Nat.mul_le_mul_right _ (Nat.log2_self_le (by omega))
  · calc n * 2 ^ (52 - n.log2) < 2 ^ (n.log2 + 1) * 2 ^ (52 - n.log2) :=
          Nat.mul_lt_mul_of_pos_right Nat.lt_log2_self (Nat.two_pow_pos _)
      _ = 2 ^ 53 := by rw [← Nat.pow_add, show n.log2 + 1 + (52 - n.log2) = 53 by omega]

/-- A count below the limit of exact integers is converted as it is. -/
theorem kind_toFloat_of_lt {n : Nat} (hn : 0 < n) (small : n < 2 ^ 53) :
    ∃ m e h, kind n.toUInt64.toFloat = .finite .positive m e h ∧ 2 ^ 52 ≤ m ∧ m < 2 ^ 53 ∧
      -52 ≤ e ∧ e ≤ 1 := by
  have bits : n.log2 < 53 := (Nat.log2_lt (by omega)).2 small
  have word : n.toUInt64.toNat = n := Nat.mod_eq_of_lt (by omega)
  have sign : compare (n : Int) 0 = .gt := Int.compare_eq_gt.2 (by omega)
  have target : Format.binary64.targetExponent (totalExponent n 0) = (n.log2 : Int) + 1 - 53 := by
    show max ((n.log2 : Int) + 1 + 0 - 53) (-1074) = _
    omega
  have amount : (0 - ((n.log2 : Int) + 1 - 53)).toNat = 52 - n.log2 := by omega
  -- the conversion is a rounding of the shifted count
  have unpacked : UnpackedFloat.ofUInt64 Format.binary64 n.toUInt64 =
      roundWithAccuracy Format.binary64 .positive (n <<< (52 - n.log2))
        (0 - ((52 - n.log2 : Nat) : Int)) .exact := by
    unfold UnpackedFloat.ofUInt64 UnpackedFloat.ofNat UnpackedFloat.ofInt UnpackedFloat.normalize
    rw [word, sign]
    show UnpackedFloat.round Format.binary64 .positive n 0 = _
    unfold UnpackedFloat.round decreaseExponent
    rw [target]
    dsimp only
    rw [amount]
  have wide := shiftLeft_bounds hn bits
  have wideBits : (n <<< (52 - n.log2)).log2 = 52 := (Nat.log2_eq_iff (by omega)).2 wide
  obtain ⟨m, e, h, packed, low, high, least, most⟩ := unpack_pack_round .positive
    (e := 0 - ((52 - n.log2 : Nat) : Int)) .exact wide.1 (by omega) (by omega)
  refine ⟨m, e, h, ?_, low, high, by omega, by omega⟩
  show (Float.Model.pack (UnpackedFloat.ofUInt64 Format.binary64 n.toUInt64)).unpack = _
  rw [unpacked, packed]

/-- Such a count is multiplied by one in the end. -/
theorem kind_ofNat_of_lt {n : Nat} (hn : 0 < n) (small : n < 2 ^ 53) :
    ∃ m e h, kind (Float.ofNat n) = .finite .positive m e h := by
  obtain ⟨m, e, h, converted, low, high, least, most⟩ := kind_toFloat_of_lt hn small
  have one : kind 1.0 = .finite .positive (2 ^ 52) (-52) (by decide) := rfl
  have scaled : Float.ofNat n = n.toUInt64.toFloat * 1.0 := by
    show Float.ofScientific n false 0 = _
    unfold Float.ofScientific
    rw [dif_pos (by omega)]
    rfl
  have fewBits : (m * 2 ^ 52).log2 < 105 := (Nat.log2_lt (by omega)).2 (by omega)
  obtain ⟨m', e', h', packed, -⟩ := unpack_pack_round .positive (m := m * 2 ^ 52) (e := e + -52)
    .exact (by omega) (by omega) (by omega)
  refine ⟨m', e', h', ?_⟩
  rw [scaled, kind_mul, converted, one]
  exact packed

/-- Any other count is scaled and rounded. -/
theorem kind_ofNat_of_le {n : Nat} (large : 2 ^ 53 ≤ n) (fits : n < 2 ^ 64) :
    ∃ m e h, kind (Float.ofNat n) = .finite .positive m e h := by
  have wide : 2 ^ 106 ≤ n <<< 53 * 1 ∧ n <<< 53 * 1 < 2 ^ 117 := by
    rw [Nat.shiftLeft_eq]
    omega
  have bits : (n <<< 53 * 1).log2 < 117 := (Nat.log2_lt (by omega)).2 wide.2
  have converted : Float.ofNat n = .ofModel (.ofScientific n 0) := by
    show Float.ofScientific n false 0 = _
    unfold Float.ofScientific
    rw [dif_neg (by omega)]
    rfl
  have scaled : UnpackedFloat.ofScientific Format.binary64 n 0 =
      roundWithAccuracy Format.binary64 .positive (n <<< 53 * 1) (-53 + 0) .exact := by
    unfold UnpackedFloat.ofScientific
    rw [dif_neg (by omega), if_neg (by decide), if_neg, if_pos (by decide)]
    · rfl
    · show ¬(0 : Int) < -((2 ^ 11 : Int) + n.log2)
      omega
  obtain ⟨m, e, h, packed, -⟩ := unpack_pack_round .positive (m := n <<< 53 * 1) (e := -53 + 0)
    .exact (by omega) (by omega) (by omega)
  refine ⟨m, e, h, ?_⟩
  rw [converted]
  show (Float.Model.pack (UnpackedFloat.ofScientific Format.binary64 n 0)).unpack = _
  rw [scaled, packed]

/-! ## §5. Quotients -/

/-- A number stays one when it is divided by a finite number other than zero. -/
theorem IsNumber.div {x y : Float} (hx : IsNumber x) {t : Sign} {m : Nat} {e : Int} {hm : 0 < m}
    (hy : kind y = .finite t m e hm) : IsNumber (x / y) := by
  unfold IsNumber at hx ⊢
  rw [kind_div, hy]
  apply unpack_pack_ne_notANumber
  cases hkx : kind x with
  | notANumber => exact absurd hkx hx
  | infinity s => simp [UnpackedFloat.div]
  | zero s => simp [UnpackedFloat.div]
  | finite s m' e' hm' =>
    unfold UnpackedFloat.div
    exact round_ne_notANumber _ _ _ _

/-- A number stays one when it is divided by a count of machine size. -/
theorem IsNumber.div_ofNat {x : Float} (hx : IsNumber x) {n : Nat} (some_count : 0 < n)
    (fits : n < 2 ^ 64) : IsNumber (x / Scalar.ofNat n) := by
  have counted : ∃ m e h, kind (Float.ofNat n) = .finite .positive m e h := by
    by_cases small : n < 2 ^ 53
    · exact kind_ofNat_of_lt some_count small
    · exact kind_ofNat_of_le (Nat.not_lt.1 small) fits
  obtain ⟨m, e, h, counted⟩ := counted
  exact hx.div counted

/-! ## §6. Squares -/

/-- The sign of a value; that of no number does not matter. -/
def signOf : UnpackedFloat → Sign
  | .notANumber => .positive
  | .infinity s => s
  | .zero s => s
  | .finite s _ _ _ => s

theorem signOf_unpack {b : BitVec Format.binary64.numBits}
    (h : UnpackedFloat.unpack Format.binary64 b ≠ .notANumber) :
    signOf (UnpackedFloat.unpack Format.binary64 b) = Sign.ofBitVec (unpackSign b) := by
  unfold UnpackedFloat.unpack at h ⊢
  dsimp only at h ⊢
  split at h
  · next exponent =>
    rw [if_pos exponent]
    split at h
    · next mantissa =>
      rw [if_pos mantissa]
      rfl
    · exact absurd rfl h
  · next exponent =>
    rw [if_neg exponent]
    split
    · split <;> rfl
    · rfl

theorem unpackSign_pack {f : UnpackedFloat} (h : f ≠ .notANumber) :
    unpackSign (UnpackedFloat.pack Format.binary64 f) = (signOf f).toBitVec := by
  cases f with
  | notANumber => exact absurd rfl h
  | infinity s => exact unpackSign_packComponents ..
  | zero s => exact unpackSign_packComponents ..
  | finite s m e hm =>
    unfold UnpackedFloat.pack
    dsimp only
    split
    · exact unpackSign_packComponents ..
    · split
      · exact unpackSign_packComponents ..
      · exact unpackSign_packComponents ..

/-- Packing keeps the sign. -/
theorem signOf_unpack_pack {f : UnpackedFloat} (h : f ≠ .notANumber) :
    signOf (Float.Model.pack f).unpack = signOf f := by
  have number : UnpackedFloat.unpack Format.binary64 (UnpackedFloat.pack Format.binary64 f) ≠
      .notANumber := unpack_pack_ne_notANumber h
  show signOf (UnpackedFloat.unpack Format.binary64 (UnpackedFloat.pack Format.binary64 f)) = _
  rw [signOf_unpack number, unpackSign_pack h, Sign.ofBitVec_toBitVec]

theorem signOf_roundWithAccuracy (s : Sign) (m : Nat) (e : Int) (a : Accuracy) :
    signOf (roundWithAccuracy Format.binary64 s m e a) = s := by
  unfold roundWithAccuracy
  dsimp only
  split <;> rfl

theorem signOf_normalize {m : Int} (h : 0 ≤ m) (e : Int) :
    signOf (normalize Format.binary64 m e .positive) = .positive := by
  unfold UnpackedFloat.normalize
  split
  · next below =>
    have := Int.compare_eq_lt.1 below
    omega
  · rfl
  · exact signOf_roundWithAccuracy _ _ _ _

/-- Whether a machine number is a number that is not negative; the positive infinity is one. -/
structure IsNonneg (x : Float) : Prop where
  number : IsNumber x
  sign : signOf (kind x) = .positive

theorem IsNonneg.of_pack {x : Float} {f : UnpackedFloat} (h : kind x = (Float.Model.pack f).unpack)
    (number : f ≠ .notANumber) (sign : signOf f = .positive) : IsNonneg x := by
  constructor
  · unfold IsNumber
    rw [h]
    exact unpack_pack_ne_notANumber number
  · rw [h, signOf_unpack_pack number, sign]

theorem isNonneg_zero : IsNonneg 0 := ⟨isNumber_of_beq_self rfl, rfl⟩

theorem cases_of_nonneg {f : UnpackedFloat} (number : f ≠ .notANumber) (sign : signOf f = .positive) :
    f = .infinity .positive ∨ f = .zero .positive ∨ ∃ m e h, f = .finite .positive m e h := by
  cases f with
  | notANumber => exact absurd rfl number
  | infinity s =>
    obtain rfl : s = .positive := sign
    exact .inl rfl
  | zero s =>
    obtain rfl : s = .positive := sign
    exact .inr (.inl rfl)
  | finite s m e hm =>
    obtain rfl : s = .positive := sign
    exact .inr (.inr ⟨m, e, hm, rfl⟩)

/-- Numbers that are not negative add up to one. -/
theorem IsNonneg.add {x y : Float} (hx : IsNonneg x) (hy : IsNonneg y) : IsNonneg (x + y) := by
  have sum : UnpackedFloat.add Format.binary64 (kind x) (kind y) ≠ .notANumber ∧
      signOf (UnpackedFloat.add Format.binary64 (kind x) (kind y)) = .positive := by
    rcases cases_of_nonneg hx.number hx.sign with h | h | ⟨m, e, hm, h⟩
    · rcases cases_of_nonneg hy.number hy.sign with h' | h' | ⟨m', e', hm', h'⟩ <;>
        simp [h, h', UnpackedFloat.add, signOf]
    · rcases cases_of_nonneg hy.number hy.sign with h' | h' | ⟨m', e', hm', h'⟩ <;>
        simp [h, h', UnpackedFloat.add, signOf]
    · rcases cases_of_nonneg hy.number hy.sign with h' | h' | ⟨m', e', hm', h'⟩
      · simp [h, h', UnpackedFloat.add, signOf]
      · simp [h, h', UnpackedFloat.add, signOf]
      · rw [h, h']
        exact ⟨normalize_ne_notANumber _ _ _,
          signOf_normalize (Int.add_nonneg (Int.natCast_nonneg _) (Int.natCast_nonneg _)) _⟩
  exact .of_pack (kind_add x y) sum.1 sum.2

/-- The square of a number is one. -/
theorem IsNumber.mul_self {x : Float} (hx : IsNumber x) : IsNonneg (x * x) := by
  have square : UnpackedFloat.mul Format.binary64 (kind x) (kind x) ≠ .notANumber ∧
      signOf (UnpackedFloat.mul Format.binary64 (kind x) (kind x)) = .positive := by
    cases hkx : kind x with
    | notANumber => exact absurd hkx hx
    | infinity s => cases s <;> exact ⟨nofun, rfl⟩
    | zero s => cases s <;> exact ⟨nofun, rfl⟩
    | finite s m e hm =>
      refine ⟨round_ne_notANumber _ _ _ _, (signOf_roundWithAccuracy _ _ _ _).trans ?_⟩
      cases s <;> rfl
  exact .of_pack (kind_mul x x) square.1 square.2

/-- A number may be taken from a finite one. -/
theorem isNumber_sub {x y : Float} (hx : Scalar.isFinite x = true) (hy : IsNumber y) :
    IsNumber (x - y) := by
  obtain ⟨number, bounded⟩ := kind_of_isFinite hx
  unfold IsNumber at hy ⊢
  rw [kind_sub]
  apply unpack_pack_ne_notANumber
  cases hkx : kind x with
  | notANumber => exact absurd hkx number
  | infinity s => exact absurd hkx (bounded s)
  | zero s =>
    cases hky : kind y with
    | notANumber => exact absurd hky hy
    | infinity t => exact nofun
    | zero t => cases s <;> cases t <;> exact nofun
    | finite t m e hm => exact nofun
  | finite s m e hm =>
    cases hky : kind y with
    | notANumber => exact absurd hky hy
    | infinity t => exact nofun
    | zero t => exact nofun
    | finite t m' e' hm' => exact normalize_ne_notANumber _ _ _

end Machine

end PlantEconomics
