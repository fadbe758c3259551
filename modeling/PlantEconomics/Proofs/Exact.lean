import Mathlib
import PlantEconomics.Scalar

/-!
# Exact arithmetic

The formulas of the library are written over scalars without laws. Here the scalars are the
elements of an ordered field, so that no operation rounds, and the derived operations on scalars
become the ones that Mathlib has lemmas for. Real numbers also have roots, exponentials,
logarithms and powers.
-/

namespace PlantEconomics

/-! ## §1. Ordered fields as scalars -/

/-- The elements of an ordered field, with its operations. -/
instance Scalar.ofField {α : Type} [Field α] [LinearOrder α] : Scalar α where
  ofNat n := n
  decidableLT := inferInstance
  decidableLE := inferInstance

-- In an ordered field the operations are its own, and only in their absence those of the scalars.
attribute [instance (low)] Scalar.toZero Scalar.toOne Scalar.toAdd Scalar.toSub Scalar.toMul
  Scalar.toDiv Scalar.toNeg Scalar.toLT Scalar.toLE Scalar.toBEq Scalar.toOfScientific
  Scalar.instDecidableLT Scalar.instDecidableLE

noncomputable instance : Analytic ℝ where
  toScalar := Scalar.ofField
  sqrt := Real.sqrt
  exp := Real.exp
  ln := Real.log
  power x y := x ^ y

/-! ## §2. Derived operations -/

namespace Scalar

variable {α : Type} [Field α] [LinearOrder α]

@[simp] theorem ofNat_eq_cast (n : Nat) : (Scalar.ofNat n : α) = n := rfl

@[simp] theorem isFinite_eq_true (x : α) : Scalar.isFinite x = true := by
  simp [Scalar.isFinite]

theorem abs_eq [IsStrictOrderedRing α] (x : α) : Scalar.abs x = |x| := by
  unfold Scalar.abs
  split
  · next h => exact (abs_of_neg h).symm
  · next h => exact (abs_of_nonneg (not_lt.1 h)).symm

@[simp] theorem smaller_eq_min (a b : α) : Scalar.smaller a b = min a b := by
  unfold Scalar.smaller
  split
  · next less => exact (min_eq_right less.le).symm
  · next notLess => simpa using (min_eq_left (not_lt.1 notLess)).symm

@[simp] theorem larger_eq_max (a b : α) : Scalar.larger a b = max a b := by
  unfold Scalar.larger
  split
  · next less => exact (max_eq_right less.le).symm
  · next notLess => simpa using (max_eq_left (not_lt.1 notLess)).symm

/-- A sum from the left is the sum. -/
@[simp] theorem total_eq_sum (xs : List α) : Scalar.total xs = xs.sum :=
  List.sum_eq_foldl.symm

end Scalar

/-! ## §3. Sums of lists -/

/-- A list whose members are the values of a function adds up to their sum. -/
theorem sum_eq_sum_range {α : Type} [AddCommMonoid α] {l : List α} {f : Nat → α}
    (h : ∀ i < l.length, l[i]? = some (f i)) : l.sum = ∑ i ∈ Finset.range l.length, f i := by
  have list : l = (List.range l.length).map f := by
    refine List.ext_getElem? fun i => ?_
    by_cases hi : i < l.length
    · rw [h i hi]
      simp [hi]
    · rw [List.getElem?_eq_none (by omega), List.getElem?_eq_none (by simp; omega)]
  conv_lhs => rw [list]
  rfl

end PlantEconomics
