import PlantEconomics.Proofs.Exact

/-!
# Real numbers with operations that may have no value

Over the real numbers of Mathlib every operation has a value: a quotient by zero is zero, and so is
the root of a negative number, while the logarithm of one is that of its distance from zero. A
formula may go through such values and end in a number that looks like any other. Here is another
type of scalars to run a formula over. An operation has a value where it is defined, and nothing
comes of it otherwise, nor of any operation on what has no value. So a formula has a value exactly
when every operation in it is defined, in whatever place it stands.

Logarithms, roots and powers are defined for positive numbers, quotients by numbers other than zero.
A number that is missing is not equal to, less than or at most any number, not even itself.

  * `of_div`, `ln_of`, `sqrt_of`: the values of the operations that may have none;
  * `ln_of_nonpos`, `mul_undefined`: where there is none, and what becomes of it.
-/

namespace PlantEconomics

/-- A real number, or nothing where an operation has no value. -/
inductive PartialReal where
  | undefined
  | of (x : ℝ)

namespace PartialReal

/-! ## §1. Operations -/

/-- What an operation makes of a number, if there is one. -/
def lift₁ (f : ℝ → PartialReal) : PartialReal → PartialReal
  | undefined => undefined
  | of x => f x

/-- What an operation makes of two numbers, if there are both. -/
def lift₂ (f : ℝ → ℝ → PartialReal) (x y : PartialReal) : PartialReal :=
  lift₁ (fun a => lift₁ (f a) y) x

/-- Whether there are both numbers, and they are in a relation. -/
def Holds (r : ℝ → ℝ → Prop) : PartialReal → PartialReal → Prop
  | of x, of y => r x y
  | _, _ => False

open Classical in
/-- Arithmetic that is undefined where it has no value. -/
noncomputable instance : Analytic PartialReal where
  zero := of 0
  one := of 1
  add := lift₂ fun x y => of (x + y)
  sub := lift₂ fun x y => of (x - y)
  mul := lift₂ fun x y => of (x * y)
  div := lift₂ fun x y => if y = 0 then undefined else of (x / y)
  neg := lift₁ fun x => of (-x)
  lt := Holds (· < ·)
  le := Holds (· ≤ ·)
  beq x y := decide (Holds (· = ·) x y)
  ofScientific m negative e := of (OfScientific.ofScientific m negative e)
  ofNat n := of n
  decidableLT _ _ := inferInstance
  decidableLE _ _ := inferInstance
  sqrt := lift₁ fun x => if 0 < x then of √x else undefined
  exp := lift₁ fun x => of (Real.exp x)
  ln := lift₁ fun x => if 0 < x then of (Real.log x) else undefined
  power := lift₂ fun x y => if 0 < x then of (x ^ y) else undefined

/-! ## §2. Values -/

variable {x y : ℝ}

@[simp] theorem zero_eq : (0 : PartialReal) = of 0 := rfl

@[simp] theorem ofScientific_eq (m : Nat) (negative : Bool) (e : Nat) :
    (OfScientific.ofScientific m negative e : PartialReal) =
      of (OfScientific.ofScientific m negative e) := rfl

@[simp] theorem of_add (x y : ℝ) : of x + of y = of (x + y) := rfl

@[simp] theorem of_mul (x y : ℝ) : of x * of y = of (x * y) := rfl

theorem of_div (h : y ≠ 0) : of x / of y = of (x / y) := if_neg h

theorem ln_of (h : 0 < x) : Analytic.ln (of x) = of (Analytic.ln x) := if_pos h

theorem sqrt_of (h : 0 < x) : Analytic.sqrt (of x) = of (Analytic.sqrt x) := if_pos h

@[simp] theorem of_lt_of : of x < of y ↔ x < y := Iff.rfl

@[simp] theorem isFinite_of (x : ℝ) : Scalar.isFinite (of x) = true := by
  show decide (x - x = 0) = true
  simp

/-! ## §3. Nothing -/

/-- A number that is not positive has no logarithm. -/
theorem ln_of_nonpos (h : x ≤ 0) : Analytic.ln (of x) = undefined := if_neg (not_lt.2 h)

@[simp] theorem exp_undefined : Analytic.exp undefined = undefined := rfl

@[simp] theorem mul_undefined (x : PartialReal) : x * undefined = undefined := by
  cases x <;> rfl

@[simp] theorem sub_undefined (x : PartialReal) : x - undefined = undefined := by
  cases x <;> rfl

@[simp] theorem undefined_add (x : PartialReal) : undefined + x = undefined := rfl

end PartialReal

end PlantEconomics
