import PlantEconomics.Program.Constraint
import PlantEconomics.Proofs.Exact

/-!
# Values of expressions and relations

Under exact arithmetic the value of an affine expression is additive in the expression: every
operation on expressions is the same operation on their values, and pruning keeps the value. A
relation between two expressions therefore holds with tolerance zero exactly when their values
compare as it says.

The argument is about terms alone. Bumping a coefficient adds one product to the value of the
terms (`termsValue_bump`); everything else is an induction over that.
-/

namespace PlantEconomics

variable {α : Type} [Field α] [LinearOrder α]

/-! ## §1. Values of terms -/

omit [LinearOrder α] in
theorem sum_map_sub {β : Type} (l : List β) (f g : β → α) :
    (l.map fun b => f b - g b).sum = (l.map f).sum - (l.map g).sum := by
  induction l with
  | nil => simp
  | cons b l ih =>
    simp only [List.map_cons, List.sum_cons, ih]
    ring

/-- The value of terms under an assignment. -/
def termsValue (value : Var → α) (ts : List (Var × α)) : α :=
  (ts.map fun p => p.2 * value p.1).sum

omit [LinearOrder α] in
@[simp] theorem termsValue_nil (value : Var → α) : termsValue value [] = 0 := rfl

omit [LinearOrder α] in
@[simp] theorem termsValue_cons (value : Var → α) (p : Var × α) (ts : List (Var × α)) :
    termsValue value (p :: ts) = p.2 * value p.1 + termsValue value ts := by
  simp [termsValue]

theorem termsValue_bump (value : Var → α) (v : Var) (c : α) (ts : List (Var × α)) :
    termsValue value (bump v c ts) = termsValue value ts + c * value v := by
  induction ts with
  | nil => simp [bump]
  | cons q rest ih =>
    obtain ⟨w, d⟩ := q
    unfold bump
    split
    · -- the variable is new and comes before the rest
      simp only [termsValue_cons, zero_add]
      ring
    · split
      · -- the variable has a coefficient, which grows
        next e =>
        subst e
        simp only [termsValue_cons]
        ring
      · simp only [termsValue_cons, ih]
        ring

theorem termsValue_bumpAll (value : Var → α) (k : α) (added ts : List (Var × α)) :
    termsValue value (bumpAll k added ts) = termsValue value ts + k * termsValue value added := by
  induction added generalizing ts with
  | nil => simp [bumpAll]
  | cons p rest ih =>
    have step : bumpAll k (p :: rest) ts = bumpAll k rest (bump p.1 (k * p.2) ts) := rfl
    rw [step, ih, termsValue_bump, termsValue_cons]
    ring

omit [LinearOrder α] in
theorem termsValue_scale (value : Var → α) (k : α) (ts : List (Var × α)) :
    termsValue value (ts.map fun p => (p.1, p.2 * k)) = termsValue value ts * k := by
  induction ts with
  | nil => simp
  | cons p rest ih =>
    simp only [List.map_cons, termsValue_cons, ih]
    ring

/-- Terms whose coefficient is zero add nothing. -/
theorem termsValue_filter (value : Var → α) (ts : List (Var × α)) :
    termsValue value (ts.filter fun p => p.2 != 0) = termsValue value ts := by
  induction ts with
  | nil => rfl
  | cons p rest ih =>
    by_cases h : p.2 = 0
    · simp [h, ih]
    · simp [h, ih]

/-! ## §2. Values of expressions -/

namespace Affine

theorem evaluate_eq (a : Affine α) (value : Var → α) :
    a.evaluate value = termsValue value a.terms + a.constant := by
  simp [evaluate, termsValue]

@[simp] theorem evaluate_const (c : α) (value : Var → α) : (const c).evaluate value = c := by
  simp [evaluate_eq, const]

@[simp] theorem evaluate_zero (value : Var → α) : (zero : Affine α).evaluate value = 0 :=
  evaluate_const 0 value

@[simp] theorem evaluate_term (v : Var) (c : α) (value : Var → α) :
    (term v c).evaluate value = c * value v := by
  simp [evaluate_eq, term]

@[simp] theorem evaluate_var (v : Var) (value : Var → α) :
    (var v : Affine α).evaluate value = value v := by
  simp [evaluate_eq, var]

@[simp] theorem evaluate_addMul (a b : Affine α) (k : α) (value : Var → α) :
    (a.addMul k b).evaluate value = a.evaluate value + k * b.evaluate value := by
  simp only [evaluate_eq, addMul, termsValue_bumpAll]
  ring

@[simp] theorem evaluate_scale (a : Affine α) (k : α) (value : Var → α) :
    (a.scale k).evaluate value = a.evaluate value * k := by
  simp only [evaluate_eq, scale, termsValue_scale]
  ring

@[simp] theorem evaluate_add (a b : Affine α) (value : Var → α) :
    (a + b).evaluate value = a.evaluate value + b.evaluate value := by
  show (a.addMul 1 b).evaluate value = _
  rw [evaluate_addMul, one_mul]

@[simp] theorem evaluate_sub (a b : Affine α) (value : Var → α) :
    (a - b).evaluate value = a.evaluate value - b.evaluate value := by
  show (a.addMul (-1) b).evaluate value = _
  rw [evaluate_addMul]
  ring

/-- A sum has the sum of the values. The induction is over a sum already begun. -/
@[simp] theorem evaluate_sum (as : List (Affine α)) (value : Var → α) :
    (sum as).evaluate value = (as.map fun a => a.evaluate value).sum := by
  have begun : ∀ e : Affine α,
      (as.foldl add e).evaluate value =
        e.evaluate value + (as.map fun a => a.evaluate value).sum := by
    induction as with
    | nil => intro e; simp
    | cons a rest ih =>
      intro e
      rw [List.foldl_cons, ih (add e a), List.map_cons, List.sum_cons, ← add_assoc]
      congr 1
      exact evaluate_add e a value
  rw [sum, begun zero, evaluate_zero, zero_add]

@[simp] theorem evaluate_pruned (a : Affine α) (value : Var → α) :
    a.pruned.evaluate value = a.evaluate value := by
  -- pruning builds the expression anew from its constant, term by term
  have begun : ∀ (ts : List (Var × α)) (e : Affine α),
      (ts.foldl (fun e p => e.addMul p.2 (var p.1)) e).evaluate value =
        e.evaluate value + termsValue value ts := by
    intro ts
    induction ts with
    | nil => intro e; simp
    | cons p rest ih =>
      intro e
      rw [List.foldl_cons, ih, evaluate_addMul, evaluate_var, termsValue_cons]
      ring
  rw [pruned, begun, evaluate_const, nonzeroTerms, termsValue_filter, evaluate_eq, add_comm]

end Affine

/-! ## §3. Relations -/

namespace Relation

variable [IsStrictOrderedRing α]

@[simp] theorem le_holds_iff (lhs rhs : Affine α) (value : Var → α) :
    (le lhs rhs).holds value 0 = true ↔ lhs.evaluate value ≤ rhs.evaluate value := by
  simp [holds, le, between]

@[simp] theorem ge_holds_iff (lhs rhs : Affine α) (value : Var → α) :
    (ge lhs rhs).holds value 0 = true ↔ rhs.evaluate value ≤ lhs.evaluate value := by
  simp [holds, ge, between]

@[simp] theorem equals_holds_iff (lhs rhs : Affine α) (value : Var → α) :
    (equals lhs rhs).holds value 0 = true ↔ lhs.evaluate value = rhs.evaluate value := by
  simp [holds, equals, between, Scalar.abs_eq, sub_eq_zero]

end Relation

end PlantEconomics
