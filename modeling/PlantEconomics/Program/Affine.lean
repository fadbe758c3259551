import PlantEconomics.Scalar

/-!
# Affine expressions

An affine expression is a constant and a coefficient for each of finitely many variables. The
variables of an expression are listed in ascending order, each once, so two expressions are the
same when they are equal. A coefficient that has become zero stays in its place until the
expression is pruned.

Addition, subtraction, negation and sums are all cases of `addMul`, which adds a multiple of one
expression to another. Main facts: every operation keeps the order of the variables, and the
invariant is part of the type.
-/

namespace PlantEconomics

/-- Variables are numbered in the order of their creation. -/
abbrev Var := Nat

/-! ## §1. Ascending terms -/

/-- Terms in strictly ascending order of their variables. -/
def Ascending {α : Type} (ts : List (Var × α)) : Prop := ts.Pairwise fun a b => a.1 < b.1

section Terms

variable {α : Type}

/-- Add `c` to the coefficient of `v`, which is zero when there is none. -/
def bump [Scalar α] (v : Var) (c : α) : List (Var × α) → List (Var × α)
  | [] => [(v, 0 + c)]
  | (w, d) :: rest =>
    if v < w then (v, 0 + c) :: (w, d) :: rest
    else if v = w then (w, d + c) :: rest
    else (w, d) :: bump v c rest

/-- A variable has a term after a bump only if it had one or is the bumped one. -/
theorem mem_bump [Scalar α] {v : Var} {c : α} {ts : List (Var × α)} {p : Var × α}
    (h : p ∈ bump v c ts) : p.1 = v ∨ ∃ q ∈ ts, q.1 = p.1 := by
  induction ts with
  | nil => simp only [bump, List.mem_singleton] at h; exact .inl (h ▸ rfl)
  | cons q rest ih =>
    obtain ⟨w, d⟩ := q
    simp only [bump] at h
    split at h
    · rcases List.mem_cons.1 h with rfl | h
      · exact .inl rfl
      · exact .inr ⟨p, h, rfl⟩
    · split at h
      · rcases List.mem_cons.1 h with rfl | h
        · exact .inr ⟨(w, d), List.mem_cons_self, rfl⟩
        · exact .inr ⟨p, List.mem_cons_of_mem _ h, rfl⟩
      · rcases List.mem_cons.1 h with rfl | h
        · exact .inr ⟨(w, d), List.mem_cons_self, rfl⟩
        · rcases ih h with e | ⟨q, hq, e⟩
          · exact .inl e
          · exact .inr ⟨q, List.mem_cons_of_mem _ hq, e⟩

theorem Ascending.bump [Scalar α] {ts : List (Var × α)} (h : Ascending ts) (v : Var) (c : α) :
    Ascending (bump v c ts) := by
  induction ts with
  | nil => exact List.pairwise_singleton ..
  | cons q rest ih =>
    obtain ⟨w, d⟩ := q
    have hrest : ∀ a ∈ rest, w < a.1 := (List.pairwise_cons.1 h).1
    have htail : Ascending rest := (List.pairwise_cons.1 h).2
    simp only [PlantEconomics.bump]
    split
    · next hv =>
      refine List.pairwise_cons.2 ⟨fun a ha => ?_, h⟩
      rcases List.mem_cons.1 ha with rfl | ha
      · exact hv
      · exact Nat.lt_trans hv (hrest a ha)
    · split
      · exact List.pairwise_cons.2 ⟨hrest, htail⟩
      · next h1 h2 =>
        refine List.pairwise_cons.2 ⟨fun a ha => ?_, ih htail⟩
        rcases mem_bump ha with e | ⟨q, hq, e⟩
        · exact e ▸ Nat.lt_of_le_of_ne (Nat.le_of_not_lt h1) fun e => h2 e.symm
        · exact e ▸ hrest q hq

/-- Add `factor` times each of some terms. -/
def bumpAll [Scalar α] (factor : α) (added ts : List (Var × α)) : List (Var × α) :=
  added.foldl (fun ts p => bump p.1 (factor * p.2) ts) ts

theorem Ascending.bumpAll [Scalar α] {ts : List (Var × α)} (h : Ascending ts) (factor : α)
    (added : List (Var × α)) : Ascending (bumpAll factor added ts) := by
  induction added generalizing ts with
  | nil => exact h
  | cons p rest ih => exact ih (h.bump _ _)

theorem Ascending.map {β : Type} {ts : List (Var × α)} (h : Ascending ts) (f : α → β) :
    Ascending (ts.map fun p => (p.1, f p.2)) :=
  List.pairwise_map.2 (List.Pairwise.imp (fun h => h) h)

theorem Ascending.filter {ts : List (Var × α)} (h : Ascending ts) (keep : Var × α → Bool) :
    Ascending (ts.filter keep) := List.Pairwise.filter keep h

end Terms

/-! ## §2. Expressions -/

/-- A constant and coefficients of variables. -/
structure Affine (α : Type) where
  constant : α
  terms : List (Var × α)
  ascending : Ascending terms

namespace Affine

variable {α : Type}

/-- Expressions are equal when their constants and their terms are. -/
theorem ext {a b : Affine α} (hc : a.constant = b.constant) (ht : a.terms = b.terms) : a = b := by
  cases a
  cases b
  cases hc
  cases ht
  rfl

/-- An expression without variables. -/
def const (c : α) : Affine α := ⟨c, [], List.Pairwise.nil⟩

variable [Scalar α]

/-- The empty expression. -/
def zero : Affine α := const 0

/-- A single variable. -/
def var (v : Var) : Affine α := ⟨0, [(v, 1)], List.pairwise_singleton ..⟩

/-- A variable times a number. -/
def term (v : Var) (c : α) : Affine α := ⟨0, [(v, c)], List.pairwise_singleton ..⟩

/-- `a + factor * b`. -/
def addMul (a : Affine α) (factor : α) (b : Affine α) : Affine α :=
  ⟨a.constant + factor * b.constant, bumpAll factor b.terms a.terms, a.ascending.bumpAll ..⟩

/-- All coefficients and the constant times a number. -/
def scale (a : Affine α) (k : α) : Affine α :=
  ⟨a.constant * k, a.terms.map fun p => (p.1, p.2 * k), a.ascending.map (· * k)⟩

/-- The sum of two expressions. -/
def add (a b : Affine α) : Affine α := a.addMul 1 b

/-- The difference of two expressions. -/
def sub (a b : Affine α) : Affine α := a.addMul (-1) b

/-- The expression with all signs turned. -/
def neg (a : Affine α) : Affine α := a.scale (-1)

/-- An expression divided by a number, as the multiple by its reciprocal. -/
def dividedBy (a : Affine α) (k : α) : Affine α := a.scale (1 / k)

/-- The sum of expressions, from the left. -/
def sum (as : List (Affine α)) : Affine α := as.foldl add zero

instance : Add (Affine α) := ⟨add⟩

instance : Sub (Affine α) := ⟨sub⟩

/-- The terms whose coefficient is not zero. -/
def nonzeroTerms (a : Affine α) : List (Var × α) := a.terms.filter fun p => p.2 != 0

/-- The expression without the terms whose coefficient is zero, built up again from its constant
term by term. A coefficient that is no finite number leaves no constant either. -/
def pruned (a : Affine α) : Affine α :=
  a.nonzeroTerms.foldl (fun e p => e.addMul p.2 (var p.1)) (const a.constant)

/-- Whether no variable has a coefficient other than zero. -/
def isConstant (a : Affine α) : Bool := a.nonzeroTerms.isEmpty

/-- The coefficient of a variable. -/
def coefficient (a : Affine α) (v : Var) : α := (a.terms.lookup v).getD 0

/-- The value of an expression under an assignment. -/
def evaluate (a : Affine α) (value : Var → α) : α :=
  Scalar.total (a.terms.map fun p => p.2 * value p.1) + a.constant

/-- Whether two expressions have equal constants and the same terms with equal coefficients; zero
terms count. -/
def same (a b : Affine α) : Bool :=
  a.constant == b.constant && a.terms.length == b.terms.length &&
    (a.terms.zip b.terms).all fun (p, q) => p.1 == q.1 && p.2 == q.2

end Affine

end PlantEconomics
