import PlantEconomics.Program.Constraint

/-!
# The variables that an expression speaks of

An expression is over a set of variables when every term of it has a variable of the set. A term
whose coefficient has become zero counts as well, so nothing here is about arithmetic, and all of it
holds of machine numbers as of exact ones.

No operation makes up a variable. Sums, differences and multiples of expressions over a set are over
it again, pruning only takes terms away, and a relation between two such expressions has a body over
the set.
-/

namespace PlantEconomics

variable {α : Type}

/-- Whether all terms of an expression have a variable of a set. -/
def Affine.Over (a : Affine α) (S : Var → Prop) : Prop := ∀ t ∈ a.terms, S t.1

theorem Affine.Over.mono {a : Affine α} {S S' : Var → Prop} (h : a.Over S)
    (larger : ∀ v, S v → S' v) : a.Over S' := fun t ht => larger _ (h t ht)

variable [Scalar α] {S : Var → Prop}

/-! ## §1. Terms -/

/-- Bumps at variables of a set keep all terms in it. -/
theorem forall_mem_bumpAll {k : α} {added ts : List (Var × α)} (hts : ∀ t ∈ ts, S t.1)
    (hadded : ∀ t ∈ added, S t.1) : ∀ t ∈ bumpAll k added ts, S t.1 := by
  induction added generalizing ts with
  | nil => exact hts
  | cons p added ih =>
    obtain ⟨first, rest⟩ := List.forall_mem_cons.1 hadded
    show ∀ t ∈ bumpAll k added (bump p.1 (k * p.2) ts), S t.1
    refine ih ?_ rest
    intro t ht
    rcases mem_bump ht with same | ⟨q, hq, same⟩
    · rw [same]
      exact first
    · rw [← same]
      exact hts q hq

/-! ## §2. Operations -/

namespace Affine

omit [Scalar α] in
@[simp] theorem over_const (c : α) : (const c).Over S := fun _ ht => absurd ht List.not_mem_nil

@[simp] theorem over_zero : (zero : Affine α).Over S := over_const 0

@[simp] theorem over_var {v : Var} : (var v : Affine α).Over S ↔ S v := by
  simp [Over, var]

@[simp] theorem over_term {v : Var} {c : α} : (term v c).Over S ↔ S v := by
  simp [Over, term]

namespace Over

variable {a b : Affine α}

theorem addMul (ha : a.Over S) (hb : b.Over S) (k : α) : (a.addMul k b).Over S :=
  forall_mem_bumpAll ha hb

theorem add (ha : a.Over S) (hb : b.Over S) : (a + b).Over S := ha.addMul hb 1

theorem sub (ha : a.Over S) (hb : b.Over S) : (a - b).Over S := ha.addMul hb (-1)

theorem scale (ha : a.Over S) (k : α) : (a.scale k).Over S := by
  intro t ht
  obtain ⟨p, hp, rfl⟩ := List.mem_map.1 ht
  exact ha p hp

end Over

/-- A loop that adds multiples of expressions over a set leaves an expression over it. -/
theorem over_foldl_addMul {β : Type} {bs : List β} (weight : β → α) {part : β → Affine α}
    (h : ∀ b ∈ bs, (part b).Over S) {e : Affine α} (he : e.Over S) :
    (bs.foldl (fun e b => e.addMul (weight b) (part b)) e).Over S := by
  induction bs generalizing e with
  | nil => exact he
  | cons b bs ih =>
    obtain ⟨first, rest⟩ := List.forall_mem_cons.1 h
    exact ih rest (he.addMul first (weight b))

theorem over_sum {as : List (Affine α)} (h : ∀ a ∈ as, a.Over S) : (sum as).Over S :=
  over_foldl_addMul (fun _ => 1) h over_zero

/-- Pruning adds up the terms that are not zero, one by one. -/
theorem Over.pruned {a : Affine α} (ha : a.Over S) : a.pruned.Over S := by
  refine over_foldl_addMul _ (fun t ht => ?_) (over_const a.constant)
  rw [over_var]
  exact ha t (List.mem_filter.1 ht).1

end Affine

/-! ## §3. Relations -/

theorem Relation.over_between {lhs rhs : Affine α} (hl : lhs.Over S) (hr : rhs.Over S)
    (sense : Sense) : (between lhs sense rhs).body.Over S := (hl.sub hr).pruned

end PlantEconomics
