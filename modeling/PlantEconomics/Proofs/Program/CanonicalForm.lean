import PlantEconomics.Proofs.Program.Evaluation

/-!
# The canonical form of relations

A coefficient that has become zero stays in its place until the expression is pruned, so two
expressions may differ although they have the same value under every assignment. What pruning leaves
is determined by the values: the constant is the value where all variables are zero, and a
coefficient is what its variable adds to that when it is one. A relation has a pruned body; so
relations of equal differences have equal bodies, and no others have.

  * `Affine.coefficient_eq`: coefficients as differences of two values;
  * `Affine.Reading`: what values and coefficients have in common;
  * `Affine.pruned_eq_iff`: pruned expressions are equal when their values are;
  * `Relation.canonical_body` is about relations.
-/

namespace PlantEconomics

variable {α : Type} [Field α] [LinearOrder α]

/-! ## §1. Coefficients -/

omit [LinearOrder α] in
theorem termsValue_eq_zero {value : Var → α} {ts : List (Var × α)}
    (h : ∀ t ∈ ts, value t.1 = 0) : termsValue value ts = 0 := by
  refine List.sum_eq_zero (List.forall_mem_map.2 fun t ht => ?_)
  rw [h t ht, mul_zero]

omit [LinearOrder α] in
/-- Where a single variable is one and all others are zero, ascending terms have the value of its
coefficient. -/
theorem termsValue_single {ts : List (Var × α)} (h : Ascending ts) (v : Var) :
    termsValue (Pi.single v 1) ts = (ts.lookup v).getD 0 := by
  induction ts with
  | nil => rfl
  | cons t rest ih =>
    obtain ⟨later, h⟩ := List.pairwise_cons.1 h
    rw [termsValue_cons, List.lookup_cons]
    by_cases same : v = t.1
    · -- the variables of the later terms are larger
      subst same
      have others : termsValue (Pi.single t.1 1) rest = 0 :=
        termsValue_eq_zero fun s hs => Pi.single_eq_of_ne (later s hs).ne' 1
      simp [others]
    · have other : (v == t.1) = false := beq_eq_false_iff_ne.2 same
      rw [other, ih h, Pi.single_eq_of_ne (Ne.symm same), mul_zero, zero_add]

namespace Affine

/-- The constant is the value where all variables are zero. -/
theorem evaluate_origin (a : Affine α) : a.evaluate (fun _ => 0) = a.constant := by
  rw [evaluate_eq, termsValue_eq_zero fun _ _ => rfl, zero_add]

/-- A coefficient is what its variable adds to the constant when it is one. -/
theorem coefficient_eq (a : Affine α) (v : Var) :
    a.coefficient v = a.evaluate (Pi.single v 1) - a.evaluate fun _ => 0 := by
  rw [evaluate_origin, evaluate_eq, termsValue_single a.ascending, add_sub_cancel_right]
  rfl

/-! ## §2. Readings -/

@[simp] theorem evaluate_neg (a : Affine α) (value : Var → α) :
    a.neg.evaluate value = -a.evaluate value := by
  rw [neg, evaluate_scale, mul_neg_one]

@[simp] theorem evaluate_dividedBy (a : Affine α) (k : α) (value : Var → α) :
    (a.dividedBy k).evaluate value = a.evaluate value / k := by
  rw [dividedBy, evaluate_scale, mul_one_div]

/-- A reading of expressions as numbers: what it makes of constants and of variables, and that it
commutes with all operations and does not see pruning. -/
structure Reading (read : Affine α → α) (ofConst : α → α) (ofVar : Var → α) : Prop where
  const : ∀ c, read (Affine.const c) = ofConst c
  var : ∀ v, read (Affine.var v) = ofVar v
  term : ∀ v c, read (Affine.term v c) = c * ofVar v
  add : ∀ a b, read (a + b) = read a + read b
  sub : ∀ a b, read (a - b) = read a - read b
  neg : ∀ a, read (Affine.neg a) = -read a
  scale : ∀ a k, read (Affine.scale a k) = read a * k
  dividedBy : ∀ a k, read (Affine.dividedBy a k) = read a / k
  addMul : ∀ a k b, read (Affine.addMul a k b) = read a + k * read b
  sum : ∀ as, read (Affine.sum as) = (as.map read).sum
  pruned : ∀ a, read (Affine.pruned a) = read a

/-- The value under an assignment is a reading. -/
theorem reading_evaluate (value : Var → α) :
    Reading (fun a => a.evaluate value) (fun c => c) value where
  const c := evaluate_const c value
  var v := evaluate_var v value
  term v c := evaluate_term v c value
  add a b := evaluate_add a b value
  sub a b := evaluate_sub a b value
  neg a := evaluate_neg a value
  scale a k := evaluate_scale a k value
  dividedBy a k := evaluate_dividedBy a k value
  addMul a k b := evaluate_addMul a b k value
  sum as := evaluate_sum as value
  pruned a := evaluate_pruned a value

/-- The difference of two readings is a reading. -/
theorem Reading.difference {read read' : Affine α → α} {ofConst ofConst' : α → α}
    {ofVar ofVar' : Var → α} (h : Reading read ofConst ofVar) (h' : Reading read' ofConst' ofVar') :
    Reading (fun a => read a - read' a) (fun c => ofConst c - ofConst' c)
      fun v => ofVar v - ofVar' v where
  const c := by rw [h.const, h'.const]
  var v := by rw [h.var, h'.var]
  term v c := by rw [h.term, h'.term, mul_sub]
  add a b := by rw [h.add, h'.add, add_sub_add_comm]
  sub a b := by rw [h.sub, h'.sub, sub_sub_sub_comm]
  neg a := by rw [h.neg, h'.neg, neg_sub_neg, neg_sub]
  scale a k := by rw [h.scale, h'.scale, sub_mul]
  dividedBy a k := by rw [h.dividedBy, h'.dividedBy, sub_div]
  addMul a k b := by
    rw [h.addMul, h'.addMul]
    ring
  sum as := by rw [h.sum, h'.sum, sum_map_sub]
  pruned a := by rw [h.pruned, h'.pruned]

/-- The coefficient of a variable is a reading, since it is the difference of two values. -/
theorem reading_coefficient (v : Var) :
    Reading (fun a : Affine α => a.coefficient v) (fun _ => 0) (Pi.single v 1) := by
  have values :=
    (reading_evaluate (α := α) (Pi.single v 1)).difference (reading_evaluate fun _ => 0)
  simpa only [← coefficient_eq, sub_self, sub_zero] using values

/-! ## §3. Pruned expressions -/

/-- A term behind all others comes last. -/
theorem bump_of_lt {v : Var} {c : α} {ts : List (Var × α)}
    (h : ∀ t ∈ ts, t.1 < v) : bump v c ts = ts ++ [(v, c)] := by
  induction ts with
  | nil => simp [bump]
  | cons t rest ih =>
    obtain ⟨first, later⟩ := List.forall_mem_cons.1 h
    rw [bump, if_neg first.not_gt, if_neg first.ne', ih later, List.cons_append]

/-- Terms in ascending order that are added one by one to an expression whose terms come before
them end up behind its terms. -/
theorem terms_foldl_addMul {ts : List (Var × α)} {e : Affine α} (h : Ascending (e.terms ++ ts)) :
    (ts.foldl (fun e p => e.addMul p.2 (var p.1)) e).constant = e.constant ∧
      (ts.foldl (fun e p => e.addMul p.2 (var p.1)) e).terms = e.terms ++ ts := by
  induction ts generalizing e with
  | nil => simp
  | cons t rest ih =>
    have before : ∀ s ∈ e.terms, s.1 < t.1 := fun s hs =>
      (List.pairwise_append.1 h).2.2 s hs t List.mem_cons_self
    have step : (e.addMul t.2 (var t.1)).constant = e.constant ∧
        (e.addMul t.2 (var t.1)).terms = e.terms ++ [t] := by
      constructor
      · show e.constant + t.2 * 0 = _
        rw [mul_zero, add_zero]
      · show bump t.1 (t.2 * 1) e.terms = _
        rw [mul_one, bump_of_lt before]
    obtain ⟨constant, terms⟩ := step
    rw [← List.singleton_append, ← List.append_assoc, ← terms] at h
    obtain ⟨constant', terms'⟩ := ih h
    refine ⟨constant'.trans constant, terms'.trans ?_⟩
    rw [terms, List.append_assoc, List.singleton_append]

/-- Pruning leaves the constant and the terms that are not zero. -/
theorem pruned_parts (a : Affine α) :
    a.pruned.constant = a.constant ∧ a.pruned.terms = a.nonzeroTerms :=
  terms_foldl_addMul (a.ascending.filter _)

omit [Field α] [LinearOrder α] in
/-- In ascending terms a variable has its own coefficient only. -/
theorem mem_iff_lookup {ts : List (Var × α)} (h : Ascending ts) {t : Var × α} :
    t ∈ ts ↔ ts.lookup t.1 = some t.2 := by
  induction ts with
  | nil => simp
  | cons s rest ih =>
    obtain ⟨later, h⟩ := List.pairwise_cons.1 h
    rw [List.mem_cons, List.lookup_cons]
    by_cases same : t.1 = s.1
    · have absent : rest.lookup t.1 ≠ some t.2 := fun found =>
        (later t ((ih h).2 found)).ne' same
      rw [beq_iff_eq.2 same, Prod.ext_iff]
      simp [same, eq_comm, mt (ih h).1 absent]
    · have other : t ≠ s := fun h => same (congrArg Prod.fst h)
      rw [beq_eq_false_iff_ne.2 same, or_iff_right other, ih h]

/-- The terms that are not zero are those of the coefficients that are not. -/
theorem mem_nonzeroTerms_iff {a : Affine α} {t : Var × α} :
    t ∈ a.nonzeroTerms ↔ t.2 ≠ 0 ∧ a.coefficient t.1 = t.2 := by
  rw [nonzeroTerms, List.mem_filter, mem_iff_lookup a.ascending, and_comm, bne_iff_ne]
  refine and_congr_right fun nonzero => ?_
  unfold coefficient
  cases a.terms.lookup t.1 with
  | none => simp [nonzero.symm]
  | some c => simp

/-- **Pruned expressions are equal exactly when they have the same values.** -/
theorem pruned_eq_iff {a b : Affine α} :
    a.pruned = b.pruned ↔ ∀ value, a.evaluate value = b.evaluate value := by
  constructor
  · intro same value
    rw [← evaluate_pruned a, same, evaluate_pruned]
  · intro same
    refine ext ?_ ?_
    · rw [a.pruned_parts.1, b.pruned_parts.1, ← evaluate_origin, same, evaluate_origin]
    · rw [a.pruned_parts.2, b.pruned_parts.2]
      have members : ∀ t, t ∈ a.nonzeroTerms ↔ t ∈ b.nonzeroTerms := by
        intro t
        rw [mem_nonzeroTerms_iff, mem_nonzeroTerms_iff, coefficient_eq, coefficient_eq, same, same]
      have once {e : Affine α} : e.nonzeroTerms.Nodup :=
        (e.ascending.filter _).imp fun before same => before.ne (congrArg Prod.fst same)
      refine List.Perm.eq_of_pairwise ?_ (a.ascending.filter _) (b.ascending.filter _)
        ((List.perm_ext_iff_of_nodup once once).2 members)
      exact fun s t _ _ before after => absurd after before.asymm

theorem pruned_pruned (a : Affine α) : a.pruned.pruned = a.pruned :=
  pruned_eq_iff.2 (evaluate_pruned a)

omit [Field α] [LinearOrder α] in
/-- Lists are equal when they are equally long and equal place by place. -/
theorem all_zip_iff {β : Type} {eq : β × β → Bool} (h : ∀ p, eq p = true ↔ p.1 = p.2)
    (ts us : List β) : (ts.length == us.length && (ts.zip us).all eq) = true ↔ ts = us := by
  induction ts generalizing us with
  | nil => cases us <;> simp
  | cons t ts ih =>
    cases us with
    | nil => simp
    | cons u us =>
      have rest := ih us
      simp only [Bool.and_eq_true, beq_iff_eq] at rest
      simp only [List.length_cons, List.zip_cons_cons, List.all_cons, Bool.and_eq_true, beq_iff_eq,
        Nat.add_right_cancel_iff, h, List.cons.injEq, ← rest, and_left_comm]

/-- Expressions that compare equal are equal. -/
theorem same_eq_true_iff {a b : Affine α} : a.same b = true ↔ a = b := by
  unfold same
  rw [Bool.and_assoc, Bool.and_eq_true, beq_iff_eq, all_zip_iff]
  · exact ⟨fun h => ext h.1 h.2, fun h => h ▸ ⟨rfl, rfl⟩⟩
  · intro p
    simp [Prod.ext_iff]

end Affine

/-! ## §4. Relations -/

namespace Relation

/-- **Relations have a canonical form.** The bodies of two relations compare equal exactly when the
differences of their sides have the same value under every assignment, and without tolerance a
relation holds when the values of its sides compare as it says. Values and coefficients of
expressions commute with all operations and do not see pruning, and what is pruned stays as it
is. -/
theorem canonical_body [IsStrictOrderedRing α] (l₁ r₁ l₂ r₂ : Affine α) :
    ((le l₁ r₁).body.same (le l₂ r₂).body = true ↔
      ∀ value, (l₁ - r₁).evaluate value = (l₂ - r₂).evaluate value) ∧
    (∀ value, ((le l₁ r₁).holds value 0 = true ↔ l₁.evaluate value ≤ r₁.evaluate value) ∧
      ((ge l₁ r₁).holds value 0 = true ↔ r₁.evaluate value ≤ l₁.evaluate value) ∧
      ((equals l₁ r₁).holds value 0 = true ↔ l₁.evaluate value = r₁.evaluate value)) ∧
    (∀ value, Affine.Reading (fun a : Affine α => a.evaluate value) (fun c => c) value) ∧
    (∀ v, Affine.Reading (fun a : Affine α => a.coefficient v) (fun _ => 0) (Pi.single v 1)) ∧
    ∀ a : Affine α, a.pruned.pruned = a.pruned := by
  refine ⟨?_, fun value => ?_, Affine.reading_evaluate, Affine.reading_coefficient,
    Affine.pruned_pruned⟩
  · rw [Affine.same_eq_true_iff]
    exact Affine.pruned_eq_iff
  · exact ⟨le_holds_iff l₁ r₁ value, ge_holds_iff l₁ r₁ value, equals_holds_iff l₁ r₁ value⟩

/-- A term that is zero and one that is cancelled make a difference to expressions, but not to the
relation. -/
theorem canonical_body_cancelled :
    let x : Affine ℚ := Affine.var 0
    let y : Affine ℚ := Affine.var 1
    (x + y.scale 0).same x = false ∧ (y - y).same Affine.zero = false ∧
      (le (x + y.scale 0) (y - y)).body.same (le x Affine.zero).body = true := by
  intro x y
  refine ⟨?_, ?_, (canonical_body (x + y.scale 0) (y - y) x Affine.zero).1.2 fun value => ?_⟩
  · have longer : ((x + y.scale 0).terms.length == x.terms.length) = false := rfl
    simp [Affine.same, longer]
  · have longer : ((y - y).terms.length == (Affine.zero (α := ℚ)).terms.length) = false := rfl
    simp [Affine.same, longer]
  · simp

end Relation

end PlantEconomics
