import Mathlib.Algebra.BigOperators.Group.List.Lemmas
import Mathlib.Data.List.Induction
import Mathlib.Data.Nat.Cast.Basic
import PlantEconomics.Program.Draft
import PlantEconomics.Proofs.Outcome

/-!
# How programs grow

A stage that adds families either meets a name that is taken, and then there is no program, or it
appends all of its members. `Program.extend` is the program that such a stage leaves: adding
families one after the other succeeds exactly when their names are new and differ from each other,
and the result is the extension. Committing a draft is a case of it, with the members of each
family gathered: the map that gathers them holds, under each name, the members of that name in
their order.
-/

namespace PlantEconomics

variable {α : Type}

/-- A family with its members. -/
abbrev Family (α : Type) : Type := String × List (Index × Relation α)

/-! ## §1. Extensions of a program -/

namespace Program

/-- The program with several families, whether or not there are some of their names. -/
def extend (p : Program α) (fs : List (Family α)) : Program α :=
  { p with
    constraints := p.constraints ++ fs.flatMap fun f => f.2.map fun m => ⟨f.1, m.1, m.2⟩
    families := p.families ++ fs.map (·.1) }

@[simp] theorem specs_extend (p : Program α) (fs : List (Family α)) :
    (p.extend fs).specs = p.specs := rfl

@[simp] theorem expressions_extend (p : Program α) (fs : List (Family α)) :
    (p.extend fs).expressions = p.expressions := rfl

@[simp] theorem objective_extend (p : Program α) (fs : List (Family α)) :
    (p.extend fs).objective = p.objective := rfl

@[simp] theorem size_extend (p : Program α) (fs : List (Family α)) :
    (p.extend fs).size = p.size := rfl

@[simp] theorem extend_nil (p : Program α) : p.extend [] = p := by
  simp [extend]

theorem extend_cons (p : Program α) (f : Family α) (fs : List (Family α)) :
    p.extend (f :: fs) = (p.withFamily f.1 f.2).extend fs := by
  simp [extend, withFamily]

theorem extend_extend (p : Program α) (fs gs : List (Family α)) :
    (p.extend fs).extend gs = p.extend (fs ++ gs) := by
  simp [extend]

theorem mem_families_extend {p : Program α} {fs : List (Family α)} {name : String} :
    name ∈ (p.extend fs).families ↔ name ∈ p.families ∨ ∃ f ∈ fs, f.1 = name := by
  simp [extend]

theorem mem_constraints_extend {p : Program α} {fs : List (Family α)} {c : Constraint α} :
    c ∈ (p.extend fs).constraints ↔
      c ∈ p.constraints ∨ ∃ f ∈ fs, ∃ m ∈ f.2, c = ⟨f.1, m.1, m.2⟩ := by
  simp [extend, eq_comm]

/-- A name has the members that it had, and those of the added families of this name. -/
theorem familyMembers_extend (p : Program α) (fs : List (Family α)) (name : String) :
    (p.extend fs).familyMembers name =
      p.familyMembers name ++
        (fs.filter (·.1 == name)).flatMap fun f => f.2.map fun m => ⟨name, m.1, m.2⟩ := by
  have added : ((fs.flatMap fun f => f.2.map fun m => (⟨f.1, m.1, m.2⟩ : Constraint α)).filter
      fun c => c.family == name) =
      (fs.filter (·.1 == name)).flatMap fun f => f.2.map fun m => ⟨name, m.1, m.2⟩ := by
    induction fs with
    | nil => rfl
    | cons f fs ih =>
      -- the members of one family all have its name, so they stay or go together
      rw [List.flatMap_cons, List.filter_append, ih, List.filter_map, List.filter_cons]
      by_cases same : f.1 = name
      · simp [same, Function.comp_def]
      · simp [same, Function.comp_def]
  unfold familyMembers extend
  rw [List.filter_append, added]

theorem length_constraints_extend (p : Program α) (fs : List (Family α)) :
    (p.extend fs).constraints.length =
      p.constraints.length + (fs.map fun f => f.2.length).sum := by
  simp [extend, List.length_flatMap]

/-! ## §2. Adding families -/

theorem ensureNew_eq_ok_iff {p : Program α} {names : List String} {u : Unit} :
    p.ensureNew names = .ok u ↔ ∀ f ∈ names, f ∉ p.families := by
  unfold ensureNew
  cases h : names.find? p.hasFamily with
  | none => simpa [hasFamily] using h
  | some f =>
    -- the first name that is taken is both listed and taken
    have taken : f ∈ p.families := by simpa [hasFamily] using List.find?_some h
    have listed : f ∈ names := List.mem_of_find?_eq_some h
    constructor
    · simp
    · intro new
      exact absurd taken (new f listed)

theorem carriedOut_eq_ok_iff {β : Type} {steps : InPlace α β} {p q : Program α} :
    carriedOut steps p = .ok q ↔ ∃ b, Yields steps p b q := by
  unfold carriedOut Yields
  rcases (steps.run.run p).run with ⟨_ | _, q'⟩ <;> simp

/-- A family is added in place when its name is new, and all its members are. -/
theorem yields_addFamilyInPlace_iff {p q : Program α} {f : String}
    {ms : List (Index × Relation α)} {n : Nat} :
    Yields (addFamilyInPlace f ms) p n q ↔
      f ∉ p.families ∧ ms.length = n ∧ p.withFamily f ms = q := by
  unfold addFamilyInPlace
  simp only [yields_bind_iff, yields_get_iff, yields_lift_iff, yields_modify_iff, yields_pure_iff,
    ensureNew_eq_ok_iff, List.forall_mem_singleton]
  constructor
  · rintro ⟨_, _, ⟨rfl, rfl⟩, _, _, ⟨new, rfl⟩, _, _, ⟨rfl, rfl⟩, _, _, rfl, _, _, rfl, _, _,
      ⟨rfl, rfl⟩, counted, rfl⟩
    exact ⟨new, by simpa using counted, rfl⟩
  · rintro ⟨new, rfl, rfl⟩
    refine ⟨p, p, ⟨rfl, rfl⟩, (), p, ⟨new, rfl⟩, p, p, ⟨rfl, rfl⟩, ⟨⟩, _, rfl, ⟨⟩, _, rfl, _, _,
      ⟨rfl, rfl⟩, ?_, rfl⟩
    simp

/-- A family whose name is taken is refused before anything is added. -/
theorem fails_addFamilyInPlace_iff {p q : Program α} {f : String}
    {ms : List (Index × Relation α)} {fault : Fault α} :
    Fails (addFamilyInPlace f ms) p fault q ↔ p.ensureNew [f] = .error fault ∧ p = q := by
  unfold addFamilyInPlace
  simp only [fails_bind_iff, yields_get_iff, yields_lift_iff, fails_lift_iff, not_fails_get,
    not_fails_modify, not_fails_pure, false_or, and_false, exists_false, or_false]
  constructor
  · rintro ⟨_, _, ⟨rfl, rfl⟩, refused, rfl⟩
    exact ⟨refused, rfl⟩
  · rintro ⟨refused, rfl⟩
    exact ⟨p, p, ⟨rfl, rfl⟩, refused, rfl⟩

theorem addFamily_eq_ok_iff {p q : Program α} {f : String} {ms : List (Index × Relation α)} :
    p.addFamily f ms = .ok q ↔ f ∉ p.families ∧ p.withFamily f ms = q := by
  unfold addFamily
  rw [carriedOut_eq_ok_iff]
  simp [yields_addFamilyInPlace_iff]

/-- Adding families one by one succeeds when all names are new, also to each other, and then gives
the extension. -/
theorem foldlM_addFamily_eq_ok_iff {p q : Program α} {fs : List (Family α)} :
    fs.foldlM (fun p f => p.addFamily f.1 f.2) p = .ok q ↔
      (fs.map (·.1)).Nodup ∧ (∀ f ∈ fs, f.1 ∉ p.families) ∧ p.extend fs = q := by
  induction fs generalizing p with
  | nil => simp
  | cons f fs ih =>
    rw [List.foldlM_cons, bind_eq_ok_iff]
    simp only [addFamily_eq_ok_iff, ih, extend_cons]
    -- a later name must not be taken by `f` either, which is what distinctness adds
    have apart : (∀ g ∈ fs, g.1 ∉ (p.withFamily f.1 f.2).families) ↔
        (∀ g ∈ fs, g.1 ∉ p.families) ∧ f.1 ∉ fs.map (·.1) := by
      simp only [withFamily, List.mem_append, List.mem_singleton, List.mem_map]
      grind
    constructor
    · rintro ⟨_, ⟨new, rfl⟩, distinct, others, rfl⟩
      obtain ⟨others, different⟩ := apart.1 others
      exact ⟨List.nodup_cons.2 ⟨different, distinct⟩, List.forall_mem_cons.2 ⟨new, others⟩, rfl⟩
    · rintro ⟨distinct, new, rfl⟩
      obtain ⟨different, distinct⟩ := List.nodup_cons.1 distinct
      obtain ⟨new, others⟩ := List.forall_mem_cons.1 new
      exact ⟨_, ⟨new, rfl⟩, distinct, apart.2 ⟨others, different⟩, rfl⟩

/-! ## §3. Expressions and the objective -/

theorem ensureNewExpression_eq_ok_iff {p : Program α} {name : String} {u : Unit} :
    p.ensureNewExpression name = .ok u ↔ p.expression? name = none := by
  unfold ensureNewExpression
  cases p.expression? name <;> simp

theorem ensureNoObjective_eq_ok_iff {p : Program α} {u : Unit} :
    p.ensureNoObjective = .ok u ↔ p.objective = none := by
  unfold ensureNoObjective
  cases p.objective <;> simp

/-- A step in place that follows a check changes the program when the check passes. -/
theorem yields_checked_iff {check : Program α → Except (Fault α) Unit}
    {change : Program α → Program α} {p q : Program α} {u : Unit} :
    Yields (do check (← get); modify change : InPlace α Unit) p u q ↔
      check p = .ok () ∧ change p = q := by
  simp only [yields_bind_iff, yields_get_iff, yields_lift_iff, yields_modify_iff]
  constructor
  · rintro ⟨_, _, ⟨rfl, rfl⟩, _, _, ⟨passed, rfl⟩, changed⟩
    exact ⟨passed, changed⟩
  · rintro ⟨passed, changed⟩
    exact ⟨p, p, ⟨rfl, rfl⟩, (), p, ⟨passed, rfl⟩, changed⟩

/-- Where the check does not pass, nothing is changed. -/
theorem fails_checked_iff {check : Program α → Except (Fault α) Unit}
    {change : Program α → Program α} {p q : Program α} {fault : Fault α} :
    Fails (do check (← get); modify change : InPlace α Unit) p fault q ↔
      check p = .error fault ∧ p = q := by
  simp only [fails_bind_iff, yields_get_iff, fails_lift_iff, not_fails_get, not_fails_modify,
    false_or, and_false, exists_false, or_false]
  constructor
  · rintro ⟨_, _, ⟨rfl, rfl⟩, refused, rfl⟩
    exact ⟨refused, rfl⟩
  · rintro ⟨refused, rfl⟩
    exact ⟨p, p, ⟨rfl, rfl⟩, refused, rfl⟩

theorem yields_addExpressionInPlace_iff {p q : Program α} {name : String} {e : Affine α}
    {u : Unit} :
    Yields (addExpressionInPlace name e) p u q ↔
      p.expression? name = none ∧ { p with expressions := p.expressions ++ [(name, e)] } = q := by
  unfold addExpressionInPlace
  rw [yields_checked_iff, ensureNewExpression_eq_ok_iff]

theorem yields_setObjectiveInPlace_iff {p q : Program α} {o : Objective α} {u : Unit} :
    Yields (setObjectiveInPlace o) p u q ↔
      p.objective = none ∧ { p with objective := some o } = q := by
  unfold setObjectiveInPlace
  rw [yields_checked_iff, ensureNoObjective_eq_ok_iff]

theorem addExpression_eq_ok_iff {p q : Program α} {name : String} {e : Affine α} :
    p.addExpression name e = .ok q ↔
      p.expression? name = none ∧ { p with expressions := p.expressions ++ [(name, e)] } = q := by
  unfold addExpression
  rw [carriedOut_eq_ok_iff]
  simp only [yields_addExpressionInPlace_iff, exists_const]

theorem setObjective_eq_ok_iff {p q : Program α} {o : Objective α} :
    p.setObjective o = .ok q ↔ p.objective = none ∧ { p with objective := some o } = q := by
  unfold setObjective
  rw [carriedOut_eq_ok_iff]
  simp only [yields_setObjectiveInPlace_iff, exists_const]

/-- A family of one constraint is added in place like any other. -/
theorem yields_addConstraintInPlace_iff {p q : Program α} {f : String} {r : Relation α} {u : Unit} :
    Yields (addConstraintInPlace f r) p u q ↔
      f ∉ p.families ∧ p.withFamily f [(.scalar, r)] = q := by
  unfold addConstraintInPlace
  simp only [yields_bind_iff, yields_addFamilyInPlace_iff, yields_pure_iff]
  constructor
  · rintro ⟨_, _, ⟨new, -, rfl⟩, -, rfl⟩
    exact ⟨new, rfl⟩
  · rintro ⟨new, rfl⟩
    exact ⟨_, _, ⟨new, rfl, rfl⟩, trivial, rfl⟩

theorem addConstraint_eq (p : Program α) (f : String) (r : Relation α) :
    p.addConstraint f r = p.addFamily f [(.scalar, r)] := by
  unfold addConstraint addFamily carriedOut addConstraintInPlace
  rw [run_bind_eq]
  rcases ((addFamilyInPlace f [(.scalar, r)]).run.run p).run with ⟨_ | _, q⟩ <;> rfl

/-- Families that are added in place are added as they are one after the other. -/
theorem yields_forM_addFamilyInPlace_iff {p q : Program α} {fs : List (Family α)} {u : Unit} :
    Yields (fs.forM fun f => discard (addFamilyInPlace f.1 f.2)) p u q ↔
      fs.foldlM (fun p f => p.addFamily f.1 f.2) p = .ok q := by
  induction fs generalizing p with
  | nil =>
    show Yields (pure ()) p u q ↔ _
    rw [yields_pure_iff]
    simp
  | cons f fs ih =>
    show Yields (discard (addFamilyInPlace f.1 f.2) >>= fun _ => fs.forM _) p u q ↔ _
    rw [yields_bind_iff, List.foldlM_cons, bind_eq_ok_iff]
    simp only [yields_discard_iff, ← carriedOut_eq_ok_iff, ih]
    constructor
    · rintro ⟨_, p', first, rest⟩
      exact ⟨p', first, rest⟩
    · rintro ⟨p', first, rest⟩
      exact ⟨(), p', first, rest⟩

end Program

/-! ## §4. Drafts -/

/-- When every element has one of some tags, the elements of each tag, one tag after the other, are
a rearrangement of all elements. -/
theorem perm_flatMap_filter {β κ : Type} [DecidableEq κ] {tag : β → κ} {tags : List κ}
    (distinct : tags.Nodup) {l : List β} (every : ∀ b ∈ l, tag b ∈ tags) :
    (tags.flatMap fun t => l.filter fun b => tag b == t).Perm l := by
  induction tags generalizing l with
  | nil =>
    have none : l = [] := List.eq_nil_iff_forall_not_mem.2 fun b hb => List.not_mem_nil (every b hb)
    rw [none]
    exact .nil
  | cons t tags ih =>
    obtain ⟨new, distinct⟩ := List.nodup_cons.1 distinct
    -- the elements of the later tags are found among those that do not have the first one
    have later : (tags.flatMap fun t' => l.filter fun b => tag b == t') =
        tags.flatMap fun t' => (l.filter fun b => !tag b == t).filter fun b => tag b == t' := by
      refine List.flatMap_congr fun t' ht' => ?_
      rw [List.filter_filter]
      refine List.filter_congr fun b _ => ?_
      have other : t' ≠ t := fun same => new (same ▸ ht')
      grind
    have rest := ih distinct (l := l.filter fun b => !tag b == t) fun b hb => by
      obtain ⟨hb, other⟩ := List.mem_filter.1 hb
      exact (List.mem_cons.1 (every b hb)).resolve_left (by simpa using other)
    rw [List.flatMap_cons, later]
    exact (rest.append_left _).trans (List.filter_append_perm _ l)

/-- A member as a constraint. -/
def Member.constraint (m : Member α) : Constraint α := ⟨m.family, m.index, m.relation⟩

namespace Draft

/-- The members meant for a family, in the order in which they came. -/
def membersOf (d : Draft α) (family : String) : List (Index × Relation α) :=
  (d.members.filter fun m => m.family == family).map fun m => (m.index, m.relation)

/-- The map has the members of a family under its name, and no families without members. -/
theorem getElem?_byFamily (d : Draft α) (name : String) :
    d.byFamily[name]? =
      if d.membersOf name = [] then none else some (d.membersOf name).toArray := by
  obtain ⟨members⟩ := d
  induction members using List.reverseRecOn with
  | nil => rfl
  | append_singleton members m ih =>
    have last : (⟨members ++ [m]⟩ : Draft α).byFamily = sortIn (byFamily ⟨members⟩) m := by
      simp [byFamily]
    rw [last, sortIn, Std.TreeMap.getElem?_alter]
    simp only [Std.LawfulEqOrd.compare_eq_iff_eq]
    by_cases same : m.family = name
    · subst same
      have behind : membersOf ⟨members ++ [m]⟩ m.family =
          membersOf ⟨members⟩ m.family ++ [(m.index, m.relation)] := by
        simp [membersOf]
      have before : ((byFamily ⟨members⟩)[m.family]?.getD #[]) =
          (membersOf ⟨members⟩ m.family).toArray := by
        rw [ih]
        split
        · next none => rw [none]; rfl
        · rfl
      rw [if_pos rfl, before, behind, if_neg (by simp)]
      simp
    · have kept : membersOf ⟨members ++ [m]⟩ name = membersOf ⟨members⟩ name := by
        simp [membersOf, same]
      rw [if_neg same, kept, ih]

/-- What is gathered for a family is all its members. -/
theorem mem_gathered {d : Draft α} {f : Family α} :
    f ∈ d.gathered ↔ f.2 = d.membersOf f.1 ∧ d.membersOf f.1 ≠ [] := by
  obtain ⟨name, ms⟩ := f
  unfold gathered
  rw [List.mem_map]
  constructor
  · rintro ⟨⟨name', ms'⟩, hf, same⟩
    obtain ⟨rfl, rfl⟩ := Prod.mk.inj same
    rw [Std.TreeMap.mem_toList_iff_getElem?_eq_some, getElem?_byFamily] at hf
    split at hf
    · cases hf
    · next some_member =>
      obtain rfl := Option.some.inj hf
      exact ⟨rfl, some_member⟩
  · rintro ⟨all, some_member⟩
    refine ⟨(name, (d.membersOf name).toArray), ?_, Prod.ext rfl all.symm⟩
    rw [Std.TreeMap.mem_toList_iff_getElem?_eq_some, getElem?_byFamily, if_neg some_member]

theorem gathered_eq (d : Draft α) : d.gathered = d.families.map fun f => (f, d.membersOf f) := by
  unfold families
  rw [List.map_map]
  conv_lhs => rw [← List.map_id d.gathered]
  refine List.map_congr_left fun f hf => ?_
  exact Prod.ext rfl (mem_gathered.1 hf).1

/-- The families come in the order of their names. -/
theorem pairwise_families (d : Draft α) : d.families.Pairwise (· < ·) := by
  have names : d.families = d.byFamily.keys := by
    rw [families, gathered, List.map_map, ← Std.TreeMap.map_fst_toList_eq_keys]
    rfl
  rw [names]
  have ordered : d.byFamily.keys.Pairwise fun a b => compare a b = .lt := Std.TreeMap.ordered_keys
  exact ordered.imp compareOfLessAndEq_eq_lt.1

theorem nodup_families (d : Draft α) : d.families.Nodup :=
  d.pairwise_families.imp String.ne_of_lt

theorem mem_families {d : Draft α} {name : String} :
    name ∈ d.families ↔ ∃ m ∈ d.members, m.family = name := by
  have named : name ∈ d.families ↔ d.membersOf name ≠ [] := by
    unfold families
    rw [List.mem_map]
    constructor
    · rintro ⟨f, hf, rfl⟩
      exact (mem_gathered.1 hf).2
    · intro some_member
      exact ⟨(name, d.membersOf name), mem_gathered.2 ⟨rfl, some_member⟩, rfl⟩
  rw [named]
  simp [membersOf]

theorem yields_commitInPlace_iff {d : Draft α} {p q : Program α} {u : Unit} :
    Yields d.commitInPlace p u q ↔
      (∀ m ∈ d.members, m.family ∉ p.families) ∧ p.extend d.gathered = q := by
  unfold commitInPlace
  simp only [yields_bind_iff, yields_get_iff, yields_lift_iff,
    Program.yields_forM_addFamilyInPlace_iff, Program.foldlM_addFamily_eq_ok_iff,
    Program.ensureNew_eq_ok_iff]
  constructor
  · rintro ⟨_, _, ⟨rfl, rfl⟩, _, _, ⟨new, rfl⟩, -, -, whole⟩
    exact ⟨fun m hm => new _ (mem_families.2 ⟨m, hm, rfl⟩), whole⟩
  · rintro ⟨new, whole⟩
    have new' : ∀ name ∈ d.families, name ∉ p.families := by
      intro name hname
      obtain ⟨m, hm, rfl⟩ := mem_families.1 hname
      exact new m hm
    refine ⟨p, p, ⟨rfl, rfl⟩, (), p, ⟨new', rfl⟩, d.nodup_families, fun f hf => ?_, whole⟩
    exact new' f.1 (List.mem_map_of_mem hf)

theorem commit_eq_ok_iff {d : Draft α} {p q : Program α} :
    d.commit p = .ok q ↔ (∀ m ∈ d.members, m.family ∉ p.families) ∧ p.extend d.gathered = q := by
  unfold commit
  rw [Program.carriedOut_eq_ok_iff]
  simp only [yields_commitInPlace_iff, exists_const]

/-- Gathering the members of a draft rearranges its constraints. -/
theorem perm_gathered (d : Draft α) :
    (d.gathered.flatMap fun f => f.2.map fun m => (⟨f.1, m.1, m.2⟩ : Constraint α)).Perm
      (d.members.map (·.constraint)) := by
  have gathered : (d.gathered.flatMap fun f => f.2.map fun m => (⟨f.1, m.1, m.2⟩ : Constraint α)) =
      (d.families.flatMap fun f => d.members.filter fun m => m.family == f).map (·.constraint) := by
    rw [gathered_eq, List.flatMap_map, List.map_flatMap]
    refine List.flatMap_congr fun f _ => ?_
    rw [membersOf, List.map_map]
    refine List.map_congr_left fun m hm => ?_
    have own : m.family = f := eq_of_beq (List.mem_filter.1 hm).2
    rw [← own]
    rfl
  rw [gathered]
  exact (perm_flatMap_filter d.nodup_families fun m hm => mem_families.2 ⟨m, hm, rfl⟩).map _

/-- So it loses no member and makes none up. -/
theorem mem_constraints_extend_gathered {d : Draft α} {p : Program α} {c : Constraint α} :
    c ∈ (p.extend d.gathered).constraints ↔
      c ∈ p.constraints ∨ ∃ m ∈ d.members, c = ⟨m.family, m.index, m.relation⟩ := by
  show c ∈ p.constraints ++ _ ↔ _
  rw [List.mem_append, d.perm_gathered.mem_iff, List.mem_map]
  simp only [Member.constraint, eq_comm]

/-- And it keeps their number. -/
theorem length_gathered (d : Draft α) :
    (d.gathered.map fun f => f.2.length).sum = d.members.length := by
  have same := d.perm_gathered.length_eq
  simpa [List.length_flatMap] using same

end Draft

end PlantEconomics
