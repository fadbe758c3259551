import Mathlib.Data.List.Induction
import PlantEconomics.Program.Ledger
import PlantEconomics.Proofs.Program.Growth

/-!
# Histories of programs

A program comes about by edits, one after the other. Here a program is described by its *history*,
the list of all edits that were to be made: its variables are those asked for, in their order; a
family has the members of the first edit that used its name; an expression of a name and the
objective are the first ones given. An edit that comes later under the same name adds nothing, also
where the first family has no members at all, and no edit changes or takes away what is there.

What an edit adds to a program is said by `Program.edited`. What a history does to each part of the
program follows by going through it from its end.

  * `Program.objective_after`, `Program.expression?_after`, `Program.familyMembers_after`: the parts;
  * `Program.clashes_after_iff`: what a program has is what its history was to define;
  * `Program.keeps_foldl`: what is there stays.
-/

namespace PlantEconomics

variable {α : Type}

/-! ## §1. Edits -/

namespace Edit

/-- The variable that an edit asks for. -/
def spec? : Edit α → Option (VariableSpec α)
  | .create spec => some spec
  | _ => none

/-- The family that an edit uses, with the members that it would have. -/
def family? : Edit α → Option (Family α)
  | .family name members => some (name, members)
  | .constraint name r => some (name, [(.scalar, r)])
  | _ => none

/-- The expression that an edit names. -/
def expression? : Edit α → Option (String × Affine α)
  | .expression name e => some (name, e)
  | _ => none

/-- The objective that an edit sets. -/
def objective? : Edit α → Option (Objective α)
  | .objective o => some o
  | _ => none

/-- Whether an edit is to define what a program has. -/
def Clashes (p : Program α) : Edit α → Prop
  | .create _ => False
  | .family name _ | .constraint name _ => name ∈ p.families
  | .expression name _ => name ∈ p.expressions.map (·.1)
  | .objective _ => p.objective ≠ none

/-- Whether an edit is to define what an edit of the history was to define. -/
def Repeats (history : List (Edit α)) : Edit α → Prop
  | .create _ => False
  | .family name _ | .constraint name _ => name ∈ (history.filterMap family?).map (·.1)
  | .expression name _ => name ∈ (history.filterMap expression?).map (·.1)
  | .objective _ => history.filterMap objective? ≠ []

end Edit

/-! ## §2. Entries under names -/

theorem lookup_eq_none_iff_not_mem {β : Type} {xs : List (String × β)} {name : String} :
    xs.lookup name = none ↔ name ∉ xs.map (·.1) := by
  rw [List.lookup_eq_none_iff, List.mem_map]
  constructor
  · rintro different ⟨x, hx, rfl⟩
    simpa using different x hx
  · intro new x hx
    by_contra same
    have same : name = x.1 := by simpa using same
    exact new ⟨x, hx, same.symm⟩

/-- Entries whose names are taken do not show, so they may as well be left out. -/
theorem lookup_append_new {β : Type} (xs ys : List (String × β)) (name : String) :
    (xs ++ ys.filter fun y => y.1 ∉ xs.map (·.1)).lookup name = (xs ++ ys).lookup name := by
  rw [List.lookup_append, List.lookup_append]
  cases found : xs.lookup name with
  | some x => rfl
  | none =>
    have new : name ∉ xs.map (·.1) := lookup_eq_none_iff_not_mem.1 found
    rw [Option.none_or, Option.none_or]
    induction ys with
    | nil => rfl
    | cons y ys ih =>
      by_cases same : name = y.1
      · subst same
        rw [List.filter_cons_of_pos (by simpa using new), List.lookup_cons_self,
          List.lookup_cons_self]
      · have other : (name == y.1) = false := by simpa using same
        rw [List.lookup_cons, other, ← ih, List.filter_cons]
        split
        · rw [List.lookup_cons, other]
        · rfl

namespace Program

/-! ## §3. What an edit adds -/

/-- The families that an edit adds: its own, if the name is new. -/
def newFamilies (p : Program α) (e : Edit α) : List (Family α) :=
  e.family?.toList.filter fun f => f.1 ∉ p.families

/-- The expressions that an edit adds: its own, if the name is new. -/
def newExpressions (p : Program α) (e : Edit α) : List (String × Affine α) :=
  e.expression?.toList.filter fun x => x.1 ∉ p.expressions.map (·.1)

/-- The program with what an edit adds: every part keeps what it has, and has the new behind it. -/
def edited (p : Program α) (e : Edit α) : Program α :=
  { p.extend (p.newFamilies e) with
    specs := p.specs ++ e.spec?.toList.toArray
    expressions := p.expressions ++ p.newExpressions e
    objective := p.objective.or e.objective? }

@[simp] theorem specs_edited (p : Program α) (e : Edit α) :
    (p.edited e).specs = p.specs ++ e.spec?.toList.toArray := rfl

@[simp] theorem size_edited (p : Program α) (e : Edit α) :
    (p.edited e).size = p.size + e.spec?.toList.length := by
  show (p.specs ++ e.spec?.toList.toArray).size = p.specs.size + _
  exact Array.size_append

/-- The program after a history, from nothing. -/
def after (history : List (Edit α)) : Program α := history.foldl edited empty

theorem after_concat (history : List (Edit α)) (e : Edit α) :
    after (history ++ [e]) = (after history).edited e := by
  simp [after]

theorem expression?_eq_none_iff {p : Program α} {name : String} :
    p.expression? name = none ↔ name ∉ p.expressions.map (·.1) := lookup_eq_none_iff_not_mem

section New

variable {p : Program α}

@[simp] theorem edited_create (p : Program α) (spec : VariableSpec α) :
    p.edited (.create spec) = p.addVariable spec := by
  simp [edited, newFamilies, newExpressions, addVariable, Edit.family?, Edit.spec?,
    Edit.expression?, Edit.objective?]

theorem edited_family {name : String} (new : name ∉ p.families)
    (members : List (Index × Relation α)) :
    p.edited (.family name members) = p.withFamily name members := by
  simp [edited, newFamilies, newExpressions, extend, withFamily, new, Edit.family?, Edit.spec?,
    Edit.expression?, Edit.objective?]

theorem edited_constraint {name : String} (new : name ∉ p.families) (r : Relation α) :
    p.edited (.constraint name r) = p.withFamily name [(.scalar, r)] :=
  edited_family new [(.scalar, r)]

theorem edited_expression {name : String} (new : name ∉ p.expressions.map (·.1)) (x : Affine α) :
    p.edited (.expression name x) = { p with expressions := p.expressions ++ [(name, x)] } := by
  simp [edited, newFamilies, newExpressions, new, Edit.family?, Edit.spec?, Edit.expression?,
    Edit.objective?]

theorem edited_objective (new : p.objective = none) (o : Objective α) :
    p.edited (.objective o) = { p with objective := some o } := by
  simp [edited, newFamilies, newExpressions, new, Edit.family?, Edit.spec?, Edit.expression?,
    Edit.objective?]

end New

/-- With a clash there is nothing to add. -/
theorem edited_of_clashes {p : Program α} {e : Edit α} (clash : e.Clashes p) :
    p.edited e = p := by
  unfold edited newFamilies newExpressions
  cases e with
  | create spec => exact clash.elim
  | family name ms | constraint name r =>
    have taken : name ∈ p.families := clash
    simp [taken, Edit.family?, Edit.spec?, Edit.expression?, Edit.objective?]
  | expression name x =>
    have taken : name ∈ p.expressions.map (·.1) := clash
    simp [taken, Edit.family?, Edit.spec?, Edit.expression?, Edit.objective?]
  | objective o =>
    obtain ⟨first, known⟩ := Option.ne_none_iff_exists'.1 clash
    have kept : p.objective.or (some o) = p.objective := by
      rw [known]
      rfl
    simp [kept, Edit.family?, Edit.spec?, Edit.expression?, Edit.objective?]

/-! ## §4. A history, part by part -/

theorem objective_after (history : List (Edit α)) :
    (after history).objective = (history.filterMap Edit.objective?).head? := by
  induction history using List.reverseRecOn with
  | nil => rfl
  | append_singleton history e ih =>
    rw [after_concat, List.filterMap_append, List.head?_append, ← ih]
    cases found : e.objective? <;> simp [edited, found]

theorem expression?_after (history : List (Edit α)) (name : String) :
    (after history).expression? name = (history.filterMap Edit.expression?).lookup name := by
  induction history using List.reverseRecOn with
  | nil => rfl
  | append_singleton history e ih =>
    rw [after_concat, List.filterMap_append, List.lookup_append, ← ih]
    unfold expression? edited newExpressions
    rw [lookup_append_new, List.lookup_append]
    cases e <;> rfl

/-- The families of a program are the first ones of their names, each with its own members. -/
theorem exists_families_after (history : List (Edit α)) :
    ∃ fs : List (Family α), (fs.map (·.1)).Nodup ∧
      (∀ name, fs.lookup name = (history.filterMap Edit.family?).lookup name) ∧
      (after history).families = (empty.extend fs).families ∧
      (after history).constraints = (empty.extend fs).constraints := by
  induction history using List.reverseRecOn with
  | nil => exact ⟨[], List.nodup_nil, fun _ => rfl, rfl, rfl⟩
  | append_singleton history e ih =>
    obtain ⟨fs, distinct, first, families, constraints⟩ := ih
    have names : (after history).families = fs.map (·.1) := by
      simp [families, extend, empty]
    refine ⟨fs ++ (after history).newFamilies e, ?_, ?_, ?_, ?_⟩
    · rw [List.map_append]
      refine distinct.append ?_ ?_
      · exact (List.Sublist.map _ List.filter_sublist).nodup (by cases e <;> simp [Edit.family?])
      · intro name old new
        obtain ⟨f, hf, rfl⟩ := List.mem_map.1 new
        have absent : f.1 ∉ (after history).families := by
          simpa using (List.mem_filter.1 hf).2
        exact absent (names ▸ old)
    · intro name
      have known : ((history ++ [e]).filterMap Edit.family?).lookup name =
          (fs ++ e.family?.toList).lookup name := by
        rw [List.filterMap_append, List.lookup_append, ← first, List.lookup_append]
        cases e <;> rfl
      rw [known]
      unfold newFamilies
      rw [names, lookup_append_new]
    · rw [after_concat, ← extend_extend]
      show _ ++ _ = _ ++ _
      rw [families]
    · rw [after_concat, ← extend_extend]
      show _ ++ _ = _ ++ _
      rw [constraints]

/-- Where names do not repeat, the members of a name are those given with it. -/
theorem familyMembers_extend_empty {fs : List (Family α)} (distinct : (fs.map (·.1)).Nodup)
    (name : String) :
    (empty.extend fs).familyMembers name =
      ((fs.lookup name).getD []).map fun m => ⟨name, m.1, m.2⟩ := by
  rw [familyMembers_extend]
  show [] ++ _ = _
  rw [List.nil_append]
  induction fs with
  | nil => rfl
  | cons f fs ih =>
    obtain ⟨new, distinct⟩ := List.nodup_cons.1 distinct
    by_cases same : name = f.1
    · -- no later family has the name, so nothing comes behind the members of this one
      have alone : fs.filter (·.1 == name) = [] := by
        rw [List.filter_eq_nil_iff]
        intro g hg
        have other : g.1 ≠ name := fun h => new (List.mem_map.2 ⟨g, hg, h.trans same⟩)
        simpa using other
      subst same
      rw [List.filter_cons_of_pos (by simp), alone, List.lookup_cons_self]
      simp
    · have other : (name == f.1) = false := by simpa using same
      have other' : f.1 ≠ name := fun h => same h.symm
      rw [List.filter_cons_of_neg (by simpa using other'), ih distinct, List.lookup_cons, other]

/-- The members of a family stand together. -/
theorem familyMembers_infix_extend_empty {fs : List (Family α)}
    (distinct : (fs.map (·.1)).Nodup) (name : String) :
    (empty.extend fs).familyMembers name <:+: (empty.extend fs).constraints := by
  rw [familyMembers_extend_empty distinct]
  cases found : fs.lookup name with
  | none => exact List.nil_infix
  | some ms =>
    obtain ⟨before, behind, split, -⟩ := List.lookup_eq_some_iff.1 found
    refine ⟨(empty.extend before).constraints, (empty.extend behind).constraints, ?_⟩
    simp [extend, empty, split]

theorem mem_families_after {history : List (Edit α)} {name : String} :
    name ∈ (after history).families ↔ name ∈ (history.filterMap Edit.family?).map (·.1) := by
  obtain ⟨fs, -, first, families, -⟩ := exists_families_after history
  have names : (after history).families = fs.map (·.1) := by
    simp [families, extend, empty]
  rw [names, ← not_iff_not, ← lookup_eq_none_iff_not_mem, ← lookup_eq_none_iff_not_mem, first]

theorem familyMembers_after (history : List (Edit α)) (name : String) :
    (after history).familyMembers name =
      (((history.filterMap Edit.family?).lookup name).getD []).map fun m =>
        ⟨name, m.1, m.2⟩ := by
  obtain ⟨fs, distinct, first, -, constraints⟩ := exists_families_after history
  rw [← first, ← familyMembers_extend_empty distinct]
  unfold familyMembers
  rw [constraints]

theorem familyMembers_infix_after (history : List (Edit α)) (name : String) :
    (after history).familyMembers name <:+: (after history).constraints := by
  obtain ⟨fs, distinct, -, -, constraints⟩ := exists_families_after history
  have together := familyMembers_infix_extend_empty distinct name
  unfold familyMembers at together ⊢
  rw [constraints]
  exact together

/-- No constraint belongs to a family that is not there. -/
theorem family_mem_families_after {history : List (Edit α)} {c : Constraint α}
    (hc : c ∈ (after history).constraints) : c.family ∈ (after history).families := by
  obtain ⟨fs, -, -, families, constraints⟩ := exists_families_after history
  rw [constraints, mem_constraints_extend] at hc
  rw [families, mem_families_extend]
  rcases hc with impossible | ⟨f, hf, m, -, rfl⟩
  · cases impossible
  · exact .inr ⟨f, hf, rfl⟩

/-- What a program has is what its history was to define. -/
theorem clashes_after_iff {history : List (Edit α)} {e : Edit α} :
    e.Clashes (after history) ↔ e.Repeats history := by
  cases e with
  | create spec => exact Iff.rfl
  | family name ms | constraint name r => exact mem_families_after
  | expression name x =>
    show name ∈ (after history).expressions.map _ ↔ name ∈ List.map _ _
    rw [← not_iff_not, ← expression?_eq_none_iff, ← lookup_eq_none_iff_not_mem,
      expression?_after]
  | objective o =>
    show (after history).objective ≠ none ↔ _ ≠ []
    rw [objective_after, not_iff_not, List.head?_eq_none_iff]

/-! ## §5. What is there stays -/

/-- Everything in a program is in another one too, at its place and unchanged. -/
structure Keeps (p q : Program α) : Prop where
  specs : p.specs.toList <+: q.specs.toList
  constraints : p.constraints <+: q.constraints
  families : ∀ name ∈ p.families, name ∈ q.families
  members : ∀ name ∈ p.families, q.familyMembers name = p.familyMembers name
  expressions : ∀ name x, p.expression? name = some x → q.expression? name = some x
  objective : ∀ o, p.objective = some o → q.objective = some o

theorem Keeps.refl (p : Program α) : p.Keeps p where
  specs := List.prefix_rfl
  constraints := List.prefix_rfl
  families _ h := h
  members _ _ := rfl
  expressions _ _ h := h
  objective _ h := h

theorem Keeps.trans {p q r : Program α} (first : p.Keeps q) (second : q.Keeps r) :
    p.Keeps r where
  specs := first.specs.trans second.specs
  constraints := first.constraints.trans second.constraints
  families name h := second.families name (first.families name h)
  members name h := (second.members name (first.families name h)).trans (first.members name h)
  expressions name x h := second.expressions name x (first.expressions name x h)
  objective o h := second.objective o (first.objective o h)

theorem keeps_edited (p : Program α) (e : Edit α) : p.Keeps (p.edited e) := by
  constructor
  · exact ⟨e.spec?.toList, by simp [edited]⟩
  · exact List.prefix_append ..
  · intro name h
    exact List.mem_append_left _ h
  · intro name taken
    -- the families that an edit adds have new names
    have none : (p.newFamilies e).filter (·.1 == name) = [] := by
      rw [List.filter_eq_nil_iff]
      intro f hf same
      have absent : f.1 ∉ p.families := by simpa using (List.mem_filter.1 hf).2
      exact absent (eq_of_beq same ▸ taken)
    have members := familyMembers_extend p (p.newFamilies e) name
    rw [none, List.flatMap_nil, List.append_nil] at members
    exact members
  · intro name x h
    unfold expression? at h ⊢
    show (p.expressions ++ _).lookup name = _
    rw [List.lookup_append, h, Option.some_or]
  · intro o h
    show p.objective.or _ = _
    rw [h, Option.some_or]

theorem keeps_foldl (later : List (Edit α)) (p : Program α) :
    p.Keeps (later.foldl edited p) := by
  induction later generalizing p with
  | nil => exact .refl p
  | cons e later ih => exact (keeps_edited p e).trans (ih (p.edited e))

end Program

end PlantEconomics
