import PlantEconomics.Proofs.Program.Growth

/-!
# Committing a draft

A draft is committed in place, one family after the other, so a name that is taken could be met
when some families are already there. It is not: all names are looked at first, and after that no
family is refused. So a commit leaves either a program that has all members of the draft, or the
program that there was.

  * `Draft.fails_commitInPlace_iff`: when a commit fails, with which fault, and what it leaves;
  * `Draft.adds_extend_gathered`: what a commit that succeeds has added;
  * `Draft.commits_wholly_or_not_at_all`: both, for a draft that is filled push by push.
-/

namespace PlantEconomics

variable {α : Type}

/-! ## §1. Names that are taken -/

/-- In names that are in order, the first one of a kind is the least one of the kind. -/
theorem find?_eq_some_iff_least {names : List String} (ordered : names.Pairwise (· < ·))
    {kind : String → Bool} {name : String} :
    names.find? kind = some name ↔
      (name ∈ names ∧ kind name) ∧ ∀ other ∈ names, kind other → name ≤ other := by
  have least {name : String} (found : names.find? kind = some name) :
      ∀ other ∈ names, kind other → name ≤ other := by
    intro other listed same
    obtain ⟨-, before, behind, rfl, none⟩ := List.find?_eq_some_iff_append.1 found
    -- names in front are of another kind, and names behind are greater
    rcases List.mem_append.1 listed with early | late
    · exact absurd same (by simpa using none other early)
    rcases List.mem_cons.1 late with rfl | late
    · exact String.le_refl _
    · have later := (List.pairwise_cons.1 (List.pairwise_append.1 ordered).2.1).1 other late
      exact String.not_lt.1 (String.lt_asymm later)
  constructor
  · intro found
    exact ⟨⟨List.mem_of_find?_eq_some found, List.find?_some found⟩, least found⟩
  · rintro ⟨⟨listed, holds⟩, below⟩
    obtain ⟨first, found⟩ : ∃ first, names.find? kind = some first :=
      Option.isSome_iff_exists.1 (List.find?_isSome.2 ⟨name, listed, holds⟩)
    have same : name = first := String.le_antisymm
      (below first (List.mem_of_find?_eq_some found) (List.find?_some found))
      (least found name listed holds)
    rw [found, same]

theorem Program.ensureNew_eq_error_iff {p : Program α} {names : List String} {fault : Fault α} :
    p.ensureNew names = .error fault ↔
      ∃ name, names.find? p.hasFamily = some name ∧
        fault = .configuration (.familyDefined name) := by
  unfold ensureNew
  cases names.find? p.hasFamily with
  | none => simp
  | some name => simp [eq_comm]

/-! ## §2. Members and the names that they use -/

/-- Whether a name is the first, in the order of names, of those that some members use and a
program has. -/
structure FirstTaken (members : List (Member α)) (p : Program α) (name : String) : Prop where
  used : ∃ m ∈ members, m.family = name
  taken : name ∈ p.families
  first : ∀ m ∈ members, m.family ∈ p.families → name ≤ m.family

/-- Whether a program is another one with the families of some members behind its own: the families
in the order of their names, each with its members in their order, and nothing else. -/
structure Adds (members : List (Member α)) (p q : Program α) : Prop where
  appended : ∃ names : List String, names.Pairwise (· < ·) ∧
    (∀ name, name ∈ names ↔ ∃ m ∈ members, m.family = name) ∧
    q = { p with
      families := p.families ++ names
      constraints := p.constraints ++ names.flatMap fun name =>
        (members.filter fun m => m.family == name).map (·.constraint) }
  familyMembers : ∀ name, q.familyMembers name =
    p.familyMembers name ++ (members.filter fun m => m.family == name).map (·.constraint)
  /-- No member is lost, and none comes twice. -/
  perm : q.constraints.Perm (p.constraints ++ members.map (·.constraint))

namespace Draft

theorem find?_families_eq_some_iff {d : Draft α} {p : Program α} {name : String} :
    d.families.find? p.hasFamily = some name ↔ FirstTaken d.members p name := by
  rw [find?_eq_some_iff_least d.pairwise_families, mem_families]
  simp only [Program.hasFamily, List.contains_iff_mem]
  constructor
  · rintro ⟨⟨used, taken⟩, first⟩
    exact ⟨used, taken, fun m hm => first m.family (mem_families.2 ⟨m, hm, rfl⟩)⟩
  · intro h
    refine ⟨⟨h.used, h.taken⟩, fun other listed => ?_⟩
    obtain ⟨m, hm, rfl⟩ := mem_families.1 listed
    exact h.first m hm

theorem exists_firstTaken_iff {d : Draft α} {p : Program α} :
    (∃ name, FirstTaken d.members p name) ↔ ∃ m ∈ d.members, m.family ∈ p.families := by
  constructor
  · rintro ⟨name, h⟩
    obtain ⟨m, hm, rfl⟩ := h.used
    exact ⟨m, hm, h.taken⟩
  · rintro ⟨m, hm, taken⟩
    have found : (d.families.find? p.hasFamily).isSome := by
      rw [List.find?_isSome]
      exact ⟨m.family, mem_families.2 ⟨m, hm, rfl⟩, by simpa [Program.hasFamily] using taken⟩
    obtain ⟨name, found⟩ := Option.isSome_iff_exists.1 found
    exact ⟨name, find?_families_eq_some_iff.1 found⟩

/-- Pushes fill a draft in their order. -/
theorem foldl_push (members : List (Member α)) (d : Draft α) :
    members.foldl push d = ⟨d.members ++ members⟩ := by
  induction members generalizing d with
  | nil => simp
  | cons m members ih =>
    rw [List.foldl_cons, ih]
    simp [push]

/-! ## §3. Commits -/

/-- **A commit that fails leaves the program as it was**, and its fault is about the first name that
is taken. -/
theorem fails_commitInPlace_iff {d : Draft α} {p q : Program α} {fault : Fault α} :
    Fails d.commitInPlace p fault q ↔
      q = p ∧ ∃ name, FirstTaken d.members p name ∧
        fault = .configuration (.familyDefined name) := by
  -- once the names were looked at, adding the families succeeds, so it does not fail
  have added (new : p.ensureNew d.families = .ok ()) :
      ¬Fails (d.gathered.forM fun f => discard (Program.addFamilyInPlace f.1 f.2)) p fault q := by
    have none : ∀ name ∈ d.families, name ∉ p.families := Program.ensureNew_eq_ok_iff.1 new
    have run : Yields (d.gathered.forM fun f => discard (Program.addFamilyInPlace f.1 f.2)) p ()
        (p.extend d.gathered) := by
      rw [Program.yields_forM_addFamilyInPlace_iff, Program.foldlM_addFamily_eq_ok_iff]
      exact ⟨d.nodup_families, fun f hf => none f.1 (List.mem_map_of_mem hf), rfl⟩
    exact run.not_fails
  have looked : p.ensureNew d.families = .error fault ↔
      ∃ name, FirstTaken d.members p name ∧ fault = .configuration (.familyDefined name) := by
    rw [Program.ensureNew_eq_error_iff]
    simp only [find?_families_eq_some_iff]
  rw [← looked]
  unfold commitInPlace
  simp only [fails_bind_iff, yields_get_iff, yields_lift_iff, fails_lift_iff]
  constructor
  · rintro (impossible | ⟨_, _, ⟨rfl, rfl⟩, ⟨refused, rfl⟩ | ⟨_, _, ⟨new, rfl⟩, late⟩⟩)
    · exact absurd impossible not_fails_get
    · exact ⟨rfl, refused⟩
    · exact absurd late (added new)
  · rintro ⟨rfl, refused⟩
    exact .inr ⟨q, q, ⟨rfl, rfl⟩, .inl ⟨refused, rfl⟩⟩

/-- The constraints that the members of a name make. -/
theorem map_constraint_filter (d : Draft α) (name : String) :
    (d.members.filter fun m => m.family == name).map (·.constraint) =
      (d.membersOf name).map fun m => ⟨name, m.1, m.2⟩ := by
  rw [membersOf, List.map_map]
  refine List.map_congr_left fun m hm => ?_
  have own : m.family = name := eq_of_beq (List.mem_filter.1 hm).2
  rw [← own]
  rfl

/-- Of the families of a draft, those of a name are one, or none if no member uses the name. -/
theorem flatMap_filter_gathered (d : Draft α) (name : String) :
    ((d.gathered.filter (·.1 == name)).flatMap fun f => f.2.map fun m =>
        (⟨name, m.1, m.2⟩ : Constraint α)) =
      (d.membersOf name).map fun m => ⟨name, m.1, m.2⟩ := by
  have named : d.gathered.filter (·.1 == name) =
      (d.families.filter (· == name)).map fun f => (f, d.membersOf f) := by
    rw [gathered_eq, List.filter_map]
    rfl
  rw [named, List.filter_beq]
  by_cases listed : name ∈ d.families
  · rw [List.count_eq_one_of_mem d.nodup_families listed]
    simp
  · have none : d.membersOf name = [] := by
      by_contra some_member
      exact listed (List.mem_map.2
        ⟨(name, d.membersOf name), mem_gathered.2 ⟨rfl, some_member⟩, rfl⟩)
    rw [List.count_eq_zero.2 listed, none]
    rfl

/-- What a commit makes of a program has all members of the draft and nothing else that is new. -/
theorem adds_extend_gathered (d : Draft α) (p : Program α) :
    Adds d.members p (p.extend d.gathered) where
  appended := by
    refine ⟨d.families, d.pairwise_families, fun name => mem_families, ?_⟩
    unfold Program.extend
    simp only [map_constraint_filter, families, List.flatMap_map]
    congr 2
    refine List.flatMap_congr fun f hf => ?_
    rw [(mem_gathered.1 hf).1]
  familyMembers name := by
    rw [Program.familyMembers_extend, flatMap_filter_gathered, map_constraint_filter]
  perm := d.perm_gathered.append_left p.constraints

/-- **A commit is whole or not at all.** Members are pushed in any order, and the families of the
program are any. The commit fails exactly when a name is taken; the fault is about the first such
name, and the program is what it was. Otherwise the program has the families of the members behind
its own, in the order of their names, each with all its members as they were pushed. -/
theorem commits_wholly_or_not_at_all (pushes : List (Member α)) (p : Program α) :
    ((∃ fault q, Fails (pushes.foldl push empty).commitInPlace p fault q) ↔
      ∃ m ∈ pushes, m.family ∈ p.families) ∧
    (∀ fault q, Fails (pushes.foldl push empty).commitInPlace p fault q →
      q = p ∧ ∃ name, FirstTaken pushes p name ∧
        fault = .configuration (.familyDefined name)) ∧
    ((∀ m ∈ pushes, m.family ∉ p.families) →
      ∃ q, Yields (pushes.foldl push empty).commitInPlace p () q ∧ Adds pushes p q) := by
  have filled : pushes.foldl push empty = ⟨pushes⟩ := foldl_push pushes empty
  rw [filled]
  refine ⟨?_, fun fault q => fails_commitInPlace_iff.1, fun new => ?_⟩
  · rw [← exists_firstTaken_iff]
    constructor
    · rintro ⟨fault, q, fails⟩
      obtain ⟨-, name, first, -⟩ := fails_commitInPlace_iff.1 fails
      exact ⟨name, first⟩
    · rintro ⟨name, first⟩
      exact ⟨_, p, fails_commitInPlace_iff.2 ⟨rfl, name, first, rfl⟩⟩
  · exact ⟨_, yields_commitInPlace_iff.2 ⟨new, rfl⟩, adds_extend_gathered ⟨pushes⟩ p⟩

/-- Two families, pushed in turns and the later name first. A program without families gets both; a
program that has them both keeps what it has, and is told of the one that is first by name. -/
theorem commits_wholly_or_not_at_all_in_turns :
    let relation (x : Nat) : Relation Nat := ⟨.const x, .le⟩
    let pushes : List (Member Nat) :=
      [⟨"rise", .position 1, relation 1⟩, ⟨"fall", .position 1, relation 2⟩,
        ⟨"rise", .position 2, relation 3⟩, ⟨"fall", .position 1, relation 4⟩]
    let taken : Program Nat := { Program.empty with families := ["rise", "limit", "fall"] }
    (∃ q, Yields (pushes.foldl push empty).commitInPlace Program.empty () q ∧
      q.families = ["fall", "rise"] ∧
      q.familyMembers "fall" =
        [⟨"fall", .position 1, relation 2⟩, ⟨"fall", .position 1, relation 4⟩]) ∧
    Fails (pushes.foldl push empty).commitInPlace taken
      (.configuration (.familyDefined "fall")) taken := by
  intro relation pushes taken
  constructor
  · have new : ∀ m ∈ pushes, m.family ∉ (Program.empty : Program Nat).families :=
      fun m _ => List.not_mem_nil
    obtain ⟨q, run, adds⟩ := (commits_wholly_or_not_at_all pushes Program.empty).2.2 new
    refine ⟨q, run, ?_, ?_⟩
    · obtain ⟨names, ordered, named, rfl⟩ := adds.appended
      have sorted : ["fall", "rise"].Pairwise (· < ·) := by decide
      have same : names.Perm ["fall", "rise"] := by
        refine (List.perm_ext_iff_of_nodup (ordered.imp String.ne_of_lt)
          (sorted.imp String.ne_of_lt)).2 fun name => ?_
        rw [named]
        simp only [pushes, List.mem_cons, List.not_mem_nil, or_false]
        grind
      exact same.eq_of_pairwise (fun _ _ _ _ before behind => (String.lt_asymm before behind).elim)
        ordered sorted
    · rw [adds.familyMembers]
      rfl
  · have clash : ∃ m ∈ pushes, m.family ∈ taken.families :=
      ⟨⟨"rise", .position 1, relation 1⟩, by simp [pushes], by simp [taken]⟩
    obtain ⟨fault, q, fails⟩ := (commits_wholly_or_not_at_all pushes taken).1.2 clash
    obtain ⟨rfl, name, first, rfl⟩ := (commits_wholly_or_not_at_all pushes taken).2.1 fault q fails
    have name_eq : name = "fall" := by
      have least : name ≤ "fall" :=
        first.first ⟨"fall", .position 1, relation 2⟩ (by simp [pushes]) (by simp [taken])
      obtain ⟨m, hm, rfl⟩ := first.used
      simp only [pushes, List.mem_cons, List.not_mem_nil, or_false] at hm
      rcases hm with rfl | rfl | rfl | rfl
      · exact absurd least (by decide)
      · rfl
      · exact absurd least (by decide)
      · rfl
    rw [name_eq] at fails
    exact fails

end Draft

end PlantEconomics
