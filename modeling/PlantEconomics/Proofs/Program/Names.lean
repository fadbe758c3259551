import PlantEconomics.Proofs.Program.Growth

/-!
# Names that are told apart

A program looks a variable up by its name and takes the first one, and a constraint by its family
and its index. What it finds is what was meant if no name and no place comes twice. When names are
made of the name of a unit, an ending and a key, they are listed by key and unit, and whether they
differ is a matter of the units alone, provided that the parts can be told from the whole.

  * `nodup_grid_iff`: lists by row and column;
  * `append_ending_inj`: an ending that can be told from what stands in front of it;
  * `Program.find?_of_nodup`: looking up a name that comes once;
  * `Program.nodup_places_extend_iff`: families that bring no place twice.
-/

namespace PlantEconomics

/-! ## §1. Lists by row and column -/

/-- A grid of lists, none of which is empty or has an element twice or one of another list, has no
element twice exactly when no column is listed twice. -/
theorem nodup_grid_iff {β κ γ : Type} {rows : List κ} {columns : List β} {cell : β → κ → List γ}
    (distinct : rows.Nodup) (some_row : rows ≠ []) (some_cell : ∀ b k, cell b k ≠ [])
    (own : ∀ b k, (cell b k).Nodup)
    (apart : ∀ k ∈ rows, ∀ k' ∈ rows, ∀ b b' x, x ∈ cell b k → x ∈ cell b' k' → b = b' ∧ k = k') :
    (rows.flatMap fun k => columns.flatMap fun b => cell b k).Nodup ↔ columns.Nodup := by
  constructor
  · intro h
    obtain ⟨k, hk⟩ := List.exists_mem_of_ne_nil rows some_row
    have row := (List.nodup_flatMap.1 h).1 k hk
    refine (List.nodup_flatMap.1 row).2.imp fun {b b'} disjoint same => ?_
    obtain ⟨x, hx⟩ := List.exists_mem_of_ne_nil _ (some_cell b k)
    exact disjoint hx (same ▸ hx)
  · intro h
    refine List.nodup_flatMap.2 ⟨fun k hk => List.nodup_flatMap.2 ⟨fun b _ => own b k, ?_⟩, ?_⟩
    · exact h.imp fun different x hx hx' => different (apart k hk k hk _ _ x hx hx').1
    · refine distinct.imp_of_mem fun {k k'} hk hk' different x hx hx' => ?_
      obtain ⟨b, -, hx⟩ := List.mem_flatMap.1 hx
      obtain ⟨b', -, hx'⟩ := List.mem_flatMap.1 hx'
      exact different (apart k hk k' hk' b b' x hx hx').2

/-- Where the position does not matter, a list might as well be mapped without it. -/
theorem map_mapIdx {β γ δ : Type} {f : Nat → β → γ} {g : γ → δ} {h : β → δ}
    (same : ∀ i b, g (f i b) = h b) (l : List β) : (l.mapIdx f).map g = l.map h := by
  refine List.ext_getElem? fun i => ?_
  simp [same, Function.comp_def]

theorem flatMap_mapIdx {β γ δ : Type} {f : Nat → β → γ} {g : γ → List δ} {h : β → List δ}
    (same : ∀ i b, g (f i b) = h b) (l : List β) : (l.mapIdx f).flatMap g = l.flatMap h := by
  rw [List.flatMap_def, map_mapIdx same, List.flatMap_def]

/-- When none of some endings is the end of another, a text is told from the ending behind it. -/
theorem append_ending_inj {endings : List String}
    (apart : ∀ s ∈ endings, ∀ s' ∈ endings, s.toList <:+ s'.toList → s = s')
    {text text' s s' : String} (hs : s ∈ endings) (hs' : s' ∈ endings)
    (h : text ++ s = text' ++ s') : text = text' ∧ s = s' := by
  have same : s = s' := by
    have left : s.toList <:+ (text ++ s).toList := ⟨text.toList, by simp⟩
    have right : s'.toList <:+ (text ++ s).toList := ⟨text'.toList, by simp [h]⟩
    rcases List.suffix_or_suffix_of_suffix left right with shorter | shorter
    · exact apart s hs s' hs' shorter
    · exact (apart s' hs' s hs shorter).symm
  subst same
  exact ⟨(String.append_left_inj s).1 h, rfl⟩

/-! ## §2. Names and places -/

namespace Program

variable {α : Type}

/-- The names of the variables. -/
def names (p : Program α) : List String := p.specs.toList.map (·.name)

/-- The families of the constraints, with the indices there. -/
def places (p : Program α) : List (String × Index) := p.constraints.map fun c => (c.family, c.index)

/-- Where no name comes twice, a variable is found under its name. -/
theorem find?_of_nodup {p : Program α} (distinct : p.names.Nodup) {v : Var} {spec : VariableSpec α}
    (known : p.spec? v = some spec) : p.find? spec.name = some v := by
  obtain ⟨own, rfl⟩ := Array.getElem?_eq_some_iff.1 known
  rw [find?, Array.findIdx?_eq_some_iff_getElem]
  refine ⟨own, beq_self_eq_true _, fun w before same => ?_⟩
  have earlier : w < p.specs.size := before.trans own
  have twice : p.names[w]? = p.names[v]? := by
    simp [names, earlier, own, eq_of_beq same]
  exact absurd ((List.getElem?_inj (by simpa [names] using earlier) distinct).1 twice) before.ne

/-- Whether the families of all constraints are defined. -/
def FamiliesCover (p : Program α) : Prop := ∀ place ∈ p.places, place.1 ∈ p.families

theorem places_extend (p : Program α) (fs : List (Family α)) :
    (p.extend fs).places = p.places ++ fs.flatMap fun f => f.2.map fun x => (f.1, x.1) := by
  simp [places, extend, List.map_flatMap, Function.comp_def]

theorem FamiliesCover.extend {p : Program α} (covers : p.FamiliesCover) (fs : List (Family α)) :
    (p.extend fs).FamiliesCover := by
  intro place hplace
  rw [mem_families_extend]
  rw [places_extend, List.mem_append] at hplace
  rcases hplace with old | added
  · exact .inl (covers place old)
  · obtain ⟨f, hf, hx⟩ := List.mem_flatMap.1 added
    obtain ⟨x, -, rfl⟩ := List.mem_map.1 hx
    exact .inr ⟨f, hf, rfl⟩

/-- New families with new names bring no place twice, when none of them has an index twice. -/
theorem nodup_places_extend_iff {p : Program α} (covers : p.FamiliesCover) {fs : List (Family α)}
    (distinct : (fs.map (·.1)).Nodup) (new : ∀ f ∈ fs, f.1 ∉ p.families)
    (indices : ∀ f ∈ fs, (f.2.map (·.1)).Nodup) :
    (p.extend fs).places.Nodup ↔ p.places.Nodup := by
  have added : (fs.flatMap fun f => f.2.map fun x => (f.1, x.1)).Nodup := by
    refine List.nodup_flatMap.2 ⟨fun f hf => ?_, ?_⟩
    · have paired := (indices f hf).map (f := Prod.mk f.1) fun _ _ same => (Prod.mk.inj same).2
      rwa [List.map_map] at paired
    · refine (List.pairwise_map.1 distinct).imp fun different place hplace hplace' => ?_
      obtain ⟨x, -, rfl⟩ := List.mem_map.1 hplace
      obtain ⟨y, -, same⟩ := List.mem_map.1 hplace'
      exact different (Prod.mk.inj same).1.symm
  rw [places_extend, List.nodup_append]
  refine ⟨fun h => h.1, fun h => ⟨h, added, ?_⟩⟩
  rintro place old _ hplace rfl
  obtain ⟨f, hf, hx⟩ := List.mem_flatMap.1 hplace
  obtain ⟨x, -, rfl⟩ := List.mem_map.1 hx
  exact new f hf (covers _ old)

end Program

end PlantEconomics
