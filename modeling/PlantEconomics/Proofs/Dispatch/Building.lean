import PlantEconomics.Dispatch.Model
import PlantEconomics.Proofs.Program.Growth

/-!
# The model that building gives

Building checks the units and the prices and then cannot fail any more, because a draft that is
committed to an empty program meets no taken name. `DispatchModel.built` is the model that results.

The operation blocks are numbered through: the block of unit `u` in position `t` starts at variable
`blockStart U t u` when there are `U` units. So periods, variables and members are read off at a
position and a unit:

  * `built_periods_getElem?` for the period of a position;
  * `unitSpecs_cases` for the variable of a number;
  * `mem_constraints_built` for the constraints.
-/

namespace PlantEconomics

/-! ## §1. Lists of blocks of one width -/

/-- An element of blocks of one width that are put one after the other is found by division. -/
theorem getElem?_flatMap_of_length {β γ : Type} {f : β → List γ} {w : Nat} (hw : 0 < w)
    {l : List β} (h : ∀ b ∈ l, (f b).length = w) (i : Nat) :
    (l.flatMap f)[i]? = l[i / w]?.bind fun b => (f b)[i % w]? := by
  induction l generalizing i with
  | nil => simp
  | cons b l ih =>
    obtain ⟨hb, hl⟩ := List.forall_mem_cons.1 h
    rw [List.flatMap_cons]
    by_cases hi : i < w
    · rw [List.getElem?_append_left (by omega), Nat.div_eq_of_lt hi, Nat.mod_eq_of_lt hi]
      rfl
    · obtain ⟨j, rfl⟩ : ∃ j, i = j + w := ⟨i - w, by omega⟩
      rw [List.getElem?_append_right (by omega), hb, Nat.add_sub_cancel, ih hl,
        Nat.add_div_right _ hw, Nat.add_mod_right]
      rfl

/-- A number that counts places in blocks of one width gives both the block and the place. -/
theorem div_mod_of_place {w i : Nat} (hi : i < w) (k : Nat) :
    (w * k + i) / w = k ∧ (w * k + i) % w = i := by
  constructor
  · rw [Nat.mul_add_div (by omega), Nat.div_eq_of_lt hi, Nat.add_zero]
  · rw [Nat.mul_add_mod, Nat.mod_eq_of_lt hi]

/-- The first variable of the block of unit `u` in position `t`, there being `n` units. -/
def blockStart (n t u : Nat) : Var := OperationBlock.width * (t * n + u)

/-- The blocks of a horizon end where a block behind its last position would start. -/
theorem blockStart_add_lt {n size t u i : Nat} (ht : t < size) (hu : u < n)
    (hi : i < OperationBlock.width) : blockStart n t u + i < blockStart n size 0 := by
  have later : t * n + n ≤ size * n := by
    rw [← Nat.succ_mul]
    exact Nat.mul_le_mul_right n ht
  have width : i < 3 := hi
  show (3 * (t * n + u) + i : Nat) < 3 * (size * n + 0)
  omega

namespace DispatchModel

variable {α : Type} [Scalar α]

/-! ## §2. Blocks -/

theorem getElem?_blocksAt (units : List (ThermalGenerator α)) (t : Nat) (k : PeriodKey)
    (price : α) (u : Nat) :
    (blocksAt units t k price)[u]? =
      units[u]?.map fun g => g.block k price (blockStart units.length t u) := by
  simp [blocksAt, blockStart]

theorem length_blocksAt (units : List (ThermalGenerator α)) (t : Nat) (k : PeriodKey)
    (price : α) : (blocksAt units t k price).length = units.length := by
  simp [blocksAt]

theorem getElem?_blocks (units : List (ThermalGenerator α)) (keys : List (PeriodKey × α))
    (t : Nat) :
    (blocks units keys)[t]? = keys[t]?.map fun k => blocksAt units t k.1 k.2 := by
  simp [blocks]

theorem length_of_mem_blocks {units : List (ThermalGenerator α)} {keys : List (PeriodKey × α)}
    {bs : List (OperationBlock α)} (h : bs ∈ blocks units keys) : bs.length = units.length := by
  obtain ⟨t, ht⟩ := List.mem_iff_getElem?.1 h
  rw [getElem?_blocks] at ht
  obtain ⟨k, -, rfl⟩ := Option.map_eq_some_iff.1 ht
  exact length_blocksAt ..

/-- The block with a number is that of a unit in a position. -/
theorem getElem?_flatten_blocks {units : List (ThermalGenerator α)}
    {keys : List (PeriodKey × α)} {j : Nat} {b : OperationBlock α}
    (h : (blocks units keys).flatten[j]? = some b) :
    ∃ (t : Nat) (k : PeriodKey × α) (u : Nat) (g : ThermalGenerator α),
      keys[t]? = some k ∧ units[u]? = some g ∧ j = t * units.length + u ∧
      b = g.block k.1 k.2 (blockStart units.length t u) := by
  have some_unit : 0 < units.length := by
    obtain ⟨bs, hbs, hb⟩ := List.mem_flatten.1 (List.mem_of_getElem? h)
    rw [← length_of_mem_blocks hbs]
    exact List.length_pos_of_mem hb
  -- all positions have as many blocks as there are units, so division finds the position
  rw [← List.flatMap_id', getElem?_flatMap_of_length some_unit fun bs => length_of_mem_blocks,
    getElem?_blocks] at h
  obtain ⟨bs, hbs, hb⟩ := Option.bind_eq_some_iff.1 h
  obtain ⟨k, hk, rfl⟩ := Option.map_eq_some_iff.1 hbs
  rw [getElem?_blocksAt] at hb
  obtain ⟨g, hg, rfl⟩ := Option.map_eq_some_iff.1 hb
  exact ⟨_, k, _, g, hk, hg, (Nat.div_add_mod' ..).symm, rfl⟩

theorem mem_flatten_blocks {units : List (ThermalGenerator α)} {keys : List (PeriodKey × α)}
    {b : OperationBlock α} :
    b ∈ (blocks units keys).flatten ↔
      ∃ (t : Nat) (k : PeriodKey × α) (u : Nat) (g : ThermalGenerator α),
        keys[t]? = some k ∧ units[u]? = some g ∧
        b = g.block k.1 k.2 (blockStart units.length t u) := by
  constructor
  · intro h
    obtain ⟨j, hj⟩ := List.mem_iff_getElem?.1 h
    obtain ⟨t, k, u, g, hk, hg, -, hb⟩ := getElem?_flatten_blocks hj
    exact ⟨t, k, u, g, hk, hg, hb⟩
  · rintro ⟨t, k, u, g, hk, hg, rfl⟩
    refine List.mem_flatten.2 ⟨blocksAt units t k.1 k.2, List.mem_of_getElem? (i := t) ?_,
      List.mem_of_getElem? (i := u) ?_⟩
    · rw [getElem?_blocks, hk, Option.map_some]
    · rw [getElem?_blocksAt, hg, Option.map_some]

/-! ## §3. The built model -/

/-- The variables of all blocks. -/
def unitSpecs (units : List (ThermalGenerator α)) (keys : List (PeriodKey × α)) :
    List (VariableSpec α) :=
  (blocks units keys).flatten.flatMap (·.specs)

/-- The members of all blocks. -/
def unitDraft (units : List (ThermalGenerator α)) (keys : List (PeriodKey × α)) : Draft α :=
  ⟨(blocks units keys).flatten.flatMap (·.members)⟩

/-- The model of priced keys: variables, members and periods as the blocks give them. -/
def built (prices : PriceSet α) (fleet : Fleet α) (weighted : Bool)
    (keys : List (PeriodKey × α)) : DispatchModel α :=
  { program := (Program.empty.addVariables (unitSpecs fleet.operating keys)).extend
      (unitDraft fleet.operating keys).gathered
    sets := prices.sets
    periods := List.zipWith
      (fun k bs => ⟨k.1, weightOf prices weighted k.1, k.2, bs.map (·.operation)⟩)
      keys (blocks fleet.operating keys)
    designs := fleet.built.map (·.design)
    weighted }

theorem ofPriced_eq (prices : PriceSet α) (fleet : Fleet α) (weighted : Bool)
    (keys : List (PeriodKey × α)) :
    ofPriced prices fleet weighted keys = .ok (built prices fleet weighted keys) := by
  unfold ofPriced
  rw [bind_eq_ok_iff]
  exact ⟨_, Draft.commit_eq_ok_iff.2 ⟨fun _ _ => List.not_mem_nil, rfl⟩, rfl⟩

omit [Scalar α] in
theorem priced_eq_ok_iff {prices : PriceSet α} {ks : List PeriodKey}
    {keys : List (PeriodKey × α)} :
    priced prices ks = .ok keys ↔
      keys.map (·.1) = ks ∧ ∀ k ∈ keys, prices.price? k.1 = some k.2 := by
  unfold priced
  rw [mapM_eq_ok_iff]
  induction keys generalizing ks with
  | nil => simp [List.forall₂_nil_right_iff, eq_comm]
  | cons p keys ih =>
    rw [List.forall₂_cons_right_iff, List.map_cons, List.forall_mem_cons]
    constructor
    · rintro ⟨k, ks, hk, hrest, rfl⟩
      obtain ⟨rfl, hall⟩ := ih.1 hrest
      split at hk
      · next price found =>
        obtain rfl := Except.ok.inj hk
        exact ⟨rfl, found, hall⟩
      · exact absurd hk (by simp)
    · rintro ⟨rfl, found, hall⟩
      exact ⟨_, _, by simp [found], ih.2 ⟨rfl, hall⟩, rfl⟩

/-- Building succeeds when the units are valid, there is a period, and every period has a price. -/
theorem build_eq_ok_iff {prices : PriceSet α} {fleet : Fleet α} {weighted : Bool}
    {m : DispatchModel α} :
    build prices fleet weighted = .ok m ↔
      fleet.validate = .ok () ∧ prices.sets.periods ≠ [] ∧
        ∃ keys, priced prices prices.sets.periods = .ok keys ∧
          built prices fleet weighted keys = m := by
  unfold build
  rw [bind_eq_ok_iff]
  cases prices.sets.periods with
  | nil => simp [throw, throwThe, MonadExceptOf.throw]
  | cons k ks =>
    simp only [List.isEmpty_cons, ofPriced_eq]
    constructor
    · rintro ⟨_, valid, h⟩
      obtain ⟨keys, hkeys, hm⟩ := bind_eq_ok_iff.1 h
      exact ⟨valid, List.cons_ne_nil _ _, keys, hkeys, Except.ok.inj hm⟩
    · rintro ⟨valid, -, keys, hkeys, rfl⟩
      exact ⟨(), valid, bind_eq_ok_iff.2 ⟨keys, hkeys, rfl⟩⟩

/-! ## §4. Reading the built model -/

section Reading

variable (prices : PriceSet α) (fleet : Fleet α) (weighted : Bool) (keys : List (PeriodKey × α))

theorem built_periods_getElem? (t : Nat) :
    (built prices fleet weighted keys).periods[t]? = keys[t]?.map fun k =>
      ⟨k.1, weightOf prices weighted k.1, k.2,
        (blocksAt fleet.operating t k.1 k.2).map (·.operation)⟩ := by
  simp only [built, List.getElem?_zipWith, getElem?_blocks]
  cases keys[t]? <;> rfl

@[simp] theorem length_built_periods :
    (built prices fleet weighted keys).periods.length = keys.length := by
  simp [built, blocks]

/-- The keys of the periods are the keys that were priced. -/
theorem built_periods_map_key :
    (built prices fleet weighted keys).periods.map (·.key) = keys.map (·.1) := by
  refine List.ext_getElem? fun t => ?_
  rw [List.getElem?_map, built_periods_getElem?, List.getElem?_map, Option.map_map]
  rfl

variable {prices fleet weighted keys} in
/-- An operation of the period in a position is that of a unit there. -/
theorem exists_unit_of_mem_operations {t : Nat} {p : Period α}
    (hp : (built prices fleet weighted keys).periods[t]? = some p) {o : Operation α}
    (ho : o ∈ p.operations) :
    ∃ (u : Nat) (g : ThermalGenerator α), fleet.operating[u]? = some g ∧
      o = g.operation p.price (blockStart fleet.operating.length t u) := by
  rw [built_periods_getElem?] at hp
  obtain ⟨k, hk, rfl⟩ := Option.map_eq_some_iff.1 hp
  obtain ⟨b, hb, rfl⟩ := List.mem_map.1 ho
  obtain ⟨u, hu⟩ := List.mem_iff_getElem?.1 hb
  rw [getElem?_blocksAt] at hu
  obtain ⟨g, hg, rfl⟩ := Option.map_eq_some_iff.1 hu
  exact ⟨u, g, hg, rfl⟩

/-- An operation of a period is that of a unit in the position of the period. -/
theorem mem_operations_built {p : Period α} (hp : p ∈ (built prices fleet weighted keys).periods)
    {o : Operation α} (ho : o ∈ p.operations) :
    ∃ (t u : Nat) (k : PeriodKey × α) (g : ThermalGenerator α),
      keys[t]? = some k ∧ fleet.operating[u]? = some g ∧
      o = g.operation k.2 (blockStart fleet.operating.length t u) := by
  obtain ⟨t, ht⟩ := List.mem_iff_getElem?.1 hp
  obtain ⟨u, g, hg, unit⟩ := exists_unit_of_mem_operations ht ho
  rw [built_periods_getElem?] at ht
  obtain ⟨k, hk, rfl⟩ := Option.map_eq_some_iff.1 ht
  exact ⟨t, u, k, g, hk, hg, unit⟩

@[simp] theorem built_expressions : (built prices fleet weighted keys).program.expressions = [] :=
  rfl

@[simp] theorem built_objective : (built prices fleet weighted keys).program.objective = none :=
  rfl

theorem built_specs :
    (built prices fleet weighted keys).program.specs =
      (unitSpecs fleet.operating keys).toArray := by
  simp [built, Program.addVariables, Program.empty]

end Reading

section Reading

variable {units : List (ThermalGenerator α)} {keys : List (PeriodKey × α)}

/-- Every block has the variables of its generator. -/
theorem length_specs_of_mem_blocks :
    ∀ b ∈ (blocks units keys).flatten, b.specs.length = OperationBlock.width := by
  intro b hb
  obtain ⟨t, k, u, g, -, -, rfl⟩ := mem_flatten_blocks.1 hb
  exact g.length_blockVariables k.1

/-- The variable with a number is one of the three of a block. -/
theorem unitSpecs_cases {v : Var} {spec : VariableSpec α}
    (h : (unitSpecs units keys)[v]? = some spec) :
    ∃ (t : Nat) (k : PeriodKey × α) (u : Nat) (g : ThermalGenerator α) (i : Nat),
      keys[t]? = some k ∧ units[u]? = some g ∧ (g.blockVariables k.1)[i]? = some spec ∧
      v = blockStart units.length t u + i := by
  rw [unitSpecs, getElem?_flatMap_of_length (by decide) length_specs_of_mem_blocks] at h
  obtain ⟨b, hb, hspec⟩ := Option.bind_eq_some_iff.1 h
  obtain ⟨t, k, u, g, hk, hg, hv, rfl⟩ := getElem?_flatten_blocks hb
  refine ⟨t, k, u, g, _, hk, hg, hspec, ?_⟩
  rw [blockStart, ← hv]
  exact (Nat.div_add_mod ..).symm

/-- Each of the three variables of a block has its number. -/
theorem getElem?_unitSpecs {t u i : Nat} {k : PeriodKey × α} {g : ThermalGenerator α}
    {spec : VariableSpec α} (hk : keys[t]? = some k) (hg : units[u]? = some g)
    (hi : (g.blockVariables k.1)[i]? = some spec) :
    (unitSpecs units keys)[blockStart units.length t u + i]? = some spec := by
  have hu : u < units.length := (List.getElem?_eq_some_iff.1 hg).1
  have hwidth : i < OperationBlock.width := (List.getElem?_eq_some_iff.1 hi).1
  -- the number splits twice: into block and place, and the block into position and unit
  obtain ⟨block, place⟩ := div_mod_of_place hwidth (t * units.length + u)
  obtain ⟨position, unit⟩ := div_mod_of_place hu t
  rw [Nat.mul_comm] at position unit
  rw [unitSpecs, getElem?_flatMap_of_length (by decide) length_specs_of_mem_blocks, blockStart,
    block, place, ← List.flatMap_id',
    getElem?_flatMap_of_length (by omega) fun bs => length_of_mem_blocks, position, unit,
    getElem?_blocks, hk, Option.map_some, Option.bind_some, getElem?_blocksAt, hg, Option.map_some,
    Option.bind_some]
  exact hi

theorem length_flatten_blocks (units : List (ThermalGenerator α)) (keys : List (PeriodKey × α)) :
    (blocks units keys).flatten.length = keys.length * units.length := by
  rw [List.length_flatten, List.map_congr_left (fun bs => length_of_mem_blocks)]
  simp [blocks]

/-- The next variable is where a block behind the last position would start. -/
theorem length_unitSpecs (units : List (ThermalGenerator α)) (keys : List (PeriodKey × α)) :
    (unitSpecs units keys).length = blockStart units.length keys.length 0 := by
  rw [unitSpecs, List.length_flatMap, List.map_congr_left fun b => length_specs_of_mem_blocks b,
    List.map_const', List.sum_replicate_nat, length_flatten_blocks, Nat.mul_comm]
  rfl

@[simp] theorem size_built (prices : PriceSet α) (fleet : Fleet α) (weighted : Bool)
    (keys : List (PeriodKey × α)) :
    (built prices fleet weighted keys).program.size =
      blockStart fleet.operating.length keys.length 0 := by
  rw [Program.size, built_specs, List.size_toArray, length_unitSpecs]

/-- Every block has two members. -/
theorem length_unitDraft (units : List (ThermalGenerator α)) (keys : List (PeriodKey × α)) :
    (unitDraft units keys).members.length = 2 * (keys.length * units.length) := by
  have two : ∀ b ∈ (blocks units keys).flatten, b.members.length = 2 := by
    intro b hb
    obtain ⟨t, k, u, g, -, -, rfl⟩ := mem_flatten_blocks.1 hb
    rfl
  rw [unitDraft, List.length_flatMap, List.map_congr_left two, List.map_const',
    List.sum_replicate_nat, length_flatten_blocks, Nat.mul_comm]

/-- A built model has two constraints for every unit in every period. -/
theorem length_constraints_built (prices : PriceSet α) (fleet : Fleet α) (weighted : Bool)
    (keys : List (PeriodKey × α)) :
    (built prices fleet weighted keys).program.constraints.length =
      2 * (keys.length * fleet.operating.length) := by
  rw [built, Program.length_constraints_extend, Draft.length_gathered, length_unitDraft]
  exact Nat.zero_add _

/-- The constraints of a built model are those of its blocks. -/
theorem mem_constraints_built {prices : PriceSet α} {fleet : Fleet α} {weighted : Bool}
    {c : Constraint α} :
    c ∈ (built prices fleet weighted keys).program.constraints ↔
      ∃ (t : Nat) (k : PeriodKey × α) (u : Nat) (g : ThermalGenerator α),
        keys[t]? = some k ∧ fleet.operating[u]? = some g ∧
        ∃ x ∈ g.blockMembers k.1 (blockStart fleet.operating.length t u),
          c = ⟨x.family, x.index, x.relation⟩ := by
  -- variables come without constraints
  have start : (Program.empty.addVariables (unitSpecs fleet.operating keys)).constraints = [] := rfl
  rw [built, Draft.mem_constraints_extend_gathered, start]
  simp only [List.not_mem_nil, false_or, unitDraft, List.mem_flatMap, mem_flatten_blocks]
  constructor
  · rintro ⟨x, ⟨_, ⟨t, k, u, g, hk, hg, rfl⟩, hx⟩, rfl⟩
    exact ⟨t, k, u, g, hk, hg, x, hx, rfl⟩
  · rintro ⟨t, k, u, g, hk, hg, x, hx, rfl⟩
    exact ⟨x, ⟨_, ⟨t, k, u, g, hk, hg, rfl⟩, hx⟩, rfl⟩

/-- A family of a block has a point in its name. -/
theorem point_mem_family {g : ThermalGenerator α} {k : PeriodKey} {first : Var} {x : Member α}
    (hx : x ∈ g.blockMembers k first) : '.' ∈ x.family.toList := by
  simp only [ThermalGenerator.blockMembers, List.mem_cons, List.not_mem_nil, or_false] at hx
  rcases hx with rfl | rfl
  · simp
  · simp

theorem point_mem_of_mem_families_built {prices : PriceSet α} {fleet : Fleet α} {weighted : Bool}
    {name : String} (h : name ∈ (built prices fleet weighted keys).program.families) :
    '.' ∈ name.toList := by
  rw [built, Program.mem_families_extend] at h
  obtain h | ⟨f, hf, rfl⟩ := h
  · exact absurd h List.not_mem_nil
  · have listed : f.1 ∈ (unitDraft fleet.operating keys).families :=
      List.mem_map_of_mem hf
    obtain ⟨x, hx, own⟩ := Draft.mem_families.1 listed
    rw [← own]
    obtain ⟨b, hb, hx⟩ := List.mem_flatMap.1 hx
    obtain ⟨t, k, u, g, -, -, rfl⟩ := mem_flatten_blocks.1 hb
    exact point_mem_family hx

end Reading

end DispatchModel

end PlantEconomics
