import PlantEconomics.Proofs.Dispatch.Signals
import PlantEconomics.Proofs.Dispatch.Stages
import PlantEconomics.Proofs.Dispatch.Validity

/-!
# The constraints of ramping

Ramping adds two families to a built model, one for rises and one for falls of power. Each has one
member for every position from the third period on, in the order of the positions, and none if
there are only two periods. A member compares the power of all units in its position and in the one
before, and its limit depends on what is on and what is starting in the two.

The variables of a unit in a position are three in a row, so the sums that a member is about are
sums over the units of variables with known numbers.

  * `spec?_of_build`: which variable is which;
  * `withRamping_built`, `rampFamilies_eq`: what is added to a built model;
  * `withRamping_limits` puts it together.
-/

namespace PlantEconomics

open Finset

namespace DispatchModel

/-! ## §1. Variables and families -/

section Variables

variable {α : Type} [Scalar α] {prices : PriceSet α} {fleet : Fleet α} {weighted : Bool}
  {m : DispatchModel α}

/-- The variables of a unit in a position are those of its block, one after the other. -/
theorem spec?_of_build (made : build prices fleet weighted = .ok m) {t u i : Nat} {p : Period α}
    {g : ThermalGenerator α} (hp : m.periods[t]? = some p) (hg : fleet.operating[u]? = some g)
    (hi : i < OperationBlock.width) :
    m.program.spec? (blockStart fleet.operating.length t u + i) =
      (g.blockVariables p.key)[i]? := by
  obtain ⟨-, -, keys, -, rfl⟩ := build_eq_ok_iff.1 made
  rw [built_periods_getElem?] at hp
  obtain ⟨k, hk, rfl⟩ := Option.map_eq_some_iff.1 hp
  have inside : i < (g.blockVariables k.1).length := hi
  rw [List.getElem?_eq_getElem inside, Program.spec?, built_specs, List.getElem?_toArray]
  exact getElem?_unitSpecs hk hg (List.getElem?_eq_getElem inside)

end Variables

section Built

variable {α : Type} [Scalar α] {prices : PriceSet α} {fleet : Fleet α} {weighted : Bool}
  {keys : List (PeriodKey × α)} {name : String}

/-- A built model has no member of a family whose name has no point. -/
theorem familyMembers_built_eq_nil (h : '.' ∉ name.toList) :
    (built prices fleet weighted keys).program.familyMembers name = [] := by
  unfold Program.familyMembers
  rw [List.filter_eq_nil_iff]
  intro c hc same
  obtain ⟨t, k, u, g, -, -, x, hx, rfl⟩ := mem_constraints_built.1 hc
  rw [← eq_of_beq same] at h
  exact h (point_mem_family hx)

/-- So such a family has the members that it is added with. -/
theorem familyMembers_extend_built (h : '.' ∉ name.toList)
    (fs : List (String × List (Index × Relation α))) :
    ((built prices fleet weighted keys).extend fs).program.familyMembers name =
      (fs.filter (·.1 == name)).flatMap fun f => f.2.map fun m => ⟨name, m.1, m.2⟩ := by
  rw [extend_program, Program.familyMembers_extend, familyMembers_built_eq_nil h, List.nil_append]

/-- Nothing is in the way of ramping. -/
theorem withRamping_built {l : RampingLimits α} (valid : l.validate = .ok ()) :
    (built prices fleet weighted keys).withRamping l =
      .ok ((built prices fleet weighted keys).extend
        (rampFamilies l (built prices fleet weighted keys).periods)) := by
  have plain : ∀ name ∈ Stages.rampNames, '.' ∉ name.toList := by decide
  refine withRamping_eq_ok_iff.2 ⟨valid, fun f hf => ?_, rfl⟩
  exact not_mem_families_built (plain _ (List.mem_map_of_mem hf))

end Built

/-- The families of ramping, position by position. -/
theorem rampFamilies_eq {α : Type} [Scalar α] (l : RampingLimits α) (ps : List (Period α)) :
    rampFamilies l ps =
      [("ramp_up_con", (List.range' 2 (ps.length - 2)).map fun t =>
          (Index.position t, relationAt (rise l) ps t)),
        ("ramp_down_con", (List.range' 2 (ps.length - 2)).map fun t =>
          (Index.position t, relationAt (fall l) ps t))] := by
  rw [rampFamilies, neighbours_eq_map, neighbours_eq_map]

/-! ## §2. Limits -/

variable {α : Type} [Field α] [LinearOrder α]

/-- What is on allows a rise by itself, and its change by the least power. -/
theorem allowsRise_iff (l : RampingLimits α) (x y : Signals α) :
    l.AllowsRise x y ↔ y.power - x.power ≤ l.startup * y.starting - l.least * x.starting +
      l.up * y.online + l.least * (y.online - x.online) := by
  unfold RampingLimits.AllowsRise
  rw [mul_sub, add_mul, ← add_assoc, add_sub_assoc]

variable [IsStrictOrderedRing α]

/-- **Ramping limits the rises and falls of the total power, position by position.** A built model
and valid limits have a model with ramping. It is the built one with two families more, each with
one member for every position from 2 on. The member of rises holds when the power of all units
rises by no more than the starts, the starts before, and what is on and was on allow, and the member
of falls likewise; the variables that are added up are those of the units in the two positions. -/
theorem withRamping_limits {prices : PriceSet α} {fleet : Fleet α} {weighted : Bool}
    {m : DispatchModel α} {l : RampingLimits α} (made : build prices fleet weighted = .ok m)
    (valid : l.validate = .ok ()) :
    let n := fleet.operating.length
    (∀ t u p g, m.periods[t]? = some p → fleet.operating[u]? = some g →
      ∀ i < OperationBlock.width, m.program.spec? (blockStart n t u + i) =
        (g.blockVariables p.key)[i]?) ∧
    ∃ rises falls : Nat → Relation α,
      let members (relation : Nat → Relation α) :=
        (List.range' 2 (m.size - 2)).map fun t => (Index.position t, relation t)
      let m' := m.extend [("ramp_up_con", members rises), ("ramp_down_con", members falls)]
      m.withRamping l = .ok m' ∧
      (m'.program.familyMembers "ramp_up_con" =
        (List.range' 2 (m.size - 2)).map fun t => ⟨"ramp_up_con", .position t, rises t⟩) ∧
      (m'.program.familyMembers "ramp_down_con" =
        (List.range' 2 (m.size - 2)).map fun t => ⟨"ramp_down_con", .position t, falls t⟩) ∧
      ∀ (value : Var → α) t, 2 ≤ t → t < m.size →
        let on t := ∑ u ∈ range n, value (blockStart n t u)
        let starts t := ∑ u ∈ range n, value (blockStart n t u + 1)
        let power t := ∑ u ∈ range n, value (blockStart n t u + 2)
        ((rises t).holds value 0 = true ↔
          power t - power (t - 1) ≤ l.startup * starts t - l.least * starts (t - 1) +
            l.up * on t + l.least * (on t - on (t - 1))) ∧
        ((falls t).holds value 0 = true ↔
          power (t - 1) - power t ≤ l.shutdown * (starts (t - 1) + on (t - 1) - on t) -
            l.least * starts t + l.down * on t) := by
  intro n
  refine ⟨fun t u p g hp hg i hi => spec?_of_build made hp hg hi, relationAt (rise l) m.periods,
    relationAt (fall l) m.periods, ?_⟩
  intro members m'
  obtain ⟨-, -, keys, -, rfl⟩ := build_eq_ok_iff.1 made
  have limited : (built prices fleet weighted keys).withRamping l = .ok m' := by
    rw [withRamping_built valid, rampFamilies_eq]
    rfl
  refine ⟨limited, ?_, ?_, fun value t htwo ht => ?_⟩
  · rw [familyMembers_extend_built (by decide)]
    simp [members]
  · rw [familyMembers_extend_built (by decide)]
    simp [members]
  · rw [size, length_built_periods] at ht
    -- the sums over the units are the signals of the periods, which the relations are about
    have traces := traces_built prices fleet weighted keys value
    have inside : t < (built prices fleet weighted keys).periods.length := by
      rwa [length_built_periods]
    constructor
    · rw [traces.relationAt_holds_iff (fun before now => rise_holds_iff l before now value) inside]
      exact allowsRise_iff l _ _
    · rw [traces.relationAt_holds_iff (fun before now => fall_holds_iff l before now value) inside]
      rfl

/-- Two standard units in three hours: their rise to the third hour is limited, and no other. -/
theorem withRamping_limits_two_units :
    let fleet : Fleet ℚ :=
      ⟨[{ ThermalGenerator.standard with name := "coal" },
        { ThermalGenerator.standard with name := "gas" }], []⟩
    ∃ m m' rise,
      build (PriceSet.ofColumns none 3 [(none, [30, 40, 50])]) fleet false = .ok m ∧
      m.withRamping .standard = .ok m' ∧
      m'.program.familyMembers "ramp_up_con" = [⟨"ramp_up_con", .position 2, rise⟩] ∧
      ∀ value : Var → ℚ, rise.holds value 0 = true ↔
        value 14 + value 17 - (value 8 + value 11) ≤
          100 * (value 13 + value 16) + 110 * (value 12 + value 15) := by
  intro fleet
  have valid : fleet.validate = .ok () := by
    rw [Fleet.validate_eq_ok_iff]
    simp [fleet, ThermalGenerator.validate_standard]
  have keys := @priced_ofColumns ℚ none 3 [(none, [30, 40, 50])] rfl (by simp) (by simp)
  have made : build (PriceSet.ofColumns none 3 [(none, [30, 40, 50])]) fleet false = .ok _ :=
    build_eq_ok_iff.2 ⟨valid, by decide, _, keys, rfl⟩
  obtain ⟨-, rises, falls, limited, up, -, holds⟩ :=
    withRamping_limits made RampingLimits.validate_standard
  refine ⟨_, _, rises 2, made, limited, up, fun value => ?_⟩
  rw [(holds value 2 (Nat.le_refl 2) (by decide)).1]
  norm_num [fleet, sum_range_succ, blockStart, OperationBlock.width, RampingLimits.standard]

end DispatchModel

end PlantEconomics
