import PlantEconomics.Dispatch.Ramping
import PlantEconomics.Proofs.Dispatch.Building
import PlantEconomics.Proofs.Program.Evaluation

/-!
# Signals

An assignment gives every unit three numbers in every period: whether it is on, whether it is
starting up, and its power. Ramping and up and down times do not look at a unit. They look at the
sums over all units, the total signals, so their limits are limits of one sequence of signals.

Here each family gets its meaning in numbers: the constraints of a block hold exactly when the
generator allows the signals of its unit, and those of the stages hold exactly when the sequence of
totals keeps the limits in the positions that the stage looks at.
-/

namespace PlantEconomics

open Finset

/-! ## §1. Signals and plans -/

/-- What a unit does in a period, or what several do together. -/
structure Signals (α : Type) where
  online : α
  starting : α
  power : α
deriving Repr, DecidableEq

/-- The three signals by the place of their variable in the block. -/
def Signals.at {α : Type} (x : Signals α) : Nat → α
  | 0 => x.online
  | 1 => x.starting
  | _ => x.power

/-- The signals of every unit in every position. -/
abbrev Plan (α : Type) : Type := Nat → Nat → Signals α

/-- The plan that an assignment carries out, there being `n` units. -/
def planOf {α : Type} (value : Var → α) (n : Nat) : Plan α := fun t u =>
  ⟨value (blockStart n t u), value (blockStart n t u + 1), value (blockStart n t u + 2)⟩

namespace Plan

variable {α : Type}

/-- The assignment that carries out a plan. -/
def assign (plan : Plan α) (n : Nat) : Var → α := fun v =>
  (plan (v / OperationBlock.width / n) (v / OperationBlock.width % n)).at (v % OperationBlock.width)

theorem assign_blockStart (plan : Plan α) {n u i : Nat} (hu : u < n) (hi : i < OperationBlock.width)
    (t : Nat) : plan.assign n (blockStart n t u + i) = (plan t u).at i := by
  -- the same numbering as that of the blocks, read backwards
  obtain ⟨block, place⟩ := div_mod_of_place hi (t * n + u)
  obtain ⟨position, unit⟩ := div_mod_of_place hu t
  rw [Nat.mul_comm] at position unit
  unfold assign
  rw [blockStart, block, place, position, unit]

theorem planOf_assign (plan : Plan α) {n u : Nat} (hu : u < n) (t : Nat) :
    planOf (plan.assign n) n t u = plan t u := by
  have online := plan.assign_blockStart hu (show 0 < OperationBlock.width by decide) t
  have starting := plan.assign_blockStart hu (show 1 < OperationBlock.width by decide) t
  have power := plan.assign_blockStart hu (show 2 < OperationBlock.width by decide) t
  rw [Nat.add_zero] at online
  unfold planOf
  rw [online, starting, power]
  rfl

variable [AddCommMonoid α]

/-- The signals of `n` units together. -/
def total (plan : Plan α) (n t : Nat) : Signals α :=
  ⟨∑ u ∈ range n, (plan t u).online, ∑ u ∈ range n, (plan t u).starting,
    ∑ u ∈ range n, (plan t u).power⟩

theorem total_congr {plan plan' : Plan α} {n t : Nat} (h : ∀ u < n, plan t u = plan' t u) :
    plan.total n t = plan'.total n t := by
  have same {f : Signals α → α} : ∑ u ∈ range n, f (plan t u) = ∑ u ∈ range n, f (plan' t u) :=
    sum_congr rfl fun u hu => by rw [h u (mem_range.1 hu)]
  unfold total
  rw [same, same, same]

end Plan

/-! ## §2. Limits -/

section Limits

variable {α : Type} [Field α] [LinearOrder α]

/-- Whether a generator can have the signals: its power lies between the least power and the
capacity, both taken as often as it is on. -/
def ThermalGenerator.Allows (g : ThermalGenerator α) (x : Signals α) : Prop :=
  g.leastPower * x.online ≤ x.power ∧ x.power ≤ g.capacity * x.online

/-- Whether power may rise as it does from the signals `x` to the signals `y` of the next
period. -/
def RampingLimits.AllowsRise (l : RampingLimits α) (x y : Signals α) : Prop :=
  y.power - x.power ≤ l.startup * y.starting - l.least * x.starting +
    (l.up + l.least) * y.online - l.least * x.online

/-- Whether power may fall as it does from the signals `x` to the signals `y` of the next
period. -/
def RampingLimits.AllowsFall (l : RampingLimits α) (x y : Signals α) : Prop :=
  x.power - y.power ≤ l.shutdown * (x.starting + x.online - y.online) - l.least * y.starting +
    l.down * y.online

/-- Whether what started within the up time before position `t` is on in it. -/
def UpDownTimes.KeepsOn (times : UpDownTimes) (x : Nat → Signals α) (t : Nat) : Prop :=
  ∑ i ∈ Ico (t + 1 - times.up) t, (x i).starting ≤ (x t).online

/-- Whether at most one less what was on as long before position `t` as the down time says has
started since. -/
def UpDownTimes.KeepsOff (times : UpDownTimes) (x : Nat → Signals α) (t : Nat) : Prop :=
  ∑ i ∈ Ico (t - times.down) (t + 1), (x i).starting ≤ 1 - (x (t - times.down)).online

end Limits

/-! ## §3. Periods in numbers -/

section Periods

variable {α : Type}

/-- The relation of the neighbours of which the later one has a position; there is one from position
2 on. -/
def DispatchModel.relationAt [Scalar α] (relate : Period α → Period α → Relation α)
    (ps : List (Period α)) (t : Nat) : Relation α :=
  match ps[t - 1]?, ps[t]? with
  | some before, some now => relate before now
  | _, _ => ⟨Affine.zero, .le⟩

theorem DispatchModel.relationAt_eq [Scalar α] {relate : Period α → Period α → Relation α}
    {ps : List (Period α)} {t : Nat} {before now : Period α} (hbefore : ps[t - 1]? = some before)
    (hnow : ps[t]? = some now) : relationAt relate ps t = relate before now := by
  unfold relationAt
  rw [hbefore, hnow]

theorem DispatchModel.length_neighbours (relate : Period α → Period α → Relation α)
    (ps : List (Period α)) : (neighbours relate ps).length = ps.length - 2 := by
  simp only [neighbours, List.length_mapIdx, List.length_zipWith, List.length_drop]
  omega

/-- Neighbours have one relation for each position from 2 on, in their order. -/
theorem DispatchModel.neighbours_eq_map [Scalar α] (relate : Period α → Period α → Relation α)
    (ps : List (Period α)) :
    neighbours relate ps =
      (List.range' 2 (ps.length - 2)).map fun t => (.position t, relationAt relate ps t) := by
  have number := length_neighbours relate ps
  refine List.ext_getElem (by rw [number, List.length_map, List.length_range']) fun i hi _ => ?_
  rw [number] at hi
  have hbefore : ps[i + 2 - 1]? = some ps[i + 1] := List.getElem?_eq_getElem (by omega)
  have hnow : ps[i + 2]? = some ps[i + 2] := List.getElem?_eq_getElem (by omega)
  have later : 2 + 1 * i = i + 2 := by omega
  rw [List.getElem_map, List.getElem_range', later, relationAt_eq hbefore hnow]
  simp [neighbours, Nat.add_comm]

theorem DispatchModel.mem_positionsFrom {ps : List (Period α)} {first t : Nat} :
    t ∈ positionsFrom first ps ↔ first ≤ t ∧ t < ps.length := by
  unfold positionsFrom
  rw [List.mem_range'_1]
  omega

variable [Field α] [LinearOrder α]

/-- The signals of all units of a period under an assignment. -/
def Period.signals (p : Period α) (value : Var → α) : Signals α :=
  ⟨p.online.evaluate value, p.starting.evaluate value, p.power.evaluate value⟩

theorem Period.evaluate_sumOf (p : Period α) (part : Operation α → Affine α) (value : Var → α) :
    (p.sumOf part).evaluate value = (p.operations.map fun o => (part o).evaluate value).sum := by
  rw [sumOf, Affine.evaluate_sum, List.map_map]
  rfl

/-- Whether a sequence of signals is that of the periods under an assignment. -/
def Traces (value : Var → α) (ps : List (Period α)) (x : Nat → Signals α) : Prop :=
  ∀ (t : Nat) (p : Period α), ps[t]? = some p → p.signals value = x t

namespace Traces

variable {value : Var → α} {ps : List (Period α)} {x : Nat → Signals α}

/-- Starts are added up over the positions of a window within the horizon. -/
theorem evaluate_startsIn (hx : Traces value ps x) {first last : Nat} (hlast : last ≤ ps.length) :
    (DispatchModel.startsIn ps first last).evaluate value =
      ∑ i ∈ Ico first last, (x i).starting := by
  -- the slice of the periods is a list of known length with a known number in each place
  have window : ∀ i < last - first,
      (((ps.drop first).take (last - first)).map fun p => p.starting.evaluate value)[i]? =
        some (x (first + i)).starting := by
    intro i hi
    have hp : ps[first + i]? = some ps[first + i] := List.getElem?_eq_getElem (by omega)
    rw [List.getElem?_map, List.getElem?_take_of_lt hi, List.getElem?_drop, hp, ← hx _ _ hp]
    rfl
  have length : (((ps.drop first).take (last - first)).map
      fun p => p.starting.evaluate value).length = last - first := by
    rw [List.length_map, List.length_take, List.length_drop]
    omega
  have total := @sum_eq_sum_range α _ _ (fun i => (x (first + i)).starting) (by rwa [length])
  rw [length] at total
  rw [DispatchModel.startsIn, Affine.evaluate_sum, List.map_map, sum_Ico_eq_sum_range]
  exact total

theorem evaluate_onlineAt (hx : Traces value ps x) {t : Nat} (ht : t < ps.length) :
    (DispatchModel.onlineAt ps t).evaluate value = (x t).online := by
  have hp : ps[t]? = some ps[t] := List.getElem?_eq_getElem ht
  unfold DispatchModel.onlineAt
  rw [hp, ← hx _ _ hp]
  rfl

/-- The relation in a position is about the signals in it and in the one before. -/
theorem relationAt_holds_iff (hx : Traces value ps x) {relate : Period α → Period α → Relation α}
    {Allowed : Signals α → Signals α → Prop}
    (meaning : ∀ before now, (relate before now).holds value 0 = true ↔
      Allowed (before.signals value) (now.signals value)) {t : Nat} (ht : t < ps.length) :
    (DispatchModel.relationAt relate ps t).holds value 0 = true ↔ Allowed (x (t - 1)) (x t) := by
  have hbefore : ps[t - 1]? = some ps[t - 1] := List.getElem?_eq_getElem (by omega)
  have hnow : ps[t]? = some ps[t] := List.getElem?_eq_getElem ht
  rw [DispatchModel.relationAt_eq hbefore hnow, meaning, hx _ _ hbefore, hx _ _ hnow]

/-- A relation of neighbours holds throughout when the sequence keeps it from position 2 on. -/
theorem neighbours_hold_iff (hx : Traces value ps x) {relate : Period α → Period α → Relation α}
    {Allowed : Signals α → Signals α → Prop}
    (meaning : ∀ before now, (relate before now).holds value 0 = true ↔
      Allowed (before.signals value) (now.signals value)) :
    (∀ z ∈ DispatchModel.neighbours relate ps, z.2.holds value 0 = true) ↔
      ∀ t, 2 ≤ t → t < ps.length → Allowed (x (t - 1)) (x t) := by
  rw [DispatchModel.neighbours_eq_map, List.forall_mem_map]
  constructor
  · intro h t htwo ht
    exact (hx.relationAt_holds_iff meaning ht).1 (h t (List.mem_range'_1.2 (by omega)))
  · intro h t ht
    have := List.mem_range'_1.1 ht
    exact (hx.relationAt_holds_iff meaning (by omega)).2 (h t (by omega) (by omega))

end Traces

/-- The total signals of the plan that an assignment carries out are those of the periods. -/
theorem DispatchModel.traces_built (prices : PriceSet α) (fleet : Fleet α) (weighted : Bool)
    (keys : List (PeriodKey × α)) (value : Var → α) :
    Traces value (built prices fleet weighted keys).periods
      ((planOf value fleet.operating.length).total fleet.operating.length) := by
  intro t p hp
  rw [built_periods_getElem?] at hp
  obtain ⟨k, -, rfl⟩ := Option.map_eq_some_iff.1 hp
  set n := fleet.operating.length with hn
  -- every part of an operation that is one variable adds up to a part of the total
  have part (f : Operation α → Affine α) (i : Nat)
      (hf : ∀ (g : ThermalGenerator α) first, f (g.operation k.2 first) = Affine.var (first + i)) :
      (((blocksAt fleet.operating t k.1 k.2).map (·.operation)).map
        fun o => (f o).evaluate value).sum = ∑ u ∈ range n, value (blockStart n t u + i) := by
    -- the variable of unit `u` is the one at its place in block `u` of the position
    have at_unit : ∀ u < n, (((blocksAt fleet.operating t k.1 k.2).map (·.operation)).map
        fun o => (f o).evaluate value)[u]? = some (value (blockStart n t u + i)) := by
      intro u hu
      rw [List.getElem?_map, List.getElem?_map, getElem?_blocksAt, List.getElem?_eq_getElem hu]
      simp only [Option.map_some, ThermalGenerator.block, hf, Affine.evaluate_var]
      rfl
    have length : (((blocksAt fleet.operating t k.1 k.2).map (·.operation)).map
        fun o => (f o).evaluate value).length = n := by
      rw [List.length_map, List.length_map, length_blocksAt]
    have total := sum_eq_sum_range (by rwa [length])
    rw [length] at total
    exact total
  unfold Period.signals Period.online Period.starting Period.power
  rw [Period.evaluate_sumOf, Period.evaluate_sumOf, Period.evaluate_sumOf,
    part (·.online) 0 fun _ _ => rfl, part (·.starting) 1 fun _ _ => rfl,
    part (·.power) 2 fun _ _ => rfl]
  rfl

/-- The plan of the units of a model under an assignment, as its operations tell it. -/
def DispatchModel.plan (m : DispatchModel α) (value : Var → α) : Plan α := fun t u =>
  match m.periods[t]?.bind fun p => p.operations[u]? with
  | some o => ⟨o.online.evaluate value, o.starting.evaluate value, o.power.evaluate value⟩
  | none => ⟨0, 0, 0⟩

/-- The operations tell the plan that the variables of the blocks carry out. -/
theorem DispatchModel.plan_built {prices : PriceSet α} {fleet : Fleet α} {weighted : Bool}
    {keys : List (PeriodKey × α)} {t u : Nat} (ht : t < keys.length)
    (hu : u < fleet.operating.length) (value : Var → α) :
    (built prices fleet weighted keys).plan value t u =
      planOf value fleet.operating.length t u := by
  unfold plan planOf
  rw [built_periods_getElem?, List.getElem?_eq_getElem ht, Option.map_some, Option.bind_some,
    List.getElem?_map, getElem?_blocksAt, List.getElem?_eq_getElem hu]
  simp [ThermalGenerator.block, ThermalGenerator.operation]

end Periods

/-! ## §4. The meaning of the constraints -/

section Meaning

variable {α : Type} [Field α] [LinearOrder α] [IsStrictOrderedRing α]

/-- The power limits of a block hold when the generator allows the signals. -/
theorem ThermalGenerator.blockMembers_hold_iff (g : ThermalGenerator α) (k : PeriodKey)
    (value : Var → α) (first : Var) :
    (∀ x ∈ g.blockMembers k first, x.relation.holds value 0 = true) ↔
      g.Allows ⟨value first, value (first + 1), value (first + 2)⟩ := by
  simp [blockMembers, Allows, and_comm]

namespace DispatchModel

theorem rise_holds_iff (l : RampingLimits α) (before now : Period α) (value : Var → α) :
    (rise l before now).holds value 0 = true ↔
      l.AllowsRise (before.signals value) (now.signals value) := by
  unfold rise RampingLimits.AllowsRise
  rw [Relation.le_holds_iff]
  -- once the signals are numbers, the two bounds differ in the order of their terms only
  simp only [Affine.evaluate_sub, Affine.evaluate_addMul, Affine.evaluate_zero, Period.signals]
  constructor
  · intro h
    linarith
  · intro h
    linarith

theorem fall_holds_iff (l : RampingLimits α) (before now : Period α) (value : Var → α) :
    (fall l before now).holds value 0 = true ↔
      l.AllowsFall (before.signals value) (now.signals value) := by
  unfold fall RampingLimits.AllowsFall
  rw [Relation.le_holds_iff]
  simp only [Affine.evaluate_sub, Affine.evaluate_add, Affine.evaluate_addMul,
    Affine.evaluate_scale, Period.signals]
  constructor
  · intro h
    linarith
  · intro h
    linarith

end DispatchModel

namespace Traces

variable {value : Var → α} {ps : List (Period α)} {x : Nat → Signals α}

theorem startupWindows_hold_iff (hx : Traces value ps x) (times : UpDownTimes) :
    (∀ z ∈ DispatchModel.startupWindows times.up ps, z.2.holds value 0 = true) ↔
      ∀ t, times.up ≤ t → t < ps.length → times.KeepsOn x t := by
  unfold DispatchModel.startupWindows UpDownTimes.KeepsOn
  simp only [List.forall_mem_map, DispatchModel.mem_positionsFrom, Relation.le_holds_iff, and_imp]
  refine forall_congr' fun t => forall_congr' fun _ => forall_congr' fun ht => ?_
  rw [hx.evaluate_startsIn (by omega), hx.evaluate_onlineAt ht]

theorem shutdownWindows_hold_iff (hx : Traces value ps x) (times : UpDownTimes) :
    (∀ z ∈ DispatchModel.shutdownWindows times.down ps, z.2.holds value 0 = true) ↔
      ∀ t, times.down ≤ t → t < ps.length → times.KeepsOff x t := by
  unfold DispatchModel.shutdownWindows UpDownTimes.KeepsOff
  simp only [List.forall_mem_map, DispatchModel.mem_positionsFrom, Relation.le_holds_iff, and_imp,
    Affine.evaluate_sub, Affine.evaluate_const]
  refine forall_congr' fun t => forall_congr' fun _ => forall_congr' fun ht => ?_
  rw [hx.evaluate_startsIn (by omega), hx.evaluate_onlineAt (by omega)]

end Traces

end Meaning

end PlantEconomics
