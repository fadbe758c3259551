import PlantEconomics.Proofs.Dispatch.Settlement
import PlantEconomics.Proofs.Dispatch.Stages
import PlantEconomics.Proofs.Program.Relaxation

/-!
# Feasible assignments of the assembled model

An assignment is feasible when it satisfies all constraints without tolerance and lies within all
bounds. For the assembled model that comes apart into the plan of the units and the cash flows:

  * `Stages.Dispatches` says what the stages ask of a plan, in the total signals of the periods;
  * `CashFlowParams.Balances` says what the cash flows are, given the inflow of the plan;
  * `feasible_assembled_iff` puts the two together, with the bounds of each.

So a plan that dispatches is half of a feasible assignment, and settling the cash flows gives the
other half. The simplest plan leaves all units off; it shows that no assembled model is infeasible.
-/

namespace PlantEconomics

/-! ## §1. Plans -/

section Plans

variable {α : Type} [Field α] [LinearOrder α]

/-- Whether signals are within the bounds of their variables. -/
structure ThermalGenerator.InBounds (g : ThermalGenerator α) (x : Signals α) : Prop where
  online : 0 ≤ x.online ∧ x.online ≤ 1
  starting : 0 ≤ x.starting ∧ x.starting ≤ 1
  power : 0 ≤ x.power ∧ x.power ≤ g.capacity

/-- Whether a plan keeps all limits: those of every unit in every period, and those of the stages
for the totals. Ramping is looked at from position 2 on. -/
structure Stages.Dispatches (s : Stages α) (units : List (ThermalGenerator α)) (size : Nat)
    (plan : Plan α) : Prop where
  power : ∀ t < size, ∀ (u : Nat) (g : ThermalGenerator α), units[u]? = some g → g.Allows (plan t u)
  rise : ∀ t, 2 ≤ t → t < size →
    s.ramping.AllowsRise (plan.total units.length (t - 1)) (plan.total units.length t)
  fall : ∀ t, 2 ≤ t → t < size →
    s.ramping.AllowsFall (plan.total units.length (t - 1)) (plan.total units.length t)
  up : ∀ t, s.times.up ≤ t → t < size → s.times.KeepsOn (plan.total units.length) t
  down : ∀ t, s.times.down ≤ t → t < size → s.times.KeepsOff (plan.total units.length) t

/-- The same stages with another down time. -/
def Stages.withDown (s : Stages α) (down : Nat) : Stages α := { s with times.down := down }

end Plans

/-! ## §2. Bounds -/

/-- What is true of all members of a list and their places, member by member. -/
theorem forall_getElem?_cons_iff {β : Type} {b : β} {l : List β} {P : Nat → β → Prop} :
    (∀ i x, (b :: l)[i]? = some x → P i x) ↔ P 0 b ∧ ∀ i x, l[i]? = some x → P (i + 1) x := by
  constructor
  · intro h
    exact ⟨h 0 b rfl, fun i x hx => h (i + 1) x hx⟩
  · rintro ⟨first, rest⟩ i x hx
    cases i with
    | zero => exact Option.some.inj hx ▸ first
    | succ i => exact rest i x hx

theorem forall_getElem?_append_iff {β : Type} {l l' : List β} {P : Nat → β → Prop} :
    (∀ i x, (l ++ l')[i]? = some x → P i x) ↔
      (∀ i x, l[i]? = some x → P i x) ∧ ∀ i x, l'[i]? = some x → P (l.length + i) x := by
  constructor
  · intro h
    refine ⟨fun i x hx => h i x ?_, fun i x hx => h (l.length + i) x ?_⟩
    · rw [List.getElem?_append_left (List.getElem?_eq_some_iff.1 hx).1]
      exact hx
    · rw [List.getElem?_append_right (by omega), Nat.add_sub_cancel_left]
      exact hx
  · rintro ⟨left, right⟩ i x hx
    by_cases hi : i < l.length
    · rw [List.getElem?_append_left hi] at hx
      exact left i x hx
    · obtain ⟨j, rfl⟩ : ∃ j, i = l.length + j := ⟨i - l.length, by omega⟩
      rw [List.getElem?_append_right (by omega), Nat.add_sub_cancel_left] at hx
      exact right j x hx

section Bounds

variable {α : Type} [Field α] [LinearOrder α]

theorem VariableSpec.binary_contains_iff (name : String) (lower upper : Option α) (x : α) :
    (⟨name, .binary, lower, upper⟩ : VariableSpec α).bounds.contains x = true ↔ 0 ≤ x ∧ x ≤ 1 := by
  simp [bounds, Bounds.contains]

theorem VariableSpec.nonNegative_contains_iff (name : String) (upper : Option α) (x : α) :
    (⟨name, .nonNegative, none, upper⟩ : VariableSpec α).bounds.contains x = true ↔
      0 ≤ x ∧ ∀ u ∈ upper, x ≤ u := by
  cases upper <;> simp [bounds, Bounds.contains]

theorem VariableSpec.reals_contains (name : String) (x : α) :
    (⟨name, .reals, none, none⟩ : VariableSpec α).bounds.contains x = true := by
  simp [bounds, Bounds.contains]

namespace DispatchModel

/-- The unit variables are within bounds when the signals of all units are. -/
theorem unitSpecs_contain_iff {units : List (ThermalGenerator α)} {keys : List (PeriodKey × α)}
    {value : Var → α} :
    (∀ (v : Var) (spec : VariableSpec α), (unitSpecs units keys)[v]? = some spec →
      spec.bounds.contains (value v) = true) ↔
      ∀ t < keys.length, ∀ (u : Nat) (g : ThermalGenerator α), units[u]? = some g →
        g.InBounds (planOf value units.length t u) := by
  -- one unit in one period, its three variables being looked at by place
  have block (t u : Nat) (k : PeriodKey × α) (g : ThermalGenerator α) :
      (∀ (i : Nat) (spec : VariableSpec α), (g.blockVariables k.1)[i]? = some spec →
        spec.bounds.contains (value (blockStart units.length t u + i)) = true) ↔
      g.InBounds (planOf value units.length t u) := by
    simp only [ThermalGenerator.blockVariables, forall_getElem?_cons_iff,
      VariableSpec.binary_contains_iff, VariableSpec.nonNegative_contains_iff]
    constructor
    · rintro ⟨online, starting, ⟨nonneg, below⟩, -⟩
      exact ⟨online, starting, nonneg, below _ rfl⟩
    · rintro ⟨online, starting, nonneg, below⟩
      refine ⟨online, starting, ⟨nonneg, ?_⟩, by simp⟩
      rintro _ ⟨⟩
      exact below
  constructor
  · intro h t ht u g hg
    rw [← block t u keys[t] g]
    intro i spec hspec
    have hk : keys[t]? = some keys[t] := List.getElem?_eq_getElem ht
    exact h _ _ (getElem?_unitSpecs hk hg hspec)
  · intro h v spec hspec
    obtain ⟨t, k, u, g, i, hk, hg, hi, rfl⟩ := unitSpecs_cases hspec
    exact (block t u k g).2 (h t (List.getElem?_eq_some_iff.1 hk).1 u g hg) i spec hi

end DispatchModel

/-- The variables of the cash flows are within bounds when their values are. -/
theorem CashFlowVars.specs_contain_iff {first : Var} {value : Var → α} :
    (∀ (i : Nat) (spec : VariableSpec α), CashFlowVars.specs[i]? = some spec →
      spec.bounds.contains (value (first + i)) = true) ↔
    ((startingAt first).read value).InBounds := by
  simp only [specs, forall_getElem?_cons_iff, VariableSpec.nonNegative_contains_iff,
    VariableSpec.reals_contains]
  constructor
  · rintro ⟨⟨building, -⟩, ⟨fixed, -⟩, ⟨depreciation, -⟩, -, ⟨tax, -⟩, -⟩
    exact ⟨building, fixed, depreciation, tax⟩
  · rintro ⟨building, fixed, depreciation, tax⟩
    exact ⟨⟨building, by simp⟩, ⟨fixed, by simp⟩, ⟨depreciation, by simp⟩, trivial,
      ⟨tax, by simp⟩, trivial, by simp⟩

end Bounds

/-! ## §3. Constraints -/

section Constraints

open DispatchModel

variable {s : Stages ℝ} {prices : PriceSet ℝ} {fleet : Fleet ℝ} {goal : CashFlowGoal}
  {keys : List (PeriodKey × ℝ)} {value : Var → ℝ}

/-- The constraints of some families hold when what these families say does. The families of the
units have a point in their names; they are among the some. -/
theorem Stages.constraints_hold_iff (Looked : String → Prop)
    (looked : ∀ name : String, '.' ∈ name.toList → Looked name) :
    (∀ c ∈ (s.assembled prices fleet goal keys).program.constraints,
      Looked c.family → c.holds value 0 = true) ↔
    (∀ t < keys.length, ∀ (u : Nat) (g : ThermalGenerator ℝ), fleet.operating[u]? = some g →
      g.Allows (planOf value fleet.operating.length t u)) ∧
    ∀ f ∈ s.families goal (built prices fleet true keys), Looked f.1 →
      ∀ x ∈ f.2, x.2.holds value 0 = true := by
  -- before any stage there are only the power limits of the units
  have blocks : (∀ c ∈ (built prices fleet true keys).program.constraints,
      Looked c.family → c.holds value 0 = true) ↔
      ∀ t < keys.length, ∀ (u : Nat) (g : ThermalGenerator ℝ), fleet.operating[u]? = some g →
        g.Allows (planOf value fleet.operating.length t u) := by
    constructor
    · intro h t ht u g hg
      have hk : keys[t]? = some keys[t] := List.getElem?_eq_getElem ht
      refine (g.blockMembers_hold_iff keys[t].1 value _).1 fun x hx => ?_
      refine h ⟨x.family, x.index, x.relation⟩
        (mem_constraints_built.2 ⟨t, _, u, g, hk, hg, x, hx, rfl⟩) (looked _ ?_)
      exact point_mem_family hx
    · intro h c hc _
      obtain ⟨t, k, u, g, hk, hg, x, hx, rfl⟩ := mem_constraints_built.1 hc
      exact (g.blockMembers_hold_iff k.1 value _).2
        (h t (List.getElem?_eq_some_iff.1 hk).1 u g hg) x hx
  rw [← blocks]
  simp only [mem_constraints_assembled]
  constructor
  · intro h
    refine ⟨fun c hc => h c (.inl hc), fun f hf hlooked x hx => ?_⟩
    exact h _ (.inr ⟨f, hf, x, hx, rfl⟩) hlooked
  · rintro ⟨hbuilt, hstages⟩ c (hc | ⟨f, hf, x, hx, rfl⟩) hlooked
    · exact hbuilt c hc hlooked
    · exact hstages f hf hlooked x hx

/-- The families of the stages in the total signals of the periods. -/
theorem Stages.families_hold_iff (Looked : String → Prop) {x : Nat → Signals ℝ}
    (hx : Traces value (built prices fleet true keys).periods x) :
    (∀ f ∈ s.families goal (built prices fleet true keys), Looked f.1 →
      ∀ x ∈ f.2, x.2.holds value 0 = true) ↔
    (Looked "ramp_up_con" →
      ∀ t, 2 ≤ t → t < keys.length → s.ramping.AllowsRise (x (t - 1)) (x t)) ∧
    (Looked "ramp_down_con" →
      ∀ t, 2 ≤ t → t < keys.length → s.ramping.AllowsFall (x (t - 1)) (x t)) ∧
    (Looked "startup_con" → ∀ t, s.times.up ≤ t → t < keys.length → s.times.KeepsOn x t) ∧
    (Looked "shutdown_con" → ∀ t, s.times.down ≤ t → t < keys.length → s.times.KeepsOff x t) ∧
    ∀ f ∈ (built prices fleet true keys).cashFlowFamilies (s.cashFlowFor goal), Looked f.1 →
      ∀ x ∈ f.2, x.2.holds value 0 = true := by
  have length : (built prices fleet true keys).periods.length = keys.length :=
    length_built_periods ..
  simp only [families, rampFamilies, windowFamilies, List.forall_mem_append, List.forall_mem_cons,
    hx.neighbours_hold_iff (fun before now => rise_holds_iff s.ramping before now value),
    hx.neighbours_hold_iff (fun before now => fall_holds_iff s.ramping before now value),
    hx.startupWindows_hold_iff, hx.shutdownWindows_hold_iff, length]
  tauto

/-- The families of the cash flows hold when the cash flows balance. -/
theorem Stages.cashFlowFamilies_hold_iff (c : CashFlowParams ℝ) :
    (∀ f ∈ (built prices fleet true keys).cashFlowFamilies c,
      ∀ x ∈ f.2, x.2.holds value 0 = true) ↔
    c.Balances fleet (inflowOf fleet.operating keys (weightOfKey prices true c)
        (planOf value fleet.operating.length))
      ((CashFlowVars.behind fleet.operating.length keys.length).read value) := by
  have start : (built prices fleet true keys).cashFlowStart =
      .behind fleet.operating.length keys.length := by
    rw [cashFlowStart, size_built, CashFlowVars.behind]
  rw [← evaluate_netInflow_built, ← cashFlowRelations_hold_iff, cashFlowFamilies, start]
  -- each family has its one relation
  simp [cashFlowRelations, CashFlowVars.families]

variable (s prices fleet goal keys value)

/-- All families but those of the cash flows hold when the plan that is carried out keeps all
limits. -/
theorem Stages.dispatches_iff :
    (∀ c ∈ (s.assembled prices fleet goal keys).program.constraints,
      c.family ∉ CashFlowVars.families → c.holds value 0 = true) ↔
    s.Dispatches fleet.operating keys.length (planOf value fleet.operating.length) := by
  have hx := traces_built prices fleet true keys value
  have looked : ∀ name : String, '.' ∈ name.toList → name ∉ CashFlowVars.families :=
    fun name hname hcash => plain_names name (by simp [hcash]) hname
  rw [constraints_hold_iff _ looked, families_hold_iff (· ∉ CashFlowVars.families) hx]
  -- the four families of the stages are looked at, those of the cash flows are not
  constructor
  · rintro ⟨power, rise, fall, up, down, -⟩
    exact ⟨power, rise (by decide), fall (by decide), up (by decide), down (by decide)⟩
  · rintro ⟨power, rise, fall, up, down⟩
    refine ⟨power, fun _ => rise, fun _ => fall, fun _ => up, fun _ => down, ?_⟩
    intro f hf hplain
    exact absurd (List.mem_map_of_mem (f := (·.1)) hf) hplain

/-- Without the family of the down time, the limits are those of a down time that is as long as the
horizon. -/
theorem Stages.dispatches_but_down_iff :
    (∀ c ∈ (s.assembled prices fleet goal keys).program.constraints,
      c.family ∉ "shutdown_con" :: CashFlowVars.families → c.holds value 0 = true) ↔
    (s.withDown keys.length).Dispatches fleet.operating keys.length
      (planOf value fleet.operating.length) := by
  have hx := traces_built prices fleet true keys value
  have looked : ∀ name : String, '.' ∈ name.toList →
      name ∉ "shutdown_con" :: CashFlowVars.families := by
    intro name hname hlisted
    refine plain_names name ?_ hname
    rw [List.mem_append]
    rcases List.mem_cons.1 hlisted with rfl | hcash
    · exact .inl (by decide)
    · exact .inr hcash
  rw [constraints_hold_iff _ looked,
    families_hold_iff (· ∉ "shutdown_con" :: CashFlowVars.families) hx]
  constructor
  · rintro ⟨power, rise, fall, up, -⟩
    refine ⟨power, rise (by decide), fall (by decide), up (by decide), ?_⟩
    -- a down time as long as the horizon is never over
    intro t hdown ht
    exact absurd ht (not_lt.2 hdown)
  · rintro ⟨power, rise, fall, up, -⟩
    refine ⟨power, fun _ => rise, fun _ => fall, fun _ => up, fun h => absurd h (by simp), ?_⟩
    intro f hf hplain
    exact absurd (List.mem_cons_of_mem _ (List.mem_map_of_mem (f := (·.1)) hf)) hplain

/-- All constraints hold when the plan keeps all limits and the cash flows balance. -/
theorem Stages.satisfied_iff :
    (∀ c ∈ (s.assembled prices fleet goal keys).program.constraints, c.holds value 0 = true) ↔
      s.Dispatches fleet.operating keys.length (planOf value fleet.operating.length) ∧
      (s.cashFlowFor goal).Balances fleet
        (inflowOf fleet.operating keys (weightOfKey prices true (s.cashFlowFor goal))
          (planOf value fleet.operating.length))
        ((CashFlowVars.behind fleet.operating.length keys.length).read value) := by
  have hx := traces_built prices fleet true keys value
  have all := @constraints_hold_iff s prices fleet goal keys value (fun _ => True)
    fun _ _ => trivial
  rw [families_hold_iff (fun _ => True) hx] at all
  simp only [forall_const, cashFlowFamilies_hold_iff] at all
  rw [all]
  constructor
  · rintro ⟨power, rise, fall, up, down, balances⟩
    exact ⟨⟨power, rise, fall, up, down⟩, balances⟩
  · rintro ⟨⟨power, rise, fall, up, down⟩, balances⟩
    exact ⟨power, rise, fall, up, down, balances⟩

/-- All variables are within bounds when the signals of the units and the cash flows are. -/
theorem Stages.bounded_iff :
    (∀ (v : Var) (spec : VariableSpec ℝ),
      (s.assembled prices fleet goal keys).program.spec? v = some spec →
        spec.bounds.contains (value v) = true) ↔
      (∀ t < keys.length, ∀ (u : Nat) (g : ThermalGenerator ℝ), fleet.operating[u]? = some g →
        g.InBounds (planOf value fleet.operating.length t u)) ∧
      ((CashFlowVars.behind fleet.operating.length keys.length).read value).InBounds := by
  rw [← unitSpecs_contain_iff, CashFlowVars.behind, ← CashFlowVars.specs_contain_iff,
    ← length_unitSpecs fleet.operating keys, ← forall_getElem?_append_iff]
  simp only [Program.spec?, assembled_specs, List.getElem?_toArray]

/-- An assignment is feasible when its plan keeps all limits, its cash flows balance, and all of
them are within bounds. -/
theorem Stages.feasible_assembled_iff :
    (s.assembled prices fleet goal keys).program.Feasible value ↔
      (s.Dispatches fleet.operating keys.length (planOf value fleet.operating.length) ∧
        ∀ t < keys.length, ∀ (u : Nat) (g : ThermalGenerator ℝ), fleet.operating[u]? = some g →
          g.InBounds (planOf value fleet.operating.length t u)) ∧
      (s.cashFlowFor goal).Balances fleet
        (inflowOf fleet.operating keys (weightOfKey prices true (s.cashFlowFor goal))
          (planOf value fleet.operating.length))
        ((CashFlowVars.behind fleet.operating.length keys.length).read value) ∧
      ((CashFlowVars.behind fleet.operating.length keys.length).read value).InBounds := by
  constructor
  · rintro ⟨satisfied, bounded⟩
    obtain ⟨dispatches, balances⟩ := (satisfied_iff ..).1 satisfied
    obtain ⟨units, cashFlows⟩ := (bounded_iff ..).1 bounded
    exact ⟨⟨dispatches, units⟩, balances, cashFlows⟩
  · rintro ⟨⟨dispatches, units⟩, balances, cashFlows⟩
    exact ⟨(satisfied_iff ..).2 ⟨dispatches, balances⟩, (bounded_iff ..).2 ⟨units, cashFlows⟩⟩

end Constraints

/-! ## §4. Settled plans -/

namespace Stages

open DispatchModel

section Settled

variable {s : Stages ℝ} {prices : PriceSet ℝ} {fleet : Fleet ℝ} {goal : CashFlowGoal}
  {keys : List (PeriodKey × ℝ)}

/-- What the limits look at are the units within the horizon. -/
theorem Dispatches.congr {units : List (ThermalGenerator ℝ)} {size : Nat} {plan plan' : Plan ℝ}
    (same : ∀ t < size, ∀ u < units.length, plan t u = plan' t u)
    (h : s.Dispatches units size plan) : s.Dispatches units size plan' := by
  -- every limit of a stage looks at totals of positions within the horizon
  have total : ∀ t < size, plan.total units.length t = plan'.total units.length t :=
    fun t ht => Plan.total_congr (same t ht)
  have starts (first : Nat) {last : Nat} (hlast : last ≤ size) :
      ∑ i ∈ Finset.Ico first last, (plan.total units.length i).starting =
        ∑ i ∈ Finset.Ico first last, (plan'.total units.length i).starting := by
    refine Finset.sum_congr rfl fun i hi => ?_
    rw [total i (by rw [Finset.mem_Ico] at hi; omega)]
  constructor
  case power =>
    intro t ht u g hg
    rw [← same t ht u (List.getElem?_eq_some_iff.1 hg).1]
    exact h.power t ht u g hg
  case rise =>
    intro t htwo ht
    rw [← total t ht, ← total (t - 1) (by omega)]
    exact h.rise t htwo ht
  case fall =>
    intro t htwo ht
    rw [← total t ht, ← total (t - 1) (by omega)]
    exact h.fall t htwo ht
  case up =>
    intro t hup ht
    have kept := h.up t hup ht
    unfold UpDownTimes.KeepsOn at kept ⊢
    rwa [← starts _ ht.le, ← total t ht]
  case down =>
    intro t hdown ht
    have kept := h.down t hdown ht
    unfold UpDownTimes.KeepsOff at kept ⊢
    rwa [← starts _ (by omega), ← total (t - s.times.down) (by omega)]

variable (s prices fleet goal keys) in
/-- The assignment that carries out a plan, with the cash flows settled for the inflow of the
plan. -/
noncomputable def settledAssignment (plan : Plan ℝ) : Var → ℝ :=
  (CashFlowVars.behind fleet.operating.length keys.length).assign
    ((s.cashFlowFor goal).settle fleet
      (inflowOf fleet.operating keys (weightOfKey prices true (s.cashFlowFor goal)) plan))
    (plan.assign fleet.operating.length)

theorem planOf_assign_cashFlows {n size t u : Nat} (ht : t < size) (hu : u < n)
    (x : CashFlowValues ℝ) (rest : Var → ℝ) :
    planOf ((CashFlowVars.behind n size).assign x rest) n t u = planOf rest n t u := by
  -- the last block ends where the cash flows begin
  have online := blockStart_add_lt ht hu (show 0 < OperationBlock.width by decide)
  have starting := blockStart_add_lt ht hu (show 1 < OperationBlock.width by decide)
  have power := blockStart_add_lt ht hu (show 2 < OperationBlock.width by decide)
  rw [Nat.add_zero] at online
  unfold planOf CashFlowVars.behind
  rw [CashFlowVars.assign_of_lt online, CashFlowVars.assign_of_lt starting,
    CashFlowVars.assign_of_lt power]

/-- The units follow the plan. -/
theorem planOf_settledAssignment (plan : Plan ℝ) {t u : Nat} (ht : t < keys.length)
    (hu : u < fleet.operating.length) :
    planOf (s.settledAssignment prices fleet goal keys plan) fleet.operating.length t u =
      plan t u := by
  rw [settledAssignment, planOf_assign_cashFlows ht hu, plan.planOf_assign hu]

/-- A plan that keeps all limits within bounds is feasible once its cash flows are settled. -/
theorem feasible_settledAssignment (valid : fleet.validate = .ok ()) {plan : Plan ℝ}
    (dispatches : s.Dispatches fleet.operating keys.length plan)
    (inBounds : ∀ t < keys.length, ∀ (u : Nat) (g : ThermalGenerator ℝ),
      fleet.operating[u]? = some g → g.InBounds (plan t u)) :
    (s.assembled prices fleet goal keys).program.Feasible
      (s.settledAssignment prices fleet goal keys plan) := by
  -- settling moves no variable of a unit, so limits and inflow are those of the plan
  have carried : ∀ t < keys.length, ∀ u < fleet.operating.length,
      planOf (s.settledAssignment prices fleet goal keys plan) fleet.operating.length t u =
        plan t u := fun t ht u hu => planOf_settledAssignment plan ht hu
  have settled : (CashFlowVars.behind fleet.operating.length keys.length).read
      (s.settledAssignment prices fleet goal keys plan) = _ := CashFlowVars.read_assign ..
  rw [feasible_assembled_iff, settled, inflowOf_congr _ carried]
  refine ⟨⟨dispatches.congr fun t ht u hu => (carried t ht u hu).symm, ?_⟩,
    CashFlowParams.balances_settle .., CashFlowParams.inBounds_settle _ valid _⟩
  intro t ht u g hg
  rw [carried t ht u (List.getElem?_eq_some_iff.1 hg).1]
  exact inBounds t ht u g hg

/-! ## §5. The plan that leaves all units off -/

theorem dispatches_off (s : Stages ℝ) (units : List (ThermalGenerator ℝ)) (size : Nat) :
    s.Dispatches units size fun _ _ => ⟨0, 0, 0⟩ := by
  have total : Plan.total (fun _ _ => (⟨0, 0, 0⟩ : Signals ℝ)) units.length =
      fun _ => ⟨0, 0, 0⟩ := by
    funext t
    simp [Plan.total]
  constructor
  case power => intros; simp [ThermalGenerator.Allows]
  case rise => intros; simp [RampingLimits.AllowsRise, total]
  case fall => intros; simp [RampingLimits.AllowsFall, total]
  case up => intros; simp [UpDownTimes.KeepsOn, total]
  case down => intros; simp [UpDownTimes.KeepsOff, total]

/-- No unit is on, so no variable of a unit is anything but zero. -/
theorem assign_off (n : Nat) : Plan.assign (fun _ _ => (⟨0, 0, 0⟩ : Signals ℝ)) n = fun _ => 0 := by
  funext v
  unfold Plan.assign Signals.at
  split <;> rfl

/-- **No assembled model is infeasible.** With all units off in all periods and no inflow, there
are cash flows that make the assignment feasible: the costs of what is built, the depreciation, and
the tax on what the further amounts leave over. -/
theorem all_off_feasible {m : DispatchModel ℝ} {word : String}
    (h : s.assemble prices fleet word = .ok m) :
    ∃ v, m.cashFlowVars? = some v ∧
      let value := v.assign (s.cashFlow.settle fleet 0) fun _ => 0
      (∀ p ∈ m.periods, ∀ o ∈ p.operations, o.online.evaluate value = 0 ∧
        o.starting.evaluate value = 0 ∧ o.power.evaluate value = 0) ∧
      m.program.Feasible value := by
  obtain ⟨goal, keys, -, -, -, -, valid, -, -, rfl⟩ := assemble_eq_ok_iff.1 h
  refine ⟨_, cashFlowVars?_assembled .., ?_, ?_⟩
  · intro p hp o ho
    obtain ⟨t, u, k, g, hk, hg, rfl⟩ := mem_operations_built _ _ _ _ hp ho
    have ht : t < keys.length := (List.getElem?_eq_some_iff.1 hk).1
    have hu : u < fleet.operating.length := (List.getElem?_eq_some_iff.1 hg).1
    have off := planOf_assign_cashFlows ht hu (s.cashFlow.settle fleet 0) fun _ => 0
    obtain ⟨online, starting, power⟩ := Signals.mk.inj off
    simp only [ThermalGenerator.operation, Affine.evaluate_var]
    exact ⟨online, starting, power⟩
  · -- zero is within the bounds of a valid unit, and an idle plan brings nothing in
    have within : ∀ t < keys.length, ∀ (u : Nat) (g : ThermalGenerator ℝ),
        fleet.operating[u]? = some g → g.InBounds ⟨0, 0, 0⟩ := by
      intro _ _ u g hg
      have hvalid := (Fleet.validate_eq_ok_iff.1 valid).1 g (List.mem_of_getElem? hg)
      obtain ⟨-, capacity, -⟩ := ThermalGenerator.validate_eq_ok_iff.1 hvalid
      exact ⟨by simp, by simp, by simpa using capacity.le⟩
    have feasible := @feasible_settledAssignment s prices fleet goal keys valid _
      (s.dispatches_off fleet.operating keys.length) within
    rw [settledAssignment, inflowOf_zero, assign_off] at feasible
    exact feasible

end Settled

/-- Standard settings have an assembled model of every valid fleet, for the prices of any hours. -/
theorem standard_assemble {fleet : Fleet ℝ} (valid : fleet.validate = .ok ()) (goal : CashFlowGoal)
    {values : List ℝ} (some_value : values ≠ []) :
    (standard : Stages ℝ).assemble (PriceSet.ofColumns none values.length [(none, values)]) fleet
        (Vocabulary.word goal) =
      .ok (standard.assembled (PriceSet.ofColumns none values.length [(none, values)]) fleet goal
        (PriceSet.hourly none values)) :=
  assemble_hourly some_value RampingLimits.validate_standard UpDownTimes.validate_standard
    CashFlowParams.validate_standard valid

theorem validate_one_standard :
    (Fleet.empty.withUnit (.standard : ThermalGenerator ℝ)).validate = .ok () := by
  rw [Fleet.validate_eq_ok_iff]
  have valid : (.standard : ThermalGenerator ℝ).validate = .ok () :=
    ThermalGenerator.validate_standard "thermal"
  simp [Fleet.empty, Fleet.withUnit, Fleet.withDesign, Fleet.withOperation, valid]

/-- The standard unit, built and operating, at two prices. -/
theorem all_off_feasible_two_hours :
    ∃ m, (standard : Stages ℝ).assemble (PriceSet.ofColumns none 2 [(none, [30, 50])])
        (Fleet.empty.withUnit .standard) "NPV" = .ok m ∧
      ∃ v, m.cashFlowVars? = some v ∧ m.program.Feasible
        (v.assign ((standard : Stages ℝ).cashFlow.settle (Fleet.empty.withUnit .standard) 0)
          fun _ => 0) := by
  have assembled := standard_assemble validate_one_standard .presentValue
    (List.cons_ne_nil (30 : ℝ) [50])
  obtain ⟨v, vars, -, feasible⟩ := all_off_feasible assembled
  exact ⟨_, assembled, v, vars, feasible⟩

end Stages

end PlantEconomics
