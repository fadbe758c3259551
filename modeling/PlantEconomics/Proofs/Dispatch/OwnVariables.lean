import PlantEconomics.Proofs.Dispatch.Runs
import PlantEconomics.Proofs.Program.Variables

/-!
# Models speak of their own variables

The operations of a built model have the variables of their blocks, and ramping and the up and down
times take no others. So whatever stages a model has come through before its cash flows, it speaks
of its own variables only (`Closed`), and those that the cash flows add are free as far as the
earlier constraints go.

What an operation tells comes in two parts, because they are not about the same variables: its
signals, among them whether the unit is on, and its cash flows, which that does not enter.
-/

namespace PlantEconomics

open DispatchModel

/-! ## §1. Operations and periods -/

/-- Whether the signals of an operation are over a set of variables. -/
structure Operation.SignalsOver {α : Type} (o : Operation α) (S : Var → Prop) : Prop where
  online : o.online.Over S
  starting : o.starting.Over S
  power : o.power.Over S

/-- Whether the cash flows of an operation are over a set of variables. -/
structure Operation.FlowsOver {α : Type} (o : Operation α) (S : Var → Prop) : Prop where
  revenue : o.revenue.Over S
  runningCost : o.runningCost.Over S
  fuelCost : o.fuelCost.Over S
  carbonCost : o.carbonCost.Over S

section Periods

variable {α : Type} [Scalar α] {S : Var → Prop}

theorem ThermalGenerator.signalsOver_operation (g : ThermalGenerator α) (price : α) {first : Var}
    (online : S first) (starting : S (first + 1)) (power : S (first + 2)) :
    (g.operation price first).SignalsOver S where
  online := Affine.over_var.2 online
  starting := Affine.over_var.2 starting
  power := Affine.over_var.2 power

/-- Whether a unit is on costs nothing and brings nothing in. -/
theorem ThermalGenerator.flowsOver_operation (g : ThermalGenerator α) (price : α) {first : Var}
    (starting : S (first + 1)) (power : S (first + 2)) :
    (g.operation price first).FlowsOver S where
  revenue := Affine.over_term.2 power
  runningCost := (Affine.over_term.2 power).add (Affine.over_term.2 starting)
  fuelCost := Affine.over_term.2 power
  carbonCost := Affine.over_term.2 power

namespace Period

variable {p before now : Period α}

theorem over_sumOf {part : Operation α → Affine α} (h : ∀ o ∈ p.operations, (part o).Over S) :
    (p.sumOf part).Over S :=
  Affine.over_sum (List.forall_mem_map.2 h)

/-- Whether the signals of all operations of a period are over a set of variables. -/
def SignalsOver (p : Period α) (S : Var → Prop) : Prop := ∀ o ∈ p.operations, o.SignalsOver S

namespace SignalsOver

omit [Scalar α] in
theorem mono {S' : Var → Prop} (h : p.SignalsOver S) (larger : ∀ v, S v → S' v) :
    p.SignalsOver S' := fun o ho =>
  ⟨(h o ho).online.mono larger, (h o ho).starting.mono larger, (h o ho).power.mono larger⟩

theorem online (h : p.SignalsOver S) : p.online.Over S := over_sumOf fun o ho => (h o ho).online

theorem starting (h : p.SignalsOver S) : p.starting.Over S :=
  over_sumOf fun o ho => (h o ho).starting

theorem power (h : p.SignalsOver S) : p.power.Over S := over_sumOf fun o ho => (h o ho).power

end SignalsOver

/-- Whether the cash flows of all operations of a period are over a set of variables. -/
def FlowsOver (p : Period α) (S : Var → Prop) : Prop := ∀ o ∈ p.operations, o.FlowsOver S

omit [Scalar α] in
theorem FlowsOver.mono {S' : Var → Prop} (h : p.FlowsOver S) (larger : ∀ v, S v → S' v) :
    p.FlowsOver S' := fun o ho =>
  ⟨(h o ho).revenue.mono larger, (h o ho).runningCost.mono larger, (h o ho).fuelCost.mono larger,
    (h o ho).carbonCost.mono larger⟩

theorem FlowsOver.netInflow (h : p.FlowsOver S) : p.netInflow.Over S := by
  have revenue : p.revenue.Over S := over_sumOf fun o ho => (h o ho).revenue
  have runningCost : p.runningCost.Over S := over_sumOf fun o ho => (h o ho).runningCost
  have fuelCost : p.fuelCost.Over S := over_sumOf fun o ho => (h o ho).fuelCost
  have carbonCost : p.carbonCost.Over S := over_sumOf fun o ho => (h o ho).carbonCost
  exact ((revenue.sub runningCost).sub fuelCost).sub carbonCost

end Period

/-! ## §2. Relations of the stages -/

namespace DispatchModel

variable {before now : Period α} {ps : List (Period α)}

theorem over_rise (l : RampingLimits α) (hb : before.SignalsOver S) (hn : now.SignalsOver S) :
    (rise l before now).body.Over S := by
  refine Relation.over_between (hn.power.sub hb.power) ?_ .le
  exact (((Affine.over_zero.addMul hn.starting _).addMul hb.starting _).addMul hn.online _).addMul
    hb.online _

theorem over_fall (l : RampingLimits α) (hb : before.SignalsOver S) (hn : now.SignalsOver S) :
    (fall l before now).body.Over S := by
  refine Relation.over_between (hb.power.sub hn.power) ?_ .le
  exact ((((hb.starting.add hb.online).sub hn.online).scale _).addMul hn.starting _).addMul
    hn.online _

omit [Scalar α] in
/-- A relation of neighbours is one of two periods. -/
theorem exists_of_mem_neighbours {relate : Period α → Period α → Relation α}
    {x : Index × Relation α} (hx : x ∈ neighbours relate ps) :
    ∃ before ∈ ps, ∃ now ∈ ps, x.2 = relate before now := by
  obtain ⟨i, hi, rfl⟩ := List.mem_mapIdx.1 hx
  show ∃ before ∈ ps, ∃ now ∈ ps, (List.zipWith relate (ps.drop 1) (ps.drop 2))[i] = _
  rw [List.getElem_zipWith]
  exact ⟨_, List.mem_of_mem_drop (List.getElem_mem _), _,
    List.mem_of_mem_drop (List.getElem_mem _), rfl⟩

theorem over_startsIn (h : ∀ p ∈ ps, p.SignalsOver S) (first last : Nat) :
    (startsIn ps first last).Over S := by
  refine Affine.over_sum (List.forall_mem_map.2 fun p hp => ?_)
  exact (h p (List.mem_of_mem_drop (List.mem_of_mem_take hp))).starting

theorem over_onlineAt (h : ∀ p ∈ ps, p.SignalsOver S) (t : Nat) : (onlineAt ps t).Over S := by
  unfold onlineAt
  split
  · next p hp => exact (h p (List.mem_of_getElem? hp)).online
  · exact Affine.over_zero

/-- The net inflow is over what the cash flows of the periods are over. -/
theorem over_netInflow {m : DispatchModel α} (h : ∀ p ∈ m.periods, p.FlowsOver S)
    (c : CashFlowParams α) : (m.netInflow c).Over S :=
  Affine.over_foldl_addMul _ (fun p hp => (h p hp).netInflow) Affine.over_zero

end DispatchModel

end Periods

/-! ## §3. Models -/

section Models

variable {α : Type}

/-- Whether the constraints of a model and the signals of its periods are over the variables that
the model has. -/
structure DispatchModel.Closed (m : DispatchModel α) : Prop where
  constraints : ∀ c ∈ m.program.constraints, c.relation.body.Over (· < m.program.size)
  signals : ∀ p ∈ m.periods, p.SignalsOver (· < m.program.size)

variable [Scalar α] {prices : PriceSet α} {fleet : Fleet α} {weighted : Bool}
  {keys : List (PeriodKey × α)} {S : Var → Prop}

namespace DispatchModel

/-- What an operation of a built model tells is over a set of variables when the three variables of
every block are as they are asked to be. -/
theorem forall_operations_built {P : Operation α → Prop}
    (h : ∀ t < keys.length, ∀ (k : PeriodKey × α) (u : Nat) (g : ThermalGenerator α),
      fleet.operating[u]? = some g → P (g.operation k.2 (blockStart fleet.operating.length t u))) :
    ∀ p ∈ (built prices fleet weighted keys).periods, ∀ o ∈ p.operations, P o := by
  intro p hp o ho
  obtain ⟨t, u, k, g, hk, hg, rfl⟩ := mem_operations_built _ _ _ _ hp ho
  exact h t (List.getElem?_eq_some_iff.1 hk).1 k u g hg

/-- The variables of all blocks are variables of the built model. -/
theorem blockStart_add_lt_size {t u i : Nat} {g : ThermalGenerator α} (ht : t < keys.length)
    (hg : fleet.operating[u]? = some g) (hi : i < OperationBlock.width) :
    blockStart fleet.operating.length t u + i <
      (built prices fleet weighted keys).program.size := by
  rw [size_built]
  exact blockStart_add_lt ht (List.getElem?_eq_some_iff.1 hg).1 hi

theorem signalsOver_built : ∀ p ∈ (built prices fleet weighted keys).periods,
    p.SignalsOver (· < (built prices fleet weighted keys).program.size) := by
  refine forall_operations_built fun t ht k u g hg => ?_
  exact g.signalsOver_operation k.2 (blockStart_add_lt_size (i := 0) ht hg (by decide))
    (blockStart_add_lt_size ht hg (by decide)) (blockStart_add_lt_size ht hg (by decide))

theorem flowsOver_built : ∀ p ∈ (built prices fleet weighted keys).periods,
    p.FlowsOver (· < (built prices fleet weighted keys).program.size) := by
  refine forall_operations_built fun t ht k u g hg => ?_
  exact g.flowsOver_operation k.2 (blockStart_add_lt_size ht hg (by decide))
    (blockStart_add_lt_size ht hg (by decide))

/-- The power limits of a block are over two variables of the block. -/
theorem over_blockMembers (g : ThermalGenerator α) (k : PeriodKey) {first : Var}
    (online : S first) (power : S (first + 2)) :
    ∀ x ∈ g.blockMembers k first, x.relation.body.Over S := by
  intro x hx
  simp only [ThermalGenerator.blockMembers, List.mem_cons, List.not_mem_nil, or_false] at hx
  rcases hx with rfl | rfl
  · exact Relation.over_between (Affine.over_var.2 power) (Affine.over_term.2 online) .le
  · exact Relation.over_between (Affine.over_var.2 power) (Affine.over_term.2 online) .ge

theorem closed_built : (built prices fleet weighted keys).Closed where
  signals := signalsOver_built
  constraints := by
    intro c hc
    obtain ⟨t, k, u, g, hk, hg, x, hx, rfl⟩ := mem_constraints_built.1 hc
    have ht : t < keys.length := (List.getElem?_eq_some_iff.1 hk).1
    refine over_blockMembers g k.1 ?_ ?_ x hx
    · exact blockStart_add_lt_size (i := 0) ht hg (by decide)
    · exact blockStart_add_lt_size ht hg (by decide)

end DispatchModel

end Models

namespace Stage

open DispatchModel

variable {α : Type} [Analytic α] {m m' : DispatchModel α} {s : Stage α} {stages : List (Stage α)}
  {S : Var → Prop}

/-- What ramping and the up and down times add is about the signals of the periods. -/
theorem over_families (plain : s.kind ≠ .cashFlow) (h : ∀ p ∈ m.periods, p.SignalsOver S) :
    ∀ f ∈ s.families m, ∀ x ∈ f.2, x.2.body.Over S := by
  cases s with
  | cashFlow c => exact absurd rfl plain
  | ramping l =>
    refine List.forall_mem_cons.2 ⟨fun x hx => ?_, List.forall_mem_singleton.2 fun x hx => ?_⟩
    · obtain ⟨before, hb, now, hn, same⟩ := exists_of_mem_neighbours hx
      rw [same]
      exact over_rise l (h before hb) (h now hn)
    · obtain ⟨before, hb, now, hn, same⟩ := exists_of_mem_neighbours hx
      rw [same]
      exact over_fall l (h before hb) (h now hn)
  | times t =>
    refine List.forall_mem_cons.2 ⟨fun x hx => ?_, List.forall_mem_singleton.2 fun x hx => ?_⟩
    · obtain ⟨i, -, rfl⟩ := List.mem_map.1 hx
      exact Relation.over_between (over_startsIn h _ _) (over_onlineAt h _) .le
    · obtain ⟨i, -, rfl⟩ := List.mem_map.1 hx
      refine Relation.over_between (over_startsIn h _ _) ?_ .le
      exact (Affine.over_const 1).sub (over_onlineAt h _)

theorem closed_applied (plain : s.kind ≠ .cashFlow) (closed : m.Closed) :
    (s.applied m).Closed := by
  -- no variable is added, so both models are over the same
  have size : (s.applied m).program.size = m.program.size := by
    unfold Program.size
    rw [(sameButConstraints_applied plain).specs]
  constructor
  case signals =>
    rw [periods_applied, size]
    exact closed.signals
  case constraints =>
    rw [constraints_applied, size]
    refine List.forall_mem_append.2 ⟨closed.constraints, fun c hc => ?_⟩
    obtain ⟨f, hf, hc⟩ := List.mem_flatMap.1 hc
    obtain ⟨x, hx, rfl⟩ := List.mem_map.1 hc
    exact over_families plain closed.signals f hf x hx

theorem closed_of_run (plain : ∀ t ∈ stages, t.kind ≠ .cashFlow) (h : run m stages = .ok m')
    (closed : m.Closed) : m'.Closed :=
  of_run (P := Closed) (fun t ht _ kept => closed_applied (plain t ht) kept) h closed

end Stage

end PlantEconomics
