import PlantEconomics.Dispatch.CashFlow
import PlantEconomics.Dispatch.Ramping
import PlantEconomics.Proofs.Exact
import PlantEconomics.Proofs.Outcome

/-!
# Valid settings

What each check says of the numbers that it lets through. Exact numbers are all finite, so only the
comparisons are left: quantities and limits are not negative, the least power lies below a positive
capacity, and the tax takes a part of the profit.
-/

namespace PlantEconomics

variable {α : Type} [Field α] [LinearOrder α]

/-! ## §1. Quantities -/

@[simp] theorem ThermalGenerator.isQuantity_eq_true_iff {x : α} :
    isQuantity x = true ↔ 0 ≤ x := by
  simp [isQuantity]

/-- No number of a list is complained of when none is negative. -/
theorem ThermalGenerator.find?_not_isQuantity_eq_none_iff {qs : List (String × α)} :
    (qs.find? fun q => !isQuantity q.2) = none ↔ ∀ q ∈ qs, 0 ≤ q.2 := by
  simp only [List.find?_eq_none, Bool.not_eq_true', Bool.not_eq_false, isQuantity_eq_true_iff]

theorem ThermalGenerator.validate_eq_ok_iff {g : ThermalGenerator α} :
    g.validate = .ok () ↔
      (∀ q ∈ g.quantities, 0 ≤ q.2) ∧ 0 < g.capacity ∧ g.leastPower ≤ g.capacity := by
  rw [← find?_not_isQuantity_eq_none_iff]
  unfold validate
  -- the checks in their order; one that fails decides, whatever the later ones would say
  cases g.quantities.find? fun q => !isQuantity q.2 with
  | some q => simp
  | none =>
    by_cases capacity : g.capacity ≤ 0
    · simp [capacity, not_lt.2 capacity]
    · by_cases least : g.capacity < g.leastPower
      · simp [capacity, least]
      · simp [capacity, least, not_lt.1 least, not_le.1 capacity]

/-- The power range of a valid unit lies between zero and its capacity. -/
theorem ThermalGenerator.power_of_validate {g : ThermalGenerator α} (h : g.validate = .ok ()) :
    0 ≤ g.leastPower ∧ g.leastPower ≤ g.capacity := by
  obtain ⟨nonneg, -, least⟩ := validate_eq_ok_iff.1 h
  exact ⟨nonneg ("min_power", _) (by simp [quantities]), least⟩

theorem Fleet.validate_eq_ok_iff {α : Type} [Scalar α] {f : Fleet α} :
    f.validate = .ok () ↔
      (∀ g ∈ f.operating, g.validate = .ok ()) ∧ ∀ g ∈ f.built, g.validate = .ok () := by
  unfold validate
  rw [bind_eq_ok_iff, ← forM_eq_ok_iff, ← forM_eq_ok_iff]
  constructor
  · rintro ⟨_, operating, built⟩
    exact ⟨operating, built⟩
  · rintro ⟨operating, built⟩
    exact ⟨(), operating, built⟩

/-! ## §2. Limits and times -/

theorem RampingLimits.validate_eq_ok_iff {l : RampingLimits α} :
    l.validate = .ok () ↔ ∀ q ∈ l.quantities, 0 ≤ q.2 := by
  rw [← ThermalGenerator.find?_not_isQuantity_eq_none_iff]
  unfold validate
  cases l.quantities.find? fun q => !ThermalGenerator.isQuantity q.2 <;> simp

theorem RampingLimits.nonneg_of_validate {l : RampingLimits α} (h : l.validate = .ok ()) :
    0 ≤ l.startup ∧ 0 ≤ l.shutdown ∧ 0 ≤ l.up ∧ 0 ≤ l.down ∧ 0 ≤ l.least := by
  have nonneg := validate_eq_ok_iff.1 h
  simpa [quantities] using nonneg

omit [Field α] [LinearOrder α] in
theorem UpDownTimes.validate_eq_ok_iff {t : UpDownTimes} :
    (t.validate : Except (Fault α) Unit) = .ok () ↔ 1 ≤ t.up ∧ 1 ≤ t.down := by
  unfold validate
  split
  · next h => exact iff_of_false (by simp) (by omega)
  · next h => exact iff_of_true rfl (by omega)

/-! ## §3. Cash flows -/

theorem CashFlowParams.validate_eq_ok_iff {c : CashFlowParams α} :
    c.validate = .ok () ↔
      c.lifetime ≠ 0 ∧ -1 < c.discountRate ∧ 0 ≤ c.taxRate ∧ c.taxRate ≤ 1 := by
  unfold validate
  by_cases lifetime : c.lifetime = 0
  · simp [lifetime]
  · by_cases discount : c.discountRate ≤ -1
    · simp [lifetime, discount]
    · by_cases tax : 0 ≤ c.taxRate ∧ c.taxRate ≤ 1
      · simp [lifetime, discount, tax, not_le.1 discount]
      · simp [lifetime, discount, tax]

/-! ## §4. Standard settings -/

section Standard

variable [IsStrictOrderedRing α]

/-- A standard unit is valid under any name. -/
theorem ThermalGenerator.validate_standard (name : String) :
    ({ standard with name } : ThermalGenerator α).validate = .ok () := by
  rw [validate_eq_ok_iff]
  simp [standard, quantities]
  norm_num

theorem RampingLimits.validate_standard : (standard : RampingLimits α).validate = .ok () := by
  rw [validate_eq_ok_iff]
  simp [standard, quantities]
  norm_num

omit [Field α] [LinearOrder α] [IsStrictOrderedRing α] in
theorem UpDownTimes.validate_standard :
    (UpDownTimes.standard.validate : Except (Fault α) Unit) = .ok () := rfl

theorem CashFlowParams.validate_standard : (standard : CashFlowParams α).validate = .ok () := by
  rw [validate_eq_ok_iff]
  simp [standard]
  norm_num

end Standard

end PlantEconomics
