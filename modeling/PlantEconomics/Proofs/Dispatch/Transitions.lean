import PlantEconomics.Proofs.Dispatch.Commitment

/-!
# Units that come on

No limit says that a unit which was off and is on has started. What stands in the way of coming on
without a start is ramping alone, from position 2 on: without a start the rise from zero is limited
to the rise of a unit that is on, and the limit of falls asks for a least power then. Where these
two and the power limits leave room for a power, the unit comes on without a start, at no cost of
starting and unseen by the up and down times.
-/

namespace PlantEconomics

/-- Whether a unit is on or off, and starting or not. -/
def Signals.IsBinary (x : Signals ℝ) : Prop :=
  (x.online = 0 ∨ x.online = 1) ∧ (x.starting = 0 ∨ x.starting = 1)

namespace Stages

open DispatchModel

/-! ## §1. Coming on without a start -/

section Rising

variable {s : Stages ℝ} {g : ThermalGenerator ℝ} {size t : Nat}

/-- Off before a position, on from it on at one power, and never starting. -/
def rising (t : Nat) (power : ℝ) : Plan ℝ := fun i _ => if i < t then ⟨0, 0, 0⟩ else ⟨1, 0, power⟩

theorem rising_of_lt {i : Nat} (h : i < t) (power : ℝ) (u : Nat) :
    rising t power i u = ⟨0, 0, 0⟩ := if_pos h

theorem rising_of_le {i : Nat} (h : t ≤ i) (power : ℝ) (u : Nat) :
    rising t power i u = ⟨1, 0, power⟩ := if_neg (Nat.not_lt.2 h)

/-- The signals of one unit are the total. -/
theorem total_one (plan : Plan ℝ) : plan.total 1 = fun i => plan i 0 := by
  funext i
  simp [Plan.total]

theorem starting_rising (power : ℝ) (i u : Nat) : (rising t power i u).starting = 0 := by
  unfold rising
  split <;> rfl

theorem online_rising (power : ℝ) (i u : Nat) :
    0 ≤ (rising t power i u).online ∧ (rising t power i u).online ≤ 1 := by
  unfold rising
  split <;> simp

/-- A unit comes on without a start at a power that it allows and, from position 2 on, that ramping
allows. -/
theorem dispatches_rising (valid : s.ramping.validate = .ok ()) {power : ℝ}
    (within : g.leastPower ≤ power ∧ power ≤ g.capacity)
    (jump : 2 ≤ t → power ≤ s.ramping.up + s.ramping.least ∧
      s.ramping.shutdown - s.ramping.down ≤ power) :
    s.Dispatches [g] size (rising t power) := by
  obtain ⟨-, -, up, down, -⟩ := RampingLimits.nonneg_of_validate valid
  constructor
  case power =>
    intro i _ u h hh
    obtain rfl := List.mem_singleton.1 (List.mem_of_getElem? hh)
    unfold ThermalGenerator.Allows
    by_cases hi : i < t
    · rw [rising_of_lt hi]
      simp
    · rw [rising_of_le (Nat.not_lt.1 hi)]
      simpa using within
  case rise =>
    intro i htwo _
    unfold RampingLimits.AllowsRise
    rw [List.length_singleton, total_one]
    -- off before and now, coming on now, or on before and now
    rcases Nat.lt_trichotomy i t with hi | rfl | hi
    · simp [rising_of_lt hi, rising_of_lt (show i - 1 < t by omega)]
    · simpa [rising_of_le (Nat.le_refl i), rising_of_lt (show i - 1 < i by omega)] using
        (jump htwo).1
    · simpa [rising_of_le hi.le, rising_of_le (show t ≤ i - 1 by omega)] using up
  case fall =>
    intro i htwo _
    unfold RampingLimits.AllowsFall
    rw [List.length_singleton, total_one]
    rcases Nat.lt_trichotomy i t with hi | rfl | hi
    · simp [rising_of_lt hi, rising_of_lt (show i - 1 < t by omega)]
    · obtain ⟨-, least⟩ := jump htwo
      simp only [rising_of_le (Nat.le_refl i), rising_of_lt (show i - 1 < i by omega)]
      linarith
    · simpa [rising_of_le hi.le, rising_of_le (show t ≤ i - 1 by omega)] using down
  case up =>
    intro i _ _
    unfold UpDownTimes.KeepsOn
    rw [List.length_singleton, total_one]
    simp only [starting_rising, Finset.sum_const_zero]
    exact (online_rising ..).1
  case down =>
    intro i _ _
    unfold UpDownTimes.KeepsOff
    rw [List.length_singleton, total_one]
    simp only [starting_rising, Finset.sum_const_zero, sub_nonneg]
    exact (online_rising ..).2

/-- Without a start, the power with which a unit comes on lies within all the limits. -/
theorem power_of_unstarted {plan : Plan ℝ} (h : s.Dispatches [g] size plan) (htwo : 2 ≤ t)
    (ht : t < size) (off : (plan (t - 1) 0).online = 0) (on : (plan t 0).online = 1)
    (before : (plan (t - 1) 0).starting = 0) (now : (plan t 0).starting = 0) :
    g.leastPower ≤ (plan t 0).power ∧ (plan t 0).power ≤ g.capacity ∧
      (plan t 0).power ≤ s.ramping.up + s.ramping.least ∧
      s.ramping.shutdown - s.ramping.down ≤ (plan t 0).power := by
  have idle := h.power (t - 1) (by omega) 0 g rfl
  have running := h.power t ht 0 g rfl
  have rise := h.rise t htwo ht
  have fall := h.fall t htwo ht
  unfold ThermalGenerator.Allows at idle running
  unfold RampingLimits.AllowsRise at rise
  unfold RampingLimits.AllowsFall at fall
  rw [List.length_singleton, total_one] at rise fall
  rw [off, mul_zero, mul_zero] at idle
  rw [on, mul_one, mul_one] at running
  -- a unit that is off delivers nothing, so the rise is the whole power
  have none_before : (plan (t - 1) 0).power = 0 := le_antisymm idle.2 idle.1
  rw [off, on, before, now, none_before] at rise fall
  refine ⟨running.1, running.2, ?_, ?_⟩
  · linarith
  · linarith

end Rising

/-! ## §2. When a start is forced -/

section Assembled

variable {s : Stages ℝ} {prices : PriceSet ℝ} {fleet : Fleet ℝ} {g : ThermalGenerator ℝ}
  {m : DispatchModel ℝ} {word : String} {t : Nat}

theorem isBinary_rising (power : ℝ) (i u : Nat) : (rising t power i u).IsBinary := by
  unfold rising Signals.IsBinary
  split <;> simp

theorem inBounds_rising (valid : g.validate = .ok ()) {power : ℝ}
    (within : g.leastPower ≤ power ∧ power ≤ g.capacity) (i u : Nat) :
    g.InBounds (rising t power i u) := by
  obtain ⟨nonneg, least⟩ := ThermalGenerator.power_of_validate valid
  refine ⟨online_rising power i u, by simp [starting_rising], ?_⟩
  by_cases hi : i < t
  · rw [rising_of_lt hi]
    exact ⟨le_refl 0, nonneg.trans least⟩
  · rw [rising_of_le (Nat.not_lt.1 hi)]
    exact ⟨nonneg.trans within.1, within.2⟩

/-- A model of one unit has a feasible schedule of coming on without a start, where the limits leave
a power for it. -/
theorem exists_feasible_rising (h : s.assemble prices fleet word = .ok m)
    (single : fleet.operating = [g]) {power : ℝ}
    (within : g.leastPower ≤ power ∧ power ≤ g.capacity)
    (jump : 2 ≤ t → power ≤ s.ramping.up + s.ramping.least ∧
      s.ramping.shutdown - s.ramping.down ≤ power) :
    ∃ value, m.program.Feasible value ∧ ∀ i < m.size, m.plan value i 0 = rising t power i 0 := by
  obtain ⟨goal, keys, -, ramping, -, -, valid, -, -, rfl⟩ := assemble_eq_ok_iff.1 h
  have one : 0 < fleet.operating.length := by simp [single]
  have dispatches : s.Dispatches fleet.operating keys.length (rising t power) := by
    rw [single]
    exact dispatches_rising ramping within jump
  have inBounds : ∀ i < keys.length, ∀ (u : Nat) (g' : ThermalGenerator ℝ),
      fleet.operating[u]? = some g' → g'.InBounds (rising t power i u) := by
    intro i _ u g' hg'
    have valid' := (Fleet.validate_eq_ok_iff.1 valid).1 g' (List.mem_of_getElem? hg')
    rw [single] at hg'
    obtain rfl := List.mem_singleton.1 (List.mem_of_getElem? hg')
    exact inBounds_rising valid' within i u
  refine ⟨_, feasible_settledAssignment valid dispatches inBounds, ?_⟩
  intro i hi
  rw [size_assembled] at hi
  rw [plan_assembled hi one, planOf_settledAssignment _ hi one]

/-- **When coming on is tied to a start.** Take a model of one unit and a position. Every feasible
schedule of zeros and ones that is off before the position and on in it has a start in one of the
two exactly when ramping is looked at there and its limits leave no power for the unit. Otherwise
there is a feasible schedule without a start. -/
theorem start_forced_iff (h : s.assemble prices fleet word = .ok m)
    (single : fleet.operating = [g]) (ht : 1 ≤ t) (hlt : t < m.size) :
    (∀ value, m.program.Feasible value → (∀ i < m.size, (m.plan value i 0).IsBinary) →
      (m.plan value (t - 1) 0).online = 0 → (m.plan value t 0).online = 1 →
      (m.plan value (t - 1) 0).starting = 1 ∨ (m.plan value t 0).starting = 1) ↔
    2 ≤ t ∧ min g.capacity (s.ramping.up + s.ramping.least) <
      max g.leastPower (s.ramping.shutdown - s.ramping.down) := by
  have hpred : t - 1 < m.size := lt_of_le_of_lt (Nat.sub_le t 1) hlt
  constructor
  · intro forced
    -- where the limits leave a power, the unit comes on at it without a start
    by_contra room
    obtain ⟨_, _, -, -, -, -, valid, -⟩ := assemble_eq_ok_iff.1 h
    have mem : g ∈ fleet.operating := by simp [single]
    obtain ⟨-, least⟩ :=
      ThermalGenerator.power_of_validate ((Fleet.validate_eq_ok_iff.1 valid).1 g mem)
    -- there is a power that the unit allows, and ramping too where it is looked at
    obtain ⟨power, within, jump⟩ : ∃ power, (g.leastPower ≤ power ∧ power ≤ g.capacity) ∧
        (2 ≤ t → power ≤ s.ramping.up + s.ramping.least ∧
          s.ramping.shutdown - s.ramping.down ≤ power) := by
      by_cases htwo : 2 ≤ t
      · have fits := not_lt.1 fun noRoom => room ⟨htwo, noRoom⟩
        obtain ⟨capacity, rise⟩ := le_min_iff.1 fits
        exact ⟨_, ⟨le_max_left .., capacity⟩, fun _ => ⟨rise, le_max_right ..⟩⟩
      · exact ⟨g.leastPower, ⟨le_refl _, least⟩, fun h => absurd h htwo⟩
    obtain ⟨value, feasible, follows⟩ := exists_feasible_rising h single within jump
    have binary : ∀ i < m.size, (m.plan value i 0).IsBinary := by
      intro i hi
      rw [follows i hi]
      exact isBinary_rising power i 0
    have off := follows (t - 1) hpred
    have on := follows t hlt
    rw [rising_of_lt (Nat.sub_lt ht Nat.one_pos)] at off
    rw [rising_of_le (Nat.le_refl t)] at on
    have started := forced value feasible binary (by rw [off]) (by rw [on])
    rw [off, on] at started
    exact absurd started (by norm_num)
  · rintro ⟨htwo, noRoom⟩ value feasible binary off on
    -- without a start the power lies above the one bound and below the other, which leave no room
    by_contra unstarted
    obtain ⟨before, now⟩ := not_or.1 unstarted
    have notBefore := (binary (t - 1) hpred).2.resolve_right before
    have notNow := (binary t hlt).2.resolve_right now
    obtain ⟨goal, keys, -, -, -, -, -, -, -, rfl⟩ := assemble_eq_ok_iff.1 h
    have one : 0 < fleet.operating.length := by simp [single]
    have dispatches := ((feasible_assembled_iff ..).1 feasible).1.1
    rw [size_assembled] at hlt hpred
    rw [plan_assembled hpred one] at off notBefore
    rw [plan_assembled hlt one] at on notNow
    rw [single] at dispatches off on notBefore notNow
    obtain ⟨least, capacity, rise, fall⟩ :=
      power_of_unstarted dispatches htwo hlt off on notBefore notNow
    exact absurd noRoom (not_lt.2 ((max_le least fall).trans (le_min capacity rise)))

/-- Standard settings for a power that rises by at most fifty in a period. -/
noncomputable def slowRise : Stages ℝ :=
  { (standard : Stages ℝ) with ramping := { RampingLimits.standard with up := 50 } }

theorem validate_slowRise : slowRise.ramping.validate = .ok () := by
  rw [RampingLimits.validate_eq_ok_iff]
  simp [slowRise, RampingLimits.standard, RampingLimits.quantities]
  norm_num

/-- The standard unit cannot come on in the third hour at a rise of fifty unless it starts. -/
theorem start_forced_slow_rise :
    ∃ m, slowRise.assemble (PriceSet.ofColumns none 3 [(none, [30, 30, 30])])
        (Fleet.empty.withUnit .standard) "NPV" = .ok m ∧ 2 < m.size ∧
      ∀ value, m.program.Feasible value → (∀ i < m.size, (m.plan value i 0).IsBinary) →
        (m.plan value 1 0).online = 0 → (m.plan value 2 0).online = 1 →
        (m.plan value 1 0).starting = 1 ∨ (m.plan value 2 0).starting = 1 := by
  have assembled := @assemble_hourly ℝ _ slowRise (Fleet.empty.withUnit .standard)
    .presentValue [30, 30, 30] (List.cons_ne_nil _ _) validate_slowRise
    UpDownTimes.validate_standard CashFlowParams.validate_standard validate_one_standard
  have noRoom : min (ThermalGenerator.standard : ThermalGenerator ℝ).capacity
        (slowRise.ramping.up + slowRise.ramping.least) <
      max (ThermalGenerator.standard : ThermalGenerator ℝ).leastPower
        (slowRise.ramping.shutdown - slowRise.ramping.down) := by
    simp only [slowRise, RampingLimits.standard, ThermalGenerator.standard]
    norm_num
  have long : 2 < (slowRise.assembled (PriceSet.ofColumns none 3 [(none, [30, 30, 30])])
      (Fleet.empty.withUnit .standard) .presentValue (PriceSet.hourly none [30, 30, 30])).size := by
    rw [size_assembled]
    decide
  exact ⟨_, assembled, long,
    (start_forced_iff (t := 2) assembled rfl (by norm_num) long).2 ⟨le_refl 2, noRoom⟩⟩

/-- The standard unit comes on in the third hour without a start. -/
theorem unit_on_without_start :
    ∃ m value, (standard : Stages ℝ).assemble
        (PriceSet.ofColumns none 3 [(none, [30, 30, 30])]) (Fleet.empty.withUnit .standard)
        "NPV" = .ok m ∧
      m.program.Feasible value ∧ (∀ i < m.size, (m.plan value i 0).IsBinary) ∧ 2 < m.size ∧
      m.plan value 1 0 = ⟨0, 0, 0⟩ ∧ m.plan value 2 0 = ⟨1, 0, 60⟩ := by
  have assembled := standard_assemble validate_one_standard .presentValue
    (List.cons_ne_nil (30 : ℝ) [30, 30])
  have within : (ThermalGenerator.standard : ThermalGenerator ℝ).leastPower ≤ 60 ∧
      60 ≤ (ThermalGenerator.standard : ThermalGenerator ℝ).capacity := by
    simp only [ThermalGenerator.standard]
    norm_num
  have jump : (60 : ℝ) ≤ (standard : Stages ℝ).ramping.up + (standard : Stages ℝ).ramping.least ∧
      (standard : Stages ℝ).ramping.shutdown - (standard : Stages ℝ).ramping.down ≤ 60 := by
    simp only [standard, RampingLimits.standard]
    norm_num
  obtain ⟨value, feasible, follows⟩ :=
    exists_feasible_rising (t := 2) assembled rfl within fun _ => jump
  have long : 2 < [(30 : ℝ), 30, 30].length := by decide
  refine ⟨_, value, assembled, feasible, ?_, long, ?_, ?_⟩
  · intro i hi
    rw [follows i hi]
    exact isBinary_rising 60 i 0
  · exact (follows 1 (Nat.lt_of_succ_lt long)).trans (rising_of_lt Nat.one_lt_two 60 0)
  · exact (follows 2 long).trans (rising_of_le (Nat.le_refl 2) 60 0)

end Assembled

end Stages

end PlantEconomics
