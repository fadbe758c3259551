import PlantEconomics.Proofs.Dispatch.Runs
import PlantEconomics.Proofs.Dispatch.Transitions

/-!
# Least up and down times

The windows of the up and down times compare a sum of starts with one signal. For a single unit
whose signals are zeros and ones such a sum counts positions, so a window says two things: it holds
no second start, and a start in it decides whether the unit is on at one of its ends.

Each window looks at one position only. That a unit stays off for the whole down time before a start
follows along the schedule: it is off where the window begins, and as long as it does not start, it
cannot have come on.

  * `windows_hold_iff`: what each window says;
  * `least_times_enforced`: what the windows say together.
-/

namespace PlantEconomics

open Finset

/-! ## §1. Starts in a window -/

section Windows

variable {x : Nat → Signals ℝ} {times : UpDownTimes} {first last size t : Nat}

/-- The positions from `first` up to but not including `last` in which a unit is starting. -/
noncomputable def startsWithin (x : Nat → Signals ℝ) (first last : Nat) : Finset Nat :=
  {i ∈ Ico first last | (x i).starting = 1}

theorem mem_startsWithin {i : Nat} :
    i ∈ startsWithin x first last ↔ (first ≤ i ∧ i < last) ∧ (x i).starting = 1 := by
  rw [startsWithin, mem_filter, mem_Ico]

/-- Starts that are zeros and ones add up to their number. -/
theorem sum_starting (first : Nat) (binary : ∀ i < last, (x i).IsBinary) :
    ∑ i ∈ Ico first last, (x i).starting = (startsWithin x first last).card := by
  rw [startsWithin, card_filter, Nat.cast_sum]
  refine sum_congr rfl fun i hi => ?_
  rcases (binary i (mem_Ico.1 hi).2).2 with idle | start
  · simp [idle]
  · simp [start]

/-- The up time asks for at most one start in its window, and for a unit that is on behind it. -/
theorem keepsOn_iff (binary : ∀ i < t + 1, (x i).IsBinary) :
    times.KeepsOn x t ↔
      (startsWithin x (t + 1 - times.up) t).card ≤ 1 ∧
        ((startsWithin x (t + 1 - times.up) t).Nonempty → (x t).online = 1) := by
  have counted := sum_starting (t + 1 - times.up) fun i (hi : i < t) =>
    binary i (Nat.lt_succ_of_lt hi)
  unfold UpDownTimes.KeepsOn
  rw [counted]
  rcases (binary t (Nat.lt_succ_self t)).1 with off | on
  · -- no start is left over, and then there is neither a second one nor a first
    rw [off, ← Nat.cast_zero, Nat.cast_le, Nat.le_zero, card_eq_zero]
    constructor
    · intro none
      rw [none]
      simp
    · rintro ⟨-, forced⟩
      refine not_nonempty_iff_eq_empty.1 fun some => ?_
      exact absurd (forced some) (by norm_num)
  · rw [on, Nat.cast_le_one]
    simp

/-- The down time asks for at most one start in its window, and for none if the window begins with a
unit that is on. -/
theorem keepsOff_iff (binary : ∀ i < t + 1, (x i).IsBinary) :
    times.KeepsOff x t ↔
      (startsWithin x (t - times.down) (t + 1)).card ≤ 1 ∧
        ((x (t - times.down)).online = 1 → startsWithin x (t - times.down) (t + 1) = ∅) := by
  unfold UpDownTimes.KeepsOff
  rw [sum_starting _ binary]
  rcases (binary (t - times.down) (by omega)).1 with off | on
  · rw [off, sub_zero, Nat.cast_le_one]
    simp
  · rw [on, sub_self, ← Nat.cast_zero, Nat.cast_le, Nat.le_zero, card_eq_zero]
    constructor
    · intro none
      rw [none]
      simp
    · rintro ⟨-, none⟩
      exact none rfl

end Windows

/-! ## §2. The windows of a model -/

namespace DispatchModel

variable {prices : PriceSet ℝ} {fleet : Fleet ℝ} {weighted : Bool} {m m₁ m' : DispatchModel ℝ}
  {stages : List (Stage ℝ)} {times : UpDownTimes} {g : ThermalGenerator ℝ}

/-- Nothing is in the way of up and down times where there are none. -/
theorem exists_withUpDownTimes (made : build prices fleet weighted = .ok m)
    (run : Stage.run m stages = .ok m₁) (fresh : ∀ s ∈ stages, s.kind ≠ .times)
    (up : 1 ≤ times.up) (down : 1 ≤ times.down) : ∃ m', m₁.withUpDownTimes times = .ok m' := by
  obtain ⟨-, -, keys, -, rfl⟩ := build_eq_ok_iff.1 made
  have valid : (Stage.times times : Stage ℝ).validate = .ok () :=
    UpDownTimes.validate_eq_ok_iff.2 ⟨up, down⟩
  have fits : (Stage.times times).Fits m₁ := Stage.fits_of_run fresh run (Stage.fits_built valid)
  exact ⟨_, Stage.apply_eq_ok_iff.2 ⟨fits, rfl⟩⟩

theorem size_timed (made : build prices fleet weighted = .ok m)
    (run : Stage.run m stages = .ok m₁) (timed : m₁.withUpDownTimes times = .ok m') :
    m'.size = prices.sets.periods.length := by
  obtain ⟨-, -, keys, priced, rfl⟩ := build_eq_ok_iff.1 made
  have periods := Stage.periods_of_run (Stage.run_concat (s := .times times) run timed)
  rw [size, periods, length_built_periods, ← (priced_eq_ok_iff.1 priced).1, List.length_map]

/-- The signals of the unit have the variables that it was built with. -/
theorem spec?_timed (made : build prices fleet weighted = .ok m)
    (single : fleet.operating = [g]) (run : Stage.run m stages = .ok m₁)
    (timed : m₁.withUpDownTimes times = .ok m') :
    ∀ t p, m'.periods[t]? = some p → ∀ i < OperationBlock.width,
      m'.program.spec? (blockStart 1 t 0 + i) = (g.blockVariables p.key)[i]? := by
  intro t p hp i hi
  have first : fleet.operating[0]? = some g := by rw [single]; rfl
  have block := Stage.spec?_of_run made (Stage.run_concat (s := .times times) run timed) hp first hi
  rwa [single] at block

/-- Whatever came before them, the families of the up and down times have the windows as members,
and these keep the unit on and off. -/
theorem members_hold_iff (made : build prices fleet weighted = .ok m)
    (single : fleet.operating = [g]) (run : Stage.run m stages = .ok m₁)
    (timed : m₁.withUpDownTimes times = .ok m') (value : Var → ℝ) :
    ((∀ c ∈ m'.program.familyMembers "startup_con", c.holds value 0 = true) ↔
      ∀ t, times.up ≤ t → t < m'.size → times.KeepsOn (fun i => planOf value 1 i 0) t) ∧
    ((∀ c ∈ m'.program.familyMembers "shutdown_con", c.holds value 0 = true) ↔
      ∀ t, times.down ≤ t → t < m'.size → times.KeepsOff (fun i => planOf value 1 i 0) t) := by
  have periods := Stage.periods_of_run (Stage.run_concat (s := .times times) run timed)
  obtain ⟨-, -, keys, -, rfl⟩ := build_eq_ok_iff.1 made
  obtain ⟨fits, rfl⟩ := (Stage.apply_eq_ok_iff (s := .times times)).1 timed
  have traces := traces_built prices fleet weighted keys value
  rw [single, List.length_singleton, Stages.total_one] at traces
  have startup : "startup_con" ∈ Stages.windowNames := by decide
  have shutdown : "shutdown_con" ∈ Stages.windowNames := by decide
  rw [Stage.members_last_hold_iff run fits startup, Stage.members_last_hold_iff run fits shutdown,
    size, periods, ← traces.startupWindows_hold_iff, ← traces.shutdownWindows_hold_iff]
  -- of the two families each name picks its own
  simp [Stage.families, windowFamilies]

/-! ## §3. Each window -/

/-- **What each window says.** Take a model of one unit behind any stages, and add up and down
times. For an assignment of zeros and ones to the unit's signals, the members of the up time hold
exactly when in every position from the up time on at most one of the positions before it within the
up time has a start, and the unit is on if one has. The members of the down time hold exactly when
in every position from the down time on at most one of the positions since the down time, the
position itself included, has a start, and none if the unit was on in the first of them. -/
theorem windows_hold_iff (made : build prices fleet weighted = .ok m)
    (single : fleet.operating = [g]) (run : Stage.run m stages = .ok m₁)
    (fresh : ∀ s ∈ stages, s.kind ≠ .times) (up : 1 ≤ times.up) (down : 1 ≤ times.down) :
    ∃ m', m₁.withUpDownTimes times = .ok m' ∧ m'.size = prices.sets.periods.length ∧
      (∀ t p, m'.periods[t]? = some p → ∀ i < OperationBlock.width,
        m'.program.spec? (blockStart 1 t 0 + i) = (g.blockVariables p.key)[i]?) ∧
      ∀ value : Var → ℝ,
        let x : Nat → Signals ℝ := fun t => planOf value 1 t 0
        (∀ t < m'.size, (x t).IsBinary) →
        ((∀ c ∈ m'.program.familyMembers "startup_con", c.holds value 0 = true) ↔
          ∀ t, times.up ≤ t → t < m'.size →
            let starts := startsWithin x (t + 1 - times.up) t
            starts.card ≤ 1 ∧ (starts.Nonempty → (x t).online = 1)) ∧
        ((∀ c ∈ m'.program.familyMembers "shutdown_con", c.holds value 0 = true) ↔
          ∀ t, times.down ≤ t → t < m'.size →
            let starts := startsWithin x (t - times.down) (t + 1)
            starts.card ≤ 1 ∧ ((x (t - times.down)).online = 1 → starts = ∅)) := by
  obtain ⟨m', timed⟩ := exists_withUpDownTimes made run fresh up down
  refine ⟨m', timed, size_timed made run timed, spec?_timed made single run timed, ?_⟩
  intro value x binary
  obtain ⟨startups, shutdowns⟩ := members_hold_iff made single run timed value
  have before {t : Nat} (ht : t < m'.size) : ∀ i < t + 1, (x i).IsBinary :=
    fun i hi => binary i (by omega)
  rw [startups, shutdowns]
  constructor
  · refine forall_congr' fun t => forall_congr' fun _ => forall_congr' fun ht => ?_
    exact keepsOn_iff (before ht)
  · refine forall_congr' fun t => forall_congr' fun _ => forall_congr' fun ht => ?_
    exact keepsOff_iff (before ht)

/-- Off in the first hour, a start in the second, and on or off in the third. -/
def startedSecond (on : ℝ) : Plan ℝ := fun t _ =>
  match t with
  | 1 => ⟨0, 1, 0⟩
  | 2 => ⟨on, 0, 60 * on⟩
  | _ => ⟨0, 0, 0⟩

theorem starting_startedSecond (on : ℝ) (t : Nat) :
    (startedSecond on t 0).starting = 1 ↔ t = 1 := by
  match t with
  | 0 | 1 | 2 | _ + 3 => simp [startedSecond]

theorem isBinary_startedSecond {on : ℝ} (binary : on = 0 ∨ on = 1) (t : Nat) :
    (startedSecond on t 0).IsBinary := by
  match t with
  | 0 | 1 | 2 | _ + 3 => simp [startedSecond, Signals.IsBinary, binary]

theorem planOf_startedSecond (on : ℝ) :
    (fun t => planOf ((startedSecond on).assign 1) 1 t 0) = fun t => startedSecond on t 0 :=
  funext fun t => (startedSecond on).planOf_assign Nat.one_pos t

theorem startsWithin_startedSecond (on : ℝ) (first last : Nat) :
    startsWithin (fun t => startedSecond on t 0) first last = {i ∈ Ico first last | i = 1} :=
  filter_congr fun i _ => starting_startedSecond on i

/-- The standard unit in three hours, behind ramping. -/
theorem exists_three_hours :
    ∃ m m₁, build (PriceSet.ofColumns none 3 [(none, [30, 30, 30])])
        (Fleet.empty.withUnit (.standard : ThermalGenerator ℝ)) false = .ok m ∧
      Stage.run m [.ramping .standard] = .ok m₁ := by
  have valid : ∀ s ∈ [(.ramping .standard : Stage ℝ)], s.validate = .ok () :=
    List.forall_mem_singleton.2 RampingLimits.validate_standard
  exact Stage.exists_run_hourly (List.cons_ne_nil (30 : ℝ) [30, 30]) Stages.validate_one_standard
    (by simp) valid false

/-- A start in the second of three hours and an up time of two: the windows of the up time say that
the unit is on in the third hour, and nothing more. -/
theorem windows_hold_started_second :
    ∃ m m₁ m', build (PriceSet.ofColumns none 3 [(none, [30, 30, 30])])
        (Fleet.empty.withUnit (.standard : ThermalGenerator ℝ)) false = .ok m ∧
      Stage.run m [.ramping .standard] = .ok m₁ ∧ m₁.withUpDownTimes ⟨2, 1⟩ = .ok m' ∧
      ∀ on : ℝ, on = 0 ∨ on = 1 →
        ((∀ c ∈ m'.program.familyMembers "startup_con",
          c.holds ((startedSecond on).assign 1) 0 = true) ↔ on = 1) := by
  obtain ⟨m, m₁, made, run⟩ := exists_three_hours
  have up : 1 ≤ (⟨2, 1⟩ : UpDownTimes).up := Nat.le_add_left 1 1
  obtain ⟨m', timed, size, -, meaning⟩ := windows_hold_iff made rfl run (by simp [Stage.kind]) up
    (Nat.le_refl 1)
  have three : m'.size = 3 := size
  refine ⟨m, m₁, m', made, run, timed, fun on binary => ?_⟩
  have startups := (meaning ((startedSecond on).assign 1) fun t _ => by
    rw [planOf_startedSecond]
    exact isBinary_startedSecond binary t).1
  rw [startups, planOf_startedSecond, three]
  -- the only window is that of the third hour, and the start lies in it
  have window : startsWithin (fun t => startedSecond on t 0) (2 + 1 - 2) 2 = {1} := by
    rw [startsWithin_startedSecond]
    decide
  constructor
  · intro h
    have third := h 2 (Nat.le_refl 2) (by decide)
    rw [window] at third
    exact third.2 (singleton_nonempty 1)
  · intro kept t late inside
    have third : t = 2 := by
      have : 2 ≤ t := late
      omega
    subst third
    show (startsWithin _ (2 + 1 - 2) 2).card ≤ 1 ∧ _
    rw [window]
    exact ⟨(card_singleton 1).le, fun _ => kept⟩

end DispatchModel

/-! ## §4. Schedules -/

section Schedules

variable {x : Nat → Signals ℝ} {times : UpDownTimes} {size : Nat}

/-- Whether a schedule of a horizon comes on only where it was on or starting before. -/
def ComesOnFromStart (x : Nat → Signals ℝ) (size : Nat) : Prop :=
  ∀ t, 1 ≤ t → t < size → (x t).online = 1 → (x (t - 1)).online = 1 ∨ (x (t - 1)).starting = 1

/-- A unit stays on for the up time after a start. -/
theorem online_of_starting (binary : ∀ t < size, (x t).IsBinary)
    (keeps : ∀ t, times.up ≤ t → t < size → times.KeepsOn x t) {s t : Nat}
    (late : times.up ≤ s + 1) (start : (x s).starting = 1) (after : s < t)
    (within : t + 1 ≤ s + times.up) (inside : t < size) : (x t).online = 1 := by
  -- the window of this position reaches back to the start
  have window := keeps t (by omega) inside
  rw [keepsOn_iff fun i hi => binary i (by omega)] at window
  exact window.2 ⟨s, mem_startsWithin.2 ⟨by omega, start⟩⟩

/-- A unit that is off and not starting is off in the next position. -/
theorem off_succ (binary : ∀ t < size, (x t).IsBinary) (consistent : ComesOnFromStart x size)
    {t : Nat} (inside : t + 1 < size) (off : (x t).online = 0) (idle : (x t).starting = 0) :
    (x (t + 1)).online = 0 := by
  refine (binary (t + 1) inside).1.resolve_right fun on => ?_
  rcases consistent (t + 1) (Nat.le_add_left 1 t) inside on with before | start
  · rw [Nat.add_sub_cancel, off] at before
    exact absurd before (by norm_num)
  · rw [Nat.add_sub_cancel, idle] at start
    exact absurd start (by norm_num)

/-- So it is off until it starts. -/
theorem off_of_idle (binary : ∀ t < size, (x t).IsBinary) (consistent : ComesOnFromStart x size)
    {first last : Nat} (inside : last < size) (off : (x first).online = 0)
    (idle : ∀ i, first ≤ i → i < last → (x i).starting = 0) {i : Nat} (low : first ≤ i)
    (high : i ≤ last) : (x i).online = 0 := by
  induction i, low using Nat.le_induction with
  | base => exact off
  | succ i low ih =>
    exact off_succ binary consistent (by omega) (ih (by omega)) (idle i low (by omega))

/-- Before a start a unit is off for the down time and does not start. -/
theorem off_before_starting (binary : ∀ t < size, (x t).IsBinary)
    (consistent : ComesOnFromStart x size)
    (keeps : ∀ t, times.down ≤ t → t < size → times.KeepsOff x t) {r : Nat}
    (late : times.down ≤ r) (inside : r < size) (start : (x r).starting = 1) :
    (∀ i, r - times.down ≤ i → i < r → (x i).online = 0 ∧ (x i).starting = 0) ∧
      (x r).online = 0 := by
  have window := keeps r late inside
  rw [keepsOff_iff fun i hi => binary i (by omega)] at window
  obtain ⟨single, none⟩ := window
  have last : r ∈ startsWithin x (r - times.down) (r + 1) := mem_startsWithin.2 ⟨by omega, start⟩
  -- the start is the only one in its window
  have idle : ∀ i, r - times.down ≤ i → i < r → (x i).starting = 0 := by
    intro i low high
    refine (binary i (by omega)).2.resolve_right fun other => ?_
    have earlier : i ∈ startsWithin x (r - times.down) (r + 1) :=
      mem_startsWithin.2 ⟨by omega, other⟩
    exact absurd (card_le_one.1 single i earlier r last) (Nat.ne_of_lt high)
  -- and with a start in it the window begins with a unit that is off
  have off : (x (r - times.down)).online = 0 := by
    refine (binary _ (by omega)).1.resolve_right fun on => ?_
    rw [none on] at last
    exact absurd last (notMem_empty r)
  have stays {i : Nat} := off_of_idle binary consistent inside off idle (i := i)
  refine ⟨fun i low high => ⟨stays low high.le, idle i low high⟩, ?_⟩
  exact stays (Nat.sub_le ..) (Nat.le_refl r)

end Schedules

namespace DispatchModel

variable {prices : PriceSet ℝ} {fleet : Fleet ℝ} {weighted : Bool} {m m₁ : DispatchModel ℝ}
  {stages : List (Stage ℝ)} {times : UpDownTimes} {g : ThermalGenerator ℝ}

/-- **The windows enforce least up and down times.** Take a model of one unit behind any stages, and
add up and down times. Let an assignment of zeros and ones to the unit's signals keep all windows,
and let the unit come on only where it was on or starting before. Then a start that the up time does
not reach beyond the beginning is followed by positions in which the unit is on, for the up time or
up to the end of the horizon. And a start that is no earlier than the down time has positions before
it in which the unit is off and not starting, as many as the down time, and the unit is off in its
own. -/
theorem least_times_enforced (made : build prices fleet weighted = .ok m)
    (single : fleet.operating = [g]) (run : Stage.run m stages = .ok m₁)
    (fresh : ∀ s ∈ stages, s.kind ≠ .times) (up : 1 ≤ times.up) (down : 1 ≤ times.down) :
    ∃ m', m₁.withUpDownTimes times = .ok m' ∧ m'.size = prices.sets.periods.length ∧
      (∀ t p, m'.periods[t]? = some p → ∀ i < OperationBlock.width,
        m'.program.spec? (blockStart 1 t 0 + i) = (g.blockVariables p.key)[i]?) ∧
      ∀ value : Var → ℝ,
        let x : Nat → Signals ℝ := fun t => planOf value 1 t 0
        (∀ t < m'.size, (x t).IsBinary) →
        (∀ c ∈ m'.program.familyMembers "startup_con", c.holds value 0 = true) →
        (∀ c ∈ m'.program.familyMembers "shutdown_con", c.holds value 0 = true) →
        ComesOnFromStart x m'.size →
        (∀ s < m'.size, times.up - 1 ≤ s → (x s).starting = 1 →
          ∀ t, s + 1 ≤ t → t ≤ min (s + times.up - 1) (m'.size - 1) → (x t).online = 1) ∧
        ∀ r < m'.size, times.down ≤ r → (x r).starting = 1 →
          (∀ i, r - times.down ≤ i → i ≤ r - 1 → (x i).online = 0 ∧ (x i).starting = 0) ∧
            (x r).online = 0 := by
  obtain ⟨m', timed⟩ := exists_withUpDownTimes made run fresh up down
  refine ⟨m', timed, size_timed made run timed, spec?_timed made single run timed, ?_⟩
  intro value x binary startups shutdowns consistent
  obtain ⟨meaningOn, meaningOff⟩ := members_hold_iff made single run timed value
  constructor
  · intro s hs late start t after within
    obtain ⟨short, inside⟩ := le_min_iff.1 within
    exact online_of_starting binary (meaningOn.1 startups) (by omega) start after (by omega)
      (by omega)
  · intro r hr late start
    obtain ⟨before, own⟩ :=
      off_before_starting binary consistent (meaningOff.1 shutdowns) late hr start
    exact ⟨fun i low high => before i low (by omega), own⟩

theorem keeps_startedSecond :
    (∀ t, 2 ≤ t → t < 3 → UpDownTimes.KeepsOn ⟨2, 1⟩ (fun t => startedSecond 1 t 0) t) ∧
      ∀ t, 1 ≤ t → t < 3 → UpDownTimes.KeepsOff ⟨2, 1⟩ (fun t => startedSecond 1 t 0) t := by
  constructor
  · intro t low high
    obtain rfl : t = 2 := by omega
    simp [UpDownTimes.KeepsOn, startedSecond]
  · intro t low high
    unfold UpDownTimes.KeepsOff
    obtain rfl | rfl : t = 1 ∨ t = 2 := by omega
    · simp [sum_range_succ, startedSecond]
    · simp [sum_Ico_eq_sum_range, sum_range_succ, startedSecond]

theorem comesOnFromStart_startedSecond :
    ComesOnFromStart (fun t => startedSecond 1 t 0) 3 := by
  intro t low high on
  obtain rfl | rfl : t = 1 ∨ t = 2 := by omega
  · simp [startedSecond] at on
  · right
    rfl

/-- A start in the second of three hours, with an up time of two and a down time of one: the unit is
on in the third hour and off in the first. -/
theorem least_times_started_second :
    ∃ m m₁ m', build (PriceSet.ofColumns none 3 [(none, [30, 30, 30])])
        (Fleet.empty.withUnit (.standard : ThermalGenerator ℝ)) false = .ok m ∧
      Stage.run m [.ramping .standard] = .ok m₁ ∧ m₁.withUpDownTimes ⟨2, 1⟩ = .ok m' ∧
      (∀ c ∈ m'.program.familyMembers "startup_con",
        c.holds ((startedSecond 1).assign 1) 0 = true) ∧
      (∀ c ∈ m'.program.familyMembers "shutdown_con",
        c.holds ((startedSecond 1).assign 1) 0 = true) ∧
      (startedSecond 1 2 0).online = 1 ∧ (startedSecond 1 0 0).online = 0 := by
  obtain ⟨m, m₁, made, run⟩ := exists_three_hours
  have up : 1 ≤ (⟨2, 1⟩ : UpDownTimes).up := Nat.le_add_left 1 1
  obtain ⟨m', timed, size, -, enforced⟩ := least_times_enforced made rfl run
    (by simp [Stage.kind]) up (Nat.le_refl 1)
  have three : m'.size = 3 := size
  obtain ⟨startups, shutdowns⟩ := members_hold_iff made rfl run timed ((startedSecond 1).assign 1)
  rw [planOf_startedSecond, three] at startups shutdowns
  have keepsOn := startups.2 keeps_startedSecond.1
  have keepsOff := shutdowns.2 keeps_startedSecond.2
  obtain ⟨on, off⟩ := enforced ((startedSecond 1).assign 1)
    (fun t _ => by rw [planOf_startedSecond]; exact isBinary_startedSecond (.inr rfl) t)
    keepsOn keepsOff
    (by rw [planOf_startedSecond, three]; exact comesOnFromStart_startedSecond)
  rw [planOf_startedSecond, three] at on off
  have after := on 1 (by decide) (by decide) rfl 2 (by decide) (by decide)
  have before := (off 1 (by decide) (by decide) rfl).1 0 (by decide) (by decide)
  exact ⟨m, m₁, m', made, run, timed, keepsOn, keepsOff, after, before.1⟩

end DispatchModel

end PlantEconomics
