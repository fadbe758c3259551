import Mathlib.Data.List.DropRight
import PlantEconomics.Market.Series

/-!
# The days of a series

The windows that make the days are the first ones that the values fill, one after the other. So
there are as many of them as the horizon fits into the number of values, and an hour of a day is
the value at the hour behind the hours of all days before. What the days leave out is less than
one day at the end.

  * `flatten_windows` and `getElem?_windows`: the windows together, and each of them;
  * `cut_into_whole_days`: the days of any values, their hours and their numbers.
-/

namespace PlantEconomics

namespace DayProfiles

variable {α : Type}

/-! ## §1. Windows -/

section Windows

variable {h : Nat} (positive : 0 < h)

theorem windows_of_lt {xs : List α} (short : xs.length < h) : windows h positive xs = [] := by
  unfold windows
  rw [if_pos short]

theorem windows_of_le {xs : List α} (full : h ≤ xs.length) :
    windows h positive xs = xs.take h :: windows h positive (xs.drop h) := by
  rw [windows, if_neg (Nat.not_lt.2 full)]

/-- There are as many windows as the list fills. -/
theorem length_windows (xs : List α) : (windows h positive xs).length = xs.length / h := by
  induction xs using windows.induct h positive with
  | case1 xs short =>
    rw [windows_of_lt positive short, Nat.div_eq_of_lt short]
    rfl
  | case2 xs full ih =>
    have full : h ≤ xs.length := Nat.not_lt.1 full
    rw [windows_of_le positive full, List.length_cons, ih, List.length_drop,
      Nat.div_eq_sub_div positive full]

theorem length_of_mem_windows {xs day : List α} (hday : day ∈ windows h positive xs) :
    day.length = h := by
  induction xs using windows.induct h positive with
  | case1 xs short =>
    rw [windows_of_lt positive short] at hday
    exact absurd hday List.not_mem_nil
  | case2 xs full ih =>
    have full : h ≤ xs.length := Nat.not_lt.1 full
    rw [windows_of_le positive full] at hday
    rcases List.mem_cons.1 hday with rfl | later
    · rw [List.length_take, Nat.min_eq_left full]
    · exact ih later

/-- The windows laid end to end are the values in front of those that fill no window. -/
theorem flatten_windows (xs : List α) :
    (windows h positive xs).flatten = xs.take (xs.length / h * h) := by
  induction xs using windows.induct h positive with
  | case1 xs short =>
    rw [windows_of_lt positive short, Nat.div_eq_of_lt short, Nat.zero_mul]
    rfl
  | case2 xs full ih =>
    have full : h ≤ xs.length := Nat.not_lt.1 full
    -- behind the first window the horizon fits once less into the number of values
    rw [windows_of_le positive full, List.flatten_cons, ih, List.length_drop,
      Nat.div_eq_sub_div positive full, Nat.succ_mul, Nat.add_comm, List.take_add]

/-- A window starts behind the windows before it. -/
theorem getElem?_windows {xs : List α} {d : Nat} (hd : d < xs.length / h) :
    (windows h positive xs)[d]? = some ((xs.drop (d * h)).take h) := by
  induction xs using windows.induct h positive generalizing d with
  | case1 xs short =>
    rw [Nat.div_eq_of_lt short] at hd
    exact absurd hd (Nat.not_lt_zero d)
  | case2 xs full ih =>
    have full : h ≤ xs.length := Nat.not_lt.1 full
    rw [windows_of_le positive full]
    cases d with
    | zero => simp
    | succ d =>
      have inside : d < (xs.drop h).length / h := by
        rw [List.length_drop]
        rw [Nat.div_eq_sub_div positive full] at hd
        omega
      rw [List.getElem?_cons_succ, ih inside, List.drop_drop, Nat.succ_mul, Nat.add_comm h]

end Windows

/-! ## §2. Days -/

theorem ofValues_eq_ok_iff {values : List α} {horizon : Nat} {p : DayProfiles α} :
    ofValues values horizon = .ok p ↔
      ∃ positive : 0 < horizon, ⟨horizon, windows horizon positive values⟩ = p := by
  unfold ofValues
  by_cases positive : 0 < horizon
  · rw [dif_pos positive]
    simp [positive]
  · rw [dif_neg positive]
    simp [positive]

/-- A horizon without hours is the only thing that can go wrong. -/
theorem ofValues_eq_error_iff {values : List α} {horizon : Nat} {fault : Fault α} :
    ofValues values horizon = .error fault ↔
      horizon = 0 ∧ fault = .configuration .zeroHorizon := by
  unfold ofValues
  by_cases positive : 0 < horizon
  · rw [dif_pos positive]
    simp [Nat.pos_iff_ne_zero.1 positive]
  · rw [dif_neg positive]
    simp [Nat.eq_zero_of_not_pos positive, eq_comm]

theorem ofSeries_eq_ok_iff {s : PriceSeries α} {horizon : Nat} {p : DayProfiles α} :
    ofSeries s horizon = .ok p ↔
      ∃ positive : 0 < horizon, ⟨horizon, windows horizon positive s.values⟩ = p :=
  ofValues_eq_ok_iff

theorem ofSeries_eq_error_iff {s : PriceSeries α} {horizon : Nat} {fault : Fault α} :
    ofSeries s horizon = .error fault ↔
      horizon = 0 ∧ fault = .configuration .zeroHorizon :=
  ofValues_eq_error_iff

/-- There is a day under each of the numbers and under no other one. -/
theorem day?_eq_none_iff {p : DayProfiles α} {d : Nat} : p.day? d = none ↔ d ∉ p.numbers := by
  rw [mem_numbers]
  cases d with
  | zero => simp
  | succ d =>
    rw [day?_succ, List.getElem?_eq_none_iff, size]
    omega

section Cut

variable {values : List α} {horizon : Nat} {p : DayProfiles α}

theorem size_of_ofValues (cut : ofValues values horizon = .ok p) :
    p.size = values.length / horizon := by
  obtain ⟨positive, rfl⟩ := ofValues_eq_ok_iff.1 cut
  exact length_windows positive values

theorem length_of_mem_days (cut : ofValues values horizon = .ok p) {day : List α}
    (hday : day ∈ p.days) : day.length = horizon := by
  obtain ⟨positive, rfl⟩ := ofValues_eq_ok_iff.1 cut
  exact length_of_mem_windows positive hday

/-- The days and the values that fill no day are all values, in their order. -/
theorem flatten_days_append (cut : ofValues values horizon = .ok p) :
    p.days.flatten ++ values.rtake (values.length % horizon) = values := by
  obtain ⟨positive, rfl⟩ := ofValues_eq_ok_iff.1 cut
  -- the hours at the end start where the last whole day stops
  have whole : values.length - values.length % horizon = values.length / horizon * horizon :=
    Nat.sub_eq_of_eq_add (Nat.div_add_mod' values.length horizon).symm
  rw [flatten_windows, List.rtake, whole, List.take_append_drop]

/-- A day holds the values behind those of the days before it. -/
theorem day?_of_ofValues (cut : ofValues values horizon = .ok p) {d : Nat} (first : 1 ≤ d)
    (last : d ≤ p.size) :
    p.day? d = some (values.extract ((d - 1) * horizon) (d * horizon)) := by
  rw [size_of_ofValues cut] at last
  obtain ⟨positive, rfl⟩ := ofValues_eq_ok_iff.1 cut
  cases d with
  | zero => exact absurd first (Nat.not_succ_le_zero 0)
  | succ d =>
    have width : (d + 1) * horizon - d * horizon = horizon := by
      rw [Nat.succ_mul, Nat.add_sub_cancel_left]
    rw [day?_succ, getElem?_windows positive last, Nat.add_sub_cancel, List.extract_eq_take_drop,
      width]

end Cut

/-- **Values are cut into whole days.** For any values and any horizon of at least one hour there
are days, as many as the horizon fits into the number of values, and each has as many hours as the
horizon. The days laid end to end, and behind them the hours that fill no day, are the values. The
days are numbered from one: day `d` is the slice of the values from hour `(d - 1) * horizon` up to
hour `d * horizon`, and there is no day under zero or under a number beyond the last one. -/
theorem cut_into_whole_days (values : List α) {horizon : Nat} (positive : 1 ≤ horizon) :
    ∃ p, ofValues values horizon = .ok p ∧ p.horizon = horizon ∧
      p.size = values.length / horizon ∧
      (∀ day ∈ p.days, day.length = horizon) ∧
      p.days.flatten ++ values.rtake (values.length % horizon) = values ∧
      (∀ d, 1 ≤ d → d ≤ p.size → d * horizon ≤ values.length ∧
        p.day? d = some (values.extract ((d - 1) * horizon) (d * horizon))) ∧
      ∀ d, d = 0 ∨ p.size < d → p.day? d = none := by
  have cut : ofValues values horizon = .ok ⟨horizon, windows horizon positive values⟩ :=
    ofValues_eq_ok_iff.2 ⟨positive, rfl⟩
  refine ⟨_, cut, rfl, size_of_ofValues cut, fun day => length_of_mem_days cut,
    flatten_days_append cut, fun d first last => ⟨?_, day?_of_ofValues cut first last⟩,
    fun d outside => ?_⟩
  · rw [size_of_ofValues cut] at last
    exact (Nat.le_div_iff_mul_le positive).1 last
  · rw [day?_eq_none_iff, mem_numbers]
    omega

/-- Of seven hours the last one fills no day of three hours, and all seven fill no day of eight. -/
theorem cut_into_whole_days_remainder :
    let hours : List Nat := [10, 20, 30, 40, 50, 60, 70]
    1 ≤ 3 ∧ (∃ p, ofValues hours 3 = .ok p ∧ p.size = 2 ∧ (∀ day ∈ p.days, day.length = 3) ∧
      p.days.flatten ++ [70] = hours ∧ p.day? 0 = none ∧ p.day? 1 = some [10, 20, 30] ∧
      p.day? 2 = some [40, 50, 60] ∧ p.day? 3 = none) ∧
    1 ≤ 8 ∧ ∃ p, ofValues hours 8 = .ok p ∧ p.size = 0 ∧ p.days.flatten ++ hours = hours := by
  intro hours
  have seven : hours.length = 7 := rfl
  obtain ⟨p, made, -, size, whole, joined, inside, outside⟩ :=
    cut_into_whole_days hours (show 1 ≤ 3 by decide)
  obtain ⟨q, made', -, size', -, joined', -⟩ := cut_into_whole_days hours (show 1 ≤ 8 by decide)
  rw [seven] at size joined size' joined'
  refine ⟨by decide, ⟨p, made, size, whole, joined, outside 0 (Or.inl rfl), (inside 1 ?_ ?_).2,
    (inside 2 ?_ ?_).2, outside 3 (Or.inr ?_)⟩, by decide, q, made', size', joined'⟩ <;> omega

end DayProfiles

end PlantEconomics
