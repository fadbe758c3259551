import Mathlib.Tactic.ByContra
import PlantEconomics.Calendar.DateTime

/-!
# Fields of the moments that exist

A moment that exists has a month of the year and a day of that month, so no field reaches the weight
that the rank gives to the field in front of it, and moments are compared field by field.

  * `DateTime.month_le_of_exists` and `DateTime.daysInMonth_le`: bounds of the fields;
  * `DateTime.isBefore_iff_lex`: the order of the moments that exist.
-/

namespace PlantEconomics

namespace DateTime

theorem daysInMonth_le (year : Int) (month : Nat) : daysInMonth year month ≤ 31 := by
  unfold daysInMonth
  grind

/-- No month behind the twelfth has days. -/
theorem month_le_of_exists {t : DateTime} (h : t.exists? = true) : t.month ≤ 12 := by
  simp only [exists?, Bool.and_eq_true, decide_eq_true_eq] at h
  have some_day : 1 ≤ daysInMonth t.year t.month := by omega
  by_contra late
  unfold daysInMonth at some_day
  split at some_day <;> omega

/-- Moments that exist are ordered by year, then month, day, hour, minute and second. -/
theorem isBefore_iff_lex {a b : DateTime} (ha : a.exists? = true) (hb : b.exists? = true) :
    a.isBefore b = true ↔
      a.year < b.year ∨ a.year = b.year ∧ (a.month < b.month ∨ a.month = b.month ∧
        (a.day < b.day ∨ a.day = b.day ∧ (a.hour < b.hour ∨ a.hour = b.hour ∧
          (a.minute < b.minute ∨ a.minute = b.minute ∧ a.second < b.second)))) := by
  have months : a.month ≤ 12 ∧ b.month ≤ 12 := ⟨month_le_of_exists ha, month_le_of_exists hb⟩
  have daysOfA := daysInMonth_le a.year a.month
  have daysOfB := daysInMonth_le b.year b.month
  simp only [exists?, Bool.and_eq_true, decide_eq_true_eq] at ha hb
  rw [isBefore_iff]
  unfold rank
  -- every field lies below the weight that the rank gives to the field in front of it
  omega

end DateTime

end PlantEconomics
