import Mathlib.Logic.Function.Iterate
import Mathlib.Tactic.Common
import Mathlib.Tactic.IntervalCases

/-! The days of the Gregorian calendar, one after the other. -/
namespace VacuumCleaner.Lib.Calendar

def IsLeap (year : Nat) : Prop := year % 4 = 0 ∧ (year % 100 ≠ 0 ∨ year % 400 = 0)

instance (year : Nat) : Decidable (IsLeap year) := inferInstanceAs (Decidable (_ ∧ _))

def monthLength (year : Nat) : (month : Nat) → Nat
  | 1 | 3 | 5 | 7 | 8 | 10 | 12 => 31
  | 4 | 6 | 9 | 11 => 30
  | 2 => if IsLeap year then 29 else 28
  | _ => 0

structure Date where
  year : Nat
  month : Nat
  day : Nat
  month_range : 1 ≤ month ∧ month ≤ 12
  day_range : 1 ≤ day ∧ day ≤ monthLength year month

theorem monthLength_pos {year month : Nat} (hmonth : 1 ≤ month ∧ month ≤ 12) :
    1 ≤ monthLength year month := by
  obtain ⟨hlow, hhigh⟩ := hmonth
  interval_cases month
  case «2» =>
    rw [monthLength]
    split <;> decide
  all_goals exact Nat.le_of_ble_eq_true rfl

namespace Date

/-- The first day of a year. -/
def newYear (year : Nat) : Date where
  year := year
  month := 1
  day := 1
  month_range := ⟨Nat.le_refl 1, Nat.le_add_left 1 11⟩
  day_range := ⟨Nat.le_refl 1, monthLength_pos ⟨Nat.le_refl 1, Nat.le_add_left 1 11⟩⟩

/-- The day after. -/
def next (date : Date) : Date :=
  if h : date.day < monthLength date.year date.month then
    ⟨date.year, date.month, date.day + 1, date.month_range, Nat.le_add_left _ _, h⟩
  else if h : date.month < 12 then
    ⟨date.year, date.month + 1, 1, ⟨Nat.le_add_left _ _, h⟩, Nat.le_refl _,
      monthLength_pos ⟨Nat.le_add_left _ _, h⟩⟩
  else newYear (date.year + 1)

/-- The day that is so many days after. -/
def after (days : Nat) (date : Date) : Date := next^[days] date

end Date

/-- The leap years before a year. -/
def leapsBefore (year : Nat) : Nat := (year + 3) / 4 - (year + 99) / 100 + (year + 399) / 400

/-- The days of a year before a month. -/
def daysBefore (year month : Nat) : Nat := ((List.range' 1 (month - 1)).map (monthLength year)).sum

/-- The days up to a date, from the first of a year 0. -/
def Date.number (date : Date) : Nat :=
  365 * date.year + leapsBefore date.year + daysBefore date.year date.month + date.day

theorem leapsBefore_succ (year : Nat) :
    leapsBefore (year + 1) = leapsBefore year + if IsLeap year then 1 else 0 := by
  unfold leapsBefore
  by_cases hleap : IsLeap year
  · rw [if_pos hleap]
    unfold IsLeap at hleap
    omega
  · rw [if_neg hleap]
    unfold IsLeap at hleap
    omega

theorem daysBefore_succ (year : Nat) {month : Nat} (hmonth : 1 ≤ month) :
    daysBefore year (month + 1) = daysBefore year month + monthLength year month := by
  obtain ⟨before, rfl⟩ := Nat.exists_eq_add_of_le' hmonth
  rw [daysBefore, daysBefore, Nat.add_sub_cancel, Nat.add_sub_cancel, List.range'_concat,
    List.map_append, List.sum_append]
  simp [Nat.add_comm]

theorem daysBefore_year (year : Nat) : daysBefore year 13 = 365 + if IsLeap year then 1 else 0 := by
  unfold daysBefore
  simp only [List.range', List.map, List.sum_cons, List.sum_nil, monthLength]
  split <;> rfl

theorem Date.number_next (date : Date) : date.next.number = date.number + 1 := by
  obtain ⟨year, month, day, hmonth, hday⟩ := date
  have hnext := daysBefore_succ year hmonth.1
  unfold Date.next Date.number
  dsimp only
  split
  · rfl
  · split
    · dsimp only
      omega
    · obtain rfl : month = 12 := by omega
      have hyear := daysBefore_year year
      have hleaps := leapsBefore_succ year
      have hstart : daysBefore (year + 1) 1 = 0 := rfl
      rw [hyear] at hnext
      dsimp only [Date.newYear]
      omega

theorem Date.number_after (days : Nat) (date : Date) :
    (date.after days).number = date.number + days := by
  induction days with
  | zero => rfl
  | succ days ih =>
    rw [Date.after, Function.iterate_succ_apply', Date.number_next]
    exact congrArg (· + 1) ih

end VacuumCleaner.Lib.Calendar
