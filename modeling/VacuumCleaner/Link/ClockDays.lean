import VacuumCleaner.Lib.Calendar
import VacuumCleaner.Link.DateReply

/-! The days of the clock beside those of the calendar: the weekday that it is
set to, and the number of days behind its Unix time. -/
namespace VacuumCleaner.Link.ClockDays

open Lib.Calendar A1 A1.Clock
open A1.Fields (toUnsigned)

/-- A Saturday, the first day that the clock can hold. -/
def firstDay : Date := .newYear 2000

/-- The extra day that is counted in the February of a leap year, and the one that
is missing behind it. -/
def late (date : Date) : Nat := if IsLeap date.year ∧ date.month = 2 then 1 else 0

def short (date : Date) : Nat := if IsLeap date.year ∧ 2 < date.month then 1 else 0

theorem daysBefore_eq (year : Nat) {month : Nat} (hmonth : 1 ≤ month ∧ month ≤ 12) :
    Lib.Calendar.daysBefore year month =
      DateReply.daysBefore month + if IsLeap year ∧ 2 < month then 1 else 0 := by
  obtain ⟨hlow, hhigh⟩ := hmonth
  by_cases hleap : IsLeap year
  · interval_cases month <;> simp [Lib.Calendar.daysBefore, List.range', monthLength, hleap,
      DateReply.daysBefore, daysArray]
  · interval_cases month <;> simp [Lib.Calendar.daysBefore, List.range', monthLength, hleap,
      DateReply.daysBefore, daysArray]

/-- The table of the weekdays has the days before a month, counted from March on in
the year before it. -/
theorem exists_dowArray {month : Nat} (hmonth : 1 ≤ month ∧ month ≤ 12) :
    ∃ entry ≤ 6, tableAt dowArray month = some entry ∧
      (entry + if month < 3 then 0 else 1) % 7 = DateReply.daysBefore month % 7 := by
  have hall : ∀ month < 13, 1 ≤ month → ∃ entry ≤ 6, tableAt dowArray month = some entry ∧
      (entry + if month < 3 then 0 else 1) % 7 = DateReply.daysBefore month % 7 := by decide
  exact hall month (by omega) hmonth.1

/-- The leap days of the years up to one, as the formula for the weekday has them. -/
def leapDays (year : Nat) : Nat := year / 4 - year / 100 + year / 400

theorem leapsBefore_eq (year : Nat) : leapsBefore (year + 1) = leapDays year + 1 := by
  unfold leapsBefore leapDays
  omega

theorem sum_eq {year entry day : Nat} (hyear : year ≤ 50000) (hentry : entry ≤ 6)
    (hday : day ≤ 31) :
    toUnsigned 16 ((year : Int) + (year / 4 : Nat) - (year / 100 : Nat) + (year / 400 : Nat) +
      (entry : Nat) + day) = year + leapDays year + entry + day := by
  unfold toUnsigned leapDays
  omega

theorem number_eq {date : Date} (hyear : 1 ≤ date.year) :
    let year := if date.month < 3 then date.year - 1 else date.year
    date.number = 365 * date.year + leapDays year + 1 + DateReply.daysBefore date.month +
      date.day := by
  intro year
  have hbefore := daysBefore_eq date.year date.month_range
  have hleaps := leapsBefore_succ date.year
  unfold year Date.number
  rw [hbefore]
  by_cases hmarch : date.month < 3
  · obtain ⟨last, hlast⟩ := Nat.exists_eq_add_of_le' hyear
    rw [if_pos hmarch, if_neg (by omega), hlast, leapsBefore_eq, Nat.add_sub_cancel]
    omega
  · rw [if_neg hmarch]
    rw [leapsBefore_eq] at hleaps
    by_cases hleap : IsLeap date.year
    · rw [if_pos hleap] at hleaps
      rw [if_pos ⟨hleap, by omega⟩]
      omega
    · rw [if_neg hleap] at hleaps
      rw [if_neg (by tauto)]
      omega

theorem day_le (date : Date) : date.day ≤ 31 := by
  have hmonth : monthLength date.year date.month ≤ 31 := by
    unfold monthLength
    split
    all_goals try split
    all_goals decide
  exact date.day_range.2.trans hmonth

theorem dow_eq (behind : Nat) {date : Date} (hyear : 1 ≤ date.year ∧ date.year ≤ 50000) :
    dow behind date.year date.month date.day = (date.number + 4) % 7 + 1 := by
  obtain ⟨entry, hentry, htable, hdays⟩ := exists_dowArray date.month_range
  have hnumber := number_eq hyear.1
  have hyears : toUnsigned 16 ((date.year : Int) - if date.month < 3 then 1 else 0) =
      if date.month < 3 then date.year - 1 else date.year := by
    unfold toUnsigned
    split
    · omega
    · omega
  unfold dow
  rw [htable, Option.getD_some, hyears]
  dsimp only at hnumber ⊢
  rw [sum_eq (by split <;> omega) hentry (day_le date), hnumber]
  clear hyears
  by_cases hmarch : date.month < 3
  · simp only [if_pos hmarch] at hdays ⊢
    generalize leapDays _ = leaps
    split
    · omega
    · omega
  · simp only [if_neg hmarch] at hdays ⊢
    generalize leapDays _ = leaps
    split
    · omega
    · omega

theorem year_le_after (days : Nat) (date : Date) : date.year ≤ (date.after days).year := by
  have hnext : ∀ date : Date, date.year ≤ date.next.year := by
    intro date
    unfold Date.next
    split
    · exact Nat.le_refl _
    · split
      · exact Nat.le_refl _
      · exact Nat.le_succ _
  induction days with
  | zero => exact Nat.le_refl _
  | succ days ih =>
    rw [Date.after, Function.iterate_succ_apply']
    exact ih.trans (hnext _)

/-- The days behind the Unix time, beside those that have passed. -/
theorem date2days_of_number {days : Nat} {date : Date} (hnumber : date.number = 730486 + days)
    (hyear : 2000 ≤ date.year ∧ date.year ≤ 2099) :
    date2days date.year date.month date.day = some (days + late date - short date) := by
  have hbefore := daysBefore_eq date.year date.month_range
  have hleap : isLeapYear date.year = true ↔ IsLeap date.year := by
    unfold isLeapYear IsLeap
    rw [beq_iff_eq]
    omega
  have hextra : DateReply.leapDay date.year date.month = late date := by
    unfold DateReply.leapDay late
    simp only [hleap, and_comm]
  rw [DateReply.date2days_eq hyear date.month_range.2 ⟨date.day_range.1, day_le date⟩, hextra]
  unfold Date.number leapsBefore at hnumber
  rw [hbefore] at hnumber
  unfold short
  generalize (if IsLeap date.year ∧ 2 < date.month then 1 else 0) = missing at hnumber ⊢
  exact congrArg some (by omega)

theorem days_le {days : Nat} {date : Date} (hnumber : date.number = 730486 + days)
    (hyear : 2000 ≤ date.year ∧ date.year ≤ 2099) : days + late date - short date ≤ 36525 := by
  have hcount := date2days_of_number hnumber hyear
  rw [DateReply.date2days_eq hyear date.month_range.2 ⟨date.day_range.1, day_le date⟩,
    Option.some.injEq] at hcount
  have hbefore := DateReply.daysBefore_le date.month_range.2
  have hextra := DateReply.leapDay_le date.year date.month
  have hday := day_le date
  omega

theorem shown_eq (behind : Nat) (registers : Registers) {date : Date}
    (hyear : 2000 ≤ date.year ∧ date.year ≤ 2099) {hour minute second : Nat} (hhour : hour < 24)
    (hminute : minute < 60) (hsecond : second < 60) :
    getDateTime
        (setDateTime behind ⟨date.year, date.month, date.day, hour, minute, second⟩ registers) =
      ⟨date.year, date.month, date.day, hour, minute, second, (date.number + 4) % 7 + 1⟩ := by
  have hmonth := date.month_range
  have hday := day_le date
  have hread := @getDateTime_setDateTime behind
    ⟨date.year, date.month, date.day, hour, minute, second⟩ registers
    ⟨hyear.1, by dsimp only; omega⟩ (by dsimp only; omega) (by dsimp only; omega)
    (by dsimp only; omega) (by dsimp only; omega) (by dsimp only; omega)
  have hdow : dow behind date.year date.month date.day = (date.number + 4) % 7 + 1 :=
    dow_eq behind ⟨by omega, by omega⟩
  have hbcd : bcd2dec (dec2bcd ((date.number + 4) % 7 + 1)) = (date.number + 4) % 7 + 1 :=
    bcd2dec_dec2bcd (by omega)
  rwa [hdow, hbcd] at hread

/-- A clock that is set on the day that is so many days after the first one shows
the weekday of that day; its Unix time counts the days that have passed, but
for one too many in the February of a leap year and one too few behind it. -/
theorem clock_counts_days (behind : Nat) (registers : Registers) {days hour minute second : Nat}
    (hyear : (firstDay.after days).year ≤ 2099) (hhour : hour < 24) (hminute : minute < 60)
    (hsecond : second < 60) :
    let date := firstDay.after days
    let shown := getDateTime
      (setDateTime behind ⟨date.year, date.month, date.day, hour, minute, second⟩ registers)
    shown.dayOfWeek = (days + 5) % 7 + 1 ∧
      unixtime shown = some ((((days + late date - short date) * 24 + hour) * 60 + minute) * 60 +
        second + 946681200) := by
  have hnumber : (firstDay.after days).number = 730486 + days := Date.number_after days firstDay
  have hyears : 2000 ≤ (firstDay.after days).year ∧ (firstDay.after days).year ≤ 2099 :=
    ⟨year_le_after days firstDay, hyear⟩
  generalize firstDay.after days = date at hnumber hyears ⊢
  have hbound := days_le hnumber hyears
  dsimp only
  rw [shown_eq behind registers hyears hhour hminute hsecond]
  refine ⟨by dsimp only; omega, ?_⟩
  unfold unixtime
  dsimp only
  rw [date2days_of_number hnumber hyears]
  simp only [Option.bind_eq_bind, Option.bind_some, Option.pure_def, Option.some.injEq]
  unfold toUnsigned
  omega

/-- The last day of February 2000 is the sixtieth. -/
theorem clock_counts_days_leap :
    let date := firstDay.after 59
    let shown := getDateTime
      (setDateTime 0 ⟨date.year, date.month, date.day, 12, 30, 0⟩ fun _ => 0)
    (date.month = 2 ∧ date.day = 29) ∧ shown.dayOfWeek = (59 + 5) % 7 + 1 ∧
      unixtime shown = some ((((59 + late date - short date) * 24 + 12) * 60 + 30) * 60 +
        0 + 946681200) :=
  ⟨by decide +kernel, clock_counts_days 0 (fun _ => 0) (by decide +kernel) (by decide) (by decide)
    (by decide)⟩

end VacuumCleaner.Link.ClockDays
