import Mathlib.Tactic.IntervalCases
import SecureKit.Timing.Calendar

/-!
# Days of the Calendar

Dates follow each other by the rules of the Gregorian calendar, and `Date.after n` is the date that
is come to by going on `n` times from 1970-01-01. The closed formula `Date.number` counts the same
days.

* `number_after` — the formula goes up by one with each day.
* `exists_after_eq` — every date of the calendar from 1970 on is come to.
* `lt_of_parts_after_lt` — dates are in the order in which they are come to.
-/

namespace SecureKit

/-- The year has a leap day: every fourth has one, but of the full centuries only every fourth. -/
def IsLeapYear (year : Nat) : Prop := 4 ∣ year ∧ (100 ∣ year → 400 ∣ year)

instance (year : Nat) : Decidable (IsLeapYear year) := inferInstanceAs (Decidable (_ ∧ _))

/-- The number of days of a month. -/
def monthLength (year month : Nat) : Nat :=
  match month with
  | 2 => if IsLeapYear year then 29 else 28
  | 4 | 6 | 9 | 11 => 30
  | _ => 31

/-- The number of leap years up to a year. -/
def leapDays (year : Nat) : Nat := year / 4 - year / 100 + year / 400

/-- A leap day is counted with its year. -/
theorem leapDays_succ (year : Nat) :
    leapDays (year + 1) = leapDays year + if IsLeapYear (year + 1) then 1 else 0 := by
  have hle : year / 100 ≤ year / 4 := Nat.div_le_div_left (by decide) (by decide)
  simp only [leapDays, Nat.succ_div]
  generalize year / 4 = fourths, year / 100 = centuries, year / 400 = quads at hle ⊢
  -- a year divisible by 400 is so by 100, and one divisible by 100 is so by 4
  by_cases hleap : IsLeapYear (year + 1)
  · rw [if_pos hleap]
    obtain ⟨h4, hcentury⟩ := hleap
    split_ifs <;> omega
  · rw [if_neg hleap]
    unfold IsLeapYear at hleap
    split_ifs <;> omega

/-- A day of a month of a year. -/
@[ext]
structure Date where
  year : Nat
  month : Nat
  day : Nat
  deriving DecidableEq

namespace Date

/-- The date is in the calendar. -/
structure Exists (date : Date) : Prop where
  one_le_month : 1 ≤ date.month
  month_le : date.month ≤ 12
  one_le_day : 1 ≤ date.day
  day_le : date.day ≤ monthLength date.year date.month

/-- The date of the day after. -/
def next (date : Date) : Date :=
  if date.day < monthLength date.year date.month then { date with day := date.day + 1 }
  else if date.month < 12 then ⟨date.year, date.month + 1, 1⟩
  else ⟨date.year + 1, 1, 1⟩

/-- The date `n` days after 1970-01-01. -/
def after : (n : Nat) → Date
  | 0 => ⟨1970, 1, 1⟩
  | n + 1 => (after n).next

/-- The number of a date in the count in which January and February are the months 13 and 14 of the
year before. -/
def number (date : Date) : Nat :=
  let year := if date.month ≤ 2 then date.year - 1 else date.year
  let month := if date.month ≤ 2 then date.month + 12 else date.month
  365 * year + leapDays year + 30 * month + 3 * (month + 1) / 5 + date.day

theorem monthLength_pos (year month : Nat) : 1 ≤ monthLength year month := by
  unfold monthLength
  split
  · split <;> decide
  all_goals decide

section Next

variable (year month : Nat)

theorem next_within {day : Nat} (h : day < monthLength year month) :
    next ⟨year, month, day⟩ = ⟨year, month, day + 1⟩ := if_pos h

/-- After the last day of a month comes the first day of the next. -/
theorem next_month {month : Nat} (h : month < 12) :
    next ⟨year, month, monthLength year month⟩ = ⟨year, month + 1, 1⟩ :=
  (if_neg (Nat.lt_irrefl _)).trans (if_pos h)

/-- After the last day of a year comes the first day of the next. -/
theorem next_year : next ⟨year, 12, monthLength year 12⟩ = ⟨year + 1, 1, 1⟩ :=
  (if_neg (Nat.lt_irrefl _)).trans (if_neg (Nat.lt_irrefl _))

end Next

/-- The day after a date exists. -/
theorem exists_next {date : Date} (h : date.Exists) : date.next.Exists := by
  obtain ⟨hmonth, hmonth', hday, hday'⟩ := h
  unfold next
  split
  next hlt => exact ⟨hmonth, hmonth', by simp, hlt⟩
  next =>
    split
    next hlt => exact ⟨by simp, hlt, by simp, monthLength_pos _ _⟩
    next => exact ⟨by simp, by simp, by simp, monthLength_pos _ _⟩

theorem number_succ_day (year month day : Nat) :
    number ⟨year, month, day + 1⟩ = number ⟨year, month, day⟩ + 1 := rfl

/-- The lengths of the months are those that the count gives them. -/
theorem number_succ_month {year month : Nat} (hyear : 1 ≤ year) (hmonth : 1 ≤ month)
    (hlast : month < 12) :
    number ⟨year, month + 1, 1⟩ = number ⟨year, month, monthLength year month⟩ + 1 := by
  interval_cases month
  case «2» =>
    -- the next year of the count starts here, after a leap day or not
    obtain ⟨before, rfl⟩ : ∃ before, year = before + 1 := ⟨year - 1, by omega⟩
    have hfebruary : number ⟨before + 1, 2, monthLength (before + 1) 2⟩ =
        365 * before + leapDays before + 30 * 14 + 9 + monthLength (before + 1) 2 := by
      simp [number]
    have hmarch : number ⟨before + 1, 3, 1⟩ =
        365 * (before + 1) + leapDays (before + 1) + 30 * 3 + 2 + 1 := by
      simp [number]
    have hlength : monthLength (before + 1) 2 = if IsLeapYear (before + 1) then 29 else 28 := rfl
    rw [hfebruary, hmarch, hlength, leapDays_succ]
    split <;> omega
  all_goals simp [number, monthLength]

/-- The numbering goes on over the turn of the year. -/
theorem number_succ_year (year : Nat) :
    number ⟨year + 1, 1, 1⟩ = number ⟨year, 12, monthLength year 12⟩ + 1 := by
  simp [number, monthLength]

/-- The count goes up by one from each date to the next. -/
theorem number_next {date : Date} (h : date.Exists) (hyear : 1 ≤ date.year) :
    date.next.number = date.number + 1 := by
  obtain ⟨year, month, day⟩ := date
  obtain ⟨hmonth, hmonth', hday, hday'⟩ := h
  dsimp only at hmonth hmonth' hday hday' hyear
  by_cases hend : day < monthLength year month
  · rw [next_within year month hend]
    exact number_succ_day year month day
  obtain rfl : day = monthLength year month := by omega
  by_cases hlast : month < 12
  · rw [next_month year hlast]
    exact number_succ_month hyear hmonth hlast
  · obtain rfl : month = 12 := by omega
    rw [next_year]
    exact number_succ_year year

/-- The next day is not in an earlier year. -/
theorem year_le_next (date : Date) : date.year ≤ date.next.year := by
  unfold next
  split
  · exact Nat.le_refl _
  · split
    · exact Nat.le_refl _
    · exact Nat.le_succ _

theorem le_year_after (n : Nat) : 1970 ≤ (after n).year := by
  induction n with
  | zero => exact Nat.le_refl _
  | succ n ih => exact Nat.le_trans ih (year_le_next _)

/-- All days that are counted exist. -/
theorem exists_after (n : Nat) : (after n).Exists := by
  induction n with
  | zero => exact ⟨by decide, by decide, by decide, by decide⟩
  | succ n ih => exact exists_next ih

/-- The count goes on from the number of 1970-01-01. -/
theorem number_after (n : Nat) : (after n).number = 719561 + n := by
  induction n with
  | zero => rfl
  | succ n ih =>
    have hyear := le_year_after n
    rw [after, number_next (exists_after n) (by omega), ih, Nat.add_assoc]

section Reached

variable {year month : Nat}

/-- From the first day of a month on, all its days are counted. -/
theorem exists_after_eq_day {n : Nat} (h : after n = ⟨year, month, 1⟩) {day : Nat} (hday : 1 ≤ day)
    (hlast : day ≤ monthLength year month) : ∃ n, after n = ⟨year, month, day⟩ := by
  induction day, hday using Nat.le_induction with
  | base => exact ⟨n, h⟩
  | succ day hday ih =>
    obtain ⟨n, hn⟩ := ih (by omega)
    refine ⟨n + 1, ?_⟩
    rw [after, hn, next_within year month hlast]

/-- The first day of a month is reached after the last one of the month before. -/
theorem exists_after_eq_month {n : Nat} (h : after n = ⟨year, 1, 1⟩) (hmonth : 1 ≤ month)
    (hlast : month ≤ 12) : ∃ n, after n = ⟨year, month, 1⟩ := by
  induction month, hmonth using Nat.le_induction with
  | base => exact ⟨n, h⟩
  | succ month hmonth ih =>
    obtain ⟨first, hfirst⟩ := ih (by omega)
    obtain ⟨n, hn⟩ := exists_after_eq_day hfirst (monthLength_pos year month) (Nat.le_refl _)
    refine ⟨n + 1, ?_⟩
    rw [after, hn, next_month year hlast]

/-- From 1970 on, the first days of all years are counted. -/
theorem exists_after_eq_year (hyear : 1970 ≤ year) : ∃ n, after n = ⟨year, 1, 1⟩ := by
  induction year, hyear using Nat.le_induction with
  | base => exact ⟨0, rfl⟩
  | succ year hyear ih =>
    obtain ⟨first, hfirst⟩ := ih
    obtain ⟨last, hlast⟩ := exists_after_eq_month hfirst (by decide : 1 ≤ 12) (Nat.le_refl _)
    obtain ⟨n, hn⟩ := exists_after_eq_day hlast (monthLength_pos year 12) (Nat.le_refl _)
    refine ⟨n + 1, ?_⟩
    rw [after, hn, next_year]

end Reached

/-- Day by day, every date of the calendar is reached. -/
theorem exists_after_eq {date : Date} (h : date.Exists) (hyear : 1970 ≤ date.year) :
    ∃ n, after n = date := by
  obtain ⟨year, hyear⟩ := exists_after_eq_year hyear
  obtain ⟨month, hmonth⟩ := exists_after_eq_month hyear h.one_le_month h.month_le
  exact exists_after_eq_day hmonth h.one_le_day h.day_le

/-- The parts of a date, which are compared in this order. -/
def parts (date : Date) : List Nat := [date.year, date.month, date.day]

/-- The next day is later in the order of dates. -/
theorem parts_lt_next (date : Date) : date.parts < date.next.parts := by
  unfold next parts
  split
  next => simp [List.cons_lt_cons_iff]
  next =>
    split
    next => simp [List.cons_lt_cons_iff]
    next => simp [List.cons_lt_cons_iff]

/-- Days that are counted later are later in the order of dates. -/
theorem parts_after_lt {m n : Nat} (h : m < n) : (after m).parts < (after n).parts := by
  induction n, h using Nat.le_induction with
  | base => exact parts_lt_next _
  | succ n h ih => exact List.lt_trans ih (parts_lt_next _)

/-- Days that are later in the order of dates are counted later. -/
theorem lt_of_parts_after_lt {m n : Nat} (h : (after m).parts < (after n).parts) : m < n := by
  rcases Nat.lt_trichotomy m n with hlt | rfl | hlt
  · exact hlt
  · exact absurd h (List.lt_irrefl _)
  · exact absurd (parts_after_lt hlt) (List.lt_asymm h)

/-- No day is counted twice. -/
theorem after_inj {m n : Nat} (h : after m = after n) : m = n := by
  have hnumber := congrArg number h
  rw [number_after, number_after] at hnumber
  omega

/-- A later date is not in an earlier year. -/
theorem year_le_of_parts_lt {earlier later : Date} (h : earlier.parts < later.parts) :
    earlier.year ≤ later.year := by
  rcases List.cons_lt_cons_iff.1 h with hlt | ⟨heq, -⟩
  · exact Nat.le_of_lt hlt
  · exact Nat.le_of_eq heq

end Date

end SecureKit
