import SqlBuilder.Timestamp.Basic

/-!
# The order of time

Dates are counted in days and times of day in seconds, so that one timestamp is earlier than another
by day, then by second, then by nanosecond. A leap second goes on in the second that it extends,
with a nanosecond part of one whole second or more, and so comes before the next second. The count
agrees with the calendar: the fields of a date dominate each other from the year down, and those of
a time from the hour down (`Date.fieldsBefore_iff`, `TimeOfDay.earlier_iff`).
-/

namespace SqlBuilder

/-! ## Days -/

/-- The number of days of a year. -/
def daysInYear (year : Int) : Nat := if isLeapYear year then 366 else 365

/-- The number of days before a year, from the first of January of year zero on. -/
def daysBeforeYear (year : Int) : Int :=
  365 * year + (year + 3) / 4 - (year + 99) / 100 + (year + 399) / 400

/-- The number of days before a month, from the first of January of its year on. -/
def daysBeforeMonth (year : Int) : Nat → Nat
  | 0 => 0
  | month + 1 => daysBeforeMonth year month + daysInMonth year month

theorem daysBeforeYear_succ (year : Int) :
    daysBeforeYear (year + 1) = daysBeforeYear year + daysInYear year := by
  unfold daysBeforeYear daysInYear isLeapYear
  split <;> rename_i h <;>
    simp only [Bool.and_eq_true, Bool.or_eq_true, beq_iff_eq, bne_iff_ne] at h <;> omega

theorem daysBeforeYear_lt {year year' : Int} (h : year < year') :
    daysBeforeYear year + daysInYear year ≤ daysBeforeYear year' := by
  obtain ⟨k, rfl⟩ := Int.le.dest h
  clear h
  rw [← daysBeforeYear_succ]
  -- By induction on the number of years in between, since years are integers.
  induction k with
  | zero => exact Int.le_of_eq (congrArg daysBeforeYear (Int.add_zero _).symm)
  | succ k ih =>
    have hnext : year + 1 + (k + 1 : Nat) = year + 1 + k + 1 := by omega
    rw [hnext, daysBeforeYear_succ (year + 1 + k)]
    omega

theorem daysBeforeMonth_lt (year : Int) {month month' : Nat} (h : month < month') :
    daysBeforeMonth year month + daysInMonth year month ≤ daysBeforeMonth year month' := by
  induction h with
  | refl => exact Nat.le_refl _
  | step _ ih => exact Nat.le_trans ih (Nat.le_add_right _ _)

theorem daysBeforeMonth_thirteen (year : Int) : daysBeforeMonth year 13 = daysInYear year := by
  simp only [daysBeforeMonth, daysInMonth, daysInYear]
  split <;> rfl

namespace Date

variable {a b : Date}

/-- The number of a day, from the last day before year zero on. -/
def dayNumber (d : Date) : Int :=
  daysBeforeYear d.year + (daysBeforeMonth d.year d.month + d.day : Nat)

/-- One date comes before another by year, then by month, then by day. -/
def FieldsBefore (a b : Date) : Prop :=
  a.year < b.year ∨ a.year = b.year ∧
    (a.month < b.month ∨ a.month = b.month ∧ a.day < b.day)

theorem day_in_year (d : Date) :
    0 < daysBeforeMonth d.year d.month + d.day ∧
      daysBeforeMonth d.year d.month + d.day ≤ daysInYear d.year := by
  have hday := d.day_mem
  have hmonth := d.month_mem
  have hyear := daysBeforeMonth_lt d.year (show d.month < 13 by omega)
  rw [daysBeforeMonth_thirteen] at hyear
  omega

theorem FieldsBefore.dayNumber_lt (h : a.FieldsBefore b) : a.dayNumber < b.dayNumber := by
  have ha := a.day_in_year
  have hb := b.day_in_year
  unfold dayNumber
  rcases h with hyear | ⟨hyear, hmonth | ⟨hmonth, hday⟩⟩
  · have hdays := daysBeforeYear_lt hyear
    omega
  · have hdays := daysBeforeMonth_lt a.year hmonth
    have hday := a.day_mem
    have hday' := b.day_mem
    rw [← hyear]
    omega
  · rw [← hyear, ← hmonth]
    omega

theorem fieldsBefore_trichotomy (a b : Date) :
    a.FieldsBefore b ∨ a = b ∨ b.FieldsBefore a := by
  have heq : a.year = b.year → a.month = b.month → a.day = b.day → a = b := by
    obtain ⟨ya, ma, da, _, _⟩ := a
    obtain ⟨yb, mb, db, _, _⟩ := b
    rintro rfl rfl rfl
    rfl
  unfold FieldsBefore
  by_cases hyear : a.year = b.year
  · by_cases hmonth : a.month = b.month
    · by_cases hday : a.day = b.day
      · exact .inr (.inl (heq hyear hmonth hday))
      · omega
    · omega
  · omega

theorem fieldsBefore_iff : a.FieldsBefore b ↔ a.dayNumber < b.dayNumber := by
  refine ⟨FieldsBefore.dayNumber_lt, ?_⟩
  intro h
  rcases a.fieldsBefore_trichotomy b with hlt | rfl | hgt
  · exact hlt
  · exact absurd h (Int.lt_irrefl _)
  · exact absurd hgt.dayNumber_lt (Int.lt_asymm h)

/-- Dates with one number are one date. -/
theorem eq_of_dayNumber_eq (h : a.dayNumber = b.dayNumber) : a = b := by
  rcases a.fieldsBefore_trichotomy b with hlt | heq | hgt
  · exact absurd h (Int.ne_of_lt hlt.dayNumber_lt)
  · exact heq
  · exact absurd h.symm (Int.ne_of_lt hgt.dayNumber_lt)

end Date

/-! ## Seconds -/

namespace TimeOfDay

variable {a b : TimeOfDay}

/-- The number of whole seconds of a time since midnight. -/
def secondOfDay (t : TimeOfDay) : Nat := (t.hour * 60 + t.minute) * 60 + t.second

/-- One time is earlier than another by second, then by nanosecond. -/
def Earlier (a b : TimeOfDay) : Prop :=
  a.secondOfDay < b.secondOfDay ∨
    a.secondOfDay = b.secondOfDay ∧ a.nanosecond < b.nanosecond

theorem earlier_iff : a.Earlier b ↔ a.hour < b.hour ∨ a.hour = b.hour ∧
    (a.minute < b.minute ∨ a.minute = b.minute ∧
      (a.second < b.second ∨ a.second = b.second ∧ a.nanosecond < b.nanosecond)) := by
  have haminute := a.minute_lt
  have hbminute := b.minute_lt
  have hasecond := a.second_lt
  have hbsecond := b.second_lt
  unfold Earlier secondOfDay
  omega

theorem earlier_trichotomy (a b : TimeOfDay) : a.Earlier b ∨ a = b ∨ b.Earlier a := by
  by_cases heq : a = b
  · exact .inr (.inl heq)
  · have hne : ¬ (a.hour = b.hour ∧ a.minute = b.minute ∧ a.second = b.second ∧
        a.nanosecond = b.nanosecond) := by
      rintro ⟨hhour, hminute, hsecond, hnano⟩
      cases a
      cases b
      cases hhour
      cases hminute
      cases hsecond
      cases hnano
      exact heq rfl
    rw [earlier_iff, earlier_iff]
    omega

end TimeOfDay

/-! ## Timestamps -/

namespace Timestamp

variable {a b : Timestamp}

/-- One timestamp is earlier than another by day, then by time of day. -/
def Earlier (a b : Timestamp) : Prop :=
  a.date.dayNumber < b.date.dayNumber ∨
    a.date.dayNumber = b.date.dayNumber ∧ a.time.Earlier b.time

theorem earlier_iff :
    a.Earlier b ↔ a.date.FieldsBefore b.date ∨ a.date = b.date ∧ a.time.Earlier b.time := by
  rw [Earlier, Date.fieldsBefore_iff]
  refine or_congr_right (and_congr_left fun _ => ⟨Date.eq_of_dayNumber_eq, ?_⟩)
  intro h
  rw [h]

theorem earlier_trichotomy (a b : Timestamp) : a.Earlier b ∨ a = b ∨ b.Earlier a := by
  rcases a.date.fieldsBefore_trichotomy b.date with hdate | hdate | hdate
  · exact .inl (earlier_iff.2 (.inl hdate))
  · rcases a.time.earlier_trichotomy b.time with htime | htime | htime
    · exact .inl (earlier_iff.2 (.inr ⟨hdate, htime⟩))
    · right
      left
      cases a
      cases b
      cases hdate
      cases htime
      rfl
    · exact .inr (.inr (earlier_iff.2 (.inr ⟨hdate.symm, htime⟩)))
  · exact .inr (.inr (earlier_iff.2 (.inl hdate)))

end Timestamp

end SqlBuilder
