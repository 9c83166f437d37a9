/-!
# Timestamps

A date of the proleptic Gregorian calendar and a time of day without zone. Both are valid by
construction. A leap second is the second that it extends, with a nanosecond part of one whole
second or more. A clock has one only after second 59, but a time can have one after any second.
-/

namespace SqlBuilder

/-- Whether a year has a 29th of February. -/
def isLeapYear (year : Int) : Bool :=
  year % 4 == 0 && (year % 100 != 0 || year % 400 == 0)

/-- The number of days of a month; a month that does not exist has none. -/
def daysInMonth (year : Int) (month : Nat) : Nat :=
  match month with
  | 1 | 3 | 5 | 7 | 8 | 10 | 12 => 31
  | 4 | 6 | 9 | 11 => 30
  | 2 => if isLeapYear year then 29 else 28
  | _ => 0

/-- A calendar date. -/
structure Date where
  year : Int
  month : Nat
  day : Nat
  year_mem : -262143 ≤ year ∧ year ≤ 262142
  day_mem : 1 ≤ day ∧ day ≤ daysInMonth year month
  deriving DecidableEq, Repr

/-- The date with these fields, if there is one. -/
def Date.of? (year : Int) (month day : Nat) : Option Date :=
  if h : (-262143 ≤ year ∧ year ≤ 262142) ∧ 1 ≤ day ∧ day ≤ daysInMonth year month then
    some ⟨year, month, day, h.1, h.2⟩
  else none

/-- One second in nanoseconds. -/
def nanosecondsPerSecond : Nat := 1000000000

/-- A time of day. -/
structure TimeOfDay where
  hour : Nat
  minute : Nat
  second : Nat
  nanosecond : Nat
  hour_lt : hour < 24
  minute_lt : minute < 60
  second_lt : second < 60
  nanosecond_lt : nanosecond < 2 * nanosecondsPerSecond
  deriving DecidableEq, Repr

/-- The time with these fields, if there is one. -/
def TimeOfDay.of? (hour minute second nanosecond : Nat) : Option TimeOfDay :=
  if h : hour < 24 ∧ minute < 60 ∧ second < 60 ∧ nanosecond < 2 * nanosecondsPerSecond then
    some ⟨hour, minute, second, nanosecond, h.1, h.2.1, h.2.2.1, h.2.2.2⟩
  else none

/-- A date and a time of day. -/
structure Timestamp where
  date : Date
  time : TimeOfDay
  deriving DecidableEq, Repr

/-- The timestamp with these fields, if there is one. -/
def Timestamp.of? (year : Int) (month day hour minute second nanosecond : Nat) :
    Option Timestamp := do
  let date ← Date.of? year month day
  let time ← TimeOfDay.of? hour minute second nanosecond
  pure ⟨date, time⟩

theorem Date.month_mem (d : Date) : 1 ≤ d.month ∧ d.month ≤ 12 := by
  have h := d.day_mem
  unfold daysInMonth at h
  split at h <;> omega

theorem Date.day_le (d : Date) : d.day ≤ 31 := by
  have h := d.day_mem
  unfold daysInMonth at h
  split at h <;> (try split at h) <;> omega

@[simp] theorem Date.of?_fields (d : Date) : Date.of? d.year d.month d.day = some d :=
  dif_pos ⟨d.year_mem, d.day_mem⟩

@[simp] theorem TimeOfDay.of?_fields (t : TimeOfDay) :
    TimeOfDay.of? t.hour t.minute t.second t.nanosecond = some t :=
  dif_pos ⟨t.hour_lt, t.minute_lt, t.second_lt, t.nanosecond_lt⟩

end SqlBuilder
